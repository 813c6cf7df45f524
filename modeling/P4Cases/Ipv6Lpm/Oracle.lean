import P4Cases.Ipv6Lpm.Switch
import P4Cases.Frames.View

/-! The router against the oracle of its end-to-end test: which frames come out,
where, and with which bytes. -/
namespace P4Cases.Ipv6Lpm
open Wire P4

inductive Host where
  | h1
  | h2
  | h3
  deriving DecidableEq, Repr

def hostMacs : Host → List Byte
  | .h1 => [0, 0, 0, 0, 0, 1]
  | .h2 => [0, 0, 0, 0, 0, 2]
  | .h3 => [0, 0, 0, 0, 0, 3]

def hostRoute : BitVec 128 := 0x20010db8000300000000000000000042

def subnets : List (Host × BitVec 128) :=
  [(.h1, 0x20010db8000100000000000000000000), (.h2, 0x20010db8000200000000000000000000),
   (.h3, 0x20010db8000300000000000000000000)]

/-- `address in subnet`, for a subnet of the given prefix length. -/
def inSubnet (prefixLen : ℕ) (address network : BitVec 128) : Bool :=
  decide (address >>> (128 - prefixLen) = network >>> (128 - prefixLen))

def expectedHost (destination : BitVec 128) : Option Host :=
  if destination = hostRoute then some .h2
  else (subnets.find? fun s => inSubnet 64 destination s.2).map Prod.fst

def expectedFrame (frame : List Byte) (receiver : Host) : Py (List Byte) := do
  if frame.length < 54 then
    throw (.valueError "forwarding requires an IPv6 header and a valid next hop")
  let hopLimit ← byteAt frame 21
  if hopLimit ≤ 1 then
    throw (.valueError "forwarding requires an IPv6 header and a valid next hop")
  let result := setSlice frame 0 6 (hostMacs receiver)
  let result := setSlice result 6 12 (slice frame 0 6)
  return setSlice result 21 22 (beBytes 1 (hopLimit - 1))

/-- The switch port a host is attached to. -/
def Host.port : Host → Port
  | .h1 => 1
  | .h2 => 2
  | .h3 => 3

/-- Bytes 38 to 54 of a frame as an IPv6 address. -/
def destination (frame : List Byte) : BitVec 128 := BitVec.ofNat 128 (fieldAt frame 38 54)

/-- A frame the router can forward, if it has a route. -/
structure Forwardable (frame : List Byte) : Prop where
  complete : 54 ≤ frame.length
  etherType : etherType frame = 0x86dd
  version : fieldAt frame 14 15 / 16 = 6
  payloadLen : fieldAt frame 18 20 ≤ frame.length - 54
  hopLimit : 1 < fieldAt frame 21 22

theorem expectedFrame_ok {frame : List Byte} (hl : 54 ≤ frame.length)
    (hh : 1 < fieldAt frame 21 22) (receiver : Host) :
    expectedFrame frame receiver =
      .ok (setSlice (setSlice (setSlice frame 0 6 (hostMacs receiver)) 6 12 (slice frame 0 6))
        21 22 (beBytes 1 (fieldAt frame 21 22 - 1))) := by
  rw [expectedFrame, if_neg (by omega), byteAt_eq (by omega)]
  simp only [bind, pure, Except.bind, Except.pure, if_neg (not_le.mpr hh)]

/-- The oracle keeps the length and every byte but the two MACs and the hop limit. -/
theorem expectedFrame_unchanged {frame out : List Byte} (hl : 54 ≤ frame.length)
    (hh : 1 < fieldAt frame 21 22) {receiver : Host}
    (h : expectedFrame frame receiver = .ok out) :
    out.length = frame.length ∧ ∀ i, 12 ≤ i → i ≠ 21 → out[i]? = frame[i]? := by
  rw [expectedFrame_ok hl hh] at h
  obtain rfl := Except.ok.inj h
  have hm : (hostMacs receiver).length = 6 - 0 := by cases receiver <;> rfl
  have h₁ := setSlice_length (Nat.zero_le 6) (by omega : 6 ≤ frame.length) hm
  have hs : (slice frame 0 6).length = 12 - 6 := slice_length (by omega)
  have h₂ : (setSlice (setSlice frame 0 6 (hostMacs receiver)) 6 12 (slice frame 0 6)).length =
      frame.length := by rw [setSlice_length (by omega) (by omega) hs, h₁]
  have hb : (beBytes 1 (fieldAt frame 21 22 - 1)).length = 22 - 21 := beBytes_length _ _
  refine ⟨?_, fun i hi hne => ?_⟩
  · rw [setSlice_length (by omega) (by omega) hb, h₂]
  · rw [setSlice_getElem? (by omega) (by omega) hb (by omega),
      setSlice_getElem? (by omega) (by omega) hs (by omega),
      setSlice_getElem? (by omega) (by omega) hm (by omega)]

theorem expectedFrame_encode (ethernet : Ethernet) {ipv6 : Ipv6} (payload : List Byte)
    (hh : 1 < ipv6.hopLimit.toNat) (receiver : Host) (mac : BitVec 48)
    (hm : hostMacs receiver = beBytes 6 mac.toNat) :
    expectedFrame (Header.encode ethernet ++ (Header.encode ipv6 ++ payload)) receiver =
      .ok (Header.encode { ethernet with dstAddr := mac, srcAddr := ethernet.dstAddr } ++
        (Header.encode { ipv6 with hopLimit := ipv6.hopLimit - 1 } ++ payload)) := by
  have hf : fieldAt (Header.encode ethernet ++ (Header.encode ipv6 ++ payload)) 21 22 =
      ipv6.hopLimit.toNat := by
    rw [fieldAt_encode_skip _ _ (by simp)]
    simp [fieldAt, Ipv6.encode_eq]
  have hs : (ipv6.hopLimit - 1).toNat = ipv6.hopLimit.toNat - 1 := by
    rw [BitVec.toNat_sub_of_le (BitVec.le_def.mpr (by simpa using hh.le))]
    rfl
  rw [expectedFrame_ok (by simp; omega) (hf ▸ hh), hf]
  simp only [Ethernet.encode_eq, Ipv6.encode_eq, List.append_assoc, hm, hs]
  simp [slice]

def Host.mac : Host → BitVec 48
  | .h1 => 0x000000000001
  | .h2 => 0x000000000002
  | .h3 => 0x000000000003

theorem hostMacs_eq (host : Host) : hostMacs host = beBytes 6 host.mac.toNat := by
  cases host <;> decide

/-- Off the host route, the /64 route of the destination's subnet decides. -/
theorem lookup_subnet (t : Table.Installed lpmEntries) {dst : BitVec 128} (hr : dst ≠ hostRoute)
    {r : Route} (hm : r ∈ routes) (hl : r.prefixLen = 64)
    (hs : dst >>> 64 = r.network >>> 64) :
    t.table.lookup dst = some (.ipv6Forward r.dstMac r.port) := by
  refine t.lookup_eq_some (List.mem_map_of_mem hm) (by simpa [Route.entry, hl] using hs) ?_
  intro d hd hk
  obtain ⟨r', hm', rfl⟩ := List.mem_map.mp hd
  left
  simp only [Route.entry, Entry.lpm_hits, decide_eq_true_eq] at hk
  fin_cases hm <;> fin_cases hm' <;> simp_all [hostRoute]

/-- The longest matching route leads to the host the oracle names. -/
theorem lookup_lpmEntries (t : Table.Installed lpmEntries) (dst : BitVec 128) :
    t.table.lookup dst =
      (expectedHost dst).map fun host => Action.ipv6Forward host.mac host.port := by
  by_cases hr : dst = hostRoute
  · have he : (routes[3]).entry ∈ lpmEntries := List.mem_map_of_mem (List.getElem_mem _)
    rw [expectedHost, if_pos hr]
    refine t.lookup_eq_some he (by simp [Route.entry, routes, hr, hostRoute]) ?_
    simp [lpmEntries, routes, Route.entry]
  rw [expectedHost, if_neg hr]
  cases hf : List.find? (fun s => inSubnet 64 dst s.2) subnets with
  | none =>
    have hn := List.find?_eq_none.mp hf
    refine t.lookup_eq_none ?_
    simpa [lpmEntries, routes, Route.entry, subnets, inSubnet, hostRoute, and_assoc]
      using And.intro hn hr
  | some s =>
    have hs := List.find?_some hf
    have hm := List.mem_of_find?_eq_some hf
    simp only [inSubnet, decide_eq_true_eq] at hs
    simp only [subnets, List.mem_cons, List.not_mem_nil, or_false] at hm
    rcases hm with rfl | rfl | rfl
    · exact lookup_subnet t (r := routes[0]) hr (by simp) rfl hs
    · exact lookup_subnet t (r := routes[1]) hr (by simp) rfl hs
    · exact lookup_subnet t (r := routes[2]) hr (by simp) rfl hs

variable (t : Table.Installed lpmEntries) (qdepth : Port → BitVec 19) (port : Port)
  {frame payload : List Byte} {ethernet : Ethernet} {ipv6 : Ipv6}

theorem runIngress_error {e : ParserError ErrorCode} {c : Cursor Headers}
    (h : (router t.table).parse port frame = (.error e, c)) :
    ((router t.table).runIngress () port frame).2.2 =
      markToDrop ((router t.table).parsedMetadata port frame) := by
  change (myIngress t.table _ _).2 = _
  rw [myIngress, V1Switch.parserError_of_parse h]

/-- What is not a well-formed IPv6 frame goes nowhere. -/
theorem forward_rejected (h : ∀ ethernet ipv6 payload,
    frame = Header.encode ethernet ++ (Header.encode ipv6 ++ payload) →
      ¬ WellFormed ethernet ipv6 payload) :
    (router t.table).forward qdepth port frame = [] := by
  rcases hp : (router t.table).parse port frame with ⟨e | _, payload, hdr⟩
  · exact V1Switch.forward_dropped (runIngress_error t port hp)
  · have ha : (router t.table).Accepts port frame hdr payload := ⟨hp, rfl⟩
    rcases parse_ok.mp hp with ⟨ethernet, -, -, rfl⟩ | ⟨ethernet, ipv6, hf, hw, -⟩
    · exact V1Switch.forward_dropped (congrArg (·.2.2) ha.runIngress)
    · exact absurd hw (h ethernet ipv6 payload hf)

/-- A well-formed frame leaves through the port of the host the oracle names. -/
theorem forward_wellFormed (hf : frame = Header.encode ethernet ++ (Header.encode ipv6 ++ payload))
    (hw : WellFormed ethernet ipv6 payload) :
    (router t.table).forward qdepth port frame =
      if ipv6.hopLimit ≤ 1 then []
      else ((expectedHost ipv6.dstAddr).map fun host => (host.port,
        Header.encode { ethernet with dstAddr := host.mac, srcAddr := ethernet.dstAddr } ++
          (Header.encode { ipv6 with hopLimit := ipv6.hopLimit - 1 } ++ payload))).toList := by
  have ha : (router t.table).Accepts port frame _ payload :=
    ⟨parse_ok.mpr (Or.inr ⟨ethernet, ipv6, hf, hw, rfl⟩), rfl⟩
  have hi := ha.runIngress (s := ())
  change _ = ((), if ipv6.hopLimit ≤ 1 then (_, markToDrop _)
    else applyAction ((t.table.lookup ipv6.dstAddr).getD .drop) _ _) at hi
  rw [lookup_lpmEntries] at hi
  split_ifs with hh
  · rw [if_pos hh] at hi
    exact V1Switch.forward_dropped (congrArg (·.2.2) hi)
  · rw [if_neg hh] at hi
    cases he : expectedHost ipv6.dstAddr with
    | none =>
      rw [he] at hi
      exact V1Switch.forward_dropped (congrArg (·.2.2) hi)
    | some host =>
      rw [he] at hi
      have hp : host.port ≠ dropPort := by cases host <;> decide
      rw [ha.forward_unicast qdepth hi (fun _ _ => rfl) rfl hp]
      simp [router, myDeparser]

section
variable (ethernet : Ethernet) (ipv6 : Ipv6) (rest : List Byte)

theorem fieldAt_version :
    fieldAt (Header.encode ethernet ++ (Header.encode ipv6 ++ rest)) 14 15 / 16 =
      ipv6.version.toNat := by
  have hv := ipv6.version.isLt
  have ht := ipv6.trafficClass.isLt
  have hl := ipv6.flowLabel.isLt
  rw [fieldAt_encode_skip _ _ (by simp), Ipv6.encode_eq, List.append_assoc,
    beBytes_add 1 3, List.append_assoc]
  simp [fieldAt, beNat_beBytes]
  omega

theorem fieldAt_payloadLen :
    fieldAt (Header.encode ethernet ++ (Header.encode ipv6 ++ rest)) 18 20 =
      ipv6.payloadLen.toNat := by
  rw [fieldAt_encode_skip _ _ (by simp)]
  simp [fieldAt, Ipv6.encode_eq]

theorem fieldAt_hopLimit :
    fieldAt (Header.encode ethernet ++ (Header.encode ipv6 ++ rest)) 21 22 =
      ipv6.hopLimit.toNat := by
  rw [fieldAt_encode_skip _ _ (by simp)]
  simp [fieldAt, Ipv6.encode_eq]

theorem destination_encode :
    destination (Header.encode ethernet ++ (Header.encode ipv6 ++ rest)) = ipv6.dstAddr := by
  rw [destination, fieldAt_encode_skip _ _ (by simp)]
  simp [fieldAt, Ipv6.encode_eq]

theorem forwardable_encode :
    Forwardable (Header.encode ethernet ++ (Header.encode ipv6 ++ rest)) ↔
      WellFormed ethernet ipv6 rest ∧ 1 < ipv6.hopLimit.toNat := by
  have hlen : (Header.encode ethernet ++ (Header.encode ipv6 ++ rest)).length =
      54 + rest.length := by
    simp
    omega
  have ht : ethernet.etherType.toNat = 0x86dd ↔ ethernet.etherType = typeIpv6 :=
    BitVec.toNat_inj (y := typeIpv6)
  have hv : ipv6.version.toNat = 6 ↔ ipv6.version = 6 := BitVec.toNat_inj (y := (6 : BitVec 4))
  constructor
  · rintro ⟨-, h₁, h₂, h₃, h₄⟩
    rw [etherType_encode, ht] at h₁
    rw [fieldAt_version, hv] at h₂
    rw [fieldAt_payloadLen, hlen, Nat.add_sub_cancel_left] at h₃
    exact ⟨⟨h₁, h₂, h₃⟩, by rwa [fieldAt_hopLimit] at h₄⟩
  · rintro ⟨⟨h₁, h₂, h₃⟩, h₄⟩
    refine ⟨by omega, ?_, ?_, ?_, by rwa [fieldAt_hopLimit]⟩
    · rw [etherType_encode, ht, h₁]
    · rw [fieldAt_version, hv, h₂]
    · rw [fieldAt_payloadLen, hlen, Nat.add_sub_cancel_left]
      exact h₃

end

theorem exists_headers (h : 54 ≤ frame.length) : ∃ (ethernet : Ethernet) (ipv6 : Ipv6) (rest : _),
    frame = Header.encode ethernet ++ (Header.encode ipv6 ++ rest) := by
  obtain ⟨ethernet, tail, rfl⟩ : ∃ (e : Ethernet) (tail : _), frame = Header.encode e ++ tail :=
    Header.exists_encode_append (le_trans (by simp) h)
  obtain ⟨ipv6, rest, rfl⟩ : ∃ (i : Ipv6) (rest : _), tail = Header.encode i ++ rest :=
    Header.exists_encode_append (by simp at h ⊢; omega)
  exact ⟨ethernet, ipv6, rest, rfl⟩

/-- The router forwards what the oracle predicts and nothing else: one copy, on
the port of the expected host, equal to the expected frame. Only the two MACs and
the hop limit differ from the frame received. -/
theorem forward_eq_expected (t : Table.Installed lpmEntries) (qdepth : Port → BitVec 19)
    (port : Port) (frame : List Byte) :
    ((router t.table).forward qdepth port frame ≠ [] ↔
      Forwardable frame ∧ expectedHost (destination frame) ≠ none) ∧
    ∀ host, Forwardable frame → expectedHost (destination frame) = some host →
      ∃ out, expectedFrame frame host = .ok out ∧
        (router t.table).forward qdepth port frame = [(host.port, out)] ∧
        out.length = frame.length ∧ ∀ i, 12 ≤ i → i ≠ 21 → out[i]? = frame[i]? := by
  by_cases hd : Forwardable frame
  · obtain ⟨ethernet, ipv6, rest, rfl⟩ := exists_headers hd.complete
    obtain ⟨hw, hh⟩ := (forwardable_encode ethernet ipv6 rest).mp hd
    have hle : ¬ ipv6.hopLimit ≤ 1 := by
      rw [BitVec.le_def]
      simpa using hh
    have hf := forward_wellFormed t qdepth port rfl hw
    rw [if_neg hle] at hf
    rw [destination_encode]
    refine ⟨?_, fun host _ he => ?_⟩
    · rw [hf]
      cases expectedHost ipv6.dstAddr <;> simp [hd]
    · rw [he] at hf
      have ho := expectedFrame_encode ethernet rest hh host host.mac (hostMacs_eq host)
      exact ⟨_, ho, hf, expectedFrame_unchanged hd.complete hd.hopLimit ho⟩
  · refine ⟨?_, fun host h => absurd h hd⟩
    simp only [hd, false_and, iff_false, not_not]
    by_cases hw : ∃ ethernet ipv6 payload,
        frame = Header.encode ethernet ++ (Header.encode ipv6 ++ payload) ∧
          WellFormed ethernet ipv6 payload
    · obtain ⟨ethernet, ipv6, payload, rfl, hw⟩ := hw
      have hle : ipv6.hopLimit ≤ 1 := by
        rw [forwardable_encode, not_and] at hd
        simpa [BitVec.le_def] using hd hw
      rw [forward_wellFormed t qdepth port rfl hw, if_pos hle]
    · exact forward_rejected t qdepth port fun ethernet ipv6 payload hf hw' =>
        hw ⟨ethernet, ipv6, payload, hf, hw'⟩

end P4Cases.Ipv6Lpm
