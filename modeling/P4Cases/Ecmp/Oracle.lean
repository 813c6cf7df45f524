import P4Cases.Ecmp.Affinity

/-! The router against the oracle of its end-to-end test: which frames come out,
where, and with which bytes. -/
namespace P4Cases.Ecmp
open Wire P4

inductive Host where
  | h1
  | h2
  | h3
  deriving DecidableEq, Repr

def hostMacs : Host → List Byte
  | .h1 => [0, 0, 0, 0, 0, 1]
  | .h2 => [0, 0, 0, 0, 0, 2]
  | .h3 => [0, 0, 0, 0, 0, 3]

/-- The four port bytes of the hash input, zero where the packet has none. -/
def hashPorts (frame : List Byte) : Py (List Byte) := do
  if beNat (slice frame 20 22) &&& 0x3FFF = 0 then
    let protocol ← byteAt frame 23
    if protocol = 6 ∨ protocol = 17 then
      let b ← byteAt frame 14
      let start := 14 + (b &&& 15) * 4
      return slice frame start (start + 4)
  return [0, 0, 0, 0]

def hashInput (frame : List Byte) : Py (List Byte) := do
  let ports ← hashPorts frame
  return slice frame 26 34 ++ slice frame 23 24 ++ ports

def expectedHost (frame : List Byte) : Py Host := do
  if (slice frame 30 34).length ≠ 4 then throw .addressValueError
  let destination := beNat (slice frame 30 34)
  if destination = 0x0a000001 then return .h1
  if destination = 0x0a000002 then return .h2
  if destination = 0x0a000003 then return .h3
  if destination >>> 8 = 0x0a0000 then
    let input ← hashInput frame
    return if crc16 input % 2 = 0 then .h2 else .h3
  throw (.runtimeError "packet has no configured IPv4 route")

def expectedFrame (sent : List Byte) (host : Option Host) : Py (List Byte) := do
  let host ← match host with
    | some host => pure host
    | none => expectedHost sent
  let result := setSlice sent 0 6 (hostMacs host)
  let result := setSlice result 6 12 (slice sent 0 6)
  let ttl ← byteAt result 22
  if ttl = 0 then throw (.valueError "byte must be in range(0, 256)")
  recalculateChecksum (setSlice result 22 23 (beBytes 1 (ttl - 1)))

def Host.port : Host → Port
  | .h1 => 1
  | .h2 => 2
  | .h3 => 3

def Host.mac : Host → BitVec 48
  | .h1 => 0x000000000001
  | .h2 => 0x000000000002
  | .h3 => 0x000000000003

theorem hostMacs_eq (host : Host) : hostMacs host = beBytes 6 host.mac.toNat := by
  cases host <;> decide

variable {packet opts payload : List Byte} {eth : Ethernet} {ip : Ipv4} {transport : Transport}

/-- The mask of the oracle selects the flag and the offset. -/
theorem fragmentMask_eq_zero (eth : Ethernet) (ip : Ipv4) (rest : List Byte) :
    beNat (slice (Header.encode eth ++ (Header.encode ip ++ rest)) 20 22) &&& 0x3FFF = 0 ↔
      Unfragmented ip := by
  have ho := ip.fragOffset.isLt
  have hw := fragmentWord_encode eth ip rest
  rw [fieldAt] at hw
  rw [hw, unfragmented_iff, Nat.and_two_pow_sub_one_eq_mod _ 14]
  omega

theorem hashPorts_eq (h : Accepted packet eth ip opts transport payload) :
    hashPorts packet =
      .ok (beBytes 2 transport.srcPort.toNat ++ beBytes 2 transport.dstPort.toNat) := by
  have h₁ := h.lengths.five_le_ihl
  have h₂ := h.lengths.header_le
  have h₃ := h.lengths.total_le
  have hb : byteAt packet 23 = .ok (Raw.protocol packet) := byteAt_eq (by omega)
  have hm : beNat (slice packet 20 22) &&& 0x3FFF = 0 ↔ ¬ Raw.Fragment packet := by
    rw [h.bytes, fragmentMask_eq_zero, fragment_encode, not_not]
  by_cases hp : HasPorts packet
  · have hv : byteAt packet 14 = .ok (fieldAt packet 14 15) := byteAt_eq (by omega)
    have hi : (fieldAt packet 14 15 &&& 15) * 4 = 4 * ip.ihl.toNat := by
      rw [h.bytes, headerLen_encode]
    obtain ⟨tail, ht⟩ := Transport.bytes_ports (h.hasPorts_iff.mp hp)
    have hs := slice_transport eth (transport.bytes ++ payload) h₁ h.options 0 4
    rw [← h.bytes, ht, Nat.add_zero] at hs
    simp only [hashPorts, hm, hp.1, not_false_eq_true, if_true, hb, hv, bind, pure, Except.bind,
      Except.pure, hp.2, hi, hs]
    simp [slice]
  · rw [h.no_ports hp]
    by_cases hf : Raw.Fragment packet
    · simp only [hashPorts, hm, hf, not_true_eq_false, if_false]
      rfl
    · have hq : ¬ (Raw.protocol packet = 6 ∨ Raw.protocol packet = 17) := fun hq => hp ⟨hf, hq⟩
      simp only [hashPorts, hm, hf, not_false_eq_true, if_true, hb, bind, Except.bind, hq, if_false]
      rfl

theorem hashInput_eq (h : Accepted packet eth ip opts transport payload) :
    hashInput packet = .ok (hashBytes ip transport) := by
  have hs : slice packet 26 34 ++ slice packet 23 24 =
      beBytes 4 ip.srcAddr.toNat ++
        (beBytes 4 ip.dstAddr.toNat ++ beBytes 1 ip.protocol.toNat) := by
    rw [h.bytes]
    simp [Ethernet.encode_eq, Ipv4.encode_eq]
  simp only [hashInput, hashPorts_eq h, bind, pure, Except.bind, Except.pure, hs, hashBytes,
    List.append_assoc]

theorem expectedFrame_eq (h : Accepted packet eth ip opts transport payload)
    (ht : 0 < ip.ttl.toNat) (host : Host) :
    expectedFrame packet (some host) = .ok (routed host.mac eth ip opts transport payload) := by
  have hm : setSlice (setSlice packet 0 6 (hostMacs host)) 6 12 (slice packet 0 6) =
      Header.encode { eth with dstAddr := host.mac, srcAddr := eth.dstAddr } ++
        (Header.encode ip ++ (opts ++ (transport.bytes ++ payload))) := by
    rw [h.bytes, hostMacs_eq, setMacs_encode]
  have hb : byteAt (Header.encode { eth with dstAddr := host.mac, srcAddr := eth.dstAddr } ++
      (Header.encode ip ++ (opts ++ (transport.bytes ++ payload)))) 22 = .ok ip.ttl.toNat := by
    rw [byteAt_eq (by simp; omega)]
    exact congrArg Except.ok (Raw.ttl_encode _ ip _)
  have hd : ip.ttl.toNat - 1 = (ip.ttl - 1).toNat := by
    have hle : 1 ≤ ip.ttl := BitVec.le_def.mpr ht
    rw [BitVec.toNat_sub_of_le hle]
    rfl
  have hr := recalculateChecksum_encode { eth with dstAddr := host.mac, srcAddr := eth.dstAddr }
    { ip with ttl := ip.ttl - 1 } (transport.bytes ++ payload) h.lengths.five_le_ihl
    h.options
  simp only [expectedFrame, hm, hb, bind, pure, Except.bind, Except.pure, if_neg ht.ne', hd,
    setTtl_encode, hr, routed]

def Host.address : Host → BitVec 32
  | .h1 => 0x0a000001
  | .h2 => 0x0a000002
  | .h3 => 0x0a000003

/-- The host behind a slot of the group. -/
def slotHost (slot : ℕ) : Host := if slot = 0 then .h2 else .h3

section Tables
variable (t : Table.Installed lpmEntries) (n : Table.Installed nhopEntries)

theorem lookup_direct (host : Host) :
    t.table.lookup host.address = some (.setNhop host.mac host.port) := by
  cases host
  · exact t.lookup_eq_some (e := .lpm Host.h1.address 32 (.setNhop Host.h1.mac 1))
      (by simp [lpmEntries, Host.address, Host.mac]) (by simp)
      (by simp [lpmEntries, Host.address, Host.mac])
  · exact t.lookup_eq_some (e := .lpm Host.h2.address 32 (.setNhop Host.h2.mac 2))
      (by simp [lpmEntries, Host.address, Host.mac]) (by simp)
      (by simp [lpmEntries, Host.address, Host.mac])
  · exact t.lookup_eq_some (e := .lpm Host.h3.address 32 (.setNhop Host.h3.mac 3))
      (by simp [lpmEntries, Host.address, Host.mac]) (by simp)
      (by simp [lpmEntries, Host.address, Host.mac])

theorem lookup_group {dst : BitVec 32} (hd : ∀ host : Host, dst ≠ host.address)
    (hs : dst >>> 8 = 0x0a0000#32) : t.table.lookup dst = some (.setEcmpSelect 0 2) := by
  refine t.lookup_eq_some (e := .lpm 0x0a000000 24 (.setEcmpSelect 0 2)) (by simp [lpmEntries])
    (by simpa using hs) ?_
  simp only [lpmEntries, List.forall_mem_cons, Entry.lpm_hits, decide_eq_true_eq]
  refine ⟨fun h => absurd h ?_, fun h => absurd h ?_, fun h => absurd h ?_, by simp⟩
  · simpa [Host.address] using hd .h1
  · simpa [Host.address] using hd .h2
  · simpa [Host.address] using hd .h3

theorem lookup_none {dst : BitVec 32} (hs : dst >>> 8 ≠ 0x0a0000#32) :
    t.table.lookup dst = none := by
  have hd : ∀ host : Host, dst ≠ host.address := by
    rintro host rfl
    cases host <;> exact hs (by decide)
  refine t.lookup_eq_none ?_
  simp only [lpmEntries, List.forall_mem_cons, Entry.lpm_hits, decide_eq_false_iff_not]
  refine ⟨?_, ?_, ?_, by simpa using hs, by simp⟩
  · simpa [Host.address] using hd .h1
  · simpa [Host.address] using hd .h2
  · simpa [Host.address] using hd .h3

theorem lookup_slot {slot : ℕ} (h : slot < 2) :
    n.table.lookup (BitVec.ofNat 14 slot) =
      some (.setNhop (slotHost slot).mac (slotHost slot).port) := by
  interval_cases slot
  · exact n.lookup_eq_some (e := .exact 0 (.setNhop Host.h2.mac 2))
      (by simp [nhopEntries, Host.mac]) (by simp) (by simp [nhopEntries, Host.mac])
  · exact n.lookup_eq_some (e := .exact 1 (.setNhop Host.h3.mac 3))
      (by simp [nhopEntries, Host.mac]) (by simp) (by simp [nhopEntries, Host.mac])

end Tables

theorem destination_eq (h : Accepted packet eth ip opts transport payload) :
    (slice packet 30 34).length = 4 ∧ beNat (slice packet 30 34) = ip.dstAddr.toNat := by
  have h₁ := h.lengths.five_le_ihl
  have h₂ := h.lengths.header_le
  have h₃ := h.lengths.total_le
  refine ⟨slice_length (by omega), ?_⟩
  have hd := Raw.dstAddr_encode eth ip (opts ++ (transport.bytes ++ payload))
  rwa [← h.bytes, Raw.dstAddr, fieldAt] at hd

theorem crc16_hashInput (ip : Ipv4) (transport : Transport) :
    crc16 (hashBytes ip transport) % 2 = memberOf 0 2 ip transport := by
  rw [crc16_eq, memberOf]
  simp

theorem expectedHost_direct (h : Accepted packet eth ip opts transport payload) {host : Host}
    (hd : ip.dstAddr = host.address) : expectedHost packet = .ok host := by
  obtain ⟨hl, hn⟩ := destination_eq h
  simp only [expectedHost, hl, hn, hd, ne_eq, not_true_eq_false, if_false]
  cases host <;> rfl

theorem expectedHost_group (h : Accepted packet eth ip opts transport payload)
    (hd : ∀ host : Host, ip.dstAddr ≠ host.address) (hs : ip.dstAddr >>> 8 = 0x0a0000#32) :
    expectedHost packet = .ok (slotHost (memberOf 0 2 ip transport)) := by
  obtain ⟨hl, hn⟩ := destination_eq h
  have hne : ∀ host : Host, ip.dstAddr.toNat ≠ host.address.toNat := fun host he =>
    hd host (BitVec.eq_of_toNat_eq he)
  have h₁ : ip.dstAddr.toNat ≠ 0x0a000001 := hne .h1
  have h₂ : ip.dstAddr.toNat ≠ 0x0a000002 := hne .h2
  have h₃ : ip.dstAddr.toNat ≠ 0x0a000003 := hne .h3
  have hs' : ip.dstAddr.toNat >>> 8 = 0x0a0000 := by
    rw [← BitVec.toNat_ushiftRight, hs]
    rfl
  simp only [expectedHost, hl, hn, hs', h₁, h₂, h₃, hashInput_eq h, bind, pure, Except.bind,
    Except.pure, ne_eq, not_true_eq_false, if_false, if_true, crc16_hashInput]
  rfl

section Forward
variable (t : Table.Installed lpmEntries) (n : Table.Installed nhopEntries)
  (qdepth : Port → BitVec 19) (port : Port)

theorem Host.port_ne_drop (host : Host) : host.port ≠ dropPort := by
  cases host <;> decide

/-- An accepted packet for the subnet goes to the host the oracle names. -/
theorem forward_subnet (h : Accepted packet eth ip opts transport payload)
    (hc : ip.hdrChecksum = ipv4Checksum ip opts) (ht : ¬ ip.ttl ≤ 1)
    (hs : ip.dstAddr >>> 8 = 0x0a0000#32) :
    ∃ host, expectedHost packet = .ok host ∧
      (router t.table n.table).forward qdepth port packet =
        [(host.port, routed host.mac eth ip opts transport payload)] := by
  by_cases hd : ∃ host : Host, ip.dstAddr = host.address
  · obtain ⟨host, hd⟩ := hd
    refine ⟨host, expectedHost_direct h hd, ?_⟩
    have hi := myIngress_passed t.table n.table port packet eth opts transport ht
    rw [applyLpm, hd, lookup_direct] at hi
    have hf := forward_setNhop t.table n.table qdepth port (h.accepts _ _ port hc)
      (parsedHeaders eth ip (optionsOf opts) transport).user hi
    rw [hf, if_neg host.port_ne_drop]
  · simp only [not_exists] at hd
    refine ⟨_, expectedHost_group h hd hs, ?_⟩
    have hm : memberOf 0 2 ip transport < 2 := by
      rw [← crc16_hashInput]
      omega
    rw [forward_ecmp t.table n.table qdepth port h hc ht (by decide) (lookup_group t hd hs),
      lookup_slot n hm]
    simp only [if_neg (Host.port_ne_drop _)]

/-- Everything else is dropped. -/
theorem forward_rejected (h : ∀ eth ip opts transport payload,
    Accepted packet eth ip opts transport payload → ip.hdrChecksum = ipv4Checksum ip opts →
      ¬ ip.ttl ≤ 1 → ip.dstAddr >>> 8 ≠ 0x0a0000#32) :
    (router t.table n.table).forward qdepth port packet = [] := by
  by_cases ha : ∃ hdr payload, (router t.table n.table).Accepts port packet hdr payload
  · obtain ⟨hdr, payload, ha⟩ := ha
    have hr := ha.runIngress (s := ())
    change _ = ((), myIngress t.table n.table _ _) at hr
    rcases accepts_cases _ _ port ha with hn | ⟨eth, ip, opts, transport, hacc, hc, rfl⟩
    · simp only [myIngress, hn] at hr
      exact V1Switch.forward_dropped (congrArg (·.2.2) hr)
    · by_cases ht : ip.ttl ≤ 1
      · rw [myIngress_expired _ _ _ _ _ ht] at hr
        exact V1Switch.forward_dropped (congrArg (·.2.2) hr)
      · have hs := h eth ip opts transport payload hacc hc ht
        rw [myIngress_passed _ _ _ _ _ _ _ ht, applyLpm, lookup_none t hs] at hr
        exact V1Switch.forward_dropped (congrArg (·.2.2) hr)
  · simp only [not_exists] at ha
    have hd : ((router t.table n.table).runIngress () port packet).2.2 =
        markToDrop ((router t.table n.table).parsedMetadata port packet) :=
      myIngress_guarded t.table n.table _ (V1Switch.rejected ha)
    exact V1Switch.forward_dropped hd

end Forward

/-- An accepted IPv4 packet with a correct checksum, time to live, and a destination
in 10.0.0.0/24. -/
def Routable (port : Port) (frame : List Byte) : Prop :=
  ∃ hdr payload ip, (router [] []).parse port frame = (.ok (), ⟨payload, hdr⟩) ∧
    hdr.ipv4 = some ip ∧
    ip.hdrChecksum = csum16 (Header.encode { ip with hdrChecksum := 0 } ++ hdr.options.getD []) ∧
    1 < ip.ttl.toNat ∧ ip.dstAddr >>> 8 = 0x0a0000#32

theorem routable_iff {port : Port} {frame : List Byte} : Routable port frame ↔
    ∃ eth ip opts transport payload, Accepted frame eth ip opts transport payload ∧
      ip.hdrChecksum = ipv4Checksum ip opts ∧ ¬ ip.ttl ≤ 1 ∧ ip.dstAddr >>> 8 = 0x0a0000#32 := by
  have hle : ∀ ip : Ipv4, 1 < ip.ttl.toNat ↔ ¬ ip.ttl ≤ 1 := by
    intro ip
    rw [BitVec.le_def]
    exact not_le.symm
  constructor
  · rintro ⟨hdr, payload, ip, hp, hip, hc, ht, hs⟩
    rcases parse_ok.mp hp with ⟨eth, -, -, rfl⟩ | ⟨eth, ip', opts, transport, h, rfl⟩
    · cases hip
    · obtain rfl := Option.some.inj hip
      rw [parsedHeaders, optionsOf_getD, ← ipv4Checksum_eq] at hc
      exact ⟨eth, ip', opts, transport, payload, h, hc, (hle _).mp ht, hs⟩
  · rintro ⟨eth, ip, opts, transport, payload, h, hc, ht, hs⟩
    refine ⟨_, payload, ip, parse_ok.mpr (Or.inr ⟨eth, ip, opts, transport, h, rfl⟩), rfl, ?_,
      (hle ip).mpr ht, hs⟩
    rw [parsedHeaders, optionsOf_getD, ← ipv4Checksum_eq, hc]

theorem expectedFrame_none {host : Host} (h : expectedHost packet = .ok host) :
    expectedFrame packet none = expectedFrame packet (some host) := by
  simp only [expectedFrame, h]
  rfl

/-- The header checksum of a forwarded frame verifies. -/
theorem routed_checksum (mac : BitVec 48) (eth : Ethernet) {ip : Ipv4} {opts : List Byte}
    (transport : Transport) (payload : List Byte) (hi : 5 ≤ ip.ihl.toNat)
    (ho : opts.length = 4 * (ip.ihl.toNat - 5)) :
    checksum (slice (routed mac eth ip opts transport payload) 14
      (14 + 4 * Raw.ihl (routed mac eth ip opts transport payload))) = 0 := by
  have hr : Raw.ihl (routed mac eth ip opts transport payload) = ip.ihl.toNat := Raw.ihl_encode ..
  have hs : slice (routed mac eth ip opts transport payload) 14 (14 + 4 * ip.ihl.toNat) = _ :=
    slice_ipv4 _ _ hi ho
  rw [hr, hs, checksum_eq, csum16_checksummed]
  rfl

/-- The router forwards what the oracle predicts and nothing else: one copy, on
the port of the expected host, equal to the expected frame. -/
theorem forward_eq_oracle (t : Table.Installed lpmEntries) (n : Table.Installed nhopEntries)
    (qdepth : Port → BitVec 19) (port : Port) (frame : List Byte) :
    ((router t.table n.table).forward qdepth port frame ≠ [] ↔ Routable port frame) ∧
    ∀ copy ∈ (router t.table n.table).forward qdepth port frame,
      (router t.table n.table).forward qdepth port frame = [copy] ∧
      ∃ host, expectedHost frame = .ok host ∧ copy.1 = host.port ∧
        expectedFrame frame none = .ok copy.2 ∧
        checksum (slice copy.2 14 (14 + 4 * Raw.ihl copy.2)) = 0 := by
  by_cases hroute : Routable port frame
  · obtain ⟨eth, ip, opts, transport, payload, h, hc, ht, hs⟩ := routable_iff.mp hroute
    obtain ⟨host, hh, hf⟩ := forward_subnet t n qdepth port h hc ht hs
    have hpos : 0 < ip.ttl.toNat := by
      rw [BitVec.le_def] at ht
      exact (Nat.zero_lt_one).trans (not_le.mp ht)
    refine ⟨by simp [hf, hroute], ?_⟩
    rw [hf]
    intro copy hcopy
    obtain rfl := List.mem_singleton.mp hcopy
    refine ⟨rfl, host, hh, rfl, ?_, ?_⟩
    · rw [expectedFrame_none hh, expectedFrame_eq h hpos]
    · exact routed_checksum _ _ _ _ h.lengths.five_le_ihl h.options
  · have hf := forward_rejected t n qdepth port fun eth ip opts transport payload h hc ht hs =>
      hroute (routable_iff.mpr ⟨eth, ip, opts, transport, payload, h, hc, ht, hs⟩)
    rw [hf]
    simp [hroute]

end P4Cases.Ecmp
