import P4Cases.Frames.ChecksumLaws

/-! Test frames: what the `make_frame` functions of the `packets.py` modules share, and
what every frame they return is made of. -/
namespace P4Cases
open Wire P4

/-- `struct.pack` of unsigned big-endian integers of these sizes. -/
def packInts : List (ℕ × ℤ) → Py (List Byte)
  | [] => .ok []
  | (size, n) :: fields => do
      raiseIf (¬ (0 ≤ n ∧ n < 256 ^ size)) .structError
      return beBytes size n.toNat ++ (← packInts fields)

theorem packInts_ok {fields : List (ℕ × ℤ)} {bytes : List Byte} : packInts fields = .ok bytes ↔
    (∀ f ∈ fields, 0 ≤ f.2 ∧ f.2 < 256 ^ f.1) ∧
      bytes = fields.flatMap fun f => beBytes f.1 f.2.toNat := by
  induction fields generalizing bytes with
  | nil => simp [packInts, eq_comm]
  | cons f fields ih =>
    obtain ⟨size, n⟩ := f
    rw [packInts, raiseIf_bind_ok, not_not, List.forall_mem_cons, List.flatMap_cons]
    constructor
    · intro h
      obtain ⟨hn, h⟩ := h
      obtain ⟨rest, hrest, h⟩ := py_bind_ok.mp h
      obtain ⟨hall, rfl⟩ := ih.mp hrest
      exact ⟨⟨hn, hall⟩, (Except.ok.inj h).symm⟩
    · intro h
      obtain ⟨⟨hn, hall⟩, rfl⟩ := h
      exact ⟨hn, py_bind_ok.mpr ⟨_, ih.mpr ⟨hall, rfl⟩, rfl⟩⟩

theorem packInts_single {size : ℕ} {n : ℤ} {bytes : List Byte} :
    packInts [(size, n)] = .ok bytes ↔ (0 ≤ n ∧ n < 256 ^ size) ∧ bytes = beBytes size n.toNat := by
  simp [packInts_ok]

/-- The transport header of a generated packet: UDP, TCP or none. -/
def transportHeader (protocol sport dport seq : ℤ) (tcpOptions payload : List Byte) :
    Py (List Byte) :=
  if protocol = 17 then packInts [(2, sport), (2, dport), (2, 8 + payload.length), (2, 0)]
  else if protocol = 6 then do
    let header ← packInts [(2, sport), (2, dport), (4, seq), (4, 0),
      (1, (5 + tcpOptions.length / 4 : ℕ) <<< 4), (1, 0x18), (2, 4096), (2, 0), (2, 0)]
    return header ++ tcpOptions
  else return []

/-- Where the checksum of a segment stands. -/
def checksumOffset (protocol : ℤ) : ℕ := if protocol = 6 then 16 else 6

/-- The checksum over the pseudo-header and the segment, in its place. -/
def storeChecksum (protocol : ℤ) (source target transport : List Byte) : Py (List Byte) := do
  let pseudo := source ++ target ++ (← packInts [(1, 0), (1, protocol), (2, transport.length)])
  let offset := checksumOffset protocol
  let value := checksum (pseudo ++ transport)
  let value := if protocol = 17 ∧ value = 0 then 0xFFFF else value
  return transport.take offset ++ (← packInts [(2, value)]) ++ transport.drop (offset + 2)

/-- A transport checksum is generated. -/
def Summed (protocol : ℤ) (udpChecksum : Bool) : Prop :=
  protocol = 6 ∨ protocol = 17 ∧ udpChecksum = true

instance (protocol : ℤ) (udpChecksum : Bool) : Decidable (Summed protocol udpChecksum) :=
  inferInstanceAs (Decidable (_ ∨ _))

def buildTransport (protocol sport dport seq : ℤ) (tcpOptions payload source target : List Byte)
    (udpChecksum : Bool) : Py (List Byte) := do
  let transport := (← transportHeader protocol sport dport seq tcpOptions payload) ++ payload
  if Summed protocol udpChecksum then storeChecksum protocol source target transport
  else return transport

/-- The IPv4 header with its options, its checksum still zero. -/
def ipv4Header (identification flags ttl protocol : ℤ) (source target options : List Byte)
    (transportLen : ℕ) : Py (List Byte) := do
  let fixed ← packInts [(1, 0x45 + (options.length / 4 : ℕ)), (1, 0x2A),
    (2, 20 + options.length + transportLen), (2, identification), (2, flags), (1, ttl),
    (1, protocol), (2, 0)]
  return fixed ++ source ++ target ++ options

/-! The transport part. -/

/-- The lengths of a transport header say what follows. -/
structure TransportOk (protocol : ℤ) (tcpOptions header payload : List Byte) : Prop where
  udp : protocol = 17 → header.length = 8 ∧ fieldAt header 4 6 = 8 + payload.length
  tcp : protocol = 6 → header.length = 20 + tcpOptions.length ∧
    fieldAt header 12 13 = header.length / 4 * 16
  other : protocol ≠ 17 → protocol ≠ 6 → header = []

/-- The segment sums to zero with its pseudo-header, and a UDP checksum is not left out. -/
structure SumOk (protocol : ℤ) (source target header payload : List Byte) : Prop where
  zero : checksum (source ++ target ++ (beBytes 1 0 ++ (beBytes 1 protocol.toNat ++
    beBytes 2 (header.length + payload.length))) ++ (header ++ payload)) = 0
  present : protocol = 17 → fieldAt header 6 8 ≠ 0

variable {protocol sport dport seq : ℤ} {tcpOptions payload source target header : List Byte}

theorem transportHeader_udp
    (h : transportHeader 17 sport dport seq tcpOptions payload = .ok header) :
    ∃ front, header = front ++ [0, 0] ∧ front.length = 6 ∧
      fieldAt front 4 6 = 8 + payload.length := by
  rw [transportHeader, if_pos rfl] at h
  obtain ⟨hall, rfl⟩ := packInts_ok.mp h
  have hlen : (8 + payload.length : ℤ).toNat = 8 + payload.length := by omega
  have hlt := (hall (2, 8 + payload.length) (by simp)).2
  have hnum : 8 + payload.length < 256 ^ 2 := by
    dsimp only at hlt
    omega
  refine ⟨beBytes 2 sport.toNat ++ (beBytes 2 dport.toNat ++ beBytes 2 (8 + payload.length)),
    ?_, by simp, ?_⟩
  · simp only [List.flatMap_cons, List.flatMap_nil, hlen, List.append_assoc]
    rfl
  · simp [fieldAt, beNat_beBytes_of_lt hnum]

theorem transportHeader_tcp (hopt : tcpOptions.length % 4 = 0)
    (h : transportHeader 6 sport dport seq tcpOptions payload = .ok header) :
    ∃ front, header = front ++ ([0, 0] ++ (beBytes 2 0 ++ tcpOptions)) ∧ front.length = 16 ∧
      fieldAt front 12 13 = (20 + tcpOptions.length) / 4 * 16 := by
  rw [transportHeader, if_neg (by decide), if_pos rfl] at h
  obtain ⟨fixed, hfixed, h⟩ := py_bind_ok.mp h
  obtain ⟨hall, rfl⟩ := packInts_ok.mp hfixed
  obtain rfl := Except.ok.inj h
  have hlt := (hall (1, ((5 + tcpOptions.length / 4) <<< 4 : ℕ)) (by simp)).2
  have hoff : ((5 + tcpOptions.length / 4) <<< 4 : ℕ) = (20 + tcpOptions.length) / 4 * 16 := by
    rw [Nat.shiftLeft_eq]
    omega
  dsimp only at hlt
  rw [hoff] at hlt
  have hnum : (20 + tcpOptions.length) / 4 * 16 < 256 ^ 1 := by omega
  refine ⟨beBytes 2 sport.toNat ++ (beBytes 2 dport.toNat ++ (beBytes 4 seq.toNat ++
    (beBytes 4 0 ++ (beBytes 1 ((20 + tcpOptions.length) / 4 * 16) ++ (beBytes 1 0x18 ++
      beBytes 2 4096))))), ?_, by simp, ?_⟩
  · simp only [List.flatMap_cons, List.flatMap_nil, hoff, List.append_assoc]
    rfl
  · simp [fieldAt, beNat_beBytes_of_lt hnum]

/-- Where the checksum of a generated header goes, and that its lengths are right whatever
is put there. -/
theorem transportHeader_ok (hopt : tcpOptions.length % 4 = 0)
    (hp : protocol = 17 ∨ protocol = 6)
    (h : transportHeader protocol sport dport seq tcpOptions payload = .ok header) :
    ∃ front back, header = front ++ ([0, 0] ++ back) ∧ front.length = checksumOffset protocol ∧
      ∀ sum : List Byte, sum.length = 2 →
        TransportOk protocol tcpOptions (front ++ (sum ++ back)) payload := by
  rcases hp with rfl | rfl
  · obtain ⟨front, rfl, hl, hf⟩ := transportHeader_udp h
    refine ⟨front, [], by simp, hl, fun sum hs => ⟨fun _ => ⟨by simp [hl, hs], ?_⟩,
      fun he => absurd he (by decide), fun he => absurd rfl he⟩⟩
    rw [← hf, fieldAt, fieldAt, slice_append_left _ (by omega)]
  · obtain ⟨front, rfl, hl, hf⟩ := transportHeader_tcp hopt h
    refine ⟨front, _, rfl, hl, fun sum hs => ⟨fun he => absurd he (by decide), fun _ => ?_,
      fun _ he => absurd rfl he⟩⟩
    have hlen :
        (front ++ (sum ++ (beBytes 2 0 ++ tcpOptions))).length = 20 + tcpOptions.length := by
      simp [hl, hs]
      omega
    refine ⟨hlen, ?_⟩
    rw [hlen, ← hf, fieldAt, fieldAt, slice_append_left _ (by omega)]

theorem storeChecksum_ok {front back transport : List Byte}
    (hs : source.length = 4) (ht : target.length = 4)
    (hf : front.length = checksumOffset protocol)
    (h : storeChecksum protocol source target (front ++ ([0, 0] ++ back)) = .ok transport) :
    ∃ sum : ℕ, transport = front ++ (beBytes 2 sum ++ back) ∧ (protocol = 17 → sum ≠ 0) ∧
      sum < 65536 ∧
      checksum (source ++ target ++ (beBytes 1 0 ++ (beBytes 1 protocol.toNat ++
        beBytes 2 transport.length)) ++ transport) = 0 := by
  obtain ⟨tail, htail, h⟩ := py_bind_ok.mp h
  obtain ⟨-, rfl⟩ := packInts_ok.mp htail
  obtain ⟨word, hword, h⟩ := py_bind_ok.mp h
  obtain ⟨hall, rfl⟩ := packInts_ok.mp hword
  obtain rfl := Except.ok.inj h
  have htake : (front ++ ([0, 0] ++ back)).take (checksumOffset protocol) = front := by
    rw [← hf, List.take_left]
  have hdrop : (front ++ ([0, 0] ++ back)).drop (checksumOffset protocol + 2) = back := by
    rw [← hf, List.drop_append]
    simp
  have hlen : (front ++ ([0, 0] ++ back)).length = front.length + (2 + back.length) := by
    rw [List.length_append, List.length_append]
    rfl
  have hpseudo : [((1 : ℕ), (0 : ℤ)), (1, protocol),
      (2, ((front ++ ([0, 0] ++ back)).length : ℤ))].flatMap (fun f => beBytes f.1 f.2.toNat) =
      beBytes 1 0 ++
        (beBytes 1 protocol.toNat ++ beBytes 2 (front.length + (2 + back.length))) := by
    simp only [List.flatMap_cons, List.flatMap_nil, List.append_nil, Int.toNat_natCast, hlen]
    rfl
  rw [hpseudo] at hall ⊢
  generalize hps : source ++ target ++ (beBytes 1 0 ++ (beBytes 1 protocol.toNat ++
    beBytes 2 (front.length + (2 + back.length)))) = pseudo at hall ⊢
  have heven : (pseudo ++ front).length % 2 = 0 := by
    rw [← hps]
    simp only [List.length_append, beBytes_length, hs, ht, hf, checksumOffset]
    split_ifs <;> rfl
  generalize hsum : checksum (pseudo ++ (front ++ ([0, 0] ++ back))) = sum at hall ⊢
  obtain ⟨hz, hmax⟩ := checksum_verifies (c := sum) back heven (by rw [List.append_assoc, hsum])
  rw [List.append_assoc] at hz hmax
  generalize hvalue : (if protocol = 17 ∧ sum = 0 then 0xFFFF else sum) = value at hall ⊢
  have hlt := (hall (2, (value : ℤ)) (by simp)).2
  refine ⟨value, ?_, ?_, ?_, ?_⟩
  · rw [htake, hdrop, List.append_assoc]
    simp
  · rintro rfl h0
    rw [h0] at hvalue
    split_ifs at hvalue with hv
    exact hv ⟨rfl, hvalue⟩
  · dsimp only at hlt
    omega
  · simp only [htake, hdrop, List.flatMap_cons, List.flatMap_nil, List.append_nil,
      Int.toNat_natCast, List.append_assoc, List.length_append, beBytes_length, hps]
    rw [← hvalue]
    split_ifs with hv
    · exact hmax hv.2
    · exact hz

/-- What `buildTransport` returns: a header for the payload, with a valid sum if one is
generated. -/
theorem buildTransport_ok {transport : List Byte} {udpChecksum : Bool}
    (hopt : tcpOptions.length % 4 = 0) (hs : source.length = 4) (ht : target.length = 4)
    (h : buildTransport protocol sport dport seq tcpOptions payload source target udpChecksum =
      .ok transport) :
    ∃ header, transport = header ++ payload ∧ TransportOk protocol tcpOptions header payload ∧
      (Summed protocol udpChecksum → SumOk protocol source target header payload) := by
  obtain ⟨header, hheader, h⟩ := py_bind_ok.mp h
  by_cases hp : protocol = 17 ∨ protocol = 6
  · obtain ⟨front, back, rfl, hf, hok⟩ := transportHeader_ok hopt hp hheader
    split_ifs at h with hsum
    · rw [List.append_assoc, List.append_assoc] at h
      obtain ⟨sum, rfl, hne, hlt, hz⟩ := storeChecksum_ok hs ht hf h
      refine ⟨front ++ (beBytes 2 sum ++ back), by simp only [List.append_assoc],
        hok _ (beBytes_length 2 sum), fun _ => ⟨?_, ?_⟩⟩
      · rw [← List.length_append]
        simpa only [List.append_assoc] using hz
      · rintro rfl
        have hfront : front.length = 6 := hf
        have hword : fieldAt (front ++ (beBytes 2 sum ++ back)) 6 8 = sum := by
          rw [fieldAt, slice_append_right _ _ hfront.le, hfront, slice_append_left _ (by simp)]
          simp [beNat_beBytes_of_lt (k := 2) hlt]
        rw [hword]
        exact hne rfl
    · obtain rfl := Except.ok.inj h
      exact ⟨_, rfl, hok [0, 0] rfl, fun hsummed => absurd hsummed hsum⟩
  · have h17 : protocol ≠ 17 := fun he => hp (Or.inl he)
    have h6 : protocol ≠ 6 := fun he => hp (Or.inr he)
    have hno : ¬ Summed protocol udpChecksum := by
      rintro (he | ⟨he, -⟩)
      · exact h6 he
      · exact h17 he
    rw [transportHeader, if_neg h17, if_neg h6] at hheader
    obtain rfl := Except.ok.inj hheader
    rw [if_neg hno] at h
    obtain rfl := Except.ok.inj h
    exact ⟨[], rfl, ⟨fun he => absurd he h17, fun he => absurd he h6, fun _ _ => rfl⟩,
      fun hsummed => absurd hsummed hno⟩

/-- A segment starts with its ports. -/
theorem buildTransport_ports {transport : List Byte} {udpChecksum : Bool}
    (hp : protocol = 17 ∨ protocol = 6)
    (h : buildTransport protocol sport dport seq tcpOptions payload source target udpChecksum =
      .ok transport) :
    transport.take 4 = beBytes 2 sport.toNat ++ beBytes 2 dport.toNat := by
  obtain ⟨header, hheader, h⟩ := py_bind_ok.mp h
  have hports : ∃ rest, header = beBytes 2 sport.toNat ++ (beBytes 2 dport.toNat ++ rest) ∧
      2 ≤ rest.length := by
    rcases hp with rfl | rfl
    · rw [transportHeader, if_pos rfl] at hheader
      obtain ⟨-, rfl⟩ := packInts_ok.mp hheader
      exact ⟨_, rfl, by simp⟩
    · rw [transportHeader, if_neg (by decide), if_pos rfl] at hheader
      obtain ⟨fixed, hfixed, hheader⟩ := py_bind_ok.mp hheader
      obtain ⟨-, rfl⟩ := packInts_ok.mp hfixed
      obtain rfl := Except.ok.inj hheader
      refine ⟨_, rfl, ?_⟩
      simp
      omega
  obtain ⟨rest, rfl, hrest⟩ := hports
  have htake : ∀ tail : List Byte,
      (beBytes 2 sport.toNat ++ (beBytes 2 dport.toNat ++ tail)).take 4 =
        beBytes 2 sport.toNat ++ beBytes 2 dport.toNat := by
    intro tail
    rw [← List.append_assoc, List.take_left' (by simp)]
  split_ifs at h with hsum
  · obtain ⟨pseudo, -, h⟩ := py_bind_ok.mp h
    obtain ⟨word, -, h⟩ := py_bind_ok.mp h
    obtain rfl := Except.ok.inj h
    have hoff : 6 ≤ checksumOffset protocol := by
      unfold checksumOffset
      split_ifs <;> omega
    rw [List.append_assoc, List.append_assoc, List.append_assoc, List.take_append_of_le_length,
      List.take_take, min_eq_left (by omega), htake]
    simp
    omega
  · obtain rfl := Except.ok.inj h
    rw [List.append_assoc, List.append_assoc, htake]

/-! The IPv4 header. -/

/-- The header that is written, its checksum zero. -/
def builtIpv4 (identification flags ttl protocol : ℤ) (source target : List Byte)
    (optionsLen transportLen : ℕ) : Ipv4 where
  version := 4
  ihl := BitVec.ofNat 4 (5 + optionsLen / 4)
  diffserv := 0x2A
  totalLen := BitVec.ofNat 16 (20 + optionsLen + transportLen)
  identification := BitVec.ofNat 16 identification.toNat
  flags := BitVec.ofNat 3 (flags.toNat / 8192)
  fragOffset := BitVec.ofNat 13 flags.toNat
  ttl := BitVec.ofNat 8 ttl.toNat
  protocol := BitVec.ofNat 8 protocol.toNat
  hdrChecksum := 0
  srcAddr := BitVec.ofNat 32 (beNat source)
  dstAddr := BitVec.ofNat 32 (beNat target)

/-- The ranges that `struct.pack` has checked. -/
structure HeaderFits (identification flags ttl protocol : ℤ) (optionsLen transportLen : ℕ) :
    Prop where
  total : 20 + optionsLen + transportLen < 65536
  identification : 0 ≤ identification ∧ identification < 65536
  flags : 0 ≤ flags ∧ flags < 65536
  ttl : 0 ≤ ttl ∧ ttl < 256
  protocol : 0 ≤ protocol ∧ protocol < 256

variable {identification flags ttl : ℤ} {options : List Byte} {n : ℕ}

theorem beBytes_address {address : List Byte} (h : address.length = 4) :
    beBytes 4 (BitVec.ofNat 32 (beNat address)).toNat = address := by
  have hlt : beNat address < 2 ^ 32 := by
    have hlt := beNat_lt address
    rwa [h] at hlt
  rw [BitVec.toNat_ofNat, Nat.mod_eq_of_lt hlt, ← eq_beBytes h]

namespace HeaderFits
variable {k : ℕ} (h : HeaderFits identification flags ttl protocol k n)
include h

theorem totalLen_toNat :
    (builtIpv4 identification flags ttl protocol source target k n).totalLen.toNat =
      20 + k + n := by
  rw [builtIpv4, BitVec.toNat_ofNat, Nat.mod_eq_of_lt h.total]

theorem identification_toNat :
    (builtIpv4 identification flags ttl protocol source target k n).identification.toNat =
      identification.toNat := by
  have hi := h.identification
  rw [builtIpv4, BitVec.toNat_ofNat]
  omega

theorem fragment_toNat :
    (builtIpv4 identification flags ttl protocol source target k n).flags.toNat * 8192 +
      (builtIpv4 identification flags ttl protocol source target k n).fragOffset.toNat =
        flags.toNat := by
  have hf := h.flags
  rw [builtIpv4, BitVec.toNat_ofNat, BitVec.toNat_ofNat]
  omega

theorem ttl_toNat : (builtIpv4 identification flags ttl protocol source target k n).ttl.toNat =
    ttl.toNat := by
  have ht := h.ttl
  rw [builtIpv4, BitVec.toNat_ofNat]
  omega

theorem protocol_toNat :
    (builtIpv4 identification flags ttl protocol source target k n).protocol.toNat =
      protocol.toNat := by
  have hp := h.protocol
  rw [builtIpv4, BitVec.toNat_ofNat]
  omega

end HeaderFits

theorem ihl_toNat {k : ℕ} (h : k ≤ 40) :
    (builtIpv4 identification flags ttl protocol source target k n).ihl.toNat = 5 + k / 4 := by
  rw [builtIpv4, BitVec.toNat_ofNat]
  omega

theorem ipv4Header_ok (hopt : options.length % 4 = 0) (hlen : options.length ≤ 40)
    (hs : source.length = 4) (ht : target.length = 4)
    (h : ipv4Header identification flags ttl protocol source target options n = .ok header) :
    HeaderFits identification flags ttl protocol options.length n ∧
      header = Header.encode (builtIpv4 identification flags ttl protocol source target
        options.length n) ++ options := by
  obtain ⟨fixed, hfixed, h⟩ := py_bind_ok.mp h
  obtain ⟨hall, rfl⟩ := packInts_ok.mp hfixed
  obtain rfl := Except.ok.inj h
  simp only [List.forall_mem_cons] at hall
  obtain ⟨-, -, htotal, hid, hflags, httl, hproto, -⟩ := hall
  have hfits : HeaderFits identification flags ttl protocol options.length n :=
    ⟨by norm_num at htotal; omega, by simpa using hid, by simpa using hflags, by simpa using httl,
      by simpa using hproto⟩
  refine ⟨hfits, ?_⟩
  have hversion : (0x45 + (options.length / 4 : ℕ) : ℤ).toNat =
      4 * 16 + (5 + options.length / 4) := by omega
  have hsum : (20 + (options.length : ℤ) + n).toNat = 20 + options.length + n := by omega
  rw [Ipv4.encode_eq, ihl_toNat hlen, hfits.totalLen_toNat, hfits.identification_toNat,
    hfits.fragment_toNat, hfits.ttl_toNat, hfits.protocol_toNat]
  simp only [builtIpv4, beBytes_address hs, beBytes_address ht, List.flatMap_cons,
    List.flatMap_nil, hversion, hsum, List.append_assoc]
  rfl

/-- What a header says that was written for these arguments. -/
structure Writes (ip : Ipv4) (identification flags ttl protocol : ℤ)
    (source target options : List Byte) : Prop where
  ihl : 4 * ip.ihl.toNat = 20 + options.length
  identification : ip.identification.toNat = identification.toNat
  fragment : ip.flags.toNat * 8192 + ip.fragOffset.toNat = flags.toNat
  ttl : ip.ttl.toNat = ttl.toNat
  protocol : ip.protocol.toNat = protocol.toNat
  source : beBytes 4 ip.srcAddr.toNat = source
  target : beBytes 4 ip.dstAddr.toNat = target

theorem ipv4Header_writes (hopt : options.length % 4 = 0) (hlen : options.length ≤ 40)
    (hs : source.length = 4) (ht : target.length = 4)
    (h : ipv4Header identification flags ttl protocol source target options n = .ok header) :
    ∃ ip : Ipv4, header = Header.encode ip ++ options ∧
      Writes ip identification flags ttl protocol source target options := by
  obtain ⟨hfits, rfl⟩ := ipv4Header_ok hopt hlen hs ht h
  have hihl : (builtIpv4 identification flags ttl protocol source target options.length
      n).ihl.toNat = 5 + options.length / 4 := ihl_toNat hlen
  exact ⟨_, rfl, by omega, hfits.identification_toNat, hfits.fragment_toNat, hfits.ttl_toNat,
    hfits.protocol_toNat, beBytes_address hs, beBytes_address ht⟩

/-! Arguments in range raise nothing. -/

theorem transportHeader_total (hs : 0 ≤ sport ∧ sport < 65536) (hd : 0 ≤ dport ∧ dport < 65536)
    (hq : 0 ≤ seq ∧ seq < 4294967296) (ht : tcpOptions.length ≤ 40) (hp : payload.length ≤ 60000) :
    ∃ header, transportHeader protocol sport dport seq tcpOptions payload = .ok header ∧
      header.length ≤ 60 := by
  rw [transportHeader]
  split_ifs
  · refine ⟨_, packInts_ok.mpr ⟨?_, rfl⟩, by simp⟩
    simp only [List.forall_mem_cons, List.not_mem_nil, false_imp_iff, implies_true]
    norm_num
    omega
  · refine ⟨_, py_bind_ok.mpr ⟨_, packInts_ok.mpr ⟨?_, rfl⟩, rfl⟩, ?_⟩
    · rw [Nat.shiftLeft_eq]
      simp only [List.forall_mem_cons, List.not_mem_nil, false_imp_iff, implies_true]
      norm_num
      omega
    · simp
      omega
  · exact ⟨[], rfl, by simp⟩

theorem checksum_lt (data : List Byte) : checksum data < 65536 := by
  have hle : checksum data ≤ 0xFFFF := Nat.sub_le _ _
  omega

theorem storeChecksum_total {transport : List Byte} (hp : 0 ≤ protocol ∧ protocol < 256)
    (ht : transport.length ≤ 65000) : ∃ stored,
      storeChecksum protocol source target transport = .ok stored ∧
        stored.length ≤ transport.length + 2 := by
  have hpseudo : packInts [(1, 0), (1, protocol), (2, transport.length)] =
      .ok ([(1, 0), (1, protocol), (2, (transport.length : ℤ))].flatMap
        fun f : ℕ × ℤ => beBytes f.1 f.2.toNat) := by
    refine packInts_ok.mpr ⟨?_, rfl⟩
    simp only [List.forall_mem_cons, List.not_mem_nil, false_imp_iff, implies_true]
    norm_num
    omega
  have hword : ∀ data : List Byte, ∃ word : List Byte, packInts
      [(2, ((if protocol = 17 ∧ checksum data = 0 then 0xFFFF else checksum data : ℕ) : ℤ))] =
        .ok word ∧ word.length = 2 := by
    intro data
    have hlt := checksum_lt data
    refine ⟨_, packInts_single.mpr ⟨?_, rfl⟩, beBytes_length 2 _⟩
    split_ifs <;> norm_num
    omega
  obtain ⟨word, hw, hl⟩ := hword (source ++ target ++ ([(1, 0), (1, protocol),
    (2, (transport.length : ℤ))].flatMap fun f : ℕ × ℤ => beBytes f.1 f.2.toNat) ++ transport)
  refine ⟨_, py_bind_ok.mpr ⟨_, hpseudo, py_bind_ok.mpr ⟨word, hw, rfl⟩⟩, ?_⟩
  simp [hl]
  omega

theorem buildTransport_total (hp : 0 ≤ protocol ∧ protocol < 256) (hs : 0 ≤ sport ∧ sport < 65536)
    (hd : 0 ≤ dport ∧ dport < 65536) (hq : 0 ≤ seq ∧ seq < 4294967296)
    (ht : tcpOptions.length ≤ 40) (hpay : payload.length ≤ 60000) (udpChecksum : Bool) :
    ∃ transport, buildTransport protocol sport dport seq tcpOptions payload source target
      udpChecksum = .ok transport ∧ transport.length ≤ payload.length + 62 := by
  obtain ⟨header, hheader, hl⟩ : ∃ header,
      transportHeader protocol sport dport seq tcpOptions payload = .ok header ∧
        header.length ≤ 60 := transportHeader_total hs hd hq ht hpay
  by_cases hsum : Summed protocol udpChecksum
  · have hlen : (header ++ payload).length ≤ 65000 := by
      rw [List.length_append]
      omega
    obtain ⟨stored, hstored, hl'⟩ : ∃ stored,
        storeChecksum protocol source target (header ++ payload) = .ok stored ∧
          stored.length ≤ (header ++ payload).length + 2 := storeChecksum_total hp hlen
    refine ⟨stored, py_bind_ok.mpr ⟨header, hheader, ?_⟩, ?_⟩
    · rw [if_pos hsum, hstored]
    · rw [List.length_append] at hl'
      omega
  · refine ⟨header ++ payload, py_bind_ok.mpr ⟨header, hheader, ?_⟩, ?_⟩
    · rw [if_neg hsum]
      rfl
    · rw [List.length_append]
      omega

theorem ipv4Header_total (hi : 0 ≤ identification ∧ identification < 65536)
    (hf : 0 ≤ flags ∧ flags < 65536) (ht : 0 ≤ ttl ∧ ttl < 256)
    (hp : 0 ≤ protocol ∧ protocol < 256) (hlen : options.length ≤ 40) (hn : n ≤ 65000) :
    ∃ header, ipv4Header identification flags ttl protocol source target options n =
      .ok header := by
  refine ⟨_, py_bind_ok.mpr ⟨_, packInts_ok.mpr ⟨?_, rfl⟩, rfl⟩⟩
  simp only [List.forall_mem_cons, List.not_mem_nil, false_imp_iff, implies_true]
  norm_num
  omega

/-! Whole frames. -/

/-- Bytes of the right number are a header. -/
theorem exists_encode {α : Type} [Header α] {bytes : List Byte}
    (h : bytes.length = Header.size α) : ∃ a : α, bytes = Header.encode a := by
  obtain ⟨a, rest, hbytes⟩ : ∃ (a : α) (r : _), bytes = Header.encode a ++ r :=
    Header.exists_encode_append h.ge
  have hlen := congrArg List.length hbytes
  rw [h, List.length_append, Header.encode_length] at hlen
  obtain rfl := List.eq_nil_of_length_eq_zero (by omega : rest.length = 0)
  exact ⟨a, hbytes.trans (List.append_nil _)⟩

theorem exists_ethernet {macs : List Byte} (h : macs.length = 12) :
    ∃ eth : Ethernet, macs ++ [0x08, 0x00] = Header.encode eth ∧ eth.etherType = typeIpv4 := by
  obtain ⟨eth, heth⟩ : ∃ eth : Ethernet, macs ++ [0x08, 0x00] = Header.encode eth :=
    exists_encode (by simp [h])
  refine ⟨eth, heth, ?_⟩
  have htype : fieldAt (macs ++ [0x08, 0x00]) 12 14 = eth.etherType.toNat := by
    have he := etherType_encode eth []
    rw [List.append_nil] at he
    rw [heth]
    exact he
  have hvalue : fieldAt (macs ++ [0x08, 0x00]) 12 14 = typeIpv4.toNat := by
    rw [fieldAt, slice_append_right _ _ h.le, h]
    decide
  exact BitVec.eq_of_toNat_eq (htype.symm.trans hvalue)

/-- What a generated frame is made of: the headers with the lengths of what follows, and the
sums over them. -/
structure Built (frame options tcpOptions payload : List Byte) (protocol : ℤ) (summed : Prop)
    (eth : Ethernet) (ip : Ipv4) (header padding : List Byte) : Prop where
  bytes : frame = Header.encode eth ++ (Header.encode ip ++ (options ++ (header ++
    (payload ++ padding))))
  isIpv4 : eth.etherType = typeIpv4
  version : ip.version = 4
  ihl : 4 * ip.ihl.toNat = 20 + options.length
  total : ip.totalLen.toNat = 20 + options.length + (header.length + payload.length)
  isProtocol : (ip.protocol.toNat : ℤ) = protocol
  hdrChecksum : ip.hdrChecksum = ipv4Checksum ip options
  transport : TransportOk protocol tcpOptions header payload
  sum : summed → SumOk protocol (beBytes 4 ip.srcAddr.toNat) (beBytes 4 ip.dstAddr.toNat)
    header payload

namespace Built
variable {frame padding : List Byte} {summed : Prop} {eth : Ethernet} {ip : Ipv4}
  (h : Built frame options tcpOptions payload protocol summed eth ip header padding)
include h

theorem checksum_zero : checksum (slice frame 14 (headerEnd frame)) = 0 := by
  have hlen : 4 * (ip.ihl.toNat - 5) = options.length := by
    have hi := h.ihl
    omega
  have hz : { ip with hdrChecksum := ipv4Checksum ip options } = ip := by
    rw [← h.hdrChecksum]
  have hs := checksum_header eth ip (options ++ (header ++ (payload ++ padding)))
  rw [hlen, List.take_left, hz] at hs
  rwa [h.bytes, headerEnd_encode, hlen]

theorem lengths : LengthsOk ip.version ip.ihl ip.totalLen frame.length := by
  have hi := h.ihl
  have ht := h.total
  refine ⟨h.version, by omega, by omega, ?_⟩
  rw [h.bytes, ht]
  simp
  omega

theorem options_length : options.length = 4 * (ip.ihl.toNat - 5) := by
  have hi := h.ihl
  omega

/-- The header of a UDP packet is one, and says how long the segment is. -/
theorem exists_udp (hp : protocol = 17) :
    ∃ udp : Udp, header = Header.encode udp ∧ udp.length.toNat = 8 + payload.length := by
  obtain ⟨hlen, hfield⟩ := h.transport.udp hp
  obtain ⟨udp, rfl⟩ : ∃ udp : Udp, header = Header.encode udp := exists_encode hlen
  refine ⟨udp, rfl, ?_⟩
  rw [← hfield]
  simp [fieldAt, Udp.encode_eq]

end Built

/-- The transport and the header of a frame, and what they are once its checksum is stored. -/
theorem built_parts {transport : List Byte} {udpChecksum : Bool}
    (hopt : options.length % 4 = 0) (hlen : options.length ≤ 40)
    (htcp : tcpOptions.length % 4 = 0) (hs : source.length = 4) (ht : target.length = 4)
    (htransport : buildTransport protocol sport dport seq tcpOptions payload source target
      udpChecksum = .ok transport)
    (hheader : ipv4Header identification flags ttl protocol source target options
      transport.length = .ok header) :
    ∃ (ip : Ipv4) (front : List Byte), header = Header.encode ip ++ options ∧
      transport = front ++ payload ∧ ip.hdrChecksum = 0 ∧
      ∀ (eth : Ethernet) (padding : List Byte), eth.etherType = typeIpv4 →
        Built (Header.encode eth ++
            (Header.encode { ip with hdrChecksum := ipv4Checksum ip options } ++
            (options ++ (front ++ (payload ++ padding)))))
          options tcpOptions payload protocol (Summed protocol udpChecksum) eth
          { ip with hdrChecksum := ipv4Checksum ip options } front padding := by
  obtain ⟨front, rfl, hok, hsum⟩ := buildTransport_ok htcp hs ht htransport
  obtain ⟨hfits, rfl⟩ := ipv4Header_ok hopt hlen hs ht hheader
  refine ⟨_, front, rfl, rfl, rfl, fun eth padding htype => ?_⟩
  have hihl : (builtIpv4 identification flags ttl protocol source target options.length
      (front ++ payload).length).ihl.toNat = 5 + options.length / 4 := ihl_toNat hlen
  have htotal : (builtIpv4 identification flags ttl protocol source target options.length
      (front ++ payload).length).totalLen.toNat = 20 + options.length + (front ++ payload).length :=
    hfits.totalLen_toNat
  have hproto : (builtIpv4 identification flags ttl protocol source target options.length
      (front ++ payload).length).protocol.toNat = protocol.toNat := hfits.protocol_toNat
  have hp := hfits.protocol
  constructor
  · rfl
  · exact htype
  · rfl
  · dsimp only
    omega
  · dsimp only
    rw [htotal, List.length_append]
  · dsimp only
    omega
  · rfl
  · exact hok
  · intro hsummed
    dsimp only [builtIpv4]
    rw [beBytes_address hs, beBytes_address ht]
    exact hsum hsummed

/-- A frame whose checksum is recomputed before it is filled up. -/
theorem built_ok {macs transport frame : List Byte} {udpChecksum : Bool} (hm : macs.length = 12)
    (hopt : options.length % 4 = 0) (hlen : options.length ≤ 40)
    (htcp : tcpOptions.length % 4 = 0) (hs : source.length = 4) (ht : target.length = 4)
    (htransport : buildTransport protocol sport dport seq tcpOptions payload source target
      udpChecksum = .ok transport)
    (hheader : ipv4Header identification flags ttl protocol source target options
      transport.length = .ok header)
    (hframe : recalculateChecksum (macs ++ [0x08, 0x00] ++ header ++ transport) = .ok frame)
    (size : ℕ) : ∃ eth ip front padding, Built (ljust size frame) options tcpOptions payload
      protocol (Summed protocol udpChecksum) eth ip front padding := by
  obtain ⟨ip, front, rfl, rfl, -, hbuilt⟩ :=
    built_parts hopt hlen htcp hs ht htransport hheader
  obtain ⟨eth, heth, htype⟩ := exists_ethernet hm
  have hihl := (hbuilt eth [] htype).ihl
  dsimp only at hihl
  rw [heth, List.append_assoc, List.append_assoc (Header.encode ip),
    recalculateChecksum_encode eth ip (front ++ payload) (by omega) (by omega)] at hframe
  have hb := hbuilt eth (List.replicate (size - frame.length) 0) htype
  have hbytes : ljust size frame = Header.encode eth ++
      (Header.encode { ip with hdrChecksum := ipv4Checksum ip options } ++
        (options ++ (front ++ (payload ++ List.replicate (size - frame.length) 0)))) := by
    rw [ljust, ← Except.ok.inj hframe]
    simp only [List.append_assoc]
  rw [← hbytes] at hb
  exact ⟨eth, _, front, _, hb⟩

end P4Cases
