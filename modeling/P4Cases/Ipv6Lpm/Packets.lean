import P4Cases.Frames.Build
import P4Cases.Ipv6Lpm.Oracle

/-! The frames that the end-to-end test of the IPv6 router sends. -/
namespace P4Cases.Ipv6Lpm
open Wire P4

def hosts : List Host := [.h1, .h2, .h3]

def hostAddresses : Host → BitVec 128
  | .h1 => 0x20010db8000100000000000000000001
  | .h2 => 0x20010db8000200000000000000000001
  | .h3 => 0x20010db8000300000000000000000001

/-- `ipaddress.IPv6Address(address).packed`. -/
def packed (address : BitVec 128) : List Byte := beBytes 16 address.toNat

/-- A segment with the checksum over its pseudo-header in its place. -/
def storeSum (source destination : BitVec 128) (protocol offset : ℕ) (segment : List Byte) :
    Py (List Byte) := do
  let pseudo := packed source ++ packed destination ++ (← packInts [(4, segment.length)]) ++
    [0, 0, 0] ++ (← packInts [(1, protocol)])
  let value := checksum (pseudo ++ segment)
  let value := if protocol = 17 ∧ value = 0 then 0xFFFF else value
  return segment.take offset ++ (← packInts [(2, value)]) ++ segment.drop (offset + 2)

def transportSegment (source destination : BitVec 128) (protocol identification size : ℕ) :
    Py (List Byte) := do
  let payload := (ascii "ipv6-lpm:" ++ (← packInts [(2, identification)]) ++ pattern 6).take size
  if protocol = 17 then
    let header ← packInts [(2, 1111), (2, 2222), (2, 8 + size), (2, 0)]
    storeSum source destination protocol 6 (header ++ payload)
  else if protocol = 6 then
    let header ← packInts [(2, 1111), (2, 2222), (4, identification), (4, 0), (1, 0x50), (1, 0x18),
      (2, 4096), (2, 0), (2, 0)]
    storeSum source destination protocol 16 (header ++ payload)
  else if protocol = 58 then
    let header ← packInts [(1, 128), (1, 0), (2, 0), (2, 1234), (2, identification)]
    storeSum source destination protocol 2 (header ++ payload)
  else return payload

/-- What `make_frame` takes besides the marker and the identification. -/
structure FrameArgs where
  sender : Host := .h1
  destination : BitVec 128 := 0x20010db8000200000000000000000001
  protocol : ℕ := 17
  payloadSize : ℕ := 24
  hopLimit : ℕ := 64
  body : Option (List Byte) := none
  flowLabel : Option ℕ := none

def FrameArgs.segment (a : FrameArgs) (identification : ℕ) : Py (List Byte) :=
  match a.body with
  | some body => .ok body
  | none => transportSegment (hostAddresses a.sender) a.destination a.protocol identification
      a.payloadSize

/-- The marked gateway remains in `Ethernet.src` after the router's rewrite. -/
def makeFrame (marker : List Byte) (identification : ℕ) (a : FrameArgs) : Py (List Byte) := do
  raiseIf (marker.length ≠ 4 ∨ (marker.headD 0).toNat &&& 1 ≠ 0 ∨
      ¬ (1 ≤ identification ∧ identification ≤ 65535) ∨ ¬ a.payloadSize ≤ 1452)
    (.valueError "invalid marker, identity, host or payload length")
  let body ← a.segment identification
  raiseIf (1460 < body.length) (.valueError "IPv6 packet exceeds the 1500-byte test MTU")
  let label := a.flowLabel.getD identification
  raiseIf (¬ label < 1 <<< 20) (.valueError "flow label exceeds 20 bits")
  let header := (← packInts [(4, (6 <<< 28 ||| 0x2A <<< 20 ||| label : ℕ)), (2, body.length),
    (1, a.protocol), (1, a.hopLimit)]) ++ packed (hostAddresses a.sender) ++ packed a.destination
  let source ← packInts [(2, identification)]
  return ljust 60 (marker ++ [0x0a, 0x01] ++ marker ++ source ++ [0x86, 0xdd] ++ header ++ body)
    0xa5

/-- Four bytes, the first of them even: what `make_frame` takes as a marker. -/
def ValidMarker (marker : List Byte) : Prop :=
  marker.length = 4 ∧ (marker.headD 0).toNat &&& 1 = 0

/-! What the frames are made of. -/

theorem storeSum_total {source destination : BitVec 128} {protocol offset : ℕ}
    {segment : List Byte} (hp : protocol < 256) (hl : segment.length < 2 ^ 32)
    (ho : offset + 2 ≤ segment.length) :
    ∃ result, storeSum source destination protocol offset segment = .ok result ∧
      result.length = segment.length := by
  have hlen : packInts [(4, (segment.length : ℤ))] = .ok (beBytes 4 segment.length) :=
    packInts_single.mpr ⟨by omega, rfl⟩
  have hproto : packInts [(1, (protocol : ℤ))] = .ok (beBytes 1 protocol) :=
    packInts_single.mpr ⟨by omega, rfl⟩
  have hvalue : ∀ value : ℕ, value ≤ 0xFFFF →
      packInts [(2, (value : ℤ))] = .ok (beBytes 2 value) := fun value hv =>
    packInts_single.mpr ⟨by omega, rfl⟩
  have hsum : ∀ data, checksum data ≤ 0xFFFF := fun data => Nat.sub_le _ _
  rw [storeSum, hlen, py_ok_bind, hproto, py_ok_bind]
  dsimp only
  rw [hvalue _ (by split_ifs; exacts [le_refl _, hsum _]), py_ok_bind]
  refine ⟨_, rfl, ?_⟩
  simp only [List.length_append, List.length_take, beBytes_length, List.length_drop]
  omega

theorem payload_length (identification size : ℕ) (h : size ≤ 1452) :
    ((ascii "ipv6-lpm:" ++ beBytes 2 identification ++ pattern 6).take size).length = size := by
  simp only [List.length_take, List.length_append, beBytes_length, pattern_length]
  omega

/-- A segment is built for every identification, with a header of 20 bytes at most. -/
theorem transportSegment_total {source destination : BitVec 128} {protocol identification size : ℕ}
    (hi : identification < 65536) (hs : size ≤ 1452) :
    ∃ segment, transportSegment source destination protocol identification size = .ok segment ∧
      size ≤ segment.length ∧ segment.length ≤ size + 20 ∧
      (protocol = 17 → segment.length = size + 8) := by
  have hid : packInts [(2, (identification : ℤ))] = .ok (beBytes 2 identification) :=
    packInts_single.mpr ⟨by omega, rfl⟩
  have hpayload := payload_length identification size hs
  have hsummed : ∀ (header : List Byte) (offset : ℕ), protocol < 256 → header.length ≤ 20 →
      offset + 2 ≤ header.length → ∃ segment, storeSum source destination protocol offset
        (header ++ (ascii "ipv6-lpm:" ++ beBytes 2 identification ++ pattern 6).take size) =
          .ok segment ∧ segment.length = header.length + size := by
    intro header offset hp hl ho
    obtain ⟨segment, hrun, hlen⟩ := @storeSum_total source destination protocol offset
      (header ++ (ascii "ipv6-lpm:" ++ beBytes 2 identification ++ pattern 6).take size) hp
      (by rw [List.length_append]; omega) (by rw [List.length_append]; omega)
    exact ⟨segment, hrun, by rw [hlen, List.length_append, hpayload]⟩
  rw [transportSegment, hid, py_ok_bind]
  dsimp only
  split_ifs with h₁ h₂ h₃
  · obtain ⟨header, hheader, hlen⟩ : ∃ header, packInts [(2, 1111), (2, 2222), (2, 8 + (size : ℤ)),
        (2, 0)] = .ok header ∧ header.length = 8 :=
      ⟨_, packInts_ok.mpr ⟨by simp; omega, rfl⟩, by simp⟩
    obtain ⟨segment, hrun, hl⟩ := hsummed header 6 (by omega) (by omega) (by omega)
    rw [hheader, py_ok_bind, hrun]
    exact ⟨segment, rfl, by omega, by omega, by omega⟩
  · obtain ⟨header, hheader, hlen⟩ : ∃ header, packInts [(2, 1111), (2, 2222),
        (4, (identification : ℤ)), (4, 0), (1, 0x50), (1, 0x18), (2, 4096), (2, 0), (2, 0)] =
          .ok header ∧ header.length = 20 :=
      ⟨_, packInts_ok.mpr ⟨by simp; omega, rfl⟩, by simp⟩
    obtain ⟨segment, hrun, hl⟩ := hsummed header 16 (by omega) (by omega) (by omega)
    rw [hheader, py_ok_bind, hrun]
    exact ⟨segment, rfl, by omega, by omega, by omega⟩
  · obtain ⟨header, hheader, hlen⟩ : ∃ header, packInts [(1, 128), (1, 0), (2, 0), (2, 1234),
        (2, (identification : ℤ))] = .ok header ∧ header.length = 8 :=
      ⟨_, packInts_ok.mpr ⟨by simp; omega, rfl⟩, by simp⟩
    obtain ⟨segment, hrun, hl⟩ := hsummed header 2 (by omega) (by omega) (by omega)
    rw [hheader, py_ok_bind, hrun]
    exact ⟨segment, rfl, by omega, by omega, by omega⟩
  · exact ⟨_, rfl, hpayload.ge, by omega, fun h => absurd h h₁⟩

/-- The arguments with which a frame is built, whatever its number. -/
structure FrameArgs.Fits (a : FrameArgs) : Prop where
  payloadSize : a.payloadSize ≤ 1452 ∧ (a.protocol ≠ 17 → a.payloadSize ≤ 1440)
  protocol : a.protocol < 256
  hopLimit : a.hopLimit < 256
  body : ∀ body, a.body = some body → body.length ≤ 1460
  flowLabel : ∀ label, a.flowLabel = some label → label < 2 ^ 20

/-- The parts of a frame that decide what the router does with it. -/
structure Framed (marker : List Byte) (a : FrameArgs) (body frame : List Byte) : Prop where
  length : frame.length = max 60 (54 + body.length)
  marked : slice frame 0 4 = marker
  etherType : etherType frame = 0x86dd
  version : fieldAt frame 14 15 / 16 = 6
  payloadLen : fieldAt frame 18 20 = body.length
  hopLimit : fieldAt frame 21 22 = a.hopLimit
  destination : destination frame = a.destination

theorem versionWord {label : ℕ} (h : label < 2 ^ 20) :
    (6 <<< 28 ||| 0x2A <<< 20 ||| label : ℕ) = 6 * 2 ^ 28 + 42 * 2 ^ 20 + label := by
  have hclass : (6 <<< 28 ||| 0x2A <<< 20 : ℕ) = 1578 <<< 20 := by decide
  rw [hclass, ← Nat.shiftLeft_add_eq_or_of_lt h, Nat.shiftLeft_eq]
  omega

theorem FrameArgs.Fits.segment_total {a : FrameArgs} (h : a.Fits) {identification : ℕ}
    (hi : identification < 65536) : ∃ body, a.segment identification = .ok body ∧
      body.length ≤ 1460 ∧ (a.body = none → a.payloadSize ≤ body.length) := by
  unfold FrameArgs.segment
  cases hb : a.body with
  | some body => exact ⟨body, rfl, h.body body hb, by simp⟩
  | none =>
    obtain ⟨segment, hs, h₁, h₂, hudp⟩ := @transportSegment_total (hostAddresses a.sender)
      a.destination a.protocol identification a.payloadSize hi h.payloadSize.1
    refine ⟨segment, hs, ?_, fun _ => h₁⟩
    by_cases hp : a.protocol = 17
    · have hl := hudp hp
      have hsize := h.payloadSize.1
      omega
    · have hsize := h.payloadSize.2 hp
      omega

/-- The fields of a frame, one after the other. -/
def fields (marker : List Byte) (identification word : ℕ) (a : FrameArgs) (rest : List Byte)
    (bodyLen : ℕ) : List Byte :=
  marker ++ (beBytes 2 0x0a01 ++ (marker ++ (beBytes 2 identification ++ (beBytes 2 0x86dd ++
    (beBytes 4 word ++ (beBytes 2 bodyLen ++ (beBytes 1 a.protocol ++ (beBytes 1 a.hopLimit ++
    (packed (hostAddresses a.sender) ++ (packed a.destination ++ rest))))))))))

theorem framed_fields {marker : List Byte} {a : FrameArgs} {identification label : ℕ}
    {body pad : List Byte} (hm : marker.length = 4) (hl : label < 2 ^ 20)
    (hb : body.length ≤ 1460) (hh : a.hopLimit < 256)
    (hpad : pad.length = 60 - (54 + body.length)) :
    Framed marker a body
      (fields marker identification (6 * 2 ^ 28 + 42 * 2 ^ 20 + label) a (body ++ pad)
        body.length) := by
  have hmarker := eq_beBytes hm
  have hword : beBytes 4 (6 * 2 ^ 28 + 42 * 2 ^ 20 + label) =
      beBytes 1 98 ++ beBytes 3 (10485760 + label) := by
    rw [beBytes_add 1 3, ← beBytes_mod 3 _ (le_refl 3),
      ← beBytes_mod 3 (10485760 + label) (le_refl 3)]
    congr 2 <;> omega
  constructor
  · simp only [fields, packed, List.length_append, beBytes_length, hm, hpad]
    omega
  · rw [fields, slice_append_left _ hm.ge]
    exact List.take_of_length_le hm.le
  · rw [etherType, fields, hmarker, fieldAt]
    simp
  · rw [fields, hmarker, hword, fieldAt]
    simp
  · have hlen : beNat (beBytes 2 body.length) = body.length := beNat_beBytes_of_lt (by omega)
    rw [fields, hmarker, fieldAt]
    simp [hlen]
  · have hhop : beNat (beBytes 1 a.hopLimit) = a.hopLimit := beNat_beBytes_of_lt (by omega)
    rw [fields, hmarker, fieldAt]
    simp [hhop]
  · rw [destination, fields, hmarker, fieldAt]
    simp [packed]

/-- The frame as it is put together, and filled up. -/
theorem ljust_fields {marker : List Byte} (hm : marker.length = 4) (identification word : ℕ)
    (a : FrameArgs) (body : List Byte) :
    ljust 60 (marker ++ [0x0a, 0x01] ++ marker ++ beBytes 2 identification ++
      [0x86, 0xdd] ++ (beBytes 4 word ++
        (beBytes 2 body.length ++ (beBytes 1 a.protocol ++ beBytes 1 a.hopLimit)) ++
        packed (hostAddresses a.sender) ++ packed a.destination) ++ body) 0xa5 =
      fields marker identification word a
        (body ++ List.replicate (60 - (54 + body.length)) 0xa5) body.length := by
  have hgateway : ([0x0a, 0x01] : List Byte) = beBytes 2 0x0a01 := by decide
  have htype : ([0x86, 0xdd] : List Byte) = beBytes 2 0x86dd := by decide
  rw [ljust, hgateway, htype]
  simp only [fields, packed, List.append_assoc, List.length_append, beBytes_length, hm]
  congr 14
  omega

theorem makeFrame_total {marker : List Byte} {a : FrameArgs} {identification : ℕ}
    (hm : ValidMarker marker) (h : a.Fits) (h₁ : 1 ≤ identification) (h₂ : identification ≤ 65535) :
    ∃ body frame, a.segment identification = .ok body ∧ body.length ≤ 1460 ∧
      makeFrame marker identification a = .ok frame ∧ Framed marker a body frame := by
  obtain ⟨body, hbody, hl, -⟩ := h.segment_total (show identification < 65536 by omega)
  have hlabel : a.flowLabel.getD identification < 2 ^ 20 := by
    cases hf : a.flowLabel with
    | none =>
      show identification < 2 ^ 20
      omega
    | some label => exact h.flowLabel label hf
  have hproto := h.protocol
  have hhop := h.hopLimit
  have hsize := h.payloadSize.1
  have hheader : ∀ word : ℕ, word < 2 ^ 32 → packInts [(4, (word : ℤ)), (2, (body.length : ℤ)),
      (1, (a.protocol : ℤ)), (1, (a.hopLimit : ℤ))] = .ok (beBytes 4 word ++
        (beBytes 2 body.length ++ (beBytes 1 a.protocol ++ beBytes 1 a.hopLimit))) := by
    intro word hword
    refine packInts_ok.mpr ⟨?_, by simp⟩
    simp only [List.forall_mem_cons, List.not_mem_nil, false_implies, implies_true, and_true]
    omega
  have hid : packInts [(2, (identification : ℤ))] = .ok (beBytes 2 identification) :=
    packInts_single.mpr ⟨by omega, rfl⟩
  have hvalid : ¬ (marker.length ≠ 4 ∨ (marker.headD 0).toNat &&& 1 ≠ 0 ∨
      ¬ (1 ≤ identification ∧ identification ≤ 65535) ∨ ¬ a.payloadSize ≤ 1452) := by
    rintro (h | h | h | h)
    · exact h hm.1
    · exact h hm.2
    · exact h ⟨h₁, h₂⟩
    · exact h hsize
  have hframed := @framed_fields marker a identification _ body
    (List.replicate (60 - (54 + body.length)) 0xa5) hm.1 hlabel hl hhop List.length_replicate
  refine ⟨body, _, hbody, hl, ?_, hframed⟩
  rw [makeFrame, raiseIf_pass hvalid, hbody, py_ok_bind, raiseIf_pass (by omega)]
  dsimp only
  rw [raiseIf_pass (by rwa [Nat.one_shiftLeft, not_not]), versionWord hlabel,
    hheader _ (by omega), py_ok_bind, hid, py_ok_bind]
  exact congrArg Except.ok (ljust_fields hm.1 _ _ _ _)

end P4Cases.Ipv6Lpm
