import P4Cases.Vxlan.Switch
import P4Cases.Frames.View

/-! The endpoint against the encapsulation its end-to-end test predicts. -/
namespace P4Cases.Vxlan
open Wire P4

def outerDest : List Byte := [0, 0, 0, 0, 0, 2]
def outerSource : List Byte := [0, 0, 0, 0xde, 0xad, 1]
def outerIpSource : List Byte := [192, 168, 1, 1]
def outerIpDest : List Byte := [192, 168, 1, 2]

def encapsulate (inner : List Byte) : Py (List Byte) := do
  if inner.length < 14 ∨ inner.length > 65499 then
    throw (.valueError "inner frame cannot fit in an IPv4 VXLAN packet")
  let outerEth := outerDest ++ outerSource ++ [0x08, 0x00]
  let outerIp := beBytes 1 0x45 ++ beBytes 1 0 ++ beBytes 2 (36 + inner.length) ++ beBytes 2 0 ++
    beBytes 2 0 ++ beBytes 1 64 ++ beBytes 1 17 ++ beBytes 2 0 ++ outerIpSource ++ outerIpDest
  let outerIp := outerIp.take 10 ++ beBytes 2 (checksum outerIp) ++ outerIp.drop 12
  let outerUdp := beBytes 2 12345 ++ beBytes 2 4789 ++ beBytes 2 (16 + inner.length) ++ beBytes 2 0
  let vxlan := [0x08, 0, 0, 0] ++ beBytes 3 5000 ++ [0]
  return outerEth ++ outerIp ++ outerUdp ++ vxlan ++ inner

/-- `out` carries `inner` behind the configured outer headers, with lengths that
are exact and a header checksum that verifies. -/
structure Carries (out inner : List Byte) : Prop where
  length : out.length = inner.length + 50
  inner_kept : out.drop 50 = inner
  outerEth : slice out 0 14 = outerDest ++ outerSource ++ [0x08, 0x00]
  totalLen : fieldAt out 16 18 = inner.length + 36
  checksum_ok : checksum (slice out 14 34) = 0
  outerIps : slice out 26 34 = outerIpSource ++ outerIpDest
  udpPorts : fieldAt out 34 36 = 12345 ∧ fieldAt out 36 38 = 4789
  udpLength : fieldAt out 38 40 = inner.length + 16
  vni : fieldAt out 46 49 = 5000

/-- The outer IPv4 header of a frame of `len` bytes, before its checksum is set. -/
def outerIpv4 (len : ℕ) : Ipv4 :=
  { version := 4, ihl := 5, diffserv := 0, totalLen := BitVec.ofNat 16 (len + 36)
    identification := 0, flags := 0, fragOffset := 0, ttl := 64, protocol := protoUdp
    hdrChecksum := 0, srcAddr := 0xc0a80101, dstAddr := 0xc0a80102 }

def outerUdp (len : ℕ) : Udp :=
  { srcPort := 12345, dstPort := vxlanPort, length := BitVec.ofNat 16 (len + 16), checksum := 0 }

def outer (len : ℕ) : List Byte :=
  beBytes 6 2 ++ (beBytes 6 0xdead01 ++ (beBytes 2 0x0800 ++
    (Header.encode { outerIpv4 len with hdrChecksum := ipv4Checksum (outerIpv4 len) [] } ++
      (Header.encode (outerUdp len) ++
        (beBytes 1 8 ++ (beBytes 3 0 ++ (beBytes 3 5000 ++ beBytes 1 0)))))))

theorem outerIpv4_encode {len : ℕ} (h : len ≤ 65499) :
    beBytes 1 0x45 ++ (beBytes 1 0 ++ (beBytes 2 (36 + len) ++ (beBytes 2 0 ++ (beBytes 2 0 ++
      (beBytes 1 64 ++ (beBytes 1 17 ++ (beBytes 2 0 ++ (outerIpSource ++ outerIpDest)))))))) =
      Header.encode (outerIpv4 len) := by
  have hs : outerIpSource = beBytes 4 0xc0a80101 := by decide
  have hd : outerIpDest = beBytes 4 0xc0a80102 := by decide
  have hl : (BitVec.ofNat 16 (len + 36)).toNat = 36 + len := by
    rw [BitVec.toNat_ofNat]
    omega
  rw [Ipv4.encode_eq, outerIpv4, hl, hs, hd]
  simp [protoUdp]

theorem outerIpv4_checksum (len : ℕ) :
    checksum (Header.encode (outerIpv4 len)) = (ipv4Checksum (outerIpv4 len) []).toNat := by
  rw [checksum_eq, ipv4Checksum_eq, List.append_nil]
  rfl

theorem encapsulate_eq {inner : List Byte} (h₁ : 14 ≤ inner.length) (h₂ : inner.length ≤ 65499) :
    encapsulate inner = .ok (outer inner.length ++ inner) := by
  have hc : ¬ (inner.length < 14 ∨ inner.length > 65499) := by omega
  have hu : Header.encode (outerUdp inner.length) = beBytes 2 12345 ++ beBytes 2 4789 ++
      beBytes 2 (16 + inner.length) ++ beBytes 2 0 := by
    have hl : (BitVec.ofNat 16 (inner.length + 16)).toNat = 16 + inner.length := by
      rw [BitVec.toNat_ofNat]
      omega
    rw [Udp.encode_eq, outerUdp, hl]
    simp only [List.append_assoc]
    rfl
  have he : outerDest ++ (outerSource ++ [0x08, 0x00]) =
      beBytes 6 2 ++ (beBytes 6 0xdead01 ++ beBytes 2 0x0800) := by decide
  have hv : ([0x08, 0, 0, 0] : List Byte) ++ (beBytes 3 5000 ++ [0]) =
      beBytes 1 8 ++ (beBytes 3 0 ++ (beBytes 3 5000 ++ beBytes 1 0)) := by decide
  simp only [encapsulate, if_neg hc, bind, pure, Except.bind, Except.pure, outerIpv4_encode h₂,
    outerIpv4_checksum, outer, Ipv4.encode_setChecksum, he, hu, hv, List.append_assoc]

theorem carries_outer {inner : List Byte} (h : inner.length ≤ 65499) :
    Carries (outer inner.length ++ inner) inner := by
  have hl : (BitVec.ofNat 16 (inner.length + 36)).toNat = inner.length + 36 := by
    rw [BitVec.toNat_ofNat]
    omega
  have hu : (BitVec.ofNat 16 (inner.length + 16)).toNat = inner.length + 16 := by
    rw [BitVec.toNat_ofNat]
    omega
  have hi : ∀ c, Header.encode { outerIpv4 inner.length with hdrChecksum := c } =
      beBytes 1 0x45 ++ (beBytes 1 0 ++ (beBytes 2 (inner.length + 36) ++ (beBytes 2 0 ++
        (beBytes 2 0 ++ (beBytes 1 64 ++ (beBytes 1 17 ++ (beBytes 2 c.toNat ++
          (beBytes 4 0xc0a80101 ++ beBytes 4 0xc0a80102)))))))) := by
    intro c
    rw [Ipv4.encode_eq, outerIpv4, hl]
    simp [protoUdp]
  have hp : Header.encode (outerUdp inner.length) = beBytes 2 12345 ++ (beBytes 2 4789 ++
      (beBytes 2 (inner.length + 16) ++ beBytes 2 0)) := by
    rw [Udp.encode_eq, outerUdp, hu]
    simp [vxlanPort]
  constructor
  · simp [outer]
    omega
  · simp [outer, hi, hp]
  · simp [outer]
    decide
  · simp [outer, hi, fieldAt, beNat_beBytes]
    omega
  · rw [checksum_eq]
    have hs : slice (outer inner.length ++ inner) 14 34 = Header.encode
        { outerIpv4 inner.length with hdrChecksum := ipv4Checksum (outerIpv4 inner.length) [] } ++
          [] := by simp [outer, hi]
    rw [hs, csum16_checksummed]
    rfl
  · simp [outer, hi]
    decide
  · simp [outer, hi, hp, fieldAt]
  · simp [outer, hi, hp, fieldAt, beNat_beBytes]
    omega
  · simp [outer, hi, hp, fieldAt]

variable {frame payload : List Byte} {innerEth : Ethernet}

theorem runIngress_error (port : Port) {e : ParserError Empty} {c : Cursor Headers}
    (h : (endpoint vtepEntries).parse port frame = (.error e, c)) :
    ((endpoint vtepEntries).runIngress () port frame).2.2 =
      markToDrop ((endpoint vtepEntries).parsedMetadata port frame) := by
  change (myIngress vtepEntries _ _).2 = _
  rw [myIngress, V1Switch.parserError_of_parse h]

theorem lookup_vtepEntries (dst : BitVec 48) : vtepEntries.lookup dst =
    if dst = 0x000000111111 then
      some (.encap 2 0x000000000002 0x000000dead01 0xc0a80101 0xc0a80102 5000)
    else none := by
  simp only [vtepEntries, Table.lookup, Table.best, Entry.exact_hits, decide_eq_true_eq]
  split_ifs <;> rfl

theorem packetLength_le (frame : List Byte) :
    packetLength frame > maxInnerFrame ↔ ¬ frame.length ≤ 65499 := by
  rw [gt_iff_lt, BitVec.lt_def, packetLength_toNat]
  simp [maxInnerFrame]

theorem packetLength_add {frame : List Byte} (h : frame.length ≤ 65499) (k : ℕ) :
    ((packetLength frame + BitVec.ofNat 32 k).setWidth 16) =
      BitVec.ofNat 16 (frame.length + k) := by
  apply BitVec.eq_of_toNat_eq
  have hp := packetLength_toNat frame
  rw [BitVec.toNat_setWidth, BitVec.toNat_add, hp, BitVec.toNat_ofNat, BitVec.toNat_ofNat]
  omega

theorem deparser_encap (innerEth : Ethernet) {frame : List Byte} (h : frame.length ≤ 65499)
    (sm : Metadata) (hs : sm.packetLength = packetLength frame) :
    myDeparser (myComputeChecksum (encap 2 0x000000000002 0x000000dead01 0xc0a80101 0xc0a80102
      5000 { innerEth := some innerEth } sm).1) =
      outer frame.length ++ Header.encode innerEth := by
  have hi : ((sm.packetLength + 36).setWidth 16) = BitVec.ofNat 16 (frame.length + 36) :=
    hs ▸ packetLength_add h 36
  have hu : ((sm.packetLength + 16).setWidth 16) = BitVec.ofNat 16 (frame.length + 16) :=
    hs ▸ packetLength_add h 16
  have hc := updateIpv4_eq (outerIpv4 frame.length) []
  have ho : optionsOf [] = none := rfl
  simp only [myDeparser, myComputeChecksum, encap, hi, hu]
  rw [ho, outerIpv4] at hc
  rw [hc]
  simp [outer, Ethernet.encode_eq, VxlanHeader.encode_eq, outerUdp, outerIpv4, typeIpv4]

/-- A frame that starts with an Ethernet header is encapsulated when it is short
enough and addressed to the tunnel, and dropped otherwise. -/
theorem forward_parsed (qdepth : Port → BitVec 19) (port : Port)
    (hf : frame = Header.encode innerEth ++ payload) :
    (endpoint vtepEntries).forward qdepth port frame =
      if frame.length ≤ 65499 ∧ innerEth.dstAddr = 0x000000111111 then
        [(2, outer frame.length ++ frame)]
      else [] := by
  have ha : (endpoint vtepEntries).Accepts port frame _ payload :=
    ⟨parse_ok.mpr ⟨innerEth, hf, rfl⟩, rfl⟩
  have hi := ha.runIngress (s := ())
  change _ = ((), if packetLength frame > maxInnerFrame then (_, markToDrop _)
    else applyAction ((vtepEntries.lookup innerEth.dstAddr).getD .drop) _ _) at hi
  rw [lookup_vtepEntries] at hi
  by_cases hl : frame.length ≤ 65499
  · rw [if_neg (fun h => (packetLength_le frame).mp h hl)] at hi
    by_cases hd : innerEth.dstAddr = 0x000000111111
    · rw [if_pos hd] at hi
      have hp : (2 : Port) ≠ dropPort := by decide
      have ho := ha.forward_unicast qdepth hi (fun _ _ => rfl) rfl hp
      have he := deparser_encap innerEth hl (V1Switch.arrival port frame) rfl
      rw [if_pos ⟨hl, hd⟩, ho]
      change [((2 : Port), myDeparser (myComputeChecksum (encap 2 _ _ _ _ _ _ _).1) ++ payload)] = _
      rw [he, List.append_assoc, ← hf]
    · rw [if_neg hd] at hi
      rw [if_neg (fun h => hd h.2)]
      exact V1Switch.forward_dropped (congrArg (·.2.2) hi)
  · rw [if_pos ((packetLength_le frame).mpr hl)] at hi
    rw [if_neg (fun h => hl h.1)]
    exact V1Switch.forward_dropped (congrArg (·.2.2) hi)

/-- The endpoint on every byte string. -/
theorem forward_eq (qdepth : Port → BitVec 19) (port : Port) (frame : List Byte) :
    (endpoint vtepEntries).forward qdepth port frame =
      if 14 ≤ frame.length ∧ frame.length ≤ 65499 ∧ dstMac frame = 0x000000111111 then
        [(2, outer frame.length ++ frame)]
      else [] := by
  by_cases hl : 14 ≤ frame.length
  · obtain ⟨innerEth, payload, hf⟩ : ∃ (e : Ethernet) (p : _), frame = Header.encode e ++ p :=
      Header.exists_encode_append (by simpa using hl)
    have hd : dstMac frame = 0x000000111111 ↔ innerEth.dstAddr = 0x000000111111 := by
      rw [hf, dstMac_encode]
      exact BitVec.toNat_inj (y := (0x000000111111 : BitVec 48))
    rw [forward_parsed qdepth port hf]
    simp only [hl, hd, true_and]
  · rw [if_neg (fun h => hl h.1)]
    rcases hp : (endpoint vtepEntries).parse port frame with ⟨e | _, payload, hdr⟩
    · exact V1Switch.forward_dropped (runIngress_error port hp)
    · obtain ⟨innerEth, hf, -⟩ := parse_ok.mp hp
      simp [hf] at hl

/-- The endpoint sends exactly the frames that fit and are addressed to the
tunnel, once, on port 2, as the oracle encapsulates them; the result carries the
frame unchanged, so no two frames leave as the same bytes. -/
theorem forward_eq_encapsulate (qdepth : Port → BitVec 19) (port : Port) (frame : List Byte) :
    ((endpoint vtepEntries).forward qdepth port frame ≠ [] ↔
      14 ≤ frame.length ∧ frame.length ≤ 65499 ∧ dstMac frame = 0x000000111111) ∧
    (∀ copy ∈ (endpoint vtepEntries).forward qdepth port frame,
      (endpoint vtepEntries).forward qdepth port frame = [copy] ∧ copy.1 = 2 ∧
        encapsulate frame = .ok copy.2 ∧ Carries copy.2 frame) ∧
    ∀ qdepth' port' frame', ∀ copy ∈ (endpoint vtepEntries).forward qdepth port frame,
      ∀ copy' ∈ (endpoint vtepEntries).forward qdepth' port' frame',
        copy.2 = copy'.2 → frame = frame' := by
  have hmem : ∀ qdepth port frame, ∀ copy ∈ (endpoint vtepEntries).forward qdepth port frame,
      (14 ≤ frame.length ∧ frame.length ≤ 65499) ∧ copy = (2, outer frame.length ++ frame) := by
    intro qdepth port frame copy hc
    rw [forward_eq] at hc
    split_ifs at hc with h
    · exact ⟨⟨h.1, h.2.1⟩, List.mem_singleton.mp hc⟩
    · simp at hc
  refine ⟨?_, ?_, ?_⟩
  · rw [forward_eq]
    split_ifs with h <;> simp [h]
  · intro copy hc
    obtain ⟨⟨h₁, h₂⟩, rfl⟩ := hmem qdepth port frame copy hc
    refine ⟨?_, rfl, encapsulate_eq h₁ h₂, carries_outer h₂⟩
    rw [forward_eq] at hc ⊢
    split_ifs at hc ⊢ with h
    · rfl
    · simp at hc
  · intro qdepth' port' frame' copy hc copy' hc' he
    obtain ⟨⟨-, h₂⟩, rfl⟩ := hmem qdepth port frame copy hc
    obtain ⟨⟨-, h₂'⟩, rfl⟩ := hmem qdepth' port' frame' copy' hc'
    have hk := (carries_outer h₂).inner_kept
    dsimp only at he
    rw [he, (carries_outer h₂').inner_kept] at hk
    exact hk.symm

end P4Cases.Vxlan
