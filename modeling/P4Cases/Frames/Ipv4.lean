import P4Cases.Frames.Checksum
import P4Cases.Frames.View

/-! What the IPv4 programs have in common: the length checks of `parse_ipv4`, the
options, and the header checksum over both. -/
namespace P4Cases
open Wire P4

section Parser
variable {ε H : Type}

/-- The four checks every `parse_ipv4` makes. -/
def verifyLengths (badVersion badLength : ε) (version ihl : BitVec 4) (totalLen : BitVec 16)
    (packetLength : BitVec 32) : Parser ε H Unit := do
  Parser.verify (version = 4) badVersion
  Parser.verify (ihl ≥ 5) badLength
  Parser.verify (totalLen ≥ ihl.setWidth 16 * 4) badLength
  Parser.verify (totalLen.setWidth 32 ≤ packetLength - 14) badLength

def parseOptions (ihl : BitVec 4) (set : List Byte → H → H) (next : Parser ε H Unit) :
    Parser ε H Unit := do
  Parser.extractVarbit 320 ((ihl.setWidth 32 - 5) * 32).toNat set
  next

/-- A version 4 header whose lengths fit into each other and into a packet of
`size` bytes. -/
structure LengthsOk (version ihl : BitVec 4) (totalLen : BitVec 16) (size : ℕ) : Prop where
  isVersion4 : version = 4
  five_le_ihl : 5 ≤ ihl.toNat
  header_le : 4 * ihl.toNat ≤ totalLen.toNat
  total_le : totalLen.toNat + 14 ≤ size

/-- `MF` clear and offset zero. -/
def Unfragmented (ip : Ipv4) : Prop := ip.flags.extractLsb' 0 1 = 0 ∧ ip.fragOffset = 0

theorem unfragmented_iff (ip : Ipv4) :
    Unfragmented ip ↔ ip.flags.toNat % 2 = 0 ∧ ip.fragOffset.toNat = 0 := by
  have ho : ip.fragOffset = 0 ↔ ip.fragOffset.toNat = 0 :=
    (BitVec.toNat_inj (y := (0 : BitVec 13))).symm
  have hf : ip.flags.extractLsb' 0 1 = 0 ↔ ip.flags.toNat % 2 = 0 := by
    rw [← BitVec.toNat_inj]
    simp
  rw [Unfragmented, ho, hf]

theorem fragment_encode (eth : Ethernet) (ip : Ipv4) (rest : List Byte) :
    Raw.Fragment (Header.encode eth ++ (Header.encode ip ++ rest)) ↔ ¬ Unfragmented ip := by
  rw [unfragmented_iff, Raw.Fragment, Raw.moreFragments_encode, Raw.fragOffset_encode]
  tauto

theorem headerLen_toNat (ihl : BitVec 4) : (ihl.setWidth 16 * 4).toNat = 4 * ihl.toNat := by
  have hi := ihl.isLt
  rw [BitVec.toNat_mul, BitVec.toNat_setWidth]
  simp
  omega

theorem headerLen_add_le (ihl : BitVec 4) (totalLen : BitVec 16) {k : ℕ} (hk : k ≤ 1000) :
    totalLen ≥ ihl.setWidth 16 * 4 + BitVec.ofNat 16 k ↔ 4 * ihl.toNat + k ≤ totalLen.toNat := by
  have hi := ihl.isLt
  rw [ge_iff_le, BitVec.le_def, BitVec.toNat_add, headerLen_toNat, BitVec.toNat_ofNat]
  omega

theorem verifyLengths_ok {badVersion badLength : ε} {version ihl : BitVec 4}
    {totalLen : BitVec 16} {packet : List Byte} (hp : 14 ≤ packet.length) {c c' : Cursor H}
    {u : Unit} :
    verifyLengths badVersion badLength version ihl totalLen (packetLength packet) c =
        (.ok u, c') ↔
      LengthsOk version ihl totalLen packet.length ∧ c = c' := by
  have hi : ihl ≥ 5 ↔ 5 ≤ ihl.toNat := by
    rw [ge_iff_le, BitVec.le_def]
    rfl
  have hh : totalLen ≥ ihl.setWidth 16 * 4 ↔ 4 * ihl.toNat ≤ totalLen.toNat := by
    rw [ge_iff_le, BitVec.le_def, headerLen_toNat]
  have hl := le_packetLength_sub 14 hp (by omega) totalLen
  rw [verifyLengths, Parser.verify_bind_ok, Parser.verify_bind_ok, Parser.verify_bind_ok,
    Parser.verify_ok]
  simp only [decide_eq_true_eq]
  rw [hi, hh]
  constructor
  · rintro ⟨h₁, h₂, h₃, h₄, hc⟩
    exact ⟨⟨h₁, h₂, h₃, hl.mp h₄⟩, hc⟩
  · rintro ⟨⟨h₁, h₂, h₃, h₄⟩, hc⟩
    exact ⟨h₁, h₂, h₃, hl.mpr h₄, hc⟩

theorem verifyLengths_bind_ok {β : Type} {badVersion badLength : ε} {version ihl : BitVec 4}
    {totalLen : BitVec 16} {packet : List Byte} (hp : 14 ≤ packet.length)
    {k : Unit → Parser ε H β} {c c' : Cursor H} {b : β} :
    (verifyLengths badVersion badLength version ihl totalLen (packetLength packet) >>= k) c =
        (.ok b, c') ↔
      LengthsOk version ihl totalLen packet.length ∧ k () c = (.ok b, c') := by
  rw [Parser.bind_ok]
  constructor
  · rintro ⟨u, c₁, h, hk⟩
    obtain ⟨hok, rfl⟩ := (verifyLengths_ok hp).mp h
    exact ⟨hok, hk⟩
  · rintro ⟨hok, hk⟩
    exact ⟨(), c, (verifyLengths_ok hp).mpr ⟨hok, rfl⟩, hk⟩

theorem optionBits_toNat {ihl : BitVec 4} (hi : 5 ≤ ihl.toNat) :
    ((ihl.setWidth 32 - 5) * 32).toNat = 32 * (ihl.toNat - 5) := by
  have hlt := ihl.isLt
  rw [BitVec.toNat_mul, BitVec.toNat_sub, BitVec.toNat_setWidth]
  simp
  omega

/-- The options are as long as the fixed header says. -/
theorem parseOptions_ok {ihl : BitVec 4} (hi : 5 ≤ ihl.toNat) {set : List Byte → H → H}
    {next : Parser ε H Unit} {bs : List Byte} {hdr : H} {c' : Cursor H} {u : Unit} :
    parseOptions ihl set next ⟨bs, hdr⟩ = (.ok u, c') ↔
      ∃ opts rest, bs = opts ++ rest ∧ opts.length = 4 * (ihl.toNat - 5) ∧
        next ⟨rest, set opts hdr⟩ = (.ok u, c') := by
  have hlt := ihl.isLt
  rw [parseOptions, Parser.extractVarbit_bind_ok, optionBits_toNat hi]
  constructor
  · rintro ⟨-, -, opts, rest, hb, hl, hn⟩
    exact ⟨opts, rest, hb, by omega, hn⟩
  · rintro ⟨opts, rest, hb, hl, hn⟩
    exact ⟨by omega, by omega, opts, rest, hb, by omega, hn⟩

/-- Both branches on `ihl` skip the options; the header is set when there are any. -/
theorem selectOptions_ok {ihl : BitVec 4} (hi : 5 ≤ ihl.toNat) {set : List Byte → H → H}
    {next : Parser ε H Unit} {bs : List Byte} {c' : Cursor H} {u : Unit}
    (f : Option (List Byte) → H) (hset : ∀ opts, set opts (f none) = f (some opts)) :
    (if ihl = 5 then next else parseOptions ihl set next) ⟨bs, f none⟩ = (.ok u, c') ↔
      ∃ opts rest, bs = opts ++ rest ∧ opts.length = 4 * (ihl.toNat - 5) ∧
        next ⟨rest, f (optionsOf opts)⟩ = (.ok u, c') := by
  by_cases h5 : ihl = 5
  · rw [if_pos h5, h5]
    simp [optionsOf]
  · have hne : ihl.toNat ≠ 5 := fun h => h5 (BitVec.eq_of_toNat_eq h)
    rw [if_neg h5, parseOptions_ok hi]
    refine exists_congr fun opts => exists_congr fun rest => and_congr_right fun _ =>
      and_congr_right fun hl => ?_
    have ho : opts ≠ [] := List.ne_nil_of_length_pos (by omega)
    rw [optionsOf, if_neg ho, hset]

end Parser

/-! The same checks on the bytes of a frame. -/

/-- An IPv4 header with consistent lengths, in a frame that holds the packet. -/
structure WellFormedIpv4 (frame : List Byte) : Prop where
  version : Raw.version frame = 4
  five_le_ihl : 5 ≤ Raw.ihl frame
  header_le : 4 * Raw.ihl frame ≤ Raw.totalLen frame
  total_le : Raw.totalLen frame ≤ frame.length - 14

instance (frame : List Byte) : Decidable (WellFormedIpv4 frame) :=
  decidable_of_iff (Raw.version frame = 4 ∧ 5 ≤ Raw.ihl frame ∧
      4 * Raw.ihl frame ≤ Raw.totalLen frame ∧ Raw.totalLen frame ≤ frame.length - 14)
    ⟨fun h => ⟨h.1, h.2.1, h.2.2.1, h.2.2.2⟩, fun h => ⟨h.1, h.2, h.3, h.4⟩⟩

theorem WellFormedIpv4.length {frame : List Byte} (h : WellFormedIpv4 frame) :
    34 ≤ frame.length := by
  have h₁ := h.five_le_ihl
  have h₂ := h.header_le
  have h₃ := h.total_le
  omega

theorem wellFormedIpv4_encode (eth : Ethernet) (ip : Ipv4) (rest : List Byte) :
    WellFormedIpv4 (Header.encode eth ++ (Header.encode ip ++ rest)) ↔
      LengthsOk ip.version ip.ihl ip.totalLen
        (Header.encode eth ++ (Header.encode ip ++ rest)).length := by
  have hv : ip.version.toNat = 4 ↔ ip.version = 4 := BitVec.toNat_inj (y := (4 : BitVec 4))
  have hl : 14 ≤ (Header.encode eth ++ (Header.encode ip ++ rest)).length := by simp
  constructor
  · rintro ⟨h₁, h₂, h₃, h₄⟩
    simp only [Raw.version_encode, Raw.ihl_encode, Raw.totalLen_encode] at h₁ h₂ h₃ h₄
    exact ⟨hv.mp h₁, h₂, h₃, by omega⟩
  · rintro ⟨h₁, h₂, h₃, h₄⟩
    constructor <;> simp only [Raw.version_encode, Raw.ihl_encode, Raw.totalLen_encode]
    · exact hv.mpr h₁
    · exact h₂
    · exact h₃
    · omega

theorem exists_ipv4 {frame : List Byte} (h : 34 ≤ frame.length) :
    ∃ (eth : Ethernet) (ip : Ipv4) (rest : List Byte),
      frame = Header.encode eth ++ (Header.encode ip ++ rest) := by
  obtain ⟨eth, tail, rfl⟩ : ∃ (e : Ethernet) (tail : _), frame = Header.encode e ++ tail :=
    Header.exists_encode_append (le_trans (by simp) h)
  obtain ⟨ip, rest, rfl⟩ : ∃ (i : Ipv4) (rest : _), tail = Header.encode i ++ rest :=
    Header.exists_encode_append (by simp at h ⊢; omega)
  exact ⟨eth, ip, rest, rfl⟩

/-- A well-formed frame splits into its headers, the options and the rest. -/
theorem WellFormedIpv4.split {frame : List Byte} (h : WellFormedIpv4 frame) :
    ∃ (eth : Ethernet) (ip : Ipv4) (opts rest : List Byte),
      frame = Header.encode eth ++ (Header.encode ip ++ (opts ++ rest)) ∧
        opts.length = 4 * (ip.ihl.toNat - 5) ∧
        LengthsOk ip.version ip.ihl ip.totalLen frame.length := by
  obtain ⟨eth, ip, tail, hf⟩ := exists_ipv4 h.length
  have hok := (wellFormedIpv4_encode eth ip tail).mp (hf ▸ h)
  have hlen : frame.length = 34 + tail.length := by
    simp [hf]
    omega
  have ht := hok.total_le
  rw [← hf] at hok ht
  have h₁ := hok.header_le
  have h₂ := hok.five_le_ihl
  refine ⟨eth, ip, tail.take (4 * (ip.ihl.toNat - 5)), tail.drop (4 * (ip.ihl.toNat - 5)), ?_, ?_,
    hok⟩
  · rw [List.take_append_drop, hf]
  · rw [List.length_take]
    omega

/-- Offsets counted from the end of the IPv4 header, options included. -/
theorem slice_transport (eth : Ethernet) {ip : Ipv4} {opts : List Byte} (tail : List Byte)
    (hi : 5 ≤ ip.ihl.toNat) (ho : opts.length = 4 * (ip.ihl.toNat - 5)) (a b : ℕ) :
    slice (Header.encode eth ++ (Header.encode ip ++ (opts ++ tail)))
      (14 + 4 * ip.ihl.toNat + a) (14 + 4 * ip.ihl.toNat + b) = slice tail a b := by
  have hl : (Header.encode eth ++ (Header.encode ip ++ opts)).length =
      14 + 4 * ip.ihl.toNat := by
    simp
    omega
  have hassoc : Header.encode eth ++ (Header.encode ip ++ (opts ++ tail)) =
      (Header.encode eth ++ (Header.encode ip ++ opts)) ++ tail := by
    simp only [List.append_assoc]
  rw [hassoc, slice_append_right _ _ (by omega), hl, Nat.add_sub_cancel_left,
    Nat.add_sub_cancel_left]

theorem ports_encode (eth : Ethernet) {ip : Ipv4} {opts : List Byte} (hi : 5 ≤ ip.ihl.toNat)
    (ho : opts.length = 4 * (ip.ihl.toNat - 5)) (srcPort dstPort : BitVec 16) (tail : List Byte) :
    Raw.srcPort (Header.encode eth ++ (Header.encode ip ++ (opts ++
        (beBytes 2 srcPort.toNat ++ (beBytes 2 dstPort.toNat ++ tail))))) = srcPort.toNat ∧
      Raw.dstPort (Header.encode eth ++ (Header.encode ip ++ (opts ++
        (beBytes 2 srcPort.toNat ++ (beBytes 2 dstPort.toNat ++ tail))))) = dstPort.toNat := by
  have hs := slice_transport eth
    (beBytes 2 srcPort.toNat ++ (beBytes 2 dstPort.toNat ++ tail)) hi ho 0 2
  have hd := slice_transport eth
    (beBytes 2 srcPort.toNat ++ (beBytes 2 dstPort.toNat ++ tail)) hi ho 2 4
  rw [Nat.add_zero] at hs
  rw [Raw.srcPort, Raw.dstPort, Raw.ihl_encode, fieldAt, fieldAt, hs, hd]
  simp

theorem udpLength_encode (eth : Ethernet) {ip : Ipv4} {opts : List Byte} (hi : 5 ≤ ip.ihl.toNat)
    (ho : opts.length = 4 * (ip.ihl.toNat - 5)) (udp : Udp) (tail : List Byte) :
    Raw.udpLength (Header.encode eth ++ (Header.encode ip ++ (opts ++
      (Header.encode udp ++ tail)))) = udp.length.toNat := by
  have hs := slice_transport eth (Header.encode udp ++ tail) hi ho 4 6
  rw [Raw.udpLength, Raw.ihl_encode, fieldAt, hs]
  simp [Udp.encode_eq]

/-- The IPv4 header with its options. -/
theorem slice_ipv4 (eth : Ethernet) {ip : Ipv4} {opts : List Byte} (tail : List Byte)
    (hi : 5 ≤ ip.ihl.toNat) (ho : opts.length = 4 * (ip.ihl.toNat - 5)) :
    slice (Header.encode eth ++ (Header.encode ip ++ (opts ++ tail))) 14
      (14 + 4 * ip.ihl.toNat) = Header.encode ip ++ opts := by
  have hl : (Header.encode ip ++ opts).length = 4 * ip.ihl.toNat := by
    simp
    omega
  rw [slice_append_right _ _ (by simp), ← List.append_assoc, slice_append_left _ (by simp; omega)]
  simp only [Header.encode_length, Ethernet.size, Nat.sub_self, Nat.add_sub_cancel_left]
  rw [slice, List.drop_zero, Nat.sub_zero, ← hl, List.take_length]

/-! The rewrites of the oracles on the bytes of a frame. -/

theorem setMacs_encode (eth : Ethernet) (mac : BitVec 48) (rest : List Byte) :
    setSlice (setSlice (Header.encode eth ++ rest) 0 6 (beBytes 6 mac.toNat)) 6 12
      (slice (Header.encode eth ++ rest) 0 6) =
      Header.encode { eth with dstAddr := mac, srcAddr := eth.dstAddr } ++ rest := by
  simp [Ethernet.encode_eq]

theorem setTtl_encode (eth : Ethernet) (ip : Ipv4) (ttl : BitVec 8) (rest : List Byte) :
    setSlice (Header.encode eth ++ (Header.encode ip ++ rest)) 22 23 (beBytes 1 ttl.toNat) =
      Header.encode eth ++ (Header.encode { ip with ttl } ++ rest) := by
  simp [Ethernet.encode_eq, Ipv4.encode_eq]

theorem setChecksum_encode (eth : Ethernet) (ip : Ipv4) (c : BitVec 16) (rest : List Byte) :
    setSlice (Header.encode eth ++ (Header.encode ip ++ rest)) 24 26 (beBytes 2 c.toNat) =
      Header.encode eth ++ (Header.encode { ip with hdrChecksum := c } ++ rest) := by
  simp [Ethernet.encode_eq, Ipv4.encode_eq]

/-- The oracles' checksum is the one the programs store. -/
theorem recalculateChecksum_encode (eth : Ethernet) (ip : Ipv4) {opts : List Byte}
    (rest : List Byte) (hi : 5 ≤ ip.ihl.toNat) (ho : opts.length = 4 * (ip.ihl.toNat - 5)) :
    recalculateChecksum (Header.encode eth ++ (Header.encode ip ++ (opts ++ rest))) =
      .ok (Header.encode eth ++
        (Header.encode { ip with hdrChecksum := ipv4Checksum ip opts } ++ (opts ++ rest))) := by
  have hb := headerLen_encode eth ip (opts ++ rest)
  have hz : ([0, 0] : List Byte) = beBytes 2 (0 : BitVec 16).toNat := by decide
  have hs : slice (Header.encode eth ++ (Header.encode { ip with hdrChecksum := 0 } ++
      (opts ++ rest))) 14 (14 + 4 * ip.ihl.toNat) =
      Header.encode { ip with hdrChecksum := 0 } ++ opts := slice_ipv4 eth rest hi ho
  rw [recalculateChecksum, byteAt_eq (by simp)]
  simp only [bind, pure, Except.bind, Except.pure]
  rw [hb, max_eq_right (by omega), hz, setChecksum_encode, hs, checksum_eq, ← ipv4Checksum_eq,
    setChecksum_encode]

/-- Recomputing the checksum changes nothing exactly when the stored one is right. -/
theorem recalculateChecksum_fixed (eth : Ethernet) (ip : Ipv4) {opts : List Byte}
    (rest : List Byte) (hi : 5 ≤ ip.ihl.toNat) (ho : opts.length = 4 * (ip.ihl.toNat - 5)) :
    recalculateChecksum (Header.encode eth ++ (Header.encode ip ++ (opts ++ rest))) =
        .ok (Header.encode eth ++ (Header.encode ip ++ (opts ++ rest))) ↔
      ip.hdrChecksum = ipv4Checksum ip opts := by
  rw [recalculateChecksum_encode eth ip rest hi ho, Except.ok.injEq]
  constructor
  · intro h
    have he := (Header.encode_append_inj.mp (List.append_cancel_left h)).1
    exact (congrArg Ipv4.hdrChecksum he).symm
  · intro h
    rw [← h]

end P4Cases
