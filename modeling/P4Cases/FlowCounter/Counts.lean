import P4Cases.FlowCounter.Switch

/-! What the registers count over a run, in terms of the bytes received, and the
check of two register snapshots against labelled probes. -/
namespace P4Cases.FlowCounter
open Wire P4

def registerSize : ℕ := 1024

def counterModulus : ℤ := 2 ^ 32

def flowSlot (frame : List Byte) : Py ℕ := do
  let b ← byteAt frame 14
  let start := 14 + (b &&& 15) * 4
  return crc16 (slice frame 26 34 ++ slice frame start (start + 4)) % registerSize

structure Probe where
  frame : List Byte
  counted : Bool

def validateSnapshot (values : List ℤ) : Py Unit :=
  if values.length ≠ registerSize ∨ ∃ value ∈ values, ¬ (0 ≤ value ∧ value < counterModulus) then
    throw (.runtimeError "register snapshot must contain all 1024 unsigned 32-bit values")
  else return ()

/-- One turn of the loop; both snapshots are known to have the slot by then. -/
def checkSlot (before after : List ℤ) (slots : List ℕ) (slot : ℕ) : Py Unit :=
  let actual := (after.getD slot 0 - before.getD slot 0) % counterModulus
  let expected := slots.count slot
  if actual ≠ expected then
    throw (.runtimeError s!"slot {slot} delta is {actual}, expected {expected}")
  else return ()

def checkCounts (before after : List ℤ) (probes : List Probe) : Py Unit := do
  validateSnapshot before
  validateSnapshot after
  let slots ← (probes.filter Probe.counted).mapM fun item => flowSlot item.frame
  (List.range registerSize).forM (checkSlot before after slots)

/-! The frames that are accepted, and those that are counted. -/

/-- Unfragmented UDP. -/
structure IsUdp (frame : List Byte) : Prop where
  protocol : Raw.protocol frame = 17
  moreFragments : Raw.moreFragments frame = 0
  fragOffset : Raw.fragOffset frame = 0

/-- The UDP header and its length fit into the packet. -/
structure UdpFits (frame : List Byte) : Prop where
  header_le : 4 * Raw.ihl frame + 8 ≤ Raw.totalLen frame
  eight_le : 8 ≤ Raw.udpLength frame
  length_le : Raw.udpLength frame ≤ Raw.totalLen frame - 4 * Raw.ihl frame

/-- A well-formed packet that stores the checksum recomputed over it. -/
structure AcceptableIpv4 (frame : List Byte) : Prop where
  wellFormed : WellFormedIpv4 frame
  checksum : recalculateChecksum frame = .ok frame
  udp : IsUdp frame → UdpFits frame

def Accepted (frame : List Byte) : Prop :=
  14 ≤ frame.length ∧ (etherType frame = 0x0800 → AcceptableIpv4 frame)

def Counted (frame : List Byte) : Prop :=
  etherType frame = 0x0800 ∧ AcceptableIpv4 frame ∧ IsUdp frame

section
variable (frame : List Byte)

instance : Decidable (IsUdp frame) :=
  decidable_of_iff (Raw.protocol frame = 17 ∧ Raw.moreFragments frame = 0 ∧
    Raw.fragOffset frame = 0) ⟨fun h => ⟨h.1, h.2.1, h.2.2⟩, fun h => ⟨h.1, h.2, h.3⟩⟩

instance : Decidable (UdpFits frame) :=
  decidable_of_iff (4 * Raw.ihl frame + 8 ≤ Raw.totalLen frame ∧ 8 ≤ Raw.udpLength frame ∧
    Raw.udpLength frame ≤ Raw.totalLen frame - 4 * Raw.ihl frame)
    ⟨fun h => ⟨h.1, h.2.1, h.2.2⟩, fun h => ⟨h.1, h.2, h.3⟩⟩

instance : Decidable (AcceptableIpv4 frame) :=
  decidable_of_iff (WellFormedIpv4 frame ∧ recalculateChecksum frame = .ok frame ∧
    (IsUdp frame → UdpFits frame)) ⟨fun h => ⟨h.1, h.2.1, h.2.2⟩, fun h => ⟨h.1, h.2, h.3⟩⟩

instance : Decidable (Accepted frame) := inferInstanceAs (Decidable (_ ∧ _))

instance : Decidable (Counted frame) := inferInstanceAs (Decidable (_ ∧ _))

end

variable {packet payload opts : List Byte} {eth : Ethernet} {ip : Ipv4} {udp : Option Udp}
  {hdr : Headers} {port : Port}

theorem isUdp_encode (eth : Ethernet) (ip : Ipv4) (rest : List Byte) :
    IsUdp (Header.encode eth ++ (Header.encode ip ++ rest)) ↔
      Unfragmented ip ∧ ip.protocol = 17 := by
  have hp : ip.protocol = 17 ↔ ip.protocol.toNat = 17 :=
    (BitVec.toNat_inj (y := (17 : BitVec 8))).symm
  rw [unfragmented_iff, hp]
  constructor
  · intro h
    obtain ⟨h₁, h₂, h₃⟩ := h
    simp only [Raw.protocol_encode, Raw.moreFragments_encode, Raw.fragOffset_encode] at h₁ h₂ h₃
    exact ⟨⟨h₂, h₃⟩, h₁⟩
  · intro h
    obtain ⟨⟨h₂, h₃⟩, h₁⟩ := h
    constructor <;>
      simpa only [Raw.protocol_encode, Raw.moreFragments_encode, Raw.fragOffset_encode]

theorem udpFits_encode (eth : Ethernet) (hi : 5 ≤ ip.ihl.toNat)
    (ho : opts.length = 4 * (ip.ihl.toNat - 5)) (udp : Udp) (payload : List Byte) :
    UdpFits (Header.encode eth ++ (Header.encode ip ++ (opts ++ (Header.encode udp ++ payload)))) ↔
      4 * ip.ihl.toNat + 8 ≤ ip.totalLen.toNat ∧ 8 ≤ udp.length.toNat ∧
        udp.length.toNat ≤ ip.totalLen.toNat - 4 * ip.ihl.toNat := by
  have hu := udpLength_encode eth hi ho udp payload
  constructor
  · intro h
    obtain ⟨h₁, h₂, h₃⟩ := h
    simp only [Raw.ihl_encode, Raw.totalLen_encode, hu] at h₁ h₂ h₃
    exact ⟨h₁, h₂, h₃⟩
  · intro h
    obtain ⟨h₁, h₂, h₃⟩ := h
    constructor <;> simpa only [Raw.ihl_encode, Raw.totalLen_encode, hu]

namespace Parsed

theorem isUdp_iff (h : Parsed packet eth ip opts udp payload) :
    IsUdp packet ↔ udp.isSome := by
  rw [h.bytes, isUdp_encode]
  have hu := h.udp
  cases udp with
  | none => exact iff_of_false hu (by simp)
  | some udp => exact iff_of_true ⟨hu.1, hu.2.1⟩ rfl

theorem etherType_eq (h : Parsed packet eth ip opts udp payload) : etherType packet = 0x0800 := by
  rw [h.bytes, etherType_encode, h.isIpv4]
  rfl

theorem acceptable (h : Parsed packet eth ip opts udp payload)
    (hc : ip.hdrChecksum = ipv4Checksum ip opts) : AcceptableIpv4 packet := by
  have hi := h.lengths.five_le_ihl
  have hl := h.lengths
  have hu := h.isUdp_iff
  have hok := h.udp
  have hfix := recalculateChecksum_fixed eth ip (udp.elim [] Header.encode ++ payload) hi h.options
  rw [h.bytes] at hl hu ⊢
  refine ⟨(wellFormedIpv4_encode eth ip _).mpr hl, hfix.mpr hc, ?_⟩
  intro hudp
  obtain ⟨u, rfl⟩ := Option.isSome_iff_exists.mp (hu.mp hudp)
  exact (udpFits_encode eth hi h.options u payload).mpr hok.2.2

theorem counted_iff (h : Parsed packet eth ip opts udp payload)
    (hc : ip.hdrChecksum = ipv4Checksum ip opts) : Counted packet ↔ udp.isSome := by
  rw [Counted, h.isUdp_iff]
  exact ⟨fun hs => hs.2.2, fun hs => ⟨h.etherType_eq, h.acceptable hc, hs⟩⟩

/-- The slot of the switch is the one the packet's bytes give. -/
theorem flowSlot_eq {udp : Udp} (h : Parsed packet eth ip opts (some udp) payload) :
    flowSlot packet = .ok (slotOf ip udp).toNat := by
  have hi := h.lengths.five_le_ihl
  have hl : 34 ≤ packet.length := by
    simp [h.bytes]
    omega
  have hb : (fieldAt packet 14 15 &&& 15) * 4 = 4 * ip.ihl.toNat := by
    rw [h.bytes, headerLen_encode]
  have ha : slice packet 26 34 = beBytes 4 ip.srcAddr.toNat ++ beBytes 4 ip.dstAddr.toNat := by
    rw [h.bytes]
    simp [Ethernet.encode_eq, Ipv4.encode_eq]
  have hp : slice packet (14 + 4 * ip.ihl.toNat) (14 + 4 * ip.ihl.toNat + 4) =
      beBytes 2 udp.srcPort.toNat ++ beBytes 2 udp.dstPort.toNat := by
    have hs := slice_transport eth (Header.encode udp ++ payload) hi h.options 0 4
    rw [Nat.add_zero] at hs
    rw [h.bytes]
    apply hs.trans
    simp [Udp.encode_eq]
  have hf : packBits (hashFields ip udp) = slice packet 26 34 ++
      slice packet (14 + 4 * ip.ihl.toNat) (14 + 4 * ip.ihl.toNat + 4) := by
    rw [ha, hp]
    simp [hashFields, packBits_toBits]
  rw [flowSlot, byteAt_eq (by omega)]
  simp only [bind, pure, Except.bind, Except.pure, hb]
  rw [← hf, crc16_eq, slotOf, hashCrc16, BitVec.toNat_ofNat]
  simp [registerSize]

end Parsed

/-- The parser and the checksum verification accept the IPv4 packets that are
acceptable as bytes. -/
theorem exists_parsed (ht : etherType packet = 0x0800) (h : AcceptableIpv4 packet) :
    ∃ eth ip opts udp payload, Parsed packet eth ip opts udp payload ∧
      ip.hdrChecksum = ipv4Checksum ip opts := by
  obtain ⟨hw, hc, hu⟩ := h
  obtain ⟨eth, ip, opts, rest, hp, ho, hok⟩ := hw.split
  have hi := hok.five_le_ihl
  have hty : eth.etherType = typeIpv4 := by
    rw [hp, etherType_encode] at ht
    exact BitVec.eq_of_toNat_eq ht
  rw [hp, recalculateChecksum_fixed eth ip rest hi ho] at hc
  rw [hp, isUdp_encode] at hu
  by_cases hudp : Unfragmented ip ∧ ip.protocol = 17
  · have hfits := hu hudp
    have hroom := hfits.header_le
    rw [Raw.ihl_encode, Raw.totalLen_encode] at hroom
    have hlen : packet.length = 34 + opts.length + rest.length := by
      simp [hp]
      omega
    have h₁ := hok.total_le
    obtain ⟨udp, payload, rfl⟩ : ∃ (u : Udp) (p : _), rest = Header.encode u ++ p := by
      apply Header.exists_encode_append
      rw [Udp.size]
      omega
    rw [udpFits_encode eth hi ho udp payload] at hfits
    exact ⟨eth, ip, opts, some udp, payload, ⟨hp, hty, hok, ho, hudp.1, hudp.2, hfits⟩, hc⟩
  · exact ⟨eth, ip, opts, none, rest, ⟨hp, hty, hok, ho, hudp⟩, hc⟩

end P4Cases.FlowCounter
