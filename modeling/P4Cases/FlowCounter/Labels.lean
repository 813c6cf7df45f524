import P4Cases.Frames.Framed
import P4Cases.FlowCounter.Batches

/-! The labels of the test's probes are right: a probe is marked as forwarded or counted
exactly when the switch forwards or counts it. -/
namespace P4Cases.FlowCounter
open Wire P4 Control Builder

/-- Arguments that raise nothing. -/
structure FrameArgs.Fits (a : FrameArgs) : Prop where
  marked : a.prefixBytes.length = 4
  sender : a.sender = 1 ∨ a.sender = 2
  options : a.options.length % 4 = 0 ∧ a.options.length ≤ 40
  payload : 0 ≤ a.payloadSize ∧ a.payloadSize ≤ 1472
  identification : 0 ≤ a.identification ∧ a.identification < 65536
  ports : (0 ≤ a.sport ∧ a.sport < 65536) ∧ 0 ≤ a.dport ∧ a.dport < 65536
  protocol : 0 ≤ a.protocol ∧ a.protocol < 256
  ttl : 0 ≤ a.ttl ∧ a.ttl < 256
  flags : 0 ≤ a.flags ∧ a.flags < 65536
  transport : ∀ segment, a.transport = some segment → segment.length ≤ 1500
  datagramId : ∀ id, a.datagramId = some id → 0 ≤ id ∧ id < 65536

/-- What stands behind the header of a generated packet. -/
structure FrameArgs.Segment (a : FrameArgs) (segment : List Byte) : Prop where
  given : ∀ bytes, a.transport = some bytes → segment = bytes
  udp : a.transport = none → a.protocol = 17 →
    segment.length = 8 + a.payloadSize.toNat ∧ fieldAt segment 4 6 = segment.length ∧
      slice segment 0 4 = beBytes 2 a.sport.toNat ++ beBytes 2 a.dport.toNat

def FrameArgs.sourceIp (a : FrameArgs) : BitVec 32 := a.source.getD (hostIp a.sender)

def FrameArgs.targetIp (a : FrameArgs) : BitVec 32 := a.destination.getD (hostIp (3 - a.sender))

/-- A generated frame. -/
abbrev FrameArgs.Frame (a : FrameArgs) (segment frame : List Byte) : Prop :=
  HoldsIpv4 frame (hostMacs (3 - a.sender) ++ a.prefixBytes ++ beBytes 2 a.identification.toNat)
    a.options segment (beBytes 4 a.sourceIp.toNat) (beBytes 4 a.targetIp.toNat) a.flags.toNat
    a.protocol.toNat

variable {a : FrameArgs}

theorem payload_length (a : FrameArgs) (h : 0 ≤ a.payloadSize ∧ a.payloadSize ≤ 1472) :
    a.payload.length = a.payloadSize.toNat := by
  have hascii : (ascii "register:").length = 9 := by decide
  rw [FrameArgs.payload, List.length_take]
  simp [hascii]
  omega

/-- The segment that `make_frame` puts together. -/
theorem segment_total (h : a.Fits) : ∃ segment,
    (match a.transport with
      | some transport => .ok transport
      | none => buildTransport a.protocol a.sport a.dport a.identification [] a.payload
          (beBytes 4 a.sourceIp.toNat) (beBytes 4 a.targetIp.toNat) a.udpChecksum : Py _) =
        .ok segment ∧ segment.length ≤ 1600 ∧ a.Segment segment := by
  have hsize := payload_length a h.payload
  have hmax := h.payload.2
  cases ht : a.transport with
  | some bytes =>
    have hl := h.transport bytes ht
    exact ⟨bytes, rfl, by omega, fun _ hb => Option.some.inj (ht.symm.trans hb),
      fun hnone => absurd (ht.symm.trans hnone) (by simp)⟩
  | none =>
    obtain ⟨segment, hsegment, hl⟩ : ∃ segment, buildTransport a.protocol a.sport a.dport
        a.identification [] a.payload (beBytes 4 a.sourceIp.toNat) (beBytes 4 a.targetIp.toNat)
        a.udpChecksum = .ok segment ∧ segment.length ≤ a.payload.length + 62 := by
      have hid := h.identification
      exact buildTransport_total h.protocol h.ports.1 h.ports.2 (by omega) (by simp)
        (by omega) a.udpChecksum
    refine ⟨segment, hsegment, by omega, fun _ hb => absurd (ht.symm.trans hb) (by simp),
      fun _ hp => ?_⟩
    obtain ⟨header, hbytes, hok, -⟩ := buildTransport_ok rfl (beBytes_length 4 _)
      (beBytes_length 4 _) hsegment
    obtain ⟨hheader, hlength⟩ := hok.udp hp
    have hports := buildTransport_ports (Or.inl hp) hsegment
    refine ⟨?_, ?_, ?_⟩
    · rw [hbytes, List.length_append, hheader, hsize]
    · have hfield : fieldAt segment 4 6 = fieldAt header 4 6 := by
        rw [hbytes, fieldAt, slice_append_left _ (by omega), ← fieldAt]
      rw [hfield, hlength, hbytes, List.length_append, hheader]
    · rw [slice, List.drop_zero]
      exact hports

/-- Arguments that fit give a frame. -/
theorem makeFrame_holds (h : a.Fits) : ∃ segment frame, makeFrame a = .ok frame ∧
    a.Segment segment ∧ a.Frame segment frame := by
  obtain ⟨segment, hsegment, hl, hs⟩ := segment_total h
  have hid : 0 ≤ a.datagramId.getD a.identification ∧
      a.datagramId.getD a.identification < 65536 := by
    cases hd : a.datagramId with
    | some id => exact h.datagramId id hd
    | none => exact h.identification
  obtain ⟨header, hheader⟩ : ∃ header, ipv4Header (a.datagramId.getD a.identification) a.flags
      a.ttl a.protocol (beBytes 4 a.sourceIp.toNat) (beBytes 4 a.targetIp.toNat) a.options
      segment.length = .ok header :=
    ipv4Header_total hid h.flags h.ttl h.protocol h.options.2 (by omega)
  have hlabel : packInts [(2, a.identification)] = .ok (beBytes 2 a.identification.toNat) :=
    packInts_single.mpr ⟨by simpa using h.identification, rfl⟩
  have hmacs : (hostMacs (3 - a.sender) ++ a.prefixBytes ++
      beBytes 2 a.identification.toNat).length = 12 := by
    simp [hostMacs, h.marked]
  have hshort : 14 < (hostMacs (3 - a.sender) ++ a.prefixBytes ++
      beBytes 2 a.identification.toNat ++ [0x08, 0x00] ++ header ++ segment).length := by
    obtain ⟨-, rfl⟩ := ipv4Header_ok h.options.1 h.options.2 (beBytes_length 4 _)
      (beBytes_length 4 _) hheader
    simp [hostMacs]
    omega
  obtain ⟨frame, hframe⟩ := recalculateChecksum_total hshort
  refine ⟨segment, ljust 60 frame, ?_, hs, holdsIpv4_ok hmacs h.options.1 h.options.2
    (beBytes_length 4 _) (beBytes_length 4 _) hheader hframe⟩
  have hargs : ¬ (a.prefixBytes.length ≠ 4 ∨ ¬ (a.sender = 1 ∨ a.sender = 2) ∨
      a.options.length % 4 ≠ 0 ∨ a.options.length > 40 ∨
      ¬ (0 ≤ a.payloadSize ∧ a.payloadSize ≤ 1472)) := by
    rintro (hm | hs | ho | hl | hp)
    · exact hm h.marked
    · exact hs h.sender
    · exact ho h.options.1
    · exact absurd h.options.2 (not_le.mpr hl)
    · exact hp h.payload
  rw [makeFrame, raiseIf_pass hargs]
  dsimp only
  rw [hlabel, py_ok_bind]
  dsimp only [FrameArgs.payload, FrameArgs.sourceIp, FrameArgs.targetIp] at hsegment hheader
  cases ht : a.transport with
  | some bytes =>
    rw [ht] at hsegment
    obtain rfl := Except.ok.inj hsegment
    dsimp only
    rw [py_ok_bind, hheader, py_ok_bind, hframe, py_ok_bind]
    rfl
  | none =>
    rw [ht] at hsegment
    dsimp only at hsegment ⊢
    rw [hsegment, py_ok_bind, hheader, py_ok_bind, hframe, py_ok_bind]
    rfl

/-! What the switch makes of a generated frame. -/

section
variable {frame macs options segment source target : List Byte} {fragment protocol : ℕ}
  (h : HoldsIpv4 frame macs options segment source target fragment protocol)
include h

theorem isUdp_of_holds :
    IsUdp frame ↔ protocol = 17 ∧ fragment / 8192 % 2 = 0 ∧ fragment % 8192 = 0 := by
  constructor
  · rintro ⟨hp, hm, ho⟩
    rw [Raw.moreFragments, h.fragment] at hm
    rw [Raw.fragOffset, h.fragment] at ho
    exact ⟨h.protocol.symm.trans hp, hm, ho⟩
  · rintro ⟨hp, hm, ho⟩
    refine ⟨h.protocol.trans hp, ?_, ?_⟩
    · rw [Raw.moreFragments, h.fragment, hm]
    · rw [Raw.fragOffset, h.fragment, ho]

theorem acceptable_of_holds : AcceptableIpv4 frame ↔ (IsUdp frame → UdpFits frame) :=
  ⟨fun ha => ha.udp, fun hu => ⟨h.wellFormed, h.checksum, hu⟩⟩

theorem accepted_of_holds : Accepted frame ↔ (IsUdp frame → UdpFits frame) := by
  have hl : 14 ≤ frame.length := by
    rw [h.length]
    omega
  rw [Accepted, ← acceptable_of_holds h]
  exact ⟨fun ha => ha.2 h.etherType, fun ha => ⟨hl, fun _ => ha⟩⟩

theorem counted_of_holds : Counted frame ↔ IsUdp frame ∧ UdpFits frame := by
  rw [Counted, acceptable_of_holds h]
  exact ⟨fun hc => ⟨hc.2.2, hc.2.1 hc.2.2⟩, fun hc => ⟨h.etherType, fun _ => hc.2, hc.1⟩⟩

/-- A segment that gives its own length fits. -/
theorem udpFits_of_holds (hs : 8 ≤ segment.length) (hf : fieldAt segment 4 6 = segment.length) :
    UdpFits frame := by
  have hi := h.ihl
  have ht := h.totalLen
  have hu : Raw.udpLength frame = segment.length := by
    have hseg := h.segment 4 6 (by omega)
    rw [Raw.udpLength, hi, fieldAt, ← Nat.add_assoc, hseg, ← hf, fieldAt]
  exact ⟨by omega, by omega, by omega⟩

/-- The slot of a packet is that of its addresses and ports. -/
theorem flowSlot_of_holds {ports : List Byte} (hs : 4 ≤ segment.length)
    (hp : slice segment 0 4 = ports) :
    flowSlot frame = .ok (crc16 (source ++ target ++ ports) % registerSize) := by
  have hl : 14 < frame.length := by
    rw [h.length]
    omega
  have hb : (fieldAt frame 14 15 &&& 15) * 4 = 20 + options.length := by
    rw [Nat.and_two_pow_sub_one_eq_mod _ 4, Nat.mul_comm]
    exact h.ihl
  have hports : slice frame (14 + (20 + options.length)) (14 + (20 + options.length) + 4) =
      ports := by
    have hseg := h.segment 0 4 hs
    rw [Nat.add_zero] at hseg
    rw [← Nat.add_assoc, hseg, hp]
  rw [flowSlot, byteAt_eq hl, py_ok_bind]
  dsimp only
  rw [hb, h.addresses, hports]
  rfl

end

/-- The labels say what the switch does, and the frame has the marker. -/
structure TestProbe.Correct (prefixBytes : List Byte) (item : TestProbe) : Prop where
  complete : 14 ≤ item.frame.length
  marked : slice item.frame 6 10 = prefixBytes
  receiver : item.receiver = item.sender.other
  allowed : item.allowed = true ↔ Accepted item.frame
  counted : item.counted = true ↔ Counted item.frame

/-- Arguments of `add` that raise nothing. -/
structure Call.Fits (call : Call) : Prop where
  options : call.options.length % 4 = 0 ∧ call.options.length ≤ 40
  payload : 0 ≤ call.payloadSize ∧ call.payloadSize ≤ 1472
  ports : (0 ≤ call.sport ∧ call.sport < 65536) ∧ 0 ≤ call.dport ∧ call.dport < 65536
  protocol : 0 ≤ call.protocol ∧ call.protocol < 256
  ttl : 0 ≤ call.ttl ∧ call.ttl < 256
  flags : 0 ≤ call.flags ∧ call.flags < 65536
  transport : ∀ segment, call.transport = some segment → segment.length ≤ 1500
  datagramId : ∀ id, call.datagramId = some id → 0 ≤ id ∧ id < 65536

section
variable {prefixBytes : List Byte} {call : Call} {P : TestProbe → Prop}

/-- The probe that a call adds when its frame is `frame`. -/
def Call.probe (call : Call) (frame : List Byte) : TestProbe where
  frame
  counted := call.counted
  sender := call.sender
  receiver := call.sender.other
  allowed := call.allowed

theorem Call.Fits.frameArgs (h : call.Fits) (hp : prefixBytes.length = 4) {sequence : ℕ}
    (hs : sequence < 65536) : (call.frameArgs prefixBytes sequence).Fits where
  marked := hp
  sender := by
    change call.sender.number = 1 ∨ call.sender.number = 2
    cases call.sender <;> simp [Host.number]
  options := h.options
  payload := h.payload
  identification := ⟨Int.natCast_nonneg _, Int.ofNat_lt.mpr hs⟩
  ports := h.ports
  protocol := h.protocol
  ttl := h.ttl
  flags := h.flags
  transport := h.transport
  datagramId := h.datagramId

/-- One call adds one probe, and neither `make_frame` nor the change raises anything. -/
theorem add_adds (hp : prefixBytes.length = 4) (hf : call.Fits)
    (h : ∀ sequence segment frame, (call.frameArgs prefixBytes sequence).Segment segment →
      (call.frameArgs prefixBytes sequence).Frame segment frame →
      ∃ out, call.transform frame = .ok out ∧ P (call.probe out)) :
    Adds P 65535 1 (add prefixBytes call) := by
  refine Adds.count fun n hn => ?_
  obtain ⟨segment, frame, hframe, hsegment, hholds⟩ :=
    makeFrame_holds (hf.frameArgs hp (show n + 1 < 65536 by omega))
  obtain ⟨out, hout, hgood⟩ := h (n + 1) segment frame hsegment hholds
  exact Adds.lift hframe (Adds.lift hout (Adds.push hgood))

/-- The marker stands behind the address of the receiver. -/
theorem FrameArgs.Frame.marked {a : FrameArgs} {segment frame : List Byte}
    (h : a.Frame segment frame) (hp : a.prefixBytes.length = 4) :
    slice frame 6 10 = a.prefixBytes := by
  have hmacs := congrArg (fun macs => slice macs 6 10) h.macs
  rw [slice_slice _ (by omega)] at hmacs
  rw [show slice frame 6 10 = slice frame (0 + 6) (0 + 10) from rfl, hmacs, List.append_assoc,
    hostMacs, slice_skip _ _ _ (by omega), slice_append_left _ hp.ge, slice, List.drop_zero]
  exact List.take_of_length_le hp.le

theorem Call.sourceIp_eq (call : Call) (sequence : ℕ) :
    (call.frameArgs prefixBytes sequence).sourceIp = call.source.getD call.sender.ip := rfl

theorem Call.targetIp_eq (call : Call) (sequence : ℕ) :
    (call.frameArgs prefixBytes sequence).targetIp =
      call.destination.getD call.sender.other.ip := by
  change call.destination.getD (hostIp (3 - call.sender.number)) = _
  cases call.sender <;> rfl

/-- What a call adds that changes nothing about its frame. -/
theorem plain_adds (hp : prefixBytes.length = 4) (hf : call.Fits)
    (ht : call.transform = Except.ok)
    (h : ∀ sequence segment frame, (call.frameArgs prefixBytes sequence).Segment segment →
      (call.frameArgs prefixBytes sequence).Frame segment frame →
      (call.allowed = true ↔ Accepted frame) ∧ (call.counted = true ↔ Counted frame) ∧
        P (call.probe frame)) :
    Adds (fun item => item.Correct prefixBytes ∧ P item) 65535 1 (add prefixBytes call) := by
  refine add_adds hp hf fun sequence segment frame hsegment hframe => ?_
  obtain ⟨ha, hc, hP⟩ := h sequence segment frame hsegment hframe
  have hl : 14 ≤ frame.length := by
    rw [hframe.length]
    omega
  exact ⟨frame, by rw [ht], ⟨hl, hframe.marked hp, rfl, ha, hc⟩, hP⟩

/-- A packet that is counted, in the slot that the test predicts. -/
theorem counted_adds (hp : prefixBytes.length = 4) (hf : call.Fits)
    (ht : call.transform = Except.ok) (ha : call.allowed = true) (hc : call.counted = true)
    (hg : call.transport = none) (h17 : call.protocol = 17)
    (hw : call.flags.toNat / 8192 % 2 = 0 ∧ call.flags.toNat % 8192 = 0) :
    Adds (fun item => item.Correct prefixBytes ∧ item.counted = true ∧
        flowSlot item.frame = hashSlot (call.source.getD call.sender.ip)
          (call.destination.getD call.sender.other.ip) call.sport.toNat call.dport.toNat)
      65535 1 (add prefixBytes call) := by
  refine plain_adds hp hf ht fun sequence segment frame hsegment hframe => ?_
  obtain ⟨hl, hfield, hports⟩ := hsegment.udp hg h17
  have hudp : IsUdp frame := by
    refine (isUdp_of_holds hframe).mpr ⟨?_, hw⟩
    change call.protocol.toNat = 17
    rw [h17]
    rfl
  have hfits : UdpFits frame := udpFits_of_holds hframe (by omega) hfield
  have hslot := flowSlot_of_holds hframe (by omega) hports
  refine ⟨?_, ?_, hc, ?_⟩
  · exact iff_of_true ha ((accepted_of_holds hframe).mpr fun _ => hfits)
  · exact iff_of_true hc ((counted_of_holds hframe).mpr ⟨hudp, hfits⟩)
  · have hs := hf.ports
    change flowSlot frame = _
    rw [hslot, hashSlot, packWord, packWord, if_pos (by omega), if_pos (by omega),
      Call.sourceIp_eq, Call.targetIp_eq]
    rfl

/-- A packet that is forwarded and not counted: no UDP packet, or a fragment. -/
theorem uncounted_adds (hp : prefixBytes.length = 4) (hf : call.Fits)
    (ht : call.transform = Except.ok) (ha : call.allowed = true) (hc : call.counted = false)
    (hn : ¬ (call.protocol.toNat = 17 ∧ call.flags.toNat / 8192 % 2 = 0 ∧
      call.flags.toNat % 8192 = 0)) :
    Adds (TestProbe.Correct prefixBytes) 65535 1 (add prefixBytes call) := by
  have hplain : Adds (fun item => item.Correct prefixBytes ∧ True) 65535 1
      (add prefixBytes call) := by
    refine plain_adds hp hf ht fun sequence segment frame _ hframe => ?_
    have hudp : ¬ IsUdp frame := fun h => hn ((isUdp_of_holds hframe).mp h)
    refine ⟨iff_of_true ha ((accepted_of_holds hframe).mpr fun h => absurd h hudp), ?_, trivial⟩
    exact iff_of_false (by simp [hc]) fun h => hudp ((counted_of_holds hframe).mp h).1
  exact hplain.imp fun _ h => h.1

/-- A frame that the switch does not accept: it still is an IPv4 frame, and no valid one. -/
theorem bad_adds (hp : prefixBytes.length = 4) (hf : call.Fits) (ha : call.allowed = false)
    (hc : call.counted = false)
    (h : ∀ sequence segment frame, (call.frameArgs prefixBytes sequence).Segment segment →
      (call.frameArgs prefixBytes sequence).Frame segment frame →
      ∃ out, call.transform frame = .ok out ∧ 14 ≤ out.length ∧
        (∀ i j, j ≤ 14 → slice out i j = slice frame i j) ∧ ¬ AcceptableIpv4 out) :
    Adds (TestProbe.Correct prefixBytes) 65535 1 (add prefixBytes call) := by
  refine add_adds hp hf fun sequence segment frame hsegment hframe => ?_
  obtain ⟨out, hout, hl, hkeep, hbad⟩ := h sequence segment frame hsegment hframe
  have htype : etherType out = 0x0800 := by
    rw [etherType, fieldAt, hkeep 12 14 (le_refl 14)]
    exact hframe.etherType
  refine ⟨out, hout, hl, ?_, rfl, ?_, ?_⟩
  · exact (hkeep 6 10 (by omega)).trans (hframe.marked hp)
  · exact iff_of_false (by simp [Call.probe, ha]) fun h => hbad (h.2 htype)
  · exact iff_of_false (by simp [Call.probe, hc]) fun h => hbad h.2.1

/-- A frame that is no IPv4 frame any more. -/
theorem foreign_adds (hp : prefixBytes.length = 4) (hf : call.Fits) (ha : call.allowed = true)
    (hc : call.counted = false)
    (h : ∀ sequence segment frame, (call.frameArgs prefixBytes sequence).Segment segment →
      (call.frameArgs prefixBytes sequence).Frame segment frame →
      ∃ out, call.transform frame = .ok out ∧ 14 ≤ out.length ∧
        slice out 6 10 = slice frame 6 10 ∧ etherType out ≠ 0x0800) :
    Adds (TestProbe.Correct prefixBytes) 65535 1 (add prefixBytes call) := by
  refine add_adds hp hf fun sequence segment frame hsegment hframe => ?_
  obtain ⟨out, hout, hl, hkeep, htype⟩ := h sequence segment frame hsegment hframe
  refine ⟨out, hout, hl, hkeep.trans (hframe.marked hp), rfl, ?_, ?_⟩
  · exact iff_of_true ha ⟨hl, fun h => absurd h htype⟩
  · exact iff_of_false (by simp [Call.probe, hc]) fun h => htype h.1

/-- Bytes of a packet replaced, with a new checksum. -/
theorem replaced_adds {sender : Host} {options data : List Byte} {offset : ℕ}
    (hp : prefixBytes.length = 4) (ho : options.length % 4 = 0 ∧ options.length ≤ 40)
    (hoff : 14 ≤ offset ∧ offset + data.length ≤ 42)
    (hsum : offset + data.length ≤ 24 ∨ 26 ≤ offset)
    (h : ∀ segment frame out : List Byte, frame.length = 66 + options.length →
      segment.length = 32 → 4 * Raw.ihl frame = 20 + options.length →
      Raw.totalLen frame = 52 + options.length → IsUdp frame → out.length = frame.length →
      slice out offset (offset + data.length) = data →
      (∀ i j, (j ≤ offset ∨ offset + data.length ≤ i) → (j ≤ 24 ∨ 26 ≤ i) →
        slice out i j = slice frame i j) → ¬ AcceptableIpv4 out) :
    Adds (TestProbe.Correct prefixBytes) 65535 1
      (add prefixBytes { bad sender with options, transform := replaced offset data }) := by
  refine bad_adds hp ⟨ho, by simp [bad], by simp [bad], by simp [bad], by simp [bad],
    by simp [bad], by simp [bad], by simp [bad]⟩ rfl rfl fun sequence segment frame hs hframe => ?_
  obtain ⟨hsize, -, -⟩ := hs.udp rfl rfl
  have hsize : segment.length = 32 := hsize
  have hlen := hframe.length
  have hopt : (Call.frameArgs { bad sender with options, transform := replaced offset data }
    prefixBytes sequence).options = options := rfl
  rw [hopt, hsize] at hlen
  have hset : frame.take offset ++ data ++ frame.drop (offset + data.length) =
      setSlice frame offset (offset + data.length) data := rfl
  have hset_len : (setSlice frame offset (offset + data.length) data).length = frame.length :=
    setSlice_length (by omega) (by omega) (by omega)
  obtain ⟨out, hout, hl, hkeep⟩ := @recalculateChecksum_slices
    (setSlice frame offset (offset + data.length) data) (by omega)
  have hslices : ∀ i j, (j ≤ offset ∨ offset + data.length ≤ i) → (j ≤ 24 ∨ 26 ≤ i) →
      slice out i j = slice frame i j := by
    intro i j hij hij'
    rw [hkeep i j hij', slice_setSlice (by omega) (by omega) (by omega) hij]
  have hudp : IsUdp frame := (isUdp_of_holds hframe).mpr (by simp [Call.frameArgs, bad])
  refine ⟨out, (congrArg recalculateChecksum hset).trans hout, by omega, ?_, ?_⟩
  · intro i j hj
    exact hslices i j (Or.inl (by omega)) (Or.inl (by omega))
  · refine h segment frame out (by omega) hsize hframe.ihl ?_ hudp (by omega) ?_ hslices
    · rw [hframe.totalLen, hopt, hsize]
      omega
    · rw [hkeep _ _ hsum, slice_setSlice_self (by omega) (by omega)]

end
end P4Cases.FlowCounter
