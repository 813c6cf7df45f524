import P4Cases.FlowCounter.Labels

/-! All batches of the flow counter's test are built, and their labels are right. -/
namespace P4Cases.FlowCounter
open Wire P4 Control Builder

theorem nops_fit {n : ℕ} (h : n ≤ 10) :
    (nops (4 * n)).length % 4 = 0 ∧ (nops (4 * n)).length ≤ 40 := by
  rw [nops, List.length_replicate]
  omega

section
variable {prefixBytes : List Byte} (hp : prefixBytes.length = 4) (sender : Host)
include hp

/-- A UDP packet with options and a payload of its own. -/
theorem udp_adds {options : List Byte} {payloadSize : ℤ}
    (ho : options.length % 4 = 0 ∧ options.length ≤ 40)
    (hs : 0 ≤ payloadSize ∧ payloadSize ≤ 1472) :
    Adds (TestProbe.Correct prefixBytes) 65535 1
      (add prefixBytes { sender, options, payloadSize }) :=
  (counted_adds hp ⟨ho, hs, by simp, by simp, by simp, by simp, by simp, by simp⟩ rfl rfl rfl rfl
    rfl (by simp)).imp fun _ h => h.1

theorem repeatedProbes_adds :
    Adds (TestProbe.Correct prefixBytes) 65535 30 (repeatedProbes prefixBytes sender) := by
  have hall : ∀ turn < 3, (([[], nops 4, nops 40].getD turn []).length % 4 = 0 ∧
      ([[], nops 4, nops 40].getD turn []).length ≤ 40) ∧
      0 ≤ ([24, 127, 1024] : List ℤ).getD turn 0 ∧
        ([24, 127, 1024] : List ℤ).getD turn 0 ≤ 1472 := by decide
  have hturn : ∀ turn, Adds (TestProbe.Correct prefixBytes) 65535 1
      (add prefixBytes
        { sender, options := [[], nops 4, nops 40].getD (turn % 3) []
          payloadSize := [24, 127, 1024].getD (turn % 3) 0 }) := by
    intro turn
    obtain ⟨ho, hs⟩ := hall (turn % 3) (Nat.mod_lt _ (by omega))
    exact udp_adds hp sender ho hs
  unfold repeatedProbes
  exact Adds.of_eq (Adds.forM fun turn _ => hturn turn) (by decide)

theorem fieldProbes_adds :
    Adds (TestProbe.Correct prefixBytes) 65535 16 (fieldProbes prefixBytes sender) := by
  have hfit : ∀ field, ∀ value < 4, (changed sender field value).Fits := by
    intro field value hv
    cases field <;> constructor <;> simp [changed, nops] <;> omega
  have hadd : ∀ field, ∀ value < 4, Adds (TestProbe.Correct prefixBytes) 65535 1
      (add prefixBytes (changed sender field value)) := by
    intro field value hv
    refine Adds.imp (counted_adds hp (hfit field value hv) ?_ ?_ ?_ ?_ ?_ ?_) fun _ h => h.1
    all_goals cases field <;> simp [changed]
  unfold fieldProbes
  refine Adds.of_eq (Adds.forM fun field _ => Adds.forM fun value hv =>
    hadd field value (List.mem_range.mp hv)) ?_
  decide

/-- A UDP packet with flags, a lifetime or a missing checksum of its own. -/
theorem variant_adds {udpChecksum : Bool} {flags ttl : ℤ} (hf : flags = 0 ∨ flags = 0x4000)
    (ht : 0 ≤ ttl ∧ ttl < 256) :
    Adds (TestProbe.Correct prefixBytes) 65535 1
      (add prefixBytes { sender, udpChecksum, flags, ttl }) := by
  refine Adds.imp (counted_adds hp ⟨by simp, by simp, by simp, by simp, ht, ?_, by simp, by simp⟩
    rfl rfl rfl rfl rfl ?_) fun _ h => h.1
  · rcases hf with rfl | rfl <;> simp
  · rcases hf with rfl | rfl <;> simp

omit sender in
theorem flows_adds : Adds (TestProbe.Correct prefixBytes) 65535 104 (flows prefixBytes) := by
  have hsize : ∀ sender, ∀ payloadSize ∈ [(0 : ℤ), 1472],
      Adds (TestProbe.Correct prefixBytes) 65535 1 (add prefixBytes { sender, payloadSize }) := by
    intro sender payloadSize hs
    simp only [List.mem_cons, List.not_mem_nil, or_false] at hs
    exact udp_adds hp sender (by decide) (by omega)
  have hlifetime : ∀ sender, ∀ ttl ∈ [(0 : ℤ), 1],
      Adds (TestProbe.Correct prefixBytes) 65535 1 (add prefixBytes { sender, ttl }) := by
    intro sender ttl ht
    simp only [List.mem_cons, List.not_mem_nil, or_false] at ht
    exact variant_adds hp sender (Or.inl rfl) (by omega)
  unfold flows
  exact Adds.of_eq (Adds.forM fun sender _ => Adds.seq (repeatedProbes_adds hp sender)
    (Adds.seq (fieldProbes_adds hp sender) (Adds.seq (Adds.forM (hsize sender))
      (Adds.seq (variant_adds hp sender (Or.inl rfl) (by decide))
        (Adds.seq (variant_adds hp sender (Or.inr rfl) (by decide))
          (Adds.forM (hlifetime sender)))))))
    (by decide)

/-! Flows that share a slot. -/

/-- A packet of the flow that the addresses and the source port make, in its slot. -/
theorem slot_adds {source destination : Option (BitVec 32)} {port turn target : ℕ}
    (hport : port < 65536)
    (hs : hashSlot (source.getD sender.ip) (destination.getD sender.other.ip) port 2222 =
      .ok target) :
    Adds (fun item => item.Correct prefixBytes ∧ item.counted = true ∧
        flowSlot item.frame = .ok target) 65535 1
      (add prefixBytes
        { sender, source, destination, sport := port, options := nops (4 * (turn % 3)) }) := by
  have hfits : Call.Fits { sender, source, destination, sport := port
                           options := nops (4 * (turn % 3)) } :=
    ⟨nops_fit (by omega), by simp, by simp; omega, by simp, by simp, by simp, by simp, by simp⟩
  refine Adds.imp (counted_adds hp hfits rfl rfl rfl rfl rfl (by simp)) fun item h => ?_
  exact ⟨h.1, h.2.1, h.2.2.trans hs⟩

/-- Two flows of one slot. -/
theorem collidingProbes_adds (target : ℕ) (ht : target < registerSize) (sizes : ℕ × ℕ) :
    Adds (TestProbe.Correct prefixBytes) 65535 (sizes.1 + sizes.2)
      (collidingProbes prefixBytes sender target sizes) := by
  obtain ⟨p, q, hports, -, hlt, hq, hslot, hslot', -⟩ :=
    portsForSlot_total sender.ip sender.other.ip target ⟨Int.natCast_nonneg _, Int.ofNat_lt.mpr ht⟩
  rw [Int.toNat_natCast] at hslot hslot'
  unfold collidingProbes
  refine Adds.lift hports ?_
  have hflow : ∀ flow : ℕ × ℕ, flow.1 < 65536 →
      hashSlot sender.ip sender.other.ip flow.1 2222 = .ok target →
      Adds (TestProbe.Correct prefixBytes) 65535 flow.2
        ((List.range flow.2).forM fun turn => add prefixBytes
          { sender, sport := flow.1, options := nops (4 * (turn % 3)) }) := by
    intro flow hf hs
    have hturn : ∀ turn : ℕ, Adds (TestProbe.Correct prefixBytes) 65535 1
        (add prefixBytes { sender, sport := flow.1, options := nops (4 * (turn % 3)) }) :=
      fun turn => (@slot_adds _ hp sender none none flow.1 turn target hf hs).imp fun _ h => h.1
    refine Adds.of_eq (Adds.forM fun turn _ => hturn turn) ?_
    rw [List.length_range, Nat.mul_one]
  exact Adds.of_eq (Adds.seq (hflow (p, sizes.1) (by dsimp only; omega) hslot)
    (Adds.seq (hflow (q, sizes.2) (by dsimp only; omega) hslot') Adds.pure)) (by omega)

/-! Frames that are not counted. -/

/-- A fragment of a datagram. -/
theorem fragment_adds {protocol : ℤ} {datagramId piece : ℕ} {transport : List Byte}
    (h17 : 0 ≤ protocol ∧ protocol < 256) (hid : datagramId < 65536) (hpiece : piece < 3)
    (ht : transport.length ≤ 1500) :
    Adds (TestProbe.Correct prefixBytes) 65535 1
      (add prefixBytes
        { sender, protocol, datagramId := some (datagramId : ℤ), counted := false
          options := nops 4, flags := (piece * 2 ||| (if piece < 2 then 0x2000 else 0) : ℕ)
          transport := some transport }) := by
  have hflags : ∀ piece < 3, (piece * 2 ||| (if piece < 2 then 0x2000 else 0) : ℕ) < 65536 ∧
      ¬ ((piece * 2 ||| (if piece < 2 then 0x2000 else 0) : ℕ) / 8192 % 2 = 0 ∧
        (piece * 2 ||| (if piece < 2 then 0x2000 else 0) : ℕ) % 8192 = 0) := by decide
  obtain ⟨hlt, hword⟩ := hflags piece hpiece
  refine uncounted_adds hp ⟨by simp [nops], by simp, by simp, h17, by simp,
    ⟨Int.natCast_nonneg _, Int.ofNat_lt.mpr hlt⟩, ?_, ?_⟩ rfl rfl rfl fun h => hword h.2
  · rintro _ ⟨⟩
    exact ht
  · rintro _ ⟨⟩
    exact ⟨Int.natCast_nonneg _, Int.ofNat_lt.mpr hid⟩

theorem fragmentProbes_adds {protocol : ℤ} (h17 : 0 ≤ protocol ∧ protocol < 256) :
    Adds (TestProbe.Correct prefixBytes) 65535 3 (fragmentProbes prefixBytes sender protocol) := by
  refine Adds.count fun n hn => ?_
  have hfits : FrameArgs.Fits
      { prefixBytes, identification := (n + 1 : ℕ), sender := sender.number, protocol
        payloadSize := if protocol = 17 then 40 else 28 } := by
    have hid : n + 1 < 65536 := by omega
    refine ⟨hp, ?_, by simp, ?_, ⟨Int.natCast_nonneg _, Int.ofNat_lt.mpr hid⟩, by simp, h17,
      by simp, by simp, by simp, by simp⟩
    · change sender.number = 1 ∨ sender.number = 2
      cases sender <;> simp [Host.number]
    · dsimp only
      split_ifs <;> decide
  obtain ⟨-, whole, hwhole, -⟩ := makeFrame_holds hfits
  have hpiece : ∀ piece ∈ List.range 3, (slice (slice whole 34 82) (16 * piece)
      (16 * (piece + 1))).length ≤ 1500 := by
    intro piece _
    rw [slice, List.length_take]
    omega
  refine Adds.lift hwhole (Adds.of_eq (Adds.forM fun piece hmem =>
    fragment_adds hp sender h17 (by omega) (List.mem_range.mp hmem) (hpiece piece hmem)) ?_)
  rfl

theorem uncountedProbes_adds :
    Adds (TestProbe.Correct prefixBytes) 65535 12 (uncountedProbes prefixBytes sender) := by
  have hprotocol : ∀ protocol ∈ [(6 : ℤ), 1, 253], Adds (TestProbe.Correct prefixBytes) 65535 1
      (add prefixBytes { sender, protocol, counted := false, options := nops 4 }) := by
    intro protocol hmem
    simp only [List.mem_cons, List.not_mem_nil, or_false] at hmem
    refine uncounted_adds hp ⟨by simp [nops], by simp, by simp, ?_, by simp, by simp, by simp,
      by simp⟩ rfl rfl rfl fun h => ?_
    · dsimp only
      omega
    · have h17 : protocol.toNat = 17 := h.1
      omega
  have hempty : Adds (TestProbe.Correct prefixBytes) 65535 1
      (add prefixBytes { sender, protocol := 253, payloadSize := 0, counted := false }) :=
    uncounted_adds hp ⟨by simp, by simp, by simp, by simp, by simp, by simp, by simp, by simp⟩ rfl
      rfl rfl (by simp)
  have hplain : ∀ transform, Call.Fits { sender, counted := false, transform } := fun _ =>
    ⟨by simp, by simp, by simp, by simp, by simp, by simp, by simp, by simp⟩
  have hforeign : Adds (TestProbe.Correct prefixBytes) 65535 1
      (add prefixBytes { sender, counted := false, transform := notIpv4 }) := by
    refine foreign_adds hp (hplain _) rfl rfl fun sequence segment frame _ hframe =>
      ⟨_, rfl, ?_, ?_, ?_⟩
    · have hl := hframe.length
      simp
      omega
    · have hl := hframe.length
      rw [List.append_assoc, slice_append_left _ (by rw [List.length_take]; omega),
        slice_take _ (by omega)]
    · have hl : (frame.take 12).length = 12 := by
        have hl := hframe.length
        rw [List.length_take]
        omega
      rw [etherType, fieldAt, List.append_assoc, slice_append_right _ _ hl.le, hl,
        slice_append_left _ (by decide)]
      decide
  have harp : Adds (TestProbe.Correct prefixBytes) 65535 1
      (add prefixBytes { sender, counted := false, transform := arp sender }) := by
    refine foreign_adds hp (hplain _) rfl rfl fun sequence segment frame _ hframe =>
      ⟨_, rfl, ?_, ?_, ?_⟩
    · rw [ljust_length]
      omega
    · have hs : (slice frame 6 12).length = 6 := by
        have hl := hframe.length
        rw [slice_length (by omega)]
      have hb : (List.replicate 6 (0xff : Byte)).length = 6 := rfl
      rw [ljust, List.append_assoc, List.append_assoc, List.append_assoc,
        slice_append_right _ _ (by omega), hb, slice_append_left _ (by omega),
        slice_slice _ (by omega)]
    · have hs : (List.replicate 6 (0xff : Byte) ++ slice frame 6 12).length = 12 := by
        have hl := hframe.length
        rw [List.length_append, slice_length (by omega)]
        rfl
      rw [etherType, fieldAt, ljust, List.append_assoc, List.append_assoc,
        slice_append_right _ _ hs.le, hs, slice_append_left _ (by decide)]
      decide
  have hfragments : ∀ protocol ∈ [(17 : ℤ), 6], Adds (TestProbe.Correct prefixBytes) 65535 3
      (fragmentProbes prefixBytes sender protocol) := by
    intro protocol hmem
    simp only [List.mem_cons, List.not_mem_nil, or_false] at hmem
    exact fragmentProbes_adds hp sender (by omega)
  unfold uncountedProbes
  exact Adds.of_eq (Adds.seq (Adds.forM hprotocol) (Adds.seq hempty (Adds.seq hforeign
    (Adds.seq harp (Adds.forM hfragments))))) (by decide)

/-! Frames that are not forwarded. -/

/-- The first byte of the header says another version or length. -/
theorem badVersion_adds {value : Byte}
    (h : ¬ (value.toNat / 16 = 4 ∧ 5 ≤ value.toNat % 16 ∧ value.toNat % 16 ≤ 13)) :
    Adds (TestProbe.Correct prefixBytes) 65535 1
      (add prefixBytes { bad sender with transform := replaced 14 [value] }) := by
  have ho : (bad sender).options.length = 0 := rfl
  refine replaced_adds hp ⟨rfl, by simp [bad]⟩ (by simp) (by simp)
    fun segment frame out hf hs hi ht hudp hl hdata hkeep hacc => h ?_
  have hfirst : fieldAt out 14 15 = value.toNat := by
    rw [fieldAt, show slice out 14 15 = [value] from hdata]
    simp [beNat]
  have htotal : Raw.totalLen out = Raw.totalLen frame := by
    rw [Raw.totalLen, Raw.totalLen, fieldAt, fieldAt,
      hkeep 16 18 (by simp) (by simp)]
  obtain ⟨hversion, hihl, hheader, -⟩ := hacc.wellFormed
  rw [Raw.version, hfirst] at hversion
  rw [Raw.ihl, hfirst] at hihl hheader
  omega

theorem badTotal_adds {options : List Byte} {value : ℕ}
    (ho : options.length % 4 = 0 ∧ options.length ≤ 40) (hv : value < 65536)
    (h : value < 20 + options.length ∨ 52 + options.length < value) :
    Adds (TestProbe.Correct prefixBytes) 65535 1
      (add prefixBytes
        { bad sender with options, transform := replaced 16 (beBytes 2 value) }) := by
  refine replaced_adds hp ho (by simp) (by simp)
    fun segment frame out hf hs hi ht hudp hl hdata hkeep hacc => ?_
  have htotal : Raw.totalLen out = value := by
    rw [beBytes_length] at hdata
    rw [Raw.totalLen, fieldAt, hdata, beNat_beBytes_of_lt (by simpa using hv)]
  have hihl : Raw.ihl out = Raw.ihl frame := by
    rw [Raw.ihl, Raw.ihl, fieldAt, fieldAt, hkeep 14 15 (by simp) (by simp)]
  have hheader := hacc.wellFormed.header_le
  have hfits := hacc.wellFormed.total_le
  omega

theorem badUdpLength_adds {value : ℕ} (hv : value < 65536) (h : value < 8 ∨ 32 < value) :
    Adds (TestProbe.Correct prefixBytes) 65535 1
      (add prefixBytes { bad sender with transform := replaced 38 (beBytes 2 value) }) := by
  have ho : (bad sender).options.length = 0 := rfl
  refine replaced_adds hp ⟨rfl, by simp [bad]⟩ (by simp) (by simp)
    fun segment frame out hf hs hi ht hudp hl hdata hkeep hacc => ?_
  have hbyte : ∀ i j, 14 ≤ i → j ≤ 24 → fieldAt out i j = fieldAt frame i j := by
    intro i j _ hj
    rw [fieldAt, fieldAt, hkeep i j (Or.inl (by omega)) (Or.inl hj)]
  have hihl : Raw.ihl out = Raw.ihl frame := by
    rw [Raw.ihl, Raw.ihl, hbyte 14 15 (by omega) (by omega)]
  have htotal : Raw.totalLen out = Raw.totalLen frame := hbyte 16 18 (by omega) (by omega)
  have hlength : Raw.udpLength out = value := by
    rw [beBytes_length] at hdata
    have hword : slice out (14 + (20 + 0) + 4) (14 + (20 + 0) + 6) = beBytes 2 value := hdata
    rw [Raw.udpLength, hihl, hi, ho, fieldAt, hword, beNat_beBytes_of_lt (by simpa using hv)]
  obtain ⟨hproto, hmore, hoffset⟩ := hudp
  have hsame : IsUdp out := by
    refine ⟨?_, ?_, ?_⟩
    · rw [← hproto, Raw.protocol, Raw.protocol, hbyte 23 24 (by omega) (by omega)]
    · rw [← hmore, Raw.moreFragments, Raw.moreFragments, hbyte 20 22 (by omega) (by omega)]
    · rw [← hoffset, Raw.fragOffset, Raw.fragOffset, hbyte 20 22 (by omega) (by omega)]
  obtain ⟨-, height, hfits⟩ := hacc.udp hsame
  omega

/-- A frame that is cut off within its packet. -/
theorem truncated_adds {options : List Byte} {n : ℕ}
    (ho : options.length % 4 = 0 ∧ options.length ≤ 40) (hn : 18 ≤ n ∧ n < 66 + options.length) :
    Adds (TestProbe.Correct prefixBytes) 65535 1
      (add prefixBytes
        { bad sender with options, transform := fun frame => .ok (frame.take n) }) := by
  refine bad_adds hp ⟨ho, by simp [bad], by simp [bad], by simp [bad], by simp [bad],
    by simp [bad], by simp [bad], by simp [bad]⟩ rfl rfl fun sequence segment frame hs hframe =>
      ⟨_, rfl, ?_, fun i j hj => slice_take _ (by omega), fun hacc => ?_⟩
  · have hl := hframe.length
    rw [List.length_take]
    omega
  · obtain ⟨hsize, -, -⟩ := hs.udp rfl rfl
    have htotal : Raw.totalLen frame = 52 + options.length := by
      have hsize : segment.length = 32 := hsize
      rw [hframe.totalLen, hsize]
      change 20 + options.length + 32 = _
      omega
    have hfits := hacc.wellFormed.total_le
    rw [Raw.totalLen, fieldAt, slice_take _ (by omega), ← fieldAt, ← Raw.totalLen, htotal,
      List.length_take] at hfits
    omega

/-- A checksum with a wrong bit. -/
theorem flipped_adds {options : List Byte}
    (ho : options.length % 4 = 0 ∧ options.length ≤ 40) :
    Adds (TestProbe.Correct prefixBytes) 65535 1
      (add prefixBytes { bad sender with options, transform := flipped }) := by
  refine bad_adds hp ⟨ho, by simp [bad], by simp [bad], by simp [bad], by simp [bad],
    by simp [bad], by simp [bad], by simp [bad]⟩ rfl rfl fun sequence segment frame hs hframe => ?_
  have hl : 60 ≤ frame.length := by
    rw [hframe.length]
    exact le_max_left _ _
  have ht : (frame.take 24).length = 24 := by
    rw [List.length_take]
    omega
  have hone : (beBytes 1 (fieldAt frame 24 25 ^^^ 1)).length = 1 := beBytes_length _ _
  have hfront : (frame.take 24 ++ beBytes 1 (fieldAt frame 24 25 ^^^ 1)).length = 25 := by
    rw [List.length_append, ht, hone]
  refine ⟨frame.take 24 ++ beBytes 1 (fieldAt frame 24 25 ^^^ 1) ++ frame.drop 25, ?_, ?_, ?_, ?_⟩
  · change flipped frame = _
    rw [flipped, byteAt_eq (by omega)]
    rfl
  · rw [List.length_append, hfront]
    omega
  · intro i j hj
    rw [List.append_assoc, slice_append_left _ (by omega), slice_take _ (by omega)]
  · intro hacc
    -- The checksum that is recomputed is that of the frame before the change.
    have hsame : recalculateChecksum (frame.take 24 ++ beBytes 1 (fieldAt frame 24 25 ^^^ 1) ++
        frame.drop 25) = recalculateChecksum frame := by
      refine recalculateChecksum_congr ?_ (by omega) ?_ ?_
      · rw [List.length_append, hfront]
        omega
      · rw [List.append_assoc, List.take_left' ht]
      · rw [List.drop_append, hfront, List.drop_eq_nil_of_le (by omega), List.nil_append,
          List.drop_drop]
    have heq := Except.ok.inj ((hsame.symm.trans hacc.checksum).symm.trans hframe.checksum)
    have hnew : ∀ byte : List Byte, byte.length = 1 →
        slice (frame.take 24 ++ byte ++ frame.drop 25) 24 25 = byte := by
      intro byte hb
      rw [List.append_assoc, slice_append_right _ _ ht.le, ht, slice_append_left _ (by omega),
        slice, Nat.sub_self, List.drop_zero]
      exact List.take_of_length_le hb.le
    have hbyte := congrArg (fun bytes => beNat (slice bytes 24 25)) heq
    have hlt : fieldAt frame 24 25 < 256 := by
      have hlt := beNat_lt (slice frame 24 25)
      rwa [slice_length (by omega)] at hlt
    have hxor : ∀ v < 256, v ^^^ 1 < 256 ∧ v ^^^ 1 ≠ v := by decide +kernel
    obtain ⟨hsmall, hne⟩ := hxor _ hlt
    simp only [hnew _ hone, beNat_beBytes_of_lt (show _ < 256 ^ 1 by simpa using hsmall)] at hbyte
    exact hne hbyte

theorem badHeaderProbes_adds :
    Adds (TestProbe.Correct prefixBytes) 65535 9 (badHeaderProbes prefixBytes sender) := by
  have hflipped : ∀ options ∈ [[], nops 40], Adds (TestProbe.Correct prefixBytes) 65535 1
      (add prefixBytes { bad sender with options, transform := flipped }) := by
    intro options hmem
    refine flipped_adds hp sender ?_
    simp only [List.mem_cons, List.not_mem_nil, or_false] at hmem
    rcases hmem with rfl | rfl <;> decide
  unfold badHeaderProbes
  exact Adds.of_eq (Adds.seq (badVersion_adds hp sender (by decide))
    (Adds.seq (badVersion_adds hp sender (by decide))
    (Adds.seq (badVersion_adds hp sender (by decide))
    (Adds.seq (badTotal_adds hp sender (by decide) (by decide) (by decide))
    (Adds.seq (badTotal_adds hp sender ⟨rfl, by simp [bad]⟩ (by decide) (Or.inr (by simp [bad])))
    (Adds.seq (truncated_adds hp sender ⟨rfl, by simp [bad]⟩ ⟨by decide, by simp [bad]⟩)
    (Adds.seq (truncated_adds hp sender (by decide) (by decide))
    (Adds.forM hflipped)))))))) (by decide)

theorem badUdpProbes_adds :
    Adds (TestProbe.Correct prefixBytes) 65535 3 (badUdpProbes prefixBytes sender) := by
  have hshort : Adds (TestProbe.Correct prefixBytes) 65535 1
      (add prefixBytes { bad sender with transport := some (List.replicate 7 0) }) := by
    refine bad_adds hp ⟨by simp [bad], by simp [bad], by simp [bad], by simp [bad],
      by simp [bad], by simp [bad], by simp, by simp [bad]⟩ rfl rfl
      fun sequence segment frame hs hframe =>
        ⟨frame, rfl, ?_, fun _ _ _ => rfl, fun hacc => ?_⟩
    · rw [hframe.length]
      omega
    · have hudp : IsUdp frame := (isUdp_of_holds hframe).mpr (by simp [Call.frameArgs, bad])
      have hsegment : segment = List.replicate 7 0 := hs.given _ rfl
      have htotal := hframe.totalLen
      have hihl := hframe.ihl
      have hroom := (hacc.udp hudp).header_le
      rw [hsegment, List.length_replicate] at htotal
      omega
  have hlength : ∀ length ∈ [7, 80], Adds (TestProbe.Correct prefixBytes) 65535 1
      (add prefixBytes { bad sender with transform := replaced 38 (beBytes 2 length) }) := by
    intro length hmem
    simp only [List.mem_cons, List.not_mem_nil, or_false] at hmem
    exact badUdpLength_adds hp sender (by omega) (by omega)
  unfold badUdpProbes
  exact Adds.of_eq (Adds.seq hshort (Adds.forM hlength)) (by decide)

omit sender in
theorem excluded_adds : Adds (TestProbe.Correct prefixBytes) 65535 48 (excluded prefixBytes) := by
  unfold excluded
  exact Adds.of_eq (Adds.forM fun sender _ => Adds.seq (uncountedProbes_adds hp sender)
    (Adds.seq (badHeaderProbes_adds hp sender) (badUdpProbes_adds hp sender))) (by decide)

/-! The batches. -/

/-- All packets of the last batch are counted in the slot that is to wrap around. -/
theorem wrapping_adds :
    Adds (fun item => item.Correct prefixBytes ∧ item.counted = true ∧
        flowSlot item.frame = .ok 0) 65535 32
      (wrapping prefixBytes) := by
  obtain ⟨p, q, hports, -, hlt, hq, hslot, -⟩ :=
    portsForSlot_total Host.h1.ip Host.h2.ip 0 ⟨le_refl 0, by decide⟩
  rw [Int.toNat_zero] at hslot
  have haddress : ∀ sender : Host, hashSlot ((some Host.h1.ip).getD sender.ip)
      ((some Host.h2.ip).getD sender.other.ip) p 2222 = .ok 0 := fun _ => hslot
  have hsender : ∀ sender : Host,
      Adds (fun item => item.Correct prefixBytes ∧ item.counted = true ∧
        flowSlot item.frame = .ok 0) 65535 16
        ((List.range 16).forM fun turn => add prefixBytes
          { sender, source := some Host.h1.ip, destination := some Host.h2.ip, sport := p
            options := nops (4 * (turn % 3)) }) := fun sender =>
    Adds.of_eq (Adds.forM fun turn _ => slot_adds hp sender (by omega) (haddress sender))
      (by decide)
  have hboth : Adds (fun item => item.Correct prefixBytes ∧ item.counted = true ∧
        flowSlot item.frame = .ok 0) 65535 32
      ([Host.h1, .h2].forM fun sender => (List.range 16).forM fun turn => add prefixBytes
        { sender, source := some Host.h1.ip, destination := some Host.h2.ip, sport := p
          options := nops (4 * (turn % 3)) }) :=
    Adds.of_eq (Adds.forM fun sender _ => hsender sender) (by decide)
  rw [wrapping, hports]
  exact hboth

theorem collisions_adds :
    Adds (TestProbe.Correct prefixBytes) 65535 32 (collisions prefixBytes) :=
  Adds.of_eq (Adds.seq (collidingProbes_adds hp .h1 1023 (by decide) (7, 11))
    (collidingProbes_adds hp .h2 0 (by decide) (5, 9))) rfl

/-- What `make_batches` returns. -/
structure Batches (prefixBytes : List Byte) (batches : List (String × List TestProbe)) : Prop where
  correct : ∀ batch ∈ batches, ∀ item ∈ batch.2, item.Correct prefixBytes
  shape : batches.map (fun batch => (batch.1, batch.2.length)) =
    [("udp-flows", 104), ("collisions", 32), ("excluded-and-malformed", 48), ("wraparound", 32)]
  wrap : ∀ batch ∈ batches, batch.1 = "wraparound" → ∀ item ∈ batch.2,
    item.counted = true ∧ flowSlot item.frame = .ok 0

/-- The batches are built for every marker, and every label is right. -/
theorem makeBatches_total : ∃ batches, makeBatches prefixBytes = .ok batches ∧
    Batches prefixBytes batches := by
  obtain ⟨flows, hflows, hgood, hcount⟩ :=
    @Adds.batch _ _ _ _ _ _ (flows_adds hp) "udp-flows" [] (by simp)
  obtain ⟨collisions, hcollisions, hcollide, hcount₂⟩ :=
    @Adds.batch _ _ _ _ _ _ (collisions_adds hp) "collisions" ([] ++ flows) (by simp [hcount])
  obtain ⟨excluded, hexcluded, hplain, hcount₃⟩ :=
    @Adds.batch _ _ _ _ _ _ (excluded_adds hp) "excluded-and-malformed"
      ([] ++ flows ++ collisions) (by simp [hcount, hcount₂])
  obtain ⟨wrapping, hwrapping, hwrap, hcount₄⟩ :=
    @Adds.batch _ _ _ _ _ _ (wrapping_adds hp) "wraparound"
      ([] ++ flows ++ collisions ++ excluded) (by simp [hcount, hcount₂, hcount₃])
  refine ⟨[("udp-flows", flows), ("collisions", collisions), ("excluded-and-malformed", excluded),
    ("wraparound", wrapping)], ?_, ?_⟩
  · rw [makeBatches, raiseIf_pass (not_not.mpr hp)]
    rw [StateT.run_bind, hflows, py_ok_bind, StateT.run_bind, hcollisions, py_ok_bind,
      StateT.run_bind, hexcluded, py_ok_bind, StateT.run_bind, hwrapping, py_ok_bind,
      StateT.run_pure]
    rfl
  · constructor
    · simp only [List.forall_mem_cons, List.not_mem_nil, false_implies, implies_true, and_true]
      exact ⟨hgood, hcollide, hplain, fun item h => (hwrap item h).1⟩
    · simp [hcount, hcount₂, hcount₃, hcount₄]
    · simpa using fun item h => (hwrap item h).2

end
end P4Cases.FlowCounter
