import P4Cases.FlowCounter.Counts

/-! Runs over any interleaving of arrivals: each slot counts its packets, and the
check of the snapshots is exact. -/
namespace P4Cases.FlowCounter
open Wire P4

/-- The port an arrival is sent on. -/
def crossPort (port : Port) : Option Port :=
  if port = 1 then some 2 else if port = 2 then some 1 else none

/-- What the switch sends for an arrival. -/
def sent (arrival : Port × List Byte) : List (Port × List Byte) :=
  if Accepted arrival.2 then (crossPort arrival.1).toList.map fun out => (out, arrival.2) else []

/-- An arrival that slot `s` counts. -/
def Tallied (s : ℕ) (arrival : Port × List Byte) : Prop :=
  (arrival.1 = 1 ∨ arrival.1 = 2) ∧ Counted arrival.2 ∧ flowSlot arrival.2 = .ok s

instance (s : ℕ) (arrival : Port × List Byte) : Decidable (Tallied s arrival) :=
  inferInstanceAs (Decidable (_ ∧ _))

/-- `k_s`: how many of the arrivals slot `s` counts. -/
def tally (s : ℕ) (arrivals : List (Port × List Byte)) : ℕ :=
  arrivals.countP fun arrival => decide (Tallied s arrival)

variable {packet payload : List Byte} {hdr : Headers} {port : Port}

theorem accepts_iff : counter.Accepts port packet hdr payload ↔
    (∃ eth : Ethernet, packet = Header.encode eth ++ payload ∧ eth.etherType ≠ typeIpv4 ∧
      hdr = { ethernet := some eth }) ∨
    ∃ eth ip opts udp, Parsed packet eth ip opts udp payload ∧
      ip.hdrChecksum = ipv4Checksum ip opts ∧
      hdr = { beforeUdp eth ip (optionsOf opts) with udp := udp } := by
  have hv : ∀ (ip : Ipv4) (opts : List Byte),
      verifyIpv4 (some ip) (optionsOf opts) = false ↔ ip.hdrChecksum = ipv4Checksum ip opts := by
    intro ip opts
    rw [verifyIpv4_eq, decide_eq_false_iff_not, not_not]
  rw [V1Switch.Accepts, parse_ok]
  constructor
  · intro h
    obtain ⟨h | h, hc⟩ := h
    · exact Or.inl h
    · obtain ⟨eth, ip, opts, udp, hp, rfl⟩ := h
      exact Or.inr ⟨eth, ip, opts, udp, hp, (hv ip opts).mp hc, rfl⟩
  · intro h
    rcases h with ⟨eth, hp, ht, rfl⟩ | ⟨eth, ip, opts, udp, hp, hc, rfl⟩
    · exact ⟨Or.inl ⟨eth, hp, ht, rfl⟩, rfl⟩
    · exact ⟨Or.inr ⟨eth, ip, opts, udp, hp, rfl⟩, (hv ip opts).mpr hc⟩

theorem etherType_ne {eth : Ethernet} (ht : eth.etherType ≠ typeIpv4) (rest : List Byte) :
    etherType (Header.encode eth ++ rest) ≠ 0x0800 := by
  rw [etherType_encode]
  exact fun h => ht (BitVec.eq_of_toNat_eq h)

/-- The switch accepts the frames that are accepted as bytes. -/
theorem exists_accepts_iff (port : Port) (packet : List Byte) :
    (∃ hdr payload, counter.Accepts port packet hdr payload) ↔ Accepted packet := by
  constructor
  · intro h
    obtain ⟨hdr, payload, ha⟩ := h
    rcases accepts_iff.mp ha with ⟨eth, hp, ht, -⟩ | ⟨eth, ip, opts, udp, hp, hc, -⟩
    · refine ⟨by simp [hp], ?_⟩
      intro h
      rw [hp] at h
      exact absurd h (etherType_ne ht payload)
    · have hacc := hp.acceptable hc
      have hl := hacc.wellFormed.length
      exact ⟨by omega, fun _ => hacc⟩
  · intro h
    obtain ⟨hl, hacc⟩ := h
    by_cases ht : etherType packet = 0x0800
    · obtain ⟨eth, ip, opts, udp, payload, hp, hc⟩ := exists_parsed ht (hacc ht)
      exact ⟨_, payload, accepts_iff.mpr (Or.inr ⟨eth, ip, opts, udp, hp, hc, rfl⟩)⟩
    · obtain ⟨eth, payload, hp⟩ : ∃ (e : Ethernet) (p : _), packet = Header.encode e ++ p :=
        Header.exists_encode_append (by simpa using hl)
      refine ⟨_, payload, accepts_iff.mpr (Or.inl ⟨eth, hp, ?_, rfl⟩)⟩
      intro h
      rw [hp, etherType_encode, h] at ht
      exact ht rfl

theorem deparsed (ha : counter.Accepts port packet hdr payload) :
    myDeparser hdr ++ payload = packet := by
  rcases accepts_iff.mp ha with ⟨eth, hp, -, rfl⟩ | ⟨eth, ip, opts, udp, hp, -, rfl⟩
  · rw [hp]
    simp [myDeparser]
  · rw [hp.bytes]
    simp [myDeparser, beforeUdp]

/-- A counted packet adds one to its own slot, and to no other. -/
theorem countPacket_getElem (ha : counter.Accepts port packet hdr payload) (regs : Registers)
    {s : ℕ} (hs : s < 1024) : (countPacket regs hdr)[s] =
      regs[s] + if Counted packet ∧ flowSlot packet = .ok s then 1 else 0 := by
  rcases accepts_iff.mp ha with ⟨eth, hp, ht, rfl⟩ | ⟨eth, ip, opts, udp, hp, hc, rfl⟩
  · have hn : ¬ Counted packet := by
      rintro ⟨h, -⟩
      rw [hp] at h
      exact etherType_ne ht payload h
    rw [if_neg fun h => hn h.1]
    exact (BitVec.add_zero _).symm
  · have hcount := hp.counted_iff hc
    cases udp with
    | none =>
      rw [if_neg fun h => absurd (hcount.mp h.1) (by simp)]
      exact (BitVec.add_zero _).symm
    | some udp =>
      have hslot : Counted packet ∧ flowSlot packet = .ok s ↔ (slotOf ip udp).toNat = s := by
        rw [hp.flowSlot_eq, Except.ok.injEq]
        exact and_iff_right (hcount.mpr rfl)
      change (increment regs (slotOf ip udp))[s] = _
      rw [increment, Vector.getElem_set]
      simp only [hslot]
      split_ifs with h
      · subst h
        rfl
      · exact (BitVec.add_zero _).symm

section Step
variable (groups : BitVec 16 → List Port) (qdepth : Port → BitVec 19) (regs : Registers)

theorem process_accepted (ha : counter.Accepts port packet hdr payload) :
    counter.process groups qdepth regs port packet =
      (if (crossPort port).isSome then countPacket regs hdr else regs,
        (crossPort port).toList.map fun out => (out, packet)) := by
  have hr := ha.runIngress (s := regs)
  have hz : ¬ ((none : Option (ParserError ErrorCode)) ≠ none ∨ (0 : BitVec 1) = 1) := by decide
  have hne : (1 : Port) ≠ dropPort ∧ (2 : Port) ≠ dropPort := by decide
  have hd := deparsed ha
  change _ = ((myIngress regs hdr (V1Switch.arrival port packet)).1, hdr,
    (myIngress regs hdr (V1Switch.arrival port packet)).2) at hr
  rw [myIngress, V1Switch.arrival, if_neg hz] at hr
  by_cases h₁ : port = 1
  · have hc : crossPort port = some 2 := if_pos h₁
    rw [if_pos h₁] at hr
    rw [ha.process_unicast groups qdepth hr (fun _ _ => rfl) rfl hne.2, hc]
    exact congrArg (fun out => (countPacket regs hdr, [((2 : Port), out)])) hd
  by_cases h₂ : port = 2
  · have hc : crossPort port = some 1 := (if_neg h₁).trans (if_pos h₂)
    rw [if_neg h₁, if_pos h₂] at hr
    rw [ha.process_unicast groups qdepth hr (fun _ _ => rfl) rfl hne.1, hc]
    exact congrArg (fun out => (countPacket regs hdr, [((1 : Port), out)])) hd
  · have hc : crossPort port = none := (if_neg h₁).trans (if_neg h₂)
    rw [if_neg h₁, if_neg h₂] at hr
    rw [V1Switch.process_dropPort hr rfl rfl, hc]
    rfl

theorem process_rejected (h : ¬ Accepted packet) :
    counter.process groups qdepth regs port packet = (regs, []) := by
  have ha : ∀ hdr payload, ¬ counter.Accepts port packet hdr payload := fun hdr payload ha =>
    h ((exists_accepts_iff port packet).mp ⟨hdr, payload, ha⟩)
  have hr : counter.runIngress regs port packet = (regs, (counter.parse port packet).2.hdr,
      markToDrop (counter.parsedMetadata port packet)) := by
    change ((myIngress regs _ _).1, _, (myIngress regs _ _).2) = _
    rw [myIngress, if_pos (V1Switch.rejected ha)]
  exact V1Switch.process_dropPort hr rfl rfl

theorem crossPort_isSome (port : Port) : (crossPort port).isSome ↔ port = 1 ∨ port = 2 := by
  unfold crossPort
  split_ifs <;> simp_all

/-- One arrival: its slot moves by one when it is counted, no other slot moves. -/
theorem process_getElem (port : Port) (packet : List Byte) {s : ℕ} (hs : s < 1024) :
    (counter.process groups qdepth regs port packet).1[s] =
      regs[s] + if Tallied s (port, packet) then 1 else 0 := by
  by_cases h : Accepted packet
  · obtain ⟨hdr, payload, ha⟩ := (exists_accepts_iff port packet).mpr h
    simp only [process_accepted groups qdepth regs ha, crossPort_isSome]
    by_cases hp : port = 1 ∨ port = 2
    · have ht : Tallied s (port, packet) ↔ Counted packet ∧ flowSlot packet = .ok s :=
        and_iff_right hp
      simp only [if_pos hp, ht]
      exact countPacket_getElem ha regs hs
    · have hn : ¬ Tallied s (port, packet) := fun ht => hp ht.1
      simp only [if_neg hp, if_neg hn]
      exact (BitVec.add_zero _).symm
  · have hn : ¬ Tallied s (port, packet) := by
      rintro ⟨-, ⟨-, hacc, -⟩, -⟩
      have hl : 34 ≤ packet.length := hacc.wellFormed.length
      exact h ⟨by omega, fun _ => hacc⟩
    simp only [process_rejected groups qdepth regs h]
    rw [if_neg hn]
    exact (BitVec.add_zero _).symm

/-- One arrival: an accepted frame is sent on unchanged, any other is dropped. -/
theorem process_sent (port : Port) (packet : List Byte) :
    (counter.process groups qdepth regs port packet).2 = sent (port, packet) := by
  by_cases h : Accepted packet
  · obtain ⟨hdr, payload, ha⟩ := (exists_accepts_iff port packet).mpr h
    rw [process_accepted groups qdepth regs ha, sent, if_pos h]
  · simp only [process_rejected groups qdepth regs h, sent, if_neg h]

/-- A run adds to each slot the number of its packets. -/
theorem run_getElem (arrivals : List (Port × List Byte)) {s : ℕ} (hs : s < 1024) :
    (counter.run groups qdepth regs arrivals).1[s] =
      regs[s] + BitVec.ofNat 32 (tally s arrivals) := by
  induction arrivals generalizing regs with
  | nil => exact (BitVec.add_zero _).symm
  | cons arrival arrivals ih =>
    obtain ⟨port, packet⟩ := arrival
    have hstep := process_getElem groups qdepth regs port packet hs
    have hrest := ih (counter.process groups qdepth regs port packet).1
    simp only [V1Switch.run]
    rw [hrest, hstep, tally, tally, List.countP_cons, BitVec.ofNat_add, BitVec.add_assoc,
      BitVec.add_comm (BitVec.ofNat 32 _)]
    congr 2
    by_cases ht : Tallied s (port, packet) <;> simp [ht]

theorem run_toNat (arrivals : List (Port × List Byte)) {s : ℕ} (hs : s < 1024) :
    (counter.run groups qdepth regs arrivals).1[s].toNat =
      (regs[s].toNat + tally s arrivals) % 2 ^ 32 := by
  rw [run_getElem groups qdepth regs arrivals hs, BitVec.toNat_add, BitVec.toNat_ofNat]
  exact Nat.add_mod_mod ..

theorem run_sent (arrivals : List (Port × List Byte)) :
    (counter.run groups qdepth regs arrivals).2 = arrivals.flatMap sent := by
  induction arrivals generalizing regs with
  | nil => rfl
  | cons arrival arrivals ih =>
    obtain ⟨port, packet⟩ := arrival
    have hrest := ih (counter.process groups qdepth regs port packet).1
    simp only [V1Switch.run, List.flatMap_cons]
    rw [hrest, process_sent]

theorem run_perm {arrivals arrivals' : List (Port × List Byte)} (h : arrivals.Perm arrivals') :
    (counter.run groups qdepth regs arrivals).1 = (counter.run groups qdepth regs arrivals').1 := by
  ext s hs
  rw [run_getElem _ _ _ _ hs, run_getElem _ _ _ _ hs, tally, tally, h.countP_eq]

end Step

/-! The snapshot check. -/

def IsSnapshot (values : List ℤ) : Prop :=
  values.length = registerSize ∧ ∀ value ∈ values, 0 ≤ value ∧ value < counterModulus

/-- The array as the topology reads it. -/
def snapshot (regs : Registers) : List ℤ := regs.toList.map fun value => (value.toNat : ℤ)

theorem snapshot_isSnapshot (regs : Registers) : IsSnapshot (snapshot regs) := by
  refine ⟨by simp [snapshot, registerSize], ?_⟩
  intro value hv
  obtain ⟨bits, -, rfl⟩ := List.mem_map.mp hv
  have hlt := bits.isLt
  unfold counterModulus
  omega

theorem snapshot_getD (regs : Registers) {s : ℕ} (hs : s < 1024) :
    (snapshot regs).getD s 0 = (regs[s].toNat : ℤ) := by
  have hl : s < (snapshot regs).length := by simpa [snapshot] using hs
  rw [List.getD_eq_getElem?_getD, List.getElem?_eq_getElem hl]
  simp [snapshot]

/-- Probes labelled by what the switch counts. -/
def labelled (frames : List (List Byte)) : List Probe :=
  frames.map fun frame => ⟨frame, decide (Counted frame)⟩

/-- How many of the frames are counted in slot `s`. -/
def expectedCount (s : ℕ) (frames : List (List Byte)) : ℕ :=
  frames.countP fun frame => decide (Counted frame ∧ flowSlot frame = .ok s)

theorem validateSnapshot_ok {values : List ℤ} :
    validateSnapshot values = .ok () ↔ IsSnapshot values := by
  unfold validateSnapshot IsSnapshot
  split_ifs with h
  · apply iff_of_false nofun
    intro hs
    rcases h with h | ⟨value, hv, h⟩
    · exact h hs.1
    · exact h (hs.2 value hv)
  · refine iff_of_true rfl ⟨?_, ?_⟩
    · by_contra hl
      exact h (Or.inl hl)
    · intro value hv
      by_contra hb
      exact h (Or.inr ⟨value, hv, hb⟩)

theorem checkSlot_ok {before after : List ℤ} {slots : List ℕ} {slot : ℕ} :
    checkSlot before after slots slot = .ok () ↔
      (after.getD slot 0 - before.getD slot 0) % counterModulus = slots.count slot := by
  unfold checkSlot
  dsimp only
  split_ifs with h
  · exact iff_of_false nofun h
  · exact iff_of_true rfl (not_not.mp h)

/-- The slot of a counted frame. -/
def slotNumber (frame : List Byte) : ℕ := (flowSlot frame).toOption.getD 0

theorem Counted.flowSlot_eq {frame : List Byte} (h : Counted frame) :
    flowSlot frame = .ok (slotNumber frame) := by
  obtain ⟨ht, hacc, hu⟩ := h
  obtain ⟨eth, ip, opts, udp, payload, hp, hc⟩ := exists_parsed ht hacc
  obtain ⟨udp, rfl⟩ := Option.isSome_iff_exists.mp (hp.isUdp_iff.mp hu)
  rw [slotNumber, hp.flowSlot_eq]
  rfl

/-- The slots the check collects from labelled probes. -/
theorem slots_labelled (frames : List (List Byte)) :
    ((labelled frames).filter Probe.counted).mapM (fun item => flowSlot item.frame) =
      .ok ((frames.filter fun frame => decide (Counted frame)).map slotNumber) := by
  have hf : (labelled frames).filter Probe.counted =
      labelled (frames.filter fun frame => decide (Counted frame)) := by
    simp [labelled, List.filter_map, Function.comp_def]
  rw [hf, mapM_ok (g := fun item => slotNumber item.frame)]
  · simp [labelled, Function.comp_def]
  · intro item hi
    obtain ⟨frame, hmem, rfl⟩ := List.mem_map.mp hi
    have hc : Counted frame := by simpa using (List.mem_filter.mp hmem).2
    exact hc.flowSlot_eq

theorem count_slots (frames : List (List Byte)) (s : ℕ) :
    ((frames.filter fun frame => decide (Counted frame)).map slotNumber).count s =
      expectedCount s frames := by
  rw [List.count, List.countP_map, List.countP_filter, expectedCount]
  apply List.countP_congr
  intro frame _
  by_cases h : Counted frame
  · simp [h, h.flowSlot_eq]
  · simp [h]

theorem checkCounts_ok {before after : List ℤ} {frames : List (List Byte)} :
    checkCounts before after (labelled frames) = .ok () ↔
      IsSnapshot before ∧ IsSnapshot after ∧ ∀ s < 1024,
        (after.getD s 0 - before.getD s 0) % counterModulus = expectedCount s frames := by
  have hloop : ∀ slots : List ℕ,
      (List.range registerSize).forM (checkSlot before after slots) = .ok () ↔ ∀ s < 1024,
        (after.getD s 0 - before.getD s 0) % counterModulus = slots.count s := by
    intro slots
    simp only [forM_ok, List.mem_range, checkSlot_ok]
    rfl
  rw [checkCounts, py_bind_ok]
  simp only [py_bind_ok, slots_labelled, Except.ok.injEq, exists_eq_left', hloop, count_slots]
  constructor
  · intro h
    obtain ⟨⟨⟩, hb, ⟨⟩, ha, h⟩ := h
    exact ⟨validateSnapshot_ok.mp hb, validateSnapshot_ok.mp ha, h⟩
  · intro h
    exact ⟨(), validateSnapshot_ok.mpr h.1, (), validateSnapshot_ok.mpr h.2.1, h.2.2⟩

/-- A 32-bit counter moved by exactly `k`. -/
theorem delta_eq_iff {a : ℤ} (b : ℤ) (ha : 0 ≤ a ∧ a < counterModulus) (k : ℕ) :
    (a - b) % counterModulus = k ↔ k < 2 ^ 32 ∧ a = (b + k) % counterModulus := by
  unfold counterModulus at *
  omega

theorem IsSnapshot.getD {values : List ℤ} (h : IsSnapshot values) {s : ℕ} (hs : s < 1024) :
    0 ≤ values.getD s 0 ∧ values.getD s 0 < counterModulus := by
  have hl : s < values.length := h.1.symm ▸ hs
  rw [List.getD_eq_getElem?_getD, List.getElem?_eq_getElem hl]
  exact h.2 _ (List.getElem_mem hl)

/-- Over any run, from any contents of the array: slot `s` ends at its first value
plus the number of packets it counts, modulo `2 ^ 32`, whatever the order of arrival;
accepted frames are sent on unchanged and nothing else is sent; and the check of two
snapshots accepts exactly when every slot moved by its count. -/
theorem run_counts_flows (groups : BitVec 16 → List Port) (qdepth : Port → BitVec 19)
    (initial : Registers) (arrivals : List (Port × List Byte)) :
    (∀ (s : ℕ) (hs : s < 1024), (counter.run groups qdepth initial arrivals).1[s].toNat =
      (initial[s].toNat + tally s arrivals) % 2 ^ 32) ∧
    (∀ reordered, arrivals.Perm reordered →
      (counter.run groups qdepth initial reordered).1 =
        (counter.run groups qdepth initial arrivals).1) ∧
    (counter.run groups qdepth initial arrivals).2 = arrivals.flatMap sent ∧
    ∀ (before after : List ℤ) (frames : List (List Byte)),
      checkCounts before after (labelled frames) = .ok () ↔
        IsSnapshot before ∧ IsSnapshot after ∧ ∀ s < 1024, expectedCount s frames < 2 ^ 32 ∧
          after.getD s 0 = (before.getD s 0 + expectedCount s frames) % counterModulus := by
  refine ⟨?_, ?_, run_sent groups qdepth initial arrivals, ?_⟩
  · intro s hs
    exact run_toNat groups qdepth initial arrivals hs
  · intro reordered h
    exact (run_perm groups qdepth initial h).symm
  · intro before after frames
    rw [checkCounts_ok]
    refine and_congr_right fun hb => and_congr_right fun ha => ?_
    refine forall₂_congr fun s hs => ?_
    exact delta_eq_iff _ (ha.getD hs) _

/-- The snapshots of a run pass the check against its own frames, as long as no
slot is hit `2 ^ 32` times. -/
theorem checkCounts_run (groups : BitVec 16 → List Port) (qdepth : Port → BitVec 19)
    (initial : Registers) (arrivals : List (Port × List Byte))
    (hp : ∀ arrival ∈ arrivals, arrival.1 = 1 ∨ arrival.1 = 2)
    (hk : ∀ s < 1024, tally s arrivals < 2 ^ 32) :
    checkCounts (snapshot initial) (snapshot (counter.run groups qdepth initial arrivals).1)
      (labelled (arrivals.map Prod.snd)) = .ok () := by
  have hcount : ∀ s, expectedCount s (arrivals.map Prod.snd) = tally s arrivals := by
    intro s
    rw [expectedCount, tally, List.countP_map]
    apply List.countP_congr
    intro arrival ha
    have ht : Tallied s arrival ↔ Counted arrival.2 ∧ flowSlot arrival.2 = .ok s :=
      and_iff_right (hp arrival ha)
    simp only [Function.comp_apply, decide_eq_true_eq, ht]
  rw [checkCounts_ok]
  refine ⟨snapshot_isSnapshot _, snapshot_isSnapshot _, ?_⟩
  intro s hs
  have hlt := hk s hs
  have hrun := run_toNat groups qdepth initial arrivals hs
  rw [delta_eq_iff _ ((snapshot_isSnapshot _).getD hs), hcount, snapshot_getD _ hs,
    snapshot_getD _ hs, hrun]
  exact ⟨hlt, by simp [counterModulus]⟩

end P4Cases.FlowCounter
