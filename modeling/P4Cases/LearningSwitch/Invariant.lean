import P4Cases.LearningSwitch.Controller

/-! What holds in every configuration the learning switch reaches, whatever digests
arrive and whatever becomes of the writes. -/
namespace P4Cases.LearningSwitch
open Wire P4 Control

/-- A non-zero unicast address. -/
def Unicast (mac : BitVec 48) : Prop := mac ≠ 0 ∧ mac.getLsbD 40 = false

/-- Some received digest carried exactly this address and port. -/
def Carried (received : List P4Data) (mac : BitVec 48) (port : ℕ) : Prop :=
  ∃ member ∈ received, ∃ bytes, decodeLearnStruct member = some (bytes, port) ∧
    macKey bytes = mac

structure Invariant (ports : ℕ) (w : World) : Prop where
  /-- Learning is never suppressed for an address without a forwarding entry. -/
  forwarded : ∀ mac, w.tables.smac mac ≠ none → w.tables.dmac mac ≠ none
  /-- What the controller remembers is in both tables. -/
  learned : ∀ mac port, w.learned mac = some port →
    w.tables.dmac mac = some (.forward (BitVec.ofNat 9 port)) ∧ w.tables.smac mac = some .noAction
  /-- What is in the forwarding table came from a digest, and is in range. -/
  bound : ∀ mac action, w.tables.dmac mac = some action → ∃ port : Port,
    action = .forward port ∧ Unicast mac ∧ 1 ≤ port.toNat ∧ port.toNat ≤ ports ∧
      Carried w.received mac port.toNat

theorem Invariant.initial (ports : ℕ) : Invariant ports {} := by
  refine ⟨?_, ?_, ?_⟩
  · intro mac h
    exact absurd rfl h
  · intro mac port h
    cases h
  · intro mac action h
    cases h

/-! One write. -/

def Tables.has (t : Tables) : TableEntry → Prop
  | .smac srcAddr action => t.smac srcAddr = some action
  | .dmac dstAddr action => t.dmac dstAddr = some action

theorem Tables.set_has (t : Tables) (entry : TableEntry) : (t.set entry).has entry := by
  cases entry <;> exact Function.update_self ..

/-- Entries of another address stay. -/
theorem Tables.set_frame (t : Tables) {entry : TableEntry} {mac : BitVec 48}
    (h : mac ≠ entry.mac) : (t.set entry).smac mac = t.smac mac ∧
      (t.set entry).dmac mac = t.dmac mac := by
  cases entry with
  | smac srcAddr action => exact ⟨Function.update_of_ne h .., rfl⟩
  | dmac dstAddr action => exact ⟨rfl, Function.update_of_ne h ..⟩

/-- The writes the controller makes: never for an address it remembers, a valid
binding from a digest to the forwarding table, and to the source table only behind
a forwarding entry. -/
def Allowed (ports : ℕ) (w : World) (write : Write) : Prop :=
  w.learned write.entry.mac = none ∧
    match write.entry with
    | .dmac mac action => ∃ port : Port, action = .forward port ∧ Unicast mac ∧
        1 ≤ port.toNat ∧ port.toNat ≤ ports ∧ Carried w.received mac port.toNat
    | .smac mac _ => w.tables.dmac mac ≠ none

theorem apply_frame (w : World) {write : Write} (outcome : Outcome) {mac : BitVec 48}
    (h : mac ≠ write.entry.mac) :
    (w.apply write outcome).tables.smac mac = w.tables.smac mac ∧
      (w.apply write outcome).tables.dmac mac = w.tables.dmac mac := by
  unfold World.apply
  by_cases ha : outcome.applied = true
  · simp only [ha, if_true]
    exact w.tables.set_frame h
  · simp only [ha, Bool.false_eq_true, if_false, and_self]

/-- A write that reports success left its entry in the table. -/
theorem apply_has (w : World) (write : Write) {outcome : Outcome} (h : outcome.error = none) :
    (w.apply write outcome).tables.has write.entry := by
  have ha := outcome.applied_of_success h
  simp only [World.apply, ha, if_true]
  exact w.tables.set_has write.entry

/-- The forwarding table only changes by an allowed binding. -/
theorem apply_dmac (w : World) (write : Write) (outcome : Outcome) (mac : BitVec 48) :
    (w.apply write outcome).tables.dmac mac = w.tables.dmac mac ∨
      ∃ action, write.entry = .dmac mac action ∧
        (w.apply write outcome).tables.dmac mac = some action := by
  obtain ⟨kind, entry⟩ := write
  unfold World.apply
  by_cases ha : outcome.applied = true
  · simp only [ha, if_true]
    cases entry with
    | smac srcAddr action => exact Or.inl rfl
    | dmac dstAddr action =>
      by_cases hm : mac = dstAddr
      · subst hm
        exact Or.inr ⟨action, rfl, Function.update_self ..⟩
      · exact Or.inl (Function.update_of_ne hm ..)
  · simp only [ha, Bool.false_eq_true, if_false, true_or]

theorem apply_smac (w : World) (write : Write) (outcome : Outcome) (mac : BitVec 48) :
    (w.apply write outcome).tables.smac mac = w.tables.smac mac ∨
      ∃ action, write.entry = .smac mac action := by
  obtain ⟨kind, entry⟩ := write
  unfold World.apply
  by_cases ha : outcome.applied = true
  · simp only [ha, if_true]
    cases entry with
    | dmac dstAddr action => exact Or.inl rfl
    | smac srcAddr action =>
      by_cases hm : mac = srcAddr
      · subst hm
        exact Or.inr ⟨action, rfl⟩
      · exact Or.inl (Function.update_of_ne hm ..)
  · simp only [ha, Bool.false_eq_true, if_false, true_or]

/-- An allowed write keeps the invariant, whatever becomes of it. -/
theorem Invariant.apply {ports : ℕ} {w : World} (h : Invariant ports w) {write : Write}
    (hw : Allowed ports w write) (outcome : Outcome) :
    Invariant ports (w.apply write outcome) := by
  obtain ⟨hnew, hentry⟩ := hw
  have hdmac : ∀ mac, w.tables.dmac mac ≠ none →
      (w.apply write outcome).tables.dmac mac ≠ none := by
    intro mac hmac
    rcases apply_dmac w write outcome mac with he | ⟨action, -, he⟩
    · rw [he]
      exact hmac
    · rw [he]
      simp
  refine ⟨?_, ?_, ?_⟩
  · intro mac hs
    apply hdmac mac
    rcases apply_smac w write outcome mac with he | ⟨action, he⟩
    · rw [he] at hs
      exact h.forwarded mac hs
    · rw [he] at hentry
      exact hentry
  · intro mac port hl
    have hne : mac ≠ write.entry.mac := by
      intro he
      rw [← he] at hnew
      exact absurd (hl.symm.trans hnew) (by simp)
    obtain ⟨hs, hd⟩ := apply_frame w outcome hne
    rw [hs, hd]
    exact h.learned mac port hl
  · intro mac action ha
    rcases apply_dmac w write outcome mac with he | ⟨action', hd, he⟩
    · rw [he] at ha
      exact h.bound mac action ha
    · rw [hd] at hentry
      obtain rfl := Option.some.inj (he.symm.trans ha)
      exact hentry

/-! Decoded digests. -/

theorem decodeLearnStruct_some {member : P4Data} {mac : List Byte} {port : ℕ}
    (h : decodeLearnStruct member = some (mac, port)) : mac.length = 6 ∧ 0 < port ∧ port < 512 := by
  unfold decodeLearnStruct at h
  split at h
  · dsimp only at h
    split_ifs at h with hl hp
    obtain ⟨rfl, rfl⟩ := Prod.mk.inj (Option.some.inj h)
    refine ⟨?_, hp⟩
    rw [List.length_append, List.length_replicate]
    omega
  · cases h

theorem macKey_toNat {mac : List Byte} (h : mac.length = 6) : (macKey mac).toNat = beNat mac := by
  have hlt := beNat_lt mac
  rw [h] at hlt
  rw [macKey, BitVec.toNat_ofNat, Nat.mod_eq_of_lt (by omega)]

/-- The checks of `learn` on the bytes of an address, as the table key shows them. -/
theorem unicast_macKey {mac : List Byte} (h : mac.length = 6)
    (hgroup : (mac.headD 0).toNat &&& 1 = 0) (hzero : mac ≠ [0, 0, 0, 0, 0, 0]) :
    Unicast (macKey mac) := by
  have hkey := macKey_toNat h
  refine ⟨?_, ?_⟩
  · intro hz
    apply hzero
    rw [hz] at hkey
    rw [eq_beBytes h, ← hkey]
    decide
  · obtain ⟨b, rest, rfl⟩ := List.exists_cons_of_length_eq_add_one h
    have hr := beNat_lt rest
    have hlen : rest.length = 5 := by simpa using h
    rw [hlen] at hr
    rw [List.headD_cons, Nat.and_one_is_mod] at hgroup
    rw [beNat, hlen] at hkey
    rw [BitVec.getLsbD, hkey, Nat.testBit_eq_decide_div_mod_eq]
    simp only [decide_eq_false_iff_not]
    omega

/-! The programs. -/

section Programs
variable {ports : ℕ} {w : World} {mac : List Byte} {port : ℕ}

/-- An upsert that reports success left the entry in its table. `I` is what its
writes may rely on and have to keep. -/
theorem upsertEntry_safe {I : World → Prop} {entry : TableEntry}
    (hall : ∀ w, I w → ∀ kind, Allowed ports w ⟨kind, entry⟩)
    (hkeep : ∀ w, I w → ∀ kind outcome, I (w.apply ⟨kind, entry⟩ outcome)) (hw : I w) :
    (upsertEntry entry).Safe World.apply (Allowed ports)
      (fun err w' => I w' ∧ (err = none → w'.tables.has entry)) w := by
  have hwrite : ∀ kind w, I w → (writeTableEntry kind entry).Safe World.apply (Allowed ports)
      (fun err w' => I w' ∧ (err = none → w'.tables.has entry)) w := by
    intro kind w hw
    refine ⟨hall w hw kind, ?_⟩
    intro outcome
    exact ⟨hkeep w hw kind outcome, fun he => apply_has w ⟨kind, entry⟩ he⟩
  unfold upsertEntry
  apply Prog.Safe.bind
  apply (hwrite .insert w hw).mono
  intro err w' h
  cases err with
  | none => exact h
  | some e =>
    dsimp only
    split_ifs
    · exact hwrite .modify w' h.1
    · exact ⟨h.1, nofun⟩

/-- The address and port a digest carried, checked by `learn`. -/
structure Learnable (ports : ℕ) (w : World) (mac : List Byte) (port : ℕ) : Prop where
  unicast : Unicast (macKey mac)
  pos : 1 ≤ port
  le : port ≤ ports
  lt : port < 512
  carried : Carried w.received (macKey mac) port

theorem Learnable.port_toNat (h : Learnable ports w mac port) :
    (BitVec.ofNat 9 port).toNat = port := by
  rw [BitVec.toNat_ofNat, Nat.mod_eq_of_lt h.lt]

/-- Installing the entries of an address, begun in `w`, changes the tables only. -/
structure Installing (ports : ℕ) (w w' : World) : Prop where
  inv : Invariant ports w'
  learned : w'.learned = w.learned
  received : w'.received = w.received

/-- The forwarding entry is installed. -/
structure Forwarding (ports : ℕ) (mac : List Byte) (port : ℕ) (w w' : World) : Prop
    extends Installing ports w w' where
  dmac : w'.tables.dmac (macKey mac) = some (.forward (BitVec.ofNat 9 port))

section
variable {w' : World} (hnew : w.learned (macKey mac) = none)
include hnew

theorem Installing.allowed_dmac (hI : Installing ports w w') (h : Learnable ports w mac port)
    (kind : UpdateType) :
    Allowed ports w' ⟨kind, .dmac (macKey mac) (.forward (BitVec.ofNat 9 port))⟩ := by
  refine ⟨?_, BitVec.ofNat 9 port, rfl, h.unicast, ?_⟩
  · rw [hI.learned]
    exact hnew
  · rw [h.port_toNat, hI.received]
    exact ⟨h.pos, h.le, h.carried⟩

theorem Forwarding.allowed_smac (hF : Forwarding ports mac port w w') (kind : UpdateType) :
    Allowed ports w' ⟨kind, .smac (macKey mac) .noAction⟩ := by
  refine ⟨?_, ?_⟩
  · rw [hF.learned]
    exact hnew
  · change w'.tables.dmac (macKey mac) ≠ none
    rw [hF.dmac]
    simp

/-- The forwarding entry stays, so the source entry may follow. -/
theorem Forwarding.apply_smac (hF : Forwarding ports mac port w w') (kind : UpdateType)
    (outcome : Outcome) :
    Forwarding ports mac port w (w'.apply ⟨kind, .smac (macKey mac) .noAction⟩ outcome) := by
  refine ⟨⟨hF.inv.apply (hF.allowed_smac hnew kind) outcome, hF.learned, hF.received⟩, ?_⟩
  rcases apply_dmac w' ⟨kind, .smac (macKey mac) .noAction⟩ outcome (macKey mac)
    with he | ⟨action, he, -⟩
  · rw [he]
    exact hF.dmac
  · cases he

end

/-- Both entries are in place when the installation reports success. -/
theorem installLearned_safe (hw : Invariant ports w) (h : Learnable ports w mac port)
    (hnew : w.learned (macKey mac) = none) :
    (installLearned mac port).Safe World.apply (Allowed ports)
      (fun err w' => (Invariant ports w' ∧ w'.learned = w.learned) ∧ (err = none →
        w'.tables.dmac (macKey mac) = some (.forward (BitVec.ofNat 9 port)) ∧
          w'.tables.smac (macKey mac) = some .noAction)) w := by
  unfold installLearned
  apply Prog.Safe.bind
  have hfirst := upsertEntry_safe (I := Installing ports w)
    (fun w' hI kind => hI.allowed_dmac hnew h kind)
    (fun w' hI kind outcome =>
      ⟨hI.inv.apply (hI.allowed_dmac hnew h kind) outcome, hI.learned, hI.received⟩)
    ⟨hw, rfl, rfl⟩
  apply hfirst.mono
  intro err w₁ h₁
  obtain ⟨hI, hhas⟩ := h₁
  cases err with
  | some e => exact ⟨⟨hI.inv, hI.learned⟩, nofun⟩
  | none =>
    apply Prog.Safe.bind
    have hsecond := upsertEntry_safe (I := Forwarding ports mac port w)
      (fun w' hF kind => hF.allowed_smac hnew kind)
      (fun w' hF kind outcome => hF.apply_smac hnew kind outcome) ⟨hI, hhas rfl⟩
    apply hsecond.mono
    intro err w₂ h₂
    obtain ⟨hF, hhas₂⟩ := h₂
    cases err with
    | some e => exact ⟨⟨hF.inv, hF.learned⟩, nofun⟩
    | none => exact ⟨⟨hF.inv, hF.learned⟩, fun _ => ⟨hF.dmac, hhas₂ rfl⟩⟩

/-- What a call of `learn` leaves: on an error the map as it was, else the map as it
was or with one new address, which is in both tables. -/
def Post (ports : ℕ) (result : Option LearnError × Learned) (w : World) : Prop :=
  Invariant ports w ∧ (result.1 ≠ none → result.2 = w.learned) ∧
    (result.2 = w.learned ∨ ∃ mac port, w.learned mac = none ∧
      result.2 = Function.update w.learned mac (some port) ∧
      w.tables.dmac mac = some (.forward (BitVec.ofNat 9 port)) ∧
      w.tables.smac mac = some .noAction)

/-- The guards of `learn` on the address and the port. -/
def Rejected (ports : ℕ) (mac : List Byte) (port : ℕ) : Prop :=
  (mac.length ≠ 6 ∨ (mac.headD 0).toNat &&& 1 ≠ 0 ∨ mac = [0, 0, 0, 0, 0, 0]) ∨
    port = 0 ∨ port > ports

theorem learn_eq_install (h : ¬ Rejected ports mac port)
    (hnew : w.learned (macKey mac) = none) :
    learn ports w.learned mac port = (do
      let err ← installLearned mac port
      match err with
      | some e => return (some e, w.learned)
      | none => return (none, Function.update w.learned (macKey mac) (some port))) := by
  unfold learn
  refine (if_neg fun hm => h (Or.inl hm)).trans ((if_neg fun hp => h (Or.inr hp)).trans ?_)
  generalize w.learned (macKey mac) = found at hnew
  subst hnew
  rfl

theorem not_rejected (h : ¬ Rejected ports mac port) (hlt : port < 512)
    (hc : Carried w.received (macKey mac) port) : Learnable ports w mac port := by
  unfold Rejected at h
  simp only [not_or, not_not] at h
  obtain ⟨⟨hlen, hgroup, hzero⟩, hp⟩ := h
  exact ⟨unicast_macKey hlen hgroup hzero, by omega, by omega, hlt, hc⟩

theorem learn_safe (hw : Invariant ports w) (hlt : port < 512)
    (hc : Carried w.received (macKey mac) port) :
    (learn ports w.learned mac port).Safe World.apply (Allowed ports) (Post ports) w := by
  have hkept : ∀ err, Post ports (err, w.learned) w :=
    fun err => ⟨hw, fun _ => rfl, Or.inl rfl⟩
  by_cases hr : Rejected ports mac port
  · unfold learn
    by_cases hm : mac.length ≠ 6 ∨ (mac.headD 0).toNat &&& 1 ≠ 0 ∨ mac = [0, 0, 0, 0, 0, 0]
    · rw [if_pos hm]
      exact hkept _
    · rw [if_neg hm, if_pos (hr.resolve_left hm)]
      exact hkept _
  cases hl : w.learned (macKey mac) with
  | some existing =>
    unfold learn
    rw [if_neg fun hm => hr (Or.inl hm), if_neg fun hp => hr (Or.inr hp), hl]
    dsimp only
    split_ifs
    · exact hkept _
    · exact hkept _
  | none =>
    rw [learn_eq_install hr hl]
    apply Prog.Safe.bind
    apply (installLearned_safe hw (not_rejected hr hlt hc) hl).mono
    intro err w' h'
    obtain ⟨⟨hI, hsame⟩, hdone⟩ := h'
    rw [← hsame]
    cases err with
    | some e => exact ⟨hI, fun _ => rfl, Or.inl rfl⟩
    | none =>
      refine ⟨hI, fun he => absurd rfl he, Or.inr ⟨macKey mac, port, ?_, rfl, hdone rfl⟩⟩
      rw [hsame]
      exact hl

end Programs

/-! Configurations. -/

structure Sound (ports : ℕ) (c : Config) : Prop where
  invariant : Invariant ports c.world
  safe : ∀ p, c.running = some p →
    p.Safe World.apply (Allowed ports) (Post ports) c.world

/-- The writes made for an address so far. -/
def World.writesTo (w : World) (mac : BitVec 48) : List Write :=
  w.writes.filter fun write => decide (write.entry.mac = mac)

/-- What is known of an address stays as it is. -/
structure Keeps (mac : BitVec 48) (w w' : World) : Prop where
  learned : w'.learned mac = w.learned mac
  smac : w'.tables.smac mac = w.tables.smac mac
  dmac : w'.tables.dmac mac = w.tables.dmac mac
  writes : w'.writesTo mac = w.writesTo mac

theorem Keeps.refl (mac : BitVec 48) (w : World) : Keeps mac w w := ⟨rfl, rfl, rfl, rfl⟩

theorem Keeps.trans {mac : BitVec 48} {w₁ w₂ w₃ : World} (h₁ : Keeps mac w₁ w₂)
    (h₂ : Keeps mac w₂ w₃) : Keeps mac w₁ w₃ :=
  ⟨h₂.1.trans h₁.1, h₂.2.trans h₁.2, h₂.3.trans h₁.3, h₂.4.trans h₁.4⟩

theorem Keeps.apply {mac : BitVec 48} {w : World} {write : Write} (outcome : Outcome)
    (h : mac ≠ write.entry.mac) : Keeps mac w (w.apply write outcome) := by
  obtain ⟨hs, hd⟩ := apply_frame w outcome h
  refine ⟨rfl, hs, hd, ?_⟩
  unfold World.writesTo World.apply
  rw [List.filter_append]
  simp [Ne.symm h]

section Step
variable {ports : ℕ} {c : Config}

/-- Receiving a digest only adds to what was received. -/
theorem Invariant.receive {w : World} (h : Invariant ports w) (member : P4Data) :
    Invariant ports (w.receive member) := by
  refine ⟨h.forwarded, h.learned, ?_⟩
  intro mac action ha
  obtain ⟨port, he, hu, h₁, h₂, m, hm, hdec⟩ := h.bound mac action ha
  exact ⟨port, he, hu, h₁, h₂, m, List.mem_append_left _ hm, hdec⟩

theorem Post.finish {result : Option LearnError × Learned} {w : World}
    (h : Post ports result w) : Invariant ports { w with learned := result.2 } := by
  obtain ⟨hI, -, hl⟩ := h
  refine ⟨hI.forwarded, ?_, hI.bound⟩
  intro mac port hmac
  dsimp only at hmac ⊢
  rcases hl with hl | ⟨new, newPort, -, hl, hd, hs⟩
  · rw [hl] at hmac
    exact hI.learned mac port hmac
  · rw [hl] at hmac
    by_cases hn : mac = new
    · subst hn
      rw [Function.update_self] at hmac
      obtain rfl := Option.some.inj hmac
      exact ⟨hd, hs⟩
    · rw [Function.update_of_ne hn] at hmac
      exact hI.learned mac port hmac

theorem Post.keeps {result : Option LearnError × Learned} {w : World} (h : Post ports result w)
    {mac : BitVec 48} {port : ℕ} (hl : w.learned mac = some port) :
    Keeps mac w { w with learned := result.2 } := by
  refine ⟨?_, rfl, rfl, rfl⟩
  rcases h.2.2 with he | ⟨new, newPort, hn, he, -⟩
  · exact congrFun he mac
  · have hne : mac ≠ new := by
      intro h
      rw [← h, hl] at hn
      cases hn
    dsimp only
    rw [he, Function.update_of_ne hne]

theorem Sound.step (h : Sound ports c) (event : Event) : Sound ports (c.step ports event) := by
  obtain ⟨world, running⟩ := c
  obtain ⟨hI, hsafe⟩ := h
  cases event with
  | digest member =>
    cases running with
    | some p => exact ⟨hI, hsafe⟩
    | none =>
      refine ⟨hI.receive member, ?_⟩
      intro p hp
      obtain ⟨⟨mac, port⟩, hdec, rfl⟩ := Option.map_eq_some_iff.mp hp
      have hlt := (decodeLearnStruct_some hdec).2.2
      exact learn_safe (hI.receive member) hlt ⟨member, by simp [World.receive], mac, hdec, rfl⟩
  | reply outcome =>
    cases running with
    | none => exact ⟨hI, hsafe⟩
    | some p =>
      cases p with
      | pure result => exact ⟨hI, hsafe⟩
      | ask write next =>
        obtain ⟨hallowed, hnext⟩ := hsafe _ rfl
        refine ⟨hI.apply hallowed outcome, ?_⟩
        intro p hp
        obtain rfl := Option.some.inj hp
        exact hnext outcome
  | finish =>
    cases running with
    | none => exact ⟨hI, hsafe⟩
    | some p =>
      cases p with
      | ask write next => exact ⟨hI, hsafe⟩
      | pure result => exact ⟨(hsafe _ rfl : Post ports result world).finish, nofun⟩

/-- A step changes nothing about an address the controller remembers. -/
theorem Sound.step_keeps (h : Sound ports c) (event : Event) {mac : BitVec 48} {port : ℕ}
    (hl : c.world.learned mac = some port) : Keeps mac c.world (c.step ports event).world := by
  obtain ⟨world, running⟩ := c
  obtain ⟨hI, hsafe⟩ := h
  cases event with
  | digest member =>
    cases running with
    | some p => exact Keeps.refl mac world
    | none => exact ⟨rfl, rfl, rfl, rfl⟩
  | reply outcome =>
    cases running with
    | none => exact Keeps.refl mac world
    | some p =>
      cases p with
      | pure result => exact Keeps.refl mac world
      | ask write next =>
        obtain ⟨⟨hnew, -⟩, -⟩ := hsafe _ rfl
        apply Keeps.apply
        intro he
        rw [← he] at hnew
        exact absurd (hl.symm.trans hnew) (by simp)
  | finish =>
    cases running with
    | none => exact Keeps.refl mac world
    | some p =>
      cases p with
      | ask write next => exact Keeps.refl mac world
      | pure result => exact Post.keeps (hsafe _ rfl : Post ports result world) hl

theorem Sound.run (h : Sound ports c) (events : List Event) : Sound ports (c.run ports events) := by
  induction events generalizing c with
  | nil => exact h
  | cons event events ih => exact ih (h.step event)

theorem Sound.run_keeps (h : Sound ports c) (events : List Event) {mac : BitVec 48} {port : ℕ}
    (hl : c.world.learned mac = some port) : Keeps mac c.world (c.run ports events).world := by
  induction events generalizing c with
  | nil => exact Keeps.refl mac _
  | cons event events ih =>
    have hstep := h.step_keeps event hl
    exact hstep.trans (ih (h.step event) (hstep.learned.trans hl))

theorem Sound.initial (ports : ℕ) : Sound ports {} := ⟨Invariant.initial ports, nofun⟩

end Step

end P4Cases.LearningSwitch
