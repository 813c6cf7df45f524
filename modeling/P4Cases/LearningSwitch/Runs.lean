import P4Cases.LearningSwitch.Invariant

/-! Runs of the learning switch from the empty tables on: digests in any order, lost,
repeated or malformed, and any outcome of every write. -/
namespace P4Cases.LearningSwitch
open Wire P4 Control

/-- The configuration reached from the start. -/
def reached (ports : ℕ) (events : List Event) : Config := Config.run ports {} events

section
variable {ports : ℕ} {c : Config}

theorem Config.run_append (ports : ℕ) (c : Config) (events later : List Event) :
    c.run ports (events ++ later) = (c.run ports events).run ports later :=
  List.foldl_append

/-- Only digests that arrived count as received. -/
theorem received_subset (c : Config) (events : List Event) {member : P4Data}
    (h : member ∈ (c.run ports events).world.received) :
    member ∈ c.world.received ∨ Event.digest member ∈ events := by
  induction events generalizing c with
  | nil => exact Or.inl h
  | cons event events ih =>
    rcases ih (c.step ports event) h with hm | hm
    · obtain ⟨world, running⟩ := c
      cases event with
      | digest new =>
        cases running with
        | some p => exact Or.inl hm
        | none =>
          rcases List.mem_append.mp hm with hm | hm
          · exact Or.inl hm
          · obtain rfl := List.mem_singleton.mp hm
            exact Or.inr List.mem_cons_self
      | reply outcome =>
        cases running with
        | none => exact Or.inl hm
        | some p => cases p <;> exact Or.inl hm
      | finish =>
        cases running with
        | none => exact Or.inl hm
        | some p => cases p <;> exact Or.inl hm
    · exact Or.inr (List.mem_cons_of_mem event hm)

/-- A call whose writes are answered in turn gets to the end of its program. -/
theorem run_replies (ports : ℕ) {p : WriteProg (Option LearnError × Learned)}
    {result : Option LearnError × Learned} {w w' : World} {answers : List Outcome}
    (h : p.eval World.apply w answers = some (result, w', [])) :
    Config.run ports ⟨w, some p⟩ (answers.map .reply) = ⟨w', some (.pure result)⟩ := by
  induction p generalizing w answers with
  | pure r =>
    cases h
    rfl
  | ask write next ih =>
    cases answers with
    | nil => cases h
    | cons outcome answers => exact ih outcome h

/-- Both upserts succeed: the call returns no error and remembers the address. -/
theorem learn_eval {w w₁ w₂ : World} {mac : List Byte} {port : ℕ} {first second : List Outcome}
    (hr : ¬ Rejected ports mac port) (hnew : w.learned (macKey mac) = none)
    (h₁ : (upsertEntry (.dmac (macKey mac) (.forward (BitVec.ofNat 9 port)))).eval World.apply w
      first = some (none, w₁, []))
    (h₂ : (upsertEntry (.smac (macKey mac) .noAction)).eval World.apply w₁ second =
      some (none, w₂, [])) :
    (learn ports w.learned mac port).eval World.apply w (first ++ second) =
      some ((none, Function.update w.learned (macKey mac) (some port)), w₂, []) := by
  have hinstall : (installLearned mac port).eval World.apply w (first ++ second) =
      some (none, w₂, []) := by
    unfold installLearned
    rw [Prog.eval_bind, Prog.eval_append h₁ second, Option.bind_some, List.nil_append]
    dsimp only
    rw [Prog.eval_bind, h₂, Option.bind_some]
    rfl
  rw [learn_eq_install hr hnew, Prog.eval_bind, hinstall, Option.bind_some]
  rfl

theorem run_learn {member : P4Data} {mac : List Byte} {port : ℕ} {first second : List Outcome}
    {w₁ w₂ : World} (hidle : c.running = none) (hdec : decodeLearnStruct member = some (mac, port))
    (hr : ¬ Rejected ports mac port) (hnew : c.world.learned (macKey mac) = none)
    (h₁ : (upsertEntry (.dmac (macKey mac) (.forward (BitVec.ofNat 9 port)))).eval World.apply
      (c.world.receive member) first = some (none, w₁, []))
    (h₂ : (upsertEntry (.smac (macKey mac) .noAction)).eval World.apply w₁ second =
      some (none, w₂, [])) :
    c.run ports (.digest member :: ((first ++ second).map .reply ++ [.finish])) =
      { world := { w₂ with
          learned := Function.update c.world.learned (macKey mac) (some port) } } := by
  have hstart : c.step ports (.digest member) =
      { world := c.world.receive member
        running := some (learn ports c.world.learned mac port) } := by
    simp only [Config.step, hidle, hdec, Option.map_some]
  have heval : (learn ports c.world.learned mac port).eval World.apply
      (c.world.receive member) (first ++ second) =
        some ((none, Function.update c.world.learned (macKey mac) (some port)), w₂, []) :=
    learn_eval (w := c.world.receive member) hr hnew h₁ h₂
  change (c.step ports (.digest member)).run ports ((first ++ second).map .reply ++ [.finish]) = _
  rw [hstart, Config.run_append, run_replies ports heval]
  rfl

end

/-- In every configuration reached: an address in the source table has a forwarding
entry; an address the controller remembers is bound to its port in both tables, for
good, and is never written again; every forwarding entry is a binding of a unicast
address to a host port that some digest carried; a call about to return an error
returns the map as it was; and a call for a new address both of whose upserts succeed
makes the controller remember it. -/
theorem learning_invariant (ports : ℕ) (events : List Event) :
    (∀ mac, (reached ports events).world.tables.smac mac ≠ none →
      (reached ports events).world.tables.dmac mac ≠ none) ∧
    (∀ mac port, (reached ports events).world.learned mac = some port →
      (reached ports events).world.tables.dmac mac = some (.forward (BitVec.ofNat 9 port)) ∧
      (reached ports events).world.tables.smac mac = some .noAction ∧
      ∀ later, Keeps mac (reached ports events).world (reached ports (events ++ later)).world) ∧
    (∀ mac action, (reached ports events).world.tables.dmac mac = some action →
      ∃ port : Port, action = .forward port ∧ Unicast mac ∧ 1 ≤ port.toNat ∧ port.toNat ≤ ports ∧
        ∃ member bytes, Event.digest member ∈ events ∧
          decodeLearnStruct member = some (bytes, port.toNat) ∧ macKey bytes = mac) ∧
    (∀ err learned, (reached ports events).running = some (.pure (some err, learned)) →
      learned = (reached ports events).world.learned) ∧
    ∀ member mac port first second w₁ w₂, (reached ports events).running = none →
      decodeLearnStruct member = some (mac, port) → ¬ Rejected ports mac port →
      (reached ports events).world.learned (macKey mac) = none →
      (upsertEntry (.dmac (macKey mac) (.forward (BitVec.ofNat 9 port)))).eval World.apply
        ((reached ports events).world.receive member) first = some (none, w₁, []) →
      (upsertEntry (.smac (macKey mac) .noAction)).eval World.apply w₁ second =
        some (none, w₂, []) →
      (reached ports
        (events ++ .digest member :: ((first ++ second).map .reply ++ [.finish]))).world.learned =
          Function.update (reached ports events).world.learned (macKey mac) (some port) := by
  have hsound : Sound ports (reached ports events) := (Sound.initial ports).run events
  have hI := hsound.invariant
  refine ⟨hI.forwarded, ?_, ?_, ?_, ?_⟩
  · intro mac port hl
    obtain ⟨hd, hs⟩ := hI.learned mac port hl
    refine ⟨hd, hs, ?_⟩
    intro later
    unfold reached
    rw [Config.run_append]
    exact hsound.run_keeps later hl
  · intro mac action ha
    obtain ⟨port, he, hu, h₁, h₂, member, hm, bytes, hdec, hkey⟩ := hI.bound mac action ha
    refine ⟨port, he, hu, h₁, h₂, member, bytes, ?_, hdec, hkey⟩
    exact (received_subset {} events hm).resolve_left (by simp)
  · intro err learned hp
    obtain ⟨-, hkept, -⟩ : Post ports (some err, learned) (reached ports events).world :=
      hsound.safe _ hp
    exact hkept (by simp)
  · intro member mac port first second w₁ w₂ hidle hdec hr hnew h₁ h₂
    have hrun := run_learn hidle hdec hr hnew h₁ h₂
    unfold reached at hrun ⊢
    rw [Config.run_append, hrun]

end P4Cases.LearningSwitch
