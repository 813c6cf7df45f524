import Mathlib.Logic.Relation
import Mathlib.Order.WellFounded

/-! Processes that take steps in any order: what the steps keep, what can no longer
step, and runs that have to end. -/
namespace Control
variable {S : Type} {step : S → S → Prop} {s s' : S}

/-- By any number of steps. -/
abbrev Reaches (step : S → S → Prop) : S → S → Prop := Relation.ReflTransGen step

theorem Reaches.keeps {I : S → Prop} (hstep : ∀ s s', I s → step s s' → I s')
    (h : Reaches step s s') (hs : I s) : I s' := by
  induction h with
  | refl => exact hs
  | tail _ hlast ih => exact hstep _ _ ih hlast

/-- No step leads on. -/
def Final (step : S → S → Prop) (s : S) : Prop := ∀ s', ¬ step s s'

/-- Every run ends when each step lowers a measure. -/
theorem runs_end (measure : S → ℕ) (h : ∀ s s', step s s' → measure s' < measure s) :
    WellFounded fun s' s => step s s' :=
  Subrelation.wf (h _ _) (InvImage.wf measure Nat.lt_wfRel.wf)

/-! Two threads with shared state. -/

section Interleave
variable {G A B : Type} {stepA : G → A → G → A → Prop} {stepB : G → B → G → B → Prop}

/-- Either thread takes a step, on its own state and the shared one. -/
inductive Interleave (stepA : G → A → G → A → Prop) (stepB : G → B → G → B → Prop) :
    G × A × B → G × A × B → Prop where
  | left {g g' : G} {a a' : A} (b : B) : stepA g a g' a' →
      Interleave stepA stepB (g, a, b) (g', a', b)
  | right {g g' : G} (a : A) {b b' : B} : stepB g b g' b' →
      Interleave stepA stepB (g, a, b) (g', a, b')

/-- An invariant of the shared state with an assertion for each thread: what the steps of
either thread have to keep. -/
theorem Interleave.keeps {I : G → Prop} {P : G → A → Prop} {Q : G → B → Prop}
    (hA : ∀ {g a g' a' b}, I g → P g a → Q g b → stepA g a g' a' → I g' ∧ P g' a' ∧ Q g' b)
    (hB : ∀ {g a b g' b'}, I g → P g a → Q g b → stepB g b g' b' → I g' ∧ P g' a ∧ Q g' b')
    (s s' : G × A × B) (h : I s.1 ∧ P s.1 s.2.1 ∧ Q s.1 s.2.2)
    (hstep : Interleave stepA stepB s s') : I s'.1 ∧ P s'.1 s'.2.1 ∧ Q s'.1 s'.2.2 := by
  cases hstep with
  | left b hs => exact hA h.1 h.2.1 h.2.2 hs
  | right a hs => exact hB h.1 h.2.1 h.2.2 hs

end Interleave

end Control
