import Mathlib.Data.List.Basic

/-! Actions that add elements to a list, one after the other, and can raise an exception.
Such an action is safe when it raises none as long as there is room for what it adds, and
adds good elements only. -/
namespace Control

/-- Actions on the list built so far. -/
abbrev Builder (ε α : Type) := StateT (List α) (Except ε)

namespace Builder
variable {ε α β : Type} {good : α → Prop} {limit k k' : ℕ}

/-- `len(list)`. -/
def count : Builder ε α ℕ := do return (← get).length

def push (a : α) : Builder ε α Unit := modify fun built => built ++ [a]

/-- What an action adds, under a name. -/
def batch (name : String) (action : Builder ε α Unit) : Builder ε α (String × List α) := do
  let start ← count
  action
  return (name, (← get).drop start)

/-- With room for `k` elements, the action adds `k`, all of them good. -/
def Adds (good : α → Prop) (limit k : ℕ) (action : Builder ε α Unit) : Prop :=
  ∀ built, built.length + k ≤ limit → ∃ added, action.run built = .ok ((), built ++ added) ∧
    (∀ a ∈ added, good a) ∧ added.length = k

theorem Adds.of_eq {action : Builder ε α Unit} (h : Adds good limit k action) (hk : k = k') :
    Adds good limit k' action := hk ▸ h

theorem Adds.imp {good' : α → Prop} {action : Builder ε α Unit} (h : Adds good limit k action)
    (hg : ∀ a, good a → good' a) : Adds good' limit k action := by
  intro built hroom
  obtain ⟨added, hrun, hgood, hcount⟩ := h built hroom
  exact ⟨added, hrun, fun a ha => hg a (hgood a ha), hcount⟩

theorem Adds.pure : Adds good limit 0 (Pure.pure () : Builder ε α Unit) := by
  intro built _
  refine ⟨[], ?_, by simp, rfl⟩
  rw [List.append_nil]
  rfl

/-- One action after the other. -/
theorem Adds.seq {first : Builder ε α Unit} {next : Unit → Builder ε α Unit}
    (h : Adds good limit k first) (h' : Adds good limit k' (next ())) :
    Adds good limit (k + k') (first >>= next) := by
  intro built hroom
  obtain ⟨added, hrun, hgood, hcount⟩ := h built (by omega)
  obtain ⟨added', hrun', hgood', hcount'⟩ := h' (built ++ added) (by
    rw [List.length_append]
    omega)
  refine ⟨added ++ added', ?_, List.forall_mem_append.mpr ⟨hgood, hgood'⟩, ?_⟩
  · rw [StateT.run_bind, hrun, ← List.append_assoc]
    exact hrun'
  · rw [List.length_append]
    omega

/-- A value that is computed first, without adding anything. -/
theorem Adds.lift {x : Except ε β} {b : β} {next : β → Builder ε α Unit} (hx : x = .ok b)
    (h : Adds good limit k (next b)) : Adds good limit k ((x : Builder ε α β) >>= next) := by
  intro built hroom
  obtain ⟨added, hrun, hrest⟩ := h built hroom
  refine ⟨added, ?_, hrest⟩
  subst hx
  exact hrun

/-- What follows can use the number of elements, whatever it is. -/
theorem Adds.count {next : ℕ → Builder ε α Unit}
    (h : ∀ n, n + k ≤ limit → Adds good limit k (next n)) :
    Adds good limit k (Builder.count >>= next) := by
  intro built hroom
  exact h built.length hroom built hroom

theorem Adds.push {a : α} (h : good a) : Adds good limit 1 (Builder.push a : Builder ε α Unit) :=
  fun _ _ => ⟨[a], rfl, by simpa using h, rfl⟩

theorem Adds.forM {body : β → Builder ε α Unit} {l : List β}
    (h : ∀ b ∈ l, Adds good limit k (body b)) :
    Adds good limit (l.length * k) (l.forM body) := by
  induction l with
  | nil => exact Adds.pure.of_eq (Nat.zero_mul k).symm
  | cons b l ih =>
    have hrest := ih fun b hb => h b (List.mem_cons_of_mem _ hb)
    have hall : Adds good limit (k + l.length * k) (body b >>= fun _ => l.forM body) :=
      (h b List.mem_cons_self).seq hrest
    refine hall.of_eq ?_
    rw [List.length_cons, Nat.add_mul, Nat.one_mul, Nat.add_comm]

theorem Adds.batch {action : Builder ε α Unit} (h : Adds good limit k action) (name : String)
    {built : List α} (hroom : built.length + k ≤ limit) :
    ∃ added, (batch name action).run built = .ok ((name, added), built ++ added) ∧
      (∀ a ∈ added, good a) ∧ added.length = k := by
  obtain ⟨added, hrun, hrest⟩ := h built hroom
  refine ⟨added, ?_, hrest⟩
  have hfollows : (Builder.batch name action).run built =
      action.run built >>= fun x => .ok ((name, x.2.drop built.length), x.2) := rfl
  rw [hfollows, hrun]
  simp [bind, Except.bind]

/-- What is checked element by element. -/
theorem forall_mem_of_all {P : β → Prop} [DecidablePred P] {l : List β}
    (h : l.all (fun b => decide (P b)) = true) : ∀ b ∈ l, P b :=
  fun b hb => of_decide_eq_true (List.all_eq_true.mp h b hb)

/-- The list that is built from nothing. -/
theorem Adds.build {action : Builder ε α Unit} (h : Adds good limit k action) (hk : k ≤ limit) :
    ∃ built, action.run [] = .ok ((), built) ∧ (∀ a ∈ built, good a) ∧ built.length = k := by
  obtain ⟨added, hrun, hrest⟩ := h [] (by simpa using hk)
  exact ⟨added, by simpa using hrun, hrest⟩

end Builder
end Control
