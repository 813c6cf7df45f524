import Mathlib.Data.List.Forall2
import Mathlib.Data.List.Range

/-! Actions that number what they make. A counter goes up by one for each thing that is made,
and so the results of several such actions carry consecutive numbers. -/
namespace Control

/-- Actions on a counter. -/
abbrev Numbering (ε : Type) := StateT ℕ (Except ε)

namespace Numbering
variable {ε α β γ : Type} {good : β → Prop} {numbers : β → List ℕ} {limit k : ℕ}

/-- `sequence += 1`, with the new value. -/
def next : Numbering ε ℕ := do
  modify (· + 1)
  get

/-- As long as the counter stays within the limit, the action raises nothing, and its result
is good and carries the next `k` numbers. -/
def Draws (good : β → Prop) (numbers : β → List ℕ) (limit k : ℕ) (action : Numbering ε β) :
    Prop :=
  ∀ n, n + k ≤ limit → ∃ b, action.run n = .ok (b, n + k) ∧ good b ∧
    numbers b = List.range' (n + 1) k

/-- What is made with one number. -/
theorem Draws.one {make : ℕ → Except ε β}
    (h : ∀ n, n + 1 ≤ limit → ∃ b, make (n + 1) = .ok b ∧ good b ∧ numbers b = [n + 1]) :
    Draws good numbers limit 1 (next >>= fun n => (make n : Numbering ε β)) := by
  intro n hroom
  obtain ⟨b, hmake, hgood, hnumber⟩ := h n hroom
  refine ⟨b, ?_, hgood, hnumber⟩
  have hrun : (next >>= fun n => (make n : Numbering ε β)).run n =
      make (n + 1) >>= fun b => .ok (b, n + 1) := rfl
  rw [hrun, hmake]
  rfl

theorem Draws.map {action : Numbering ε β} (h : Draws good numbers limit k action) {f : β → γ}
    {good' : γ → Prop} {numbers' : γ → List ℕ}
    (hf : ∀ b, good b → (numbers b).length = k → good' (f b) ∧ numbers' (f b) = numbers b) :
    Draws good' numbers' limit k (do return f (← action)) := by
  intro n hroom
  obtain ⟨b, hrun, hgood, hnumbers⟩ := h n hroom
  obtain ⟨hgood', hnumbers'⟩ := hf b hgood (by rw [hnumbers, List.length_range'])
  refine ⟨f b, ?_, hgood', hnumbers'.trans hnumbers⟩
  rw [StateT.run_bind, hrun]
  rfl

/-- One action for each element of a list. -/
theorem Draws.mapM_forall₂ {good : α → β → Prop} {f : α → Numbering ε β} {l : List α}
    (h : ∀ a ∈ l, Draws (good a) numbers limit k (f a)) :
    Draws (List.Forall₂ good l) (fun bs => bs.flatMap numbers) limit (l.length * k)
      (l.mapM f) := by
  induction l with
  | nil =>
    intro n _
    refine ⟨[], ?_, .nil, by simp⟩
    rw [List.length_nil, Nat.zero_mul]
    rfl
  | cons a l ih =>
    intro n hroom
    have hcount : (a :: l).length * k = k + l.length * k := by
      rw [List.length_cons, Nat.add_mul, Nat.one_mul, Nat.add_comm]
    rw [hcount] at hroom ⊢
    obtain ⟨b, hrun, hgood, hnumbers⟩ := h a List.mem_cons_self n (by omega)
    obtain ⟨bs, hruns, hgoods, hrest⟩ :=
      ih (fun a ha => h a (List.mem_cons_of_mem _ ha)) (n + k) (by omega)
    refine ⟨b :: bs, ?_, .cons hgood hgoods, ?_⟩
    · rw [List.mapM_cons, StateT.run_bind, hrun]
      change ((l.mapM f).run (n + k) >>= fun r => .ok (b :: r.1, r.2)) = _
      rw [hruns, Nat.add_assoc]
      rfl
    · dsimp only at hrest ⊢
      rw [List.flatMap_cons, hnumbers, hrest, Nat.add_right_comm, List.range'_append_1]

theorem Draws.mapM {f : α → Numbering ε β} {l : List α}
    (h : ∀ a ∈ l, Draws good numbers limit k (f a)) :
    Draws (fun bs => ∀ b ∈ bs, good b) (fun bs => bs.flatMap numbers) limit (l.length * k)
      (l.mapM f) := by
  have hmem : ∀ {l : List α} {bs}, List.Forall₂ (fun _ => good) l bs → ∀ b ∈ bs, good b := by
    intro l bs hall
    induction hall with
    | nil => simp
    | cons hb _ ih => exact List.forall_mem_cons.mpr ⟨hb, ih⟩
  intro n hroom
  obtain ⟨bs, hrun, hall, hnumbers⟩ := Draws.mapM_forall₂ h n hroom
  exact ⟨bs, hrun, hmem hall, hnumbers⟩

end Numbering
end Control
