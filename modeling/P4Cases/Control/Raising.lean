import Mathlib.Logic.Basic

/-! Computations on a world that may raise, with handlers and `finally` clauses, and
what holds where they end. -/
namespace Control

/-- A computation ends with a result or an exception, in a world of its making. -/
def Raising (W ε α : Type) := W → Except ε α × W

namespace Raising
variable {W ε α β : Type}

protected def pure (a : α) : Raising W ε α := fun w => (.ok a, w)

protected def bind (m : Raising W ε α) (k : α → Raising W ε β) : Raising W ε β := fun w =>
  match m w with
  | (.ok a, w') => k a w'
  | (.error e, w') => (.error e, w')

instance : Monad (Raising W ε) where
  pure := Raising.pure
  bind := Raising.bind

def raise (e : ε) : Raising W ε α := fun w => (.error e, w)

def read (f : W → α) : Raising W ε α := fun w => (.ok (f w), w)

def update (f : W → W) : Raising W ε Unit := fun w => (.ok (), f w)

/-- A conditional without an alternative. -/
def runIf (b : Bool) (m : Raising W ε Unit) : Raising W ε Unit := if b then m else Raising.pure ()

/-- What the computation ends with, also when that is an exception. -/
def attempt (m : Raising W ε α) : Raising W ε (Except ε α) := fun w => (.ok (m w).1, (m w).2)

/-- A handler raises again what it does not catch. -/
def tryExcept (m : Raising W ε α) (handle : ε → Raising W ε α) : Raising W ε α := fun w =>
  match m w with
  | (.ok a, w') => (.ok a, w')
  | (.error e, w') => handle e w'

/-- An exception in the `finally` clause takes the place of what came before it. -/
def tryFinally (m : Raising W ε α) (cleanup : Raising W ε Unit) : Raising W ε α := fun w =>
  match cleanup (m w).2 with
  | (.ok (), w') => ((m w).1, w')
  | (.error e, w') => (.error e, w')

/-- The result and the world satisfy `Q`, or the exception and the world `E`. -/
def Ends (Q : α → W → Prop) (E : ε → W → Prop) : Except ε α × W → Prop
  | (.ok a, w) => Q a w
  | (.error e, w) => E e w

/-- From `P` the computation ends as `Q` and `E` say, or excused by `X`; what is excused
stays so. -/
structure Holds (X P : W → Prop) (m : Raising W ε α) (Q : α → W → Prop) (E : ε → W → Prop) :
    Prop where
  ends : ∀ w, P w → X (m w).2 ∨ Ends Q E (m w)
  excused : ∀ w, X w → X (m w).2

namespace Holds
variable {X P P' : W → Prop} {Q Q' : α → W → Prop} {R : β → W → Prop} {E E' : ε → W → Prop}
  {m : Raising W ε α}

theorem pure (a : α) (h : ∀ w, P w → Q a w) : Holds X P (pure a) Q E :=
  ⟨fun w hw => Or.inr (h w hw), fun _ hx => hx⟩

theorem raise (e : ε) (h : ∀ w, P w → E e w) : Holds X P (Raising.raise e) Q E :=
  ⟨fun w hw => Or.inr (h w hw), fun _ hx => hx⟩

theorem read (f : W → α) (h : ∀ w, P w → Q (f w) w) : Holds X P (Raising.read f) Q E :=
  ⟨fun w hw => Or.inr (h w hw), fun _ hx => hx⟩

theorem update {Q : Unit → W → Prop} (f : W → W) (h : ∀ w, P w → Q () (f w))
    (hx : ∀ w, X w → X (f w)) : Holds X P (Raising.update f) Q E :=
  ⟨fun w hw => Or.inr (h w hw), hx⟩

theorem mono (h : Holds X P m Q E) (hP : ∀ w, P' w → P w) (hQ : ∀ a w, Q a w → Q' a w)
    (hE : ∀ e w, E e w → E' e w) : Holds X P' m Q' E' := by
  refine ⟨?_, h.excused⟩
  intro w hw
  rcases h.ends w (hP w hw) with hx | he
  · exact Or.inl hx
  · right
    rcases hm : m w with ⟨e | a, w'⟩
    · rw [hm] at he
      exact hE e w' he
    · rw [hm] at he
      exact hQ a w' he

theorem bind {k : α → Raising W ε β} (h : Holds X P m Q E) (hk : ∀ a, Holds X (Q a) (k a) R E) :
    Holds X P (m >>= k) R E := by
  have hrun : ∀ w, (m >>= k) w = Raising.bind m k w := fun _ => rfl
  constructor
  · intro w hw
    have he := h.ends w hw
    rw [hrun, Raising.bind]
    rcases hm : m w with ⟨e | a, w'⟩
    · rw [hm] at he
      exact he
    · rw [hm] at he
      rcases he with hx | hq
      · exact Or.inl ((hk a).excused w' hx)
      · exact (hk a).ends w' hq
  · intro w hx
    have hx' := h.excused w hx
    rw [hrun, Raising.bind]
    rcases hm : m w with ⟨e | a, w'⟩
    · rw [hm] at hx'
      exact hx'
    · rw [hm] at hx'
      exact (hk a).excused w' hx'

theorem runIf {Q : Unit → W → Prop} {b : Bool} {m : Raising W ε Unit}
    (ht : b = true → Holds X P m Q E) (hf : b = false → ∀ w, P w → Q () w) :
    Holds X P (runIf b m) Q E := by
  cases b with
  | true => exact ht rfl
  | false => exact Holds.pure () (hf rfl)

theorem attempt {Q : Except ε α → W → Prop}
    (h : Holds X P m (fun a => Q (.ok a)) fun e => Q (.error e)) :
    Holds X P (Raising.attempt m) Q E := by
  refine ⟨?_, h.excused⟩
  intro w hw
  have he := h.ends w hw
  unfold Raising.attempt
  rcases hm : m w with ⟨e | a, w'⟩
  · rw [hm] at he
    exact he
  · rw [hm] at he
    exact he

theorem tryExcept {handle : ε → Raising W ε α} (h : Holds X P m Q E')
    (hh : ∀ e, Holds X (E' e) (handle e) Q E) : Holds X P (tryExcept m handle) Q E := by
  constructor
  · intro w hw
    have he := h.ends w hw
    unfold Raising.tryExcept
    rcases hm : m w with ⟨e | a, w'⟩
    · rw [hm] at he
      rcases he with hx | he
      · exact Or.inl ((hh e).excused w' hx)
      · exact (hh e).ends w' he
    · rw [hm] at he
      exact he
  · intro w hx
    have hx' := h.excused w hx
    unfold Raising.tryExcept
    rcases hm : m w with ⟨e | a, w'⟩
    · rw [hm] at hx'
      exact (hh e).excused w' hx'
    · rw [hm] at hx'
      exact hx'

/-- The clause runs in any case, and passes on what it was reached with. -/
theorem tryFinally {cleanup : Raising W ε Unit} {I : Except ε α → W → Prop}
    (h : Holds X P m (fun a => I (.ok a)) fun e => I (.error e))
    (hc : ∀ r, Holds X (I r) cleanup
      (fun _ w => Ends Q E (r, w)) E) : Holds X P (tryFinally m cleanup) Q E := by
  constructor
  · intro w hw
    have hend : X (m w).2 ∨ I (m w).1 (m w).2 := by
      rcases h.ends w hw with hx | he
      · exact Or.inl hx
      · right
        rcases hm : m w with ⟨e | a, w'⟩
        · rw [hm] at he
          exact he
        · rw [hm] at he
          exact he
    have hclean : X (cleanup (m w).2).2 ∨
        Ends (fun _ w' => Ends Q E ((m w).1, w')) E (cleanup (m w).2) := by
      rcases hend with hx | hi
      · exact Or.inl ((hc (m w).1).excused _ hx)
      · exact (hc (m w).1).ends _ hi
    unfold Raising.tryFinally
    rcases hm : cleanup (m w).2 with ⟨e | ⟨⟩, w'⟩
    · rw [hm] at hclean
      exact hclean
    · rw [hm] at hclean
      exact hclean
  · intro w hx
    have hx' := (hc (m w).1).excused _ (h.excused w hx)
    unfold Raising.tryFinally
    rcases hm : cleanup (m w).2 with ⟨e | ⟨⟩, w'⟩
    · rw [hm] at hx'
      exact hx'
    · rw [hm] at hx'
      exact hx'

/-- A loop, with an invariant on what is still to come. -/
theorem forM {f : β → Raising W ε Unit} (I : List β → W → Prop)
    (hf : ∀ b l, Holds X (I (b :: l)) (f b) (fun _ => I l) E) (l : List β) :
    Holds X (I l) (l.forM f) (fun _ => I []) E := by
  induction l with
  | nil => exact Holds.pure () fun _ hw => hw
  | cons b l ih =>
    rw [List.forM_eq_forM, List.forM_cons]
    exact (hf b l).bind fun _ => ih

end Holds

end Raising

end Control
