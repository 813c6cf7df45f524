import P4Cases.Runtime.Context
import Mathlib.Tactic.SplitIfs

/-! What a computation keeps of the state, as long as no signal raises at a place where
nothing is ready for it. -/
namespace P4Cases.Runtime
open Control Raising

/-- An exception raised here still gets everything cleaned up. -/
def Place.guarded : Place → Bool
  | enterFailed | entered | started | spawned | readFailed | constructed | stopping | stop
  | terminating | killing | exiting | closing | restoring => false
  | _ => true

/-- A handler raised at an unguarded place. -/
def Exposed (w : World) : Prop := ∃ place ∈ w.raisedAt, place.guarded = false

/-- Unless the run is exposed, it ends as `Q` and `E` say of the state. -/
def Keeps {α : Type} (P : State → Prop) (m : Run α) (Q : α → State → Prop)
    (E : Exn → State → Prop) : Prop :=
  Holds Exposed (fun w => P w.state) m (fun a w => Q a w.state) fun e w => E e w.state

/-- Every signal is ignored. -/
def Quiet (s : State) : Prop := ∀ signum, s.handlers signum = .ignore

section
variable {α β : Type} {P P' : State → Prop} {Q Q' : α → State → Prop} {R : β → State → Prop}
  {E E' : Exn → State → Prop} {m : Run α}

theorem Keeps.pure (a : α) (h : ∀ s, P s → Q a s) : Keeps P (pure a) Q E :=
  Holds.pure a fun w => h w.state

theorem Keeps.raise (e : Exn) (h : ∀ s, P s → E e s) : Keeps P (raise e) Q E :=
  Holds.raise e fun w => h w.state

theorem Keeps.mono (h : Keeps P m Q E) (hP : ∀ s, P' s → P s) (hQ : ∀ a s, Q a s → Q' a s)
    (hE : ∀ e s, E e s → E' e s) : Keeps P' m Q' E' :=
  Holds.mono h (fun w => hP w.state) (fun a w => hQ a w.state) fun e w => hE e w.state

theorem Keeps.of_pre (h : Keeps P m Q E) (hP : ∀ s, P' s → P s) : Keeps P' m Q E :=
  h.mono hP (fun _ _ hq => hq) fun _ _ he => he

theorem Keeps.to_error (h : Keeps P m Q E) (hE : ∀ e s, E e s → E' e s) : Keeps P m Q E' :=
  h.mono (fun _ hs => hs) (fun _ _ hq => hq) hE

/-- What does not depend on the state stays true. -/
theorem Keeps.frame (φ : Prop) (h : Keeps P m Q E) :
    Keeps (fun s => P s ∧ φ) m (fun a s => Q a s ∧ φ) E := by
  refine ⟨?_, h.excused⟩
  intro w hw
  obtain ⟨hP, hφ⟩ := hw
  have hend := h.mono (fun _ hs => hs) (fun _ _ hq => (⟨hq, hφ⟩ : _ ∧ φ)) fun _ _ he => he
  exact hend.ends w hP

theorem Keeps.bind {k : α → Run β} (h : Keeps P m Q E) (hk : ∀ a, Keeps (Q a) (k a) R E) :
    Keeps P (m >>= k) R E :=
  Holds.bind h hk

theorem Keeps.runIf {Q : Unit → State → Prop} {b : Bool} {m : Run Unit}
    (ht : b = true → Keeps P m Q E) (hf : b = false → ∀ s, P s → Q () s) :
    Keeps P (runIf b m) Q E :=
  Holds.runIf ht fun hb w => hf hb w.state

/-- What does not touch the state. -/
theorem readWorld_keeps (f : World → α) : Keeps P (read f) (fun _ => P) E :=
  Holds.read _ fun _ hw => hw

theorem tick_keeps {f : World → World} (hstate : ∀ w, (f w).state = w.state)
    (hraised : ∀ w, (f w).raisedAt = w.raisedAt) : Keeps P (update f) (fun _ => P) E := by
  apply Holds.update
  · intro w hw
    rw [hstate]
    exact hw
  · intro w hx
    unfold Exposed
    rw [hraised]
    exact hx

/-- A value read from the state, and the state it was read from. -/
theorem read_keeps (f : State → α) :
    Keeps P (read fun w => f w.state) (fun a s => P s ∧ a = f s) E :=
  Holds.read _ fun _ hw => ⟨hw, rfl⟩

theorem modify_keeps {Q : Unit → State → Prop} {f : State → State} (h : ∀ s, P s → Q () (f s)) :
    Keeps P (modify f) Q E :=
  Holds.update _ (fun w => h w.state) fun _ hx => hx

/-! Signals. -/

theorem raisedIn_keeps {Q : Unit → State → Prop} (place : Place) (e : Exn) :
    Keeps P (raisedIn place e) Q fun _ s => P s ∧ place.guarded = true := by
  constructor
  · intro w hw
    by_cases hg : place.guarded = true
    · exact Or.inr ⟨hw, hg⟩
    · left
      refine ⟨place, List.mem_append_right _ (List.mem_singleton.mpr rfl), ?_⟩
      simpa using hg
  · intro w hx
    obtain ⟨p, hp, hg⟩ := hx
    exact ⟨p, List.mem_append_left _ hp, hg⟩

/-- A signal changes nothing in the state; a handler that raises is none that ignores. -/
theorem deliver_keeps (place : Place) (signals : List Signal) :
    Keeps P (deliver place signals) (fun _ => P)
      fun _ s => (P s ∧ ¬ Quiet s) ∧ place.guarded = true := by
  induction signals with
  | nil => exact Keeps.pure () fun _ hs => hs
  | cons signum rest ih =>
    unfold deliver
    apply (read_keeps fun s => s.handlers signum).bind
    intro handler
    have hloud : ∀ s, P s ∧ handler = s.handlers signum → handler ≠ .ignore →
        P s ∧ ¬ Quiet s := by
      intro s hs hne
      exact ⟨hs.1, fun hq => hne (hs.2.trans (hq signum))⟩
    cases handler with
    | interrupt =>
      exact (raisedIn_keeps place _).of_pre fun s hs => hloud s hs nofun
    | ignore => exact ih.of_pre fun _ hs => hs.1
    | original =>
      apply (readWorld_keeps fun w => w.originalRaises signum).bind
      intro raises
      cases raises with
      | true =>
        exact (raisedIn_keeps place _).of_pre fun s hs => hloud s hs nofun
      | false => exact ih.of_pre fun _ hs => hs.1

theorem gap_keeps (place : Place) : Keeps P (gap place) (fun _ => P)
    fun _ s => (P s ∧ ¬ Quiet s) ∧ place.guarded = true := by
  apply (readWorld_keeps fun w => w.deliveries w.gaps).bind
  intro signals
  apply Keeps.bind (Q := fun _ => P)
  · exact tick_keeps (fun _ => rfl) fun _ => rfl
  · intro _
    exact deliver_keeps place signals

theorem gap_any (place : Place) : Keeps P (gap place) (fun _ => P) fun _ => P :=
  (gap_keeps place).to_error fun _ _ h => h.1.1

/-- At an unguarded place there is no other end than the next statement. -/
theorem gap_unguarded {place : Place} (h : place.guarded = false) :
    Keeps P (gap place) (fun _ => P) E := by
  apply (gap_keeps place).to_error
  intro _ _ he
  rw [h] at he
  exact absurd he.2 nofun

theorem gap_quiet (place : Place) (h : ∀ s, P s → Quiet s) :
    Keeps P (gap place) (fun _ => P) E :=
  (gap_keeps place).to_error fun _ s he =>
    absurd (h s he.1.1) he.1.2

/-! Calls to other code. -/

theorem call_keeps : Keeps P call (fun _ => P) fun e s => P s ∧ e.isException = true := by
  apply (readWorld_keeps fun w => w.faults w.calls).bind
  intro fault
  apply Keeps.bind (Q := fun _ => P)
  · exact tick_keeps (fun _ => rfl) fun _ => rfl
  · intro _
    cases fault with
    | none => exact Keeps.pure () fun _ hs => hs
    | some f => exact Keeps.raise _ fun _ hs => ⟨hs, rfl⟩

theorem callNet_keeps : Keeps P callNet (fun _ => P) fun _ => P := by
  apply (readWorld_keeps fun w => w.netFaults w.calls).bind
  intro e
  apply Keeps.bind (Q := fun _ => P)
  · exact tick_keeps (fun _ => rfl) fun _ => rfl
  · intro _
    cases e with
    | none => exact Keeps.pure () fun _ hs => hs
    | some e => exact Keeps.raise _ fun _ hs => hs

end

theorem Keeps.tryExcept {α : Type} {P : State → Prop} {Q : α → State → Prop}
    {E E' : Exn → State → Prop} {m : Run α} {handle : Exn → Run α} (h : Keeps P m Q E')
    (hh : ∀ e, Keeps (E' e) (handle e) Q E) : Keeps P (tryExcept m handle) Q E :=
  Holds.tryExcept h hh

/-- A `finally` clause that runs from `I` and raises nothing it should not. -/
theorem Keeps.tryFinally {α : Type} {P : State → Prop} {I : Except Exn α → State → Prop}
    {Q : α → State → Prop} {E : Exn → State → Prop} {m : Run α} {cleanup : Run Unit}
    (h : Keeps P m (fun a => I (.ok a)) fun e => I (.error e))
    (hok : ∀ a, Keeps (I (.ok a)) cleanup (fun _ => Q a) E)
    (herror : ∀ e, Keeps (I (.error e)) cleanup (fun _ => E e) E) :
    Keeps P (tryFinally m cleanup) Q E := by
  refine Holds.tryFinally (I := fun r (w : World) => I r w.state) h ?_
  intro r
  cases r with
  | ok a => exact hok a
  | error e => exact herror e

/-- The clause passes on what is known of the exception it was reached with. -/
theorem Keeps.tryFinally_error {α : Type} {P J T : State → Prop} {φ : Exn → Prop} {m : Run α}
    {cleanup : Run Unit} (h : Keeps P m (fun _ => J) fun e s => J s ∧ φ e)
    (hc : Keeps J cleanup (fun _ => T) fun e s => T s ∧ φ e) :
    Keeps P (Raising.tryFinally m cleanup) (fun _ => T) fun e s => T s ∧ φ e := by
  apply Keeps.tryFinally (I := fun r s => J s ∧ ∀ e, r = .error e → φ e)
  · refine h.mono (fun _ hs => hs) (fun _ _ hJ => ⟨hJ, nofun⟩) ?_
    intro e _ he
    refine ⟨he.1, ?_⟩
    rintro _ ⟨⟩
    exact he.2
  · intro _
    exact (hc.frame _).mono (fun _ hs => hs) (fun _ _ h => h.1) fun _ _ h => h
  · intro e
    exact (hc.frame _).mono (fun _ hs => hs) (fun _ _ h => ⟨h.1, h.2 e rfl⟩) fun _ _ h => h

theorem Keeps.forM {β : Type} {E : Exn → State → Prop} {f : β → Run Unit}
    (I : List β → State → Prop) (hf : ∀ b l, Keeps (I (b :: l)) (f b) (fun _ => I l) E)
    (l : List β) : Keeps (I l) (l.forM f) (fun _ => I []) E :=
  Holds.forM (fun l (w : World) => I l w.state) hf l

/-! Runs under handlers that do not change. -/

/-- Some handler may raise. -/
def Loud (handlers : Signal → Handler) : Prop := ¬ ∀ signum, handlers signum = .ignore

/-- An exception that can come up under these handlers. -/
def Expected (handlers : Signal → Handler) (e : Exn) : Prop :=
  e.isException = true ∨ Loud handlers

section
variable {J : State → Prop} {handlers : Signal → Handler}

theorem gap_loud (hhandlers : ∀ s, J s → s.handlers = handlers) (place : Place) :
    Keeps J (gap place) (fun _ => J) fun e s => J s ∧ Expected handlers e := by
  apply (gap_keeps place).to_error
  intro _ s he
  refine ⟨he.1.1, Or.inr ?_⟩
  rw [Loud, ← hhandlers s he.1.1]
  exact he.1.2

theorem call_expected : Keeps J call (fun _ => J) fun e s => J s ∧ Expected handlers e :=
  call_keeps.to_error fun _ _ he => ⟨he.1, Or.inl he.2⟩

/-- One kind of exception is swallowed, the others pass. -/
theorem swallow_keeps (hhandlers : ∀ s, J s → s.handlers = handlers) {m : Run Unit}
    (hm : Keeps J m (fun _ => J) fun e s => J s ∧ Expected handlers e) (kind : Exn → Bool)
    (place : Place) :
    Keeps J (tryExcept m fun e => if kind e then gap place else raise e) (fun _ => J)
      fun e s => J s ∧ Expected handlers e := by
  apply hm.tryExcept
  intro e
  split_ifs with he
  · exact (gap_loud hhandlers place).of_pre fun _ hs => hs.1
  · exact Keeps.raise e fun _ hs => hs

end

end P4Cases.Runtime
