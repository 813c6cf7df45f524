import P4Cases.Runtime.Processes

/-! What is left behind when the `with` statement is left. -/
namespace P4Cases.Runtime
open Control Raising

/-- The network was stopped once, every process was stopped, and the handlers are those
from before. -/
structure Clean (s : State) : Prop where
  netStops : s.netStops = 1
  stopped : ∀ pid ∈ s.spawned, pid ∈ s.stopped
  handlers : ∀ signum, s.handlers signum = .original

instance : DecidablePred Clean := fun s =>
  decidable_of_iff (s.netStops = 1 ∧ (∀ pid ∈ s.spawned, pid ∈ s.stopped) ∧
    s.handlers .sigint = .original ∧ s.handlers .sigterm = .original)
    ⟨fun h => ⟨h.1, h.2.1, fun signum => by cases signum <;> simp [h.2.2]⟩,
      fun h => ⟨h.1, h.2, h.3 _, h.3 _⟩⟩

/-- What holds from `__enter__` on until the network is stopped. `but` is a process no
controller on the list stands for yet, `closing` a controller that is being closed. -/
structure Inv (closed : Bool) (but closing : Option ℕ) (s : State) : Prop where
  saved : s.saved = [(.sigint, .original), (.sigterm, .original)]
  closed : s.closed = closed
  netStops : s.netStops = 0
  spawned : ∀ pid ∈ s.spawned,
    pid ∈ s.stopped ∨ (∃ c ∈ s.controllers, c.pid = pid) ∨ but = some pid
  closedControllers : ∀ pid ∈ s.closedControllers, pid ∈ s.stopped ∨ closing = some pid

/-- The state in the body. -/
def Open (s : State) : Prop := Inv false none none s ∧ s.handlers = fun _ => .interrupt

section
variable {closed : Bool} {but closing : Option ℕ} {s : State} {pid : ℕ}

theorem Inv.markClosed (h : Inv closed but (some pid) s) :
    Inv closed but (some pid) { s with closedControllers := pid :: s.closedControllers } := by
  refine ⟨h.saved, h.closed, h.netStops, h.spawned, ?_⟩
  intro q hq
  rcases List.mem_cons.mp hq with rfl | hq
  · exact Or.inr rfl
  · exact h.closedControllers q hq

theorem Inv.markStopped (h : Inv closed but closing s) (pid : ℕ) :
    Inv closed but closing { s with stopped := pid :: s.stopped } := by
  refine ⟨h.saved, h.closed, h.netStops, ?_, ?_⟩
  · intro q hq
    exact (h.spawned q hq).imp_left (List.mem_cons_of_mem _)
  · intro q hq
    exact (h.closedControllers q hq).imp_left (List.mem_cons_of_mem _)

theorem Inv.closingAny (h : Inv closed but none s) (closing : Option ℕ) :
    Inv closed but closing s := by
  refine ⟨h.saved, h.closed, h.netStops, h.spawned, ?_⟩
  intro q hq
  exact Or.inl ((h.closedControllers q hq).resolve_right nofun)

/-- A controller that is closed and stopped is no exception any more. -/
theorem Inv.closingDone (h : Inv closed but (some pid) s) (hs : pid ∈ s.stopped) :
    Inv closed but none s := by
  refine ⟨h.saved, h.closed, h.netStops, h.spawned, ?_⟩
  intro q hq
  rcases h.closedControllers q hq with hq | hq
  · exact Or.inl hq
  · cases hq
    exact Or.inl hs

theorem Inv.butDone (h : Inv closed (some pid) closing s) (hs : pid ∈ s.stopped) :
    Inv closed none closing s := by
  refine ⟨h.saved, h.closed, h.netStops, ?_, h.closedControllers⟩
  intro q hq
  rcases h.spawned q hq with hq | hq | hq
  · exact Or.inl hq
  · exact Or.inr (Or.inl hq)
  · cases hq
    exact Or.inl hs

theorem Inv.spawn (h : Inv closed none closing s) (pid : ℕ) :
    Inv closed (some pid) closing { s with spawned := pid :: s.spawned } := by
  refine ⟨h.saved, h.closed, h.netStops, ?_, h.closedControllers⟩
  intro q hq
  rcases List.mem_cons.mp hq with rfl | hq
  · exact Or.inr (Or.inr rfl)
  · exact (h.spawned q hq).imp_right fun hc => Or.inl (hc.resolve_right nofun)

theorem Inv.register {c : Controller} (h : Inv closed (some c.pid) closing s) :
    Inv closed none closing { s with controllers := s.controllers ++ [c] } := by
  refine ⟨h.saved, h.closed, h.netStops, ?_, h.closedControllers⟩
  intro q hq
  rcases h.spawned q hq with hq | ⟨d, hd, hpid⟩ | hq
  · exact Or.inl hq
  · exact Or.inr (Or.inl ⟨d, List.mem_append_left _ hd, hpid⟩)
  · cases hq
    exact Or.inr (Or.inl ⟨c, List.mem_append_right _ (List.mem_singleton.mpr rfl), rfl⟩)

end

/-- The state while a controller is constructed for a process. -/
def Constructing (pid : ℕ) (s : State) : Prop :=
  Inv false (some pid) none s ∧ s.handlers = fun _ => .interrupt

theorem popen_keeps : Keeps Open popen Constructing fun _ => Open := by
  apply (call_keeps.to_error fun _ _ h => h.1).bind
  intro _
  apply (read_keeps fun s => s.spawned.length).bind
  intro pid
  have hspawn : Keeps (fun s => Open s ∧ pid = s.spawned.length)
      (modify fun s => { s with spawned := pid :: s.spawned }) (fun _ => Constructing pid)
      fun _ => Open := modify_keeps fun s hs => ⟨hs.1.1.spawn pid, hs.1.2⟩
  exact hspawn.bind fun _ => Keeps.pure pid fun _ hs => hs

theorem startReader_keeps (pid : ℕ) : Keeps (Constructing pid)
    (do
      gap .reading
      call
      modify fun s => { s with reading := pid :: s.reading }
      gap .reading) (fun _ => Constructing pid) fun _ => Constructing pid := by
  have hmodify : Keeps (Constructing pid)
      (modify fun s => { s with reading := pid :: s.reading }) (fun _ => Constructing pid)
      fun _ => Constructing pid := by
    apply modify_keeps
    intro s hs
    obtain ⟨h, hhandlers⟩ := hs
    exact ⟨⟨h.saved, h.closed, h.netStops, h.spawned, h.closedControllers⟩, hhandlers⟩
  apply (gap_any .reading).bind
  intro _
  apply (call_keeps.to_error fun _ _ h => h.1).bind
  intro _
  exact hmodify.bind fun _ => gap_any .reading

/-- The `except` clause of the constructor stops the process. -/
theorem readFailed_keeps (c : Controller) (e : Exn) : Keeps (Constructing c.pid)
    (do
      gap .readFailed
      c.close
      gap .readClosed
      raise e : Run Unit) (fun _ => Constructing c.pid) fun _ => Open := by
  have hkeeps := Controller.close_keeps
    (J := fun s => Inv false (some c.pid) (some c.pid) s ∧ s.handlers = fun _ => .interrupt) c
    (fun s hs => ⟨hs.1.markClosed, hs.2⟩) (fun s hs => ⟨hs.1.markStopped c.pid, hs.2⟩)
    fun s hs => hs.2
  have hopen : ∀ s, (Inv false (some c.pid) (some c.pid) s ∧ s.handlers = fun _ => .interrupt) ∧
      c.pid ∈ s.stopped → Open s := by
    intro s hs
    exact ⟨(hs.1.1.closingDone hs.2).butDone hs.2, hs.1.2⟩
  have hclose : Keeps (Constructing c.pid) c.close (fun _ => Open) fun _ => Open := by
    refine hkeeps.mono ?_ (fun _ s hs => hopen s hs) fun _ s hs => hopen s hs.1
    intro s hs
    refine ⟨⟨hs.1.closingAny _, hs.2⟩, ?_⟩
    intro hmem
    exact (hs.1.closedControllers c.pid hmem).resolve_right nofun
  apply (gap_unguarded rfl).bind
  intro _
  exact hclose.bind fun _ => (gap_any .readClosed).bind fun _ => Keeps.raise e fun _ hs => hs

/-- A controller is constructed, or whatever was started for it is stopped again. -/
theorem Controller.init_keeps (interactive : Bool) : Keeps Open (Controller.init interactive)
    (fun c => Constructing c.pid) fun _ => Open := by
  apply (gap_any .spawning).bind
  intro _
  apply popen_keeps.bind
  intro pid
  apply (gap_unguarded rfl).bind
  intro _
  have htry := (startReader_keeps pid).tryExcept (readFailed_keeps ⟨pid, interactive⟩)
  exact htry.bind fun _ => (gap_unguarded rfl).bind fun _ => Keeps.pure _ fun _ hs => hs

theorem startController_keeps (interactive : Bool) :
    Keeps Open (startController interactive) (fun _ => Open) fun _ => Open := by
  apply (gap_any .starting).bind
  intro _
  apply (Controller.init_keeps interactive).bind
  intro c
  apply (gap_unguarded rfl).bind
  intro _
  apply Keeps.bind (modify_keeps fun s hs => ?_) fun _ =>
    (gap_any .registered).bind fun _ => Keeps.pure c fun _ hs => hs
  exact ⟨hs.1.register, hs.2⟩

theorem Keeps.attempt {α : Type} {P Q : State → Prop} {E : Exn → State → Prop} {m : Run α}
    (h : Keeps P m (fun _ => Q) fun _ => Q) : Keeps P (attempt m) (fun _ => Q) E :=
  Holds.attempt h

/-- Whatever the body starts and raises, every process is on the list or was stopped. -/
theorem Body.run_keeps (body : Body) : Keeps Open body.run (fun _ => Open) fun _ => Open := by
  induction body with
  | done => exact Keeps.pure () fun _ hs => hs
  | raise e => exact Keeps.raise e fun _ hs => hs
  | statement next ih => exact (gap_any .body).attempt.bind ih
  | startController interactive next ih => exact (startController_keeps interactive).attempt.bind ih

/-! Leaving. -/

/-- The network is stopped and so is every process; the handlers are still to be restored. -/
structure TornDown (s : State) : Prop where
  saved : s.saved = [(.sigint, .original), (.sigterm, .original)]
  netStops : s.netStops = 1
  stopped : ∀ pid ∈ s.spawned, pid ∈ s.stopped

/-- The controllers on the list are closed, those in `left` still to come. -/
structure Closing (controllers left : List Controller) (s : State) : Prop where
  inv : Inv true none none s
  quiet : s.handlers = fun _ => .ignore
  listed : s.controllers = controllers
  stopped : ∀ c ∈ controllers, c ∉ left → c.pid ∈ s.stopped

theorem Closing.isQuiet {controllers left : List Controller} {s : State}
    (h : Closing controllers left s) : Quiet s := by
  intro signum
  rw [h.quiet]

/-- The controller `c` of the list is being closed. -/
structure ClosingOne (controllers left : List Controller) (c : Controller) (s : State) :
    Prop where
  inv : Inv true none (some c.pid) s
  quiet : s.handlers = fun _ => .ignore
  listed : s.controllers = controllers
  stopped : ∀ d ∈ controllers, d ∉ c :: left → d.pid ∈ s.stopped

theorem ClosingOne.done {controllers left : List Controller} {c : Controller} {s : State}
    (h : ClosingOne controllers left c s) (hstopped : c.pid ∈ s.stopped) :
    Closing controllers left s := by
  refine ⟨h.inv.closingDone hstopped, h.quiet, h.listed, ?_⟩
  intro d hd hleft
  by_cases he : d = c
  · rw [he]
    exact hstopped
  · exact h.stopped d hd fun hmem => (List.mem_cons.mp hmem).elim he hleft

/-- One controller of the loop. What its `close` raises is an `Exception` and caught. -/
theorem closeOne_keeps (controllers left : List Controller) (c : Controller) :
    Keeps (Closing controllers (c :: left))
      (do
        gap .teardown
        tryExcept c.close fun e => if e.isException then gap .teardown else raise e)
      (fun _ => Closing controllers left) fun _ _ => False := by
  have hkeeps := Controller.close_keeps (J := ClosingOne controllers left c) c
    (fun s hs => ⟨hs.inv.markClosed, hs.quiet, hs.listed, hs.stopped⟩)
    (fun s hs => ⟨hs.inv.markStopped c.pid, hs.quiet, hs.listed,
      fun d hd hleft => List.mem_cons_of_mem _ (hs.stopped d hd hleft)⟩) fun s hs => hs.quiet
  have hclose : Keeps (Closing controllers (c :: left)) c.close
      (fun _ => Closing controllers left)
      fun e s => Closing controllers left s ∧ Expected (fun _ => .ignore) e := by
    refine hkeeps.mono ?_ (fun _ s hs => hs.1.done hs.2) fun _ s hs => ⟨hs.1.1.done hs.1.2, hs.2⟩
    intro s hs
    refine ⟨⟨hs.inv.closingAny _, hs.quiet, hs.listed, hs.stopped⟩, ?_⟩
    intro hmem
    exact (hs.inv.closedControllers c.pid hmem).resolve_right nofun
  apply (gap_quiet .teardown fun _ => Closing.isQuiet).bind
  intro _
  apply hclose.tryExcept
  intro e
  split_ifs with he
  · exact (gap_quiet .teardown fun _ => Closing.isQuiet).of_pre fun _ hs => hs.1
  · refine Keeps.raise e fun s hs => ?_
    rcases hs.2 with hexception | hloud
    · exact he hexception
    · exact hloud fun _ => rfl

/-- All controllers, and then the network. -/
theorem teardown_keeps : Keeps (fun s => Inv true none none s ∧ s.handlers = fun _ => .ignore)
    (do
      let controllers ← read fun w => w.state.controllers
      controllers.reverse.forM fun controller => do
        gap .teardown
        tryExcept controller.close fun e => if e.isException then gap .teardown else raise e
      gap .teardown
      modify fun s => { s with netStops := s.netStops + 1 }
      callNet) (fun _ => TornDown) fun _ => TornDown := by
  apply (read_keeps fun s => s.controllers).bind
  intro controllers
  have hloop : Keeps (fun s => (Inv true none none s ∧ s.handlers = fun _ => .ignore) ∧
      controllers = s.controllers)
      (controllers.reverse.forM fun controller => do
        gap .teardown
        tryExcept controller.close fun e => if e.isException then gap .teardown else raise e)
      (fun _ => Closing controllers []) fun _ => TornDown := by
    refine (Keeps.forM (Closing controllers) (fun c left => closeOne_keeps controllers left c)
      controllers.reverse).mono ?_ (fun _ _ h => h) fun _ _ h => h.elim
    intro s hs
    refine ⟨hs.1.1, hs.1.2, hs.2.symm, ?_⟩
    intro c hc hleft
    exact absurd (List.mem_reverse.mpr hc) hleft
  have hstop : Keeps (Closing controllers [])
      (modify fun s => { s with netStops := s.netStops + 1 }) (fun _ => TornDown)
      fun _ => TornDown := by
    apply modify_keeps
    intro s hs
    refine ⟨hs.inv.saved, congrArg (· + 1) hs.inv.netStops, ?_⟩
    intro pid hpid
    rcases hs.inv.spawned pid hpid with h | ⟨c, hc, rfl⟩ | h
    · exact h
    · rw [hs.listed] at hc
      exact hs.stopped c hc List.not_mem_nil
    · cases h
  exact hloop.bind fun _ => (gap_quiet .teardown fun _ => Closing.isQuiet).bind fun _ =>
    hstop.bind fun _ => callNet_keeps

/-- The loop over the signals has set the handler of all but those in `left`. -/
structure Setting (K : State → Prop) (value : Signal × Handler → Handler) (handler : Handler)
    (left : List (Signal × Handler)) (s : State) : Prop where
  kept : K s
  values : ∀ p ∈ left, value p = handler
  set : ∀ signum, (∀ p ∈ left, p.1 ≠ signum) → s.handlers signum = handler

theorem Setting.step {K : State → Prop} (hK : ∀ s handlers, K s → K { s with handlers := handlers })
    {value : Signal × Handler → Handler} {handler : Handler} {p : Signal × Handler}
    {left : List (Signal × Handler)} {s : State} (h : Setting K value handler (p :: left) s) :
    Setting K value handler left
      { s with handlers := Function.update s.handlers p.1 (value p) } := by
  refine ⟨hK s _ h.kept, fun q hq => h.values q (List.mem_cons_of_mem _ hq), ?_⟩
  intro signum hleft
  by_cases he : signum = p.1
  · subst he
    exact (Function.update_self ..).trans (h.values p List.mem_cons_self)
  · refine (Function.update_of_ne he ..).trans (h.set signum ?_)
    intro q hq
    rcases List.mem_cons.mp hq with rfl | hq
    · exact fun h => he h.symm
    · exact hleft q hq

/-- A loop that installs the same handler for every signal. -/
theorem setHandlers_keeps {K : State → Prop} {E : Exn → State → Prop} (place : Place)
    (hplace : place.guarded = false)
    (hK : ∀ s handlers, K s → K { s with handlers := handlers })
    (value : Signal × Handler → Handler) (handler : Handler) (saved : List (Signal × Handler)) :
    Keeps (fun s => K s ∧ (∀ p ∈ saved, value p = handler) ∧ ∀ signum, ∃ p ∈ saved, p.1 = signum)
      (saved.forM fun p => do
        gap place
        modify fun s => { s with handlers := Function.update s.handlers p.1 (value p) })
      (fun _ s => K s ∧ s.handlers = fun _ => handler) E := by
  have hloop := Keeps.forM (E := E) (Setting K value handler) (fun p left =>
    (gap_unguarded hplace).bind fun _ => modify_keeps fun s hs => Setting.step hK hs) saved
  refine hloop.mono ?_ ?_ fun _ _ h => h
  · intro s hs
    refine ⟨hs.1, hs.2.1, ?_⟩
    intro signum hnone
    obtain ⟨p, hp, he⟩ := hs.2.2 signum
    exact absurd he (hnone p hp)
  · intro _ s hs
    exact ⟨hs.kept, funext fun signum => hs.set signum nofun⟩

/-- The handlers kept are the original ones, one for each signal. -/
theorem saved_spec {saved : List (Signal × Handler)}
    (h : saved = [(.sigint, .original), (.sigterm, .original)]) :
    (∀ p ∈ saved, p.2 = .original) ∧ ∀ signum, ∃ p ∈ saved, p.1 = signum := by
  subst h
  refine ⟨by simp, ?_⟩
  intro signum
  cases signum
  · exact ⟨_, List.mem_cons_self, rfl⟩
  · exact ⟨_, List.mem_cons_of_mem _ List.mem_cons_self, rfl⟩

/-- Both handlers are put back. -/
theorem restore_keeps : Keeps TornDown
    (do
      let saved ← read fun w => w.state.saved
      saved.forM fun p => do
        gap .restoring
        modify fun s => { s with handlers := Function.update s.handlers p.1 p.2 }
      gap .restored) (fun _ => Clean) fun _ => Clean := by
  apply (read_keeps fun s => s.saved).bind
  intro saved
  have hset := setHandlers_keeps (K := TornDown) (E := fun _ => Clean) .restoring rfl
    (fun s _ h => ⟨h.saved, h.netStops, h.stopped⟩) Prod.snd .original saved
  have hloop : Keeps (fun s => TornDown s ∧ saved = s.saved)
      (saved.forM fun p => do
        gap .restoring
        modify fun s => { s with handlers := Function.update s.handlers p.1 p.2 })
      (fun _ => Clean) fun _ => Clean := by
    refine hset.mono ?_ ?_ fun _ _ h => h
    · intro s hs
      exact ⟨hs.1, saved_spec (hs.2.trans hs.1.saved)⟩
    · intro _ s hs
      exact ⟨hs.1.netStops, hs.1.stopped, congrFun hs.2⟩
  exact hloop.bind fun _ => gap_any .restored

/-- From the moment both signals are ignored nothing gets in the way. -/
theorem close_keeps : Keeps (Inv false none none) close (fun _ => Clean) fun _ => Clean := by
  apply (gap_unguarded rfl).bind
  intro _
  apply (read_keeps fun s => s.closed).bind
  intro closed
  cases closed with
  | true =>
    apply Keeps.pure
    intro s hs
    exact absurd (hs.2.trans hs.1.closed) nofun
  | false =>
    have hmark : Keeps (fun s => Inv false none none s ∧ false = s.closed)
        (modify fun s => { s with closed := true }) (fun _ => Inv true none none)
        fun _ => Clean := modify_keeps fun s hs =>
      ⟨hs.1.saved, rfl, hs.1.netStops, hs.1.spawned, hs.1.closedControllers⟩
    apply (gap_unguarded rfl).bind
    intro _
    apply hmark.bind
    intro _
    apply (read_keeps fun s => s.saved).bind
    intro saved
    have hset := setHandlers_keeps (K := Inv true none none) (E := fun _ => Clean) .closing rfl
      (fun s _ h => ⟨h.saved, h.closed, h.netStops, h.spawned, h.closedControllers⟩)
      (fun _ => .ignore) .ignore saved
    have hloop : Keeps (fun s => Inv true none none s ∧ saved = s.saved)
        (saved.forM fun p => do
          gap .closing
          modify fun s => { s with handlers := Function.update s.handlers p.1 .ignore })
        (fun _ s => Inv true none none s ∧ s.handlers = fun _ => .ignore) fun _ => Clean := by
      apply hset.of_pre
      intro s hs
      exact ⟨hs.1, fun _ _ => rfl, (saved_spec (hs.2.trans hs.1.saved)).2⟩
    apply hloop.bind
    intro _
    exact Keeps.tryFinally (I := fun _ => TornDown) teardown_keeps (fun _ => restore_keeps)
      fun _ => restore_keeps

/-! The whole statement. -/

/-- The handlers are installed one after the other, and what was there is kept. -/
theorem install_keeps : Keeps (· = {})
    ([Signal.sigint, .sigterm].forM fun signum => modify fun s => { s with
      saved := s.saved ++ [(signum, s.handlers signum)]
      handlers := Function.update s.handlers signum .interrupt })
    (fun _ => Open) fun _ => Open := by
  let first : State :=
    { saved := [(.sigint, .original)]
      handlers := Function.update (fun _ => .original) .sigint .interrupt }
  have hfirst : Keeps (· = {}) (modify fun s => { s with
      saved := s.saved ++ [(Signal.sigint, s.handlers .sigint)]
      handlers := Function.update s.handlers .sigint .interrupt })
      (fun _ s => s = first) fun _ => Open := by
    apply modify_keeps
    rintro _ rfl
    rfl
  have hsecond : Keeps (· = first) (modify fun s => { s with
      saved := s.saved ++ [(Signal.sigterm, s.handlers .sigterm)]
      handlers := Function.update s.handlers .sigterm .interrupt })
      (fun _ => Open) fun _ => Open := by
    apply modify_keeps
    rintro _ rfl
    refine ⟨⟨rfl, rfl, rfl, nofun, nofun⟩, ?_⟩
    funext signum
    cases signum <;> rfl
  rw [List.forM_eq_forM, List.forM_cons, List.forM_cons, List.forM_nil]
  exact hfirst.bind fun _ => hsecond.bind fun _ => Keeps.pure _ fun _ hs => hs

/-- Its `except` clause leaves as `__exit__` does. -/
theorem enterFailed_keeps (e : Exn) : Keeps Open
    (do
      gap .enterFailed
      close
      gap .enterClosed
      raise e : Run Unit) (fun _ => Open) fun _ => Clean := by
  have hclose : Keeps Open close (fun _ => Clean) fun _ => Clean :=
    close_keeps.of_pre fun _ hs => hs.1
  apply (gap_unguarded rfl).bind
  intro _
  exact hclose.bind fun _ => (gap_any .enterClosed).bind fun _ => Keeps.raise e fun _ hs => hs

theorem enter_keeps : Keeps (· = {}) enter (fun _ => Open) fun _ => Clean := by
  have htry : Keeps (· = {})
      (do
        [Signal.sigint, .sigterm].forM fun signum => modify fun s => { s with
          saved := s.saved ++ [(signum, s.handlers signum)]
          handlers := Function.update s.handlers signum .interrupt }
        gap .entering
        callNet
        gap .entering
        callNet
        gap .entering) (fun _ => Open) fun _ => Open :=
    install_keeps.bind fun _ => (gap_any .entering).bind fun _ => callNet_keeps.bind fun _ =>
      (gap_any .entering).bind fun _ => callNet_keeps.bind fun _ => gap_any .entering
  exact (htry.tryExcept enterFailed_keeps).bind fun _ => gap_unguarded rfl

theorem exit_keeps : Keeps Open exit (fun _ => Clean) fun _ => Clean :=
  (gap_unguarded rfl).bind fun _ =>
    close_keeps.of_pre fun _ hs => hs.1

theorem withRuntime_keeps (body : Body) :
    Keeps (· = {}) (withRuntime body) (fun _ => Clean) fun _ => Clean := by
  apply enter_keeps.bind
  intro _
  apply body.run_keeps.attempt.bind
  intro out
  apply exit_keeps.bind
  intro _
  cases out with
  | ok a => exact Keeps.pure () fun _ hs => hs
  | error e => exact Keeps.raise e fun _ hs => hs

/-- Whatever the body does, whichever calls raise and wherever signals come in: unless a
handler raises at a place where nothing is ready for it, the network is stopped once, every
process that was started is stopped, and the handlers are those from before. -/
theorem withRuntime_clean (body : Body) (w : World) (hstart : w.state = {})
    (hraised : ∀ place ∈ (withRuntime body w).2.raisedAt, place.guarded = true) :
    Clean (withRuntime body w).2.state := by
  have hnot : ¬ Exposed (withRuntime body w).2 := by
    intro h
    obtain ⟨place, hmem, hg⟩ := h
    exact absurd ((hraised place hmem).symm.trans hg) nofun
  have hend := ((withRuntime_keeps body).ends w hstart).resolve_left hnot
  rcases hout : withRuntime body w with ⟨e | a, w'⟩
  · rw [hout] at hend
    exact hend
  · rw [hout] at hend
    exact hend

/-- A body that starts one controller. -/
def oneController : Body :=
  .startController false fun
    | .ok _ => .done
    | .error e => .raise e

/-- A SIGTERM in the gap with the given number. -/
def termAt (n : ℕ) : World := { deliveries := fun m => if m = n then [.sigterm] else [] }

/-- The gap behind `append`: the controller is on the list, and gets stopped. -/
theorem withRuntime_clean_registered :
    (withRuntime oneController (termAt 11)).2.raisedAt = [.registered] ∧
      Clean (withRuntime oneController (termAt 11)).2.state :=
  ⟨by decide, withRuntime_clean oneController (termAt 11) rfl (by decide)⟩

/-- The gap before it: the process runs, and nobody knows of it. -/
theorem withRuntime_leaks :
    (withRuntime oneController (termAt 10)).2.raisedAt = [.started] ∧
    (withRuntime oneController (termAt 10)).2.state.spawned = [0] ∧
    (withRuntime oneController (termAt 10)).2.state.stopped = [] ∧
    ¬ ∀ body w, w.state = {} → Clean (withRuntime body w).2.state := by
  refine ⟨by decide, by decide, by decide, ?_⟩
  intro h
  have hunclean : ¬ Clean (withRuntime oneController (termAt 10)).2.state := by decide
  exact hunclean (h oneController (termAt 10) rfl)

/-- A run in which a handler raises at the place, if it is an unguarded one. -/
def exposing : Place → World
  | .enterFailed => { termAt 1 with netFaults := fun _ => some (.fault .other) }
  | .entered => termAt 3
  | .spawned => termAt 6
  | .readFailed => { termAt 8 with faults := fun n => if n = 3 then some .other else none }
  | .stopping => { termAt 9 with faults := fun n => if n = 3 then some .other else none }
  | .stop => { termAt 12 with faults := fun n => if n = 3 then some .other else none }
  | .terminating => { termAt 13 with faults := fun n => if n = 3 then some .other else none }
  | .killing => { termAt 15 with faults := fun n => if n = 3 then some .other else none }
  | .constructed => termAt 9
  | .started => termAt 10
  | .exiting => termAt 12
  | .closing => termAt 16
  | .restoring =>
      { deliveries := fun m => if m = 30 then [.sigint] else [], originalRaises := fun _ => true }
  | _ => {}

/-- No place is called unguarded without need: at each of them a signal alone spoils a run. -/
theorem unguarded_spoils (place : Place) (h : place.guarded = false) :
    (exposing place).state = {} ∧
      (withRuntime oneController (exposing place)).2.raisedAt = [place] ∧
      ¬ Clean (withRuntime oneController (exposing place)).2.state := by
  refine ⟨?_, ?_⟩
  · cases place <;> rfl
  · revert h
    cases place <;> decide

end P4Cases.Runtime
