import P4Cases.Runtime.Rules

/-! Stopping a process, and closing a controller, under handlers that do not change. -/
namespace P4Cases.Runtime
open Control Raising

section
variable {J : State → Prop} {pid : ℕ} {handlers : Signal → Handler}
  (hstopped : ∀ s, J s → J { s with stopped := pid :: s.stopped })
  (hhandlers : ∀ s, J s → s.handlers = handlers)
include hstopped hhandlers

/-- The process is stopped, also when a signal ends the wait for it. -/
theorem stopProcess_keeps : Keeps J (stopProcess pid) (fun _ s => J s ∧ pid ∈ s.stopped)
    fun e s => (J s ∧ pid ∈ s.stopped) ∧ Expected handlers e := by
  have hkill : Keeps J (do
      gap .killing
      modify fun s => { s with stopped := pid :: s.stopped })
      (fun _ s => J s ∧ pid ∈ s.stopped)
      fun e s => (J s ∧ pid ∈ s.stopped) ∧ Expected handlers e := by
    apply (gap_unguarded rfl).bind
    intro _
    apply modify_keeps
    intro s hs
    exact ⟨hstopped s hs, List.mem_cons_self⟩
  apply (gap_unguarded rfl).bind
  intro _
  exact (gap_loud hhandlers .waiting).tryFinally_error hkill

end

section
variable {J : State → Prop} {handlers : Signal → Handler} (c : Controller)
  (hclosed : ∀ s, J s → J { s with closedControllers := c.pid :: s.closedControllers })
  (hstopped : ∀ s, J s → J { s with stopped := c.pid :: s.stopped })
  (hhandlers : ∀ s, J s → s.handlers = handlers)
include hhandlers

/-- Asking the controller to quit. -/
theorem quit_keeps : Keeps J
    (do
      gap .quitting
      runIf c.interactive <| tryExcept
        (do
          gap .quitting
          call
          gap .quitting
          call)
        fun e => if e.isOSError then gap .quitting else raise e)
    (fun _ => J) fun e s => J s ∧ Expected handlers e := by
  have hgap := gap_loud hhandlers .quitting
  apply hgap.bind
  intro _
  apply Keeps.runIf
  · intro _
    have hask : Keeps J
        (do
          gap .quitting
          call
          gap .quitting
          call) (fun _ => J) fun e s => J s ∧ Expected handlers e :=
      hgap.bind fun _ => call_expected.bind fun _ => hgap.bind fun _ => call_expected
    exact swallow_keeps hhandlers hask Exn.isOSError .quitting
  · exact fun _ _ hs => hs

include hstopped

/-- The `finally` clause of `close` stops the process, whatever comes up behind that. -/
theorem stop_keeps : Keeps J
    (do
      gap .stop
      stopProcess c.pid
      gap .stopped
      let reading ← read fun w => decide (c.pid ∈ w.state.reading)
      runIf reading call
      gap .stopped
      runIf c.interactive <| tryExcept call
        fun e => if e.isBrokenPipe then gap .stopped else raise e
      gap .stopped
      call) (fun _ s => J s ∧ c.pid ∈ s.stopped)
    fun e s => (J s ∧ c.pid ∈ s.stopped) ∧ Expected handlers e := by
  have hT : ∀ s, J s ∧ c.pid ∈ s.stopped → s.handlers = handlers := fun s hs => hhandlers s hs.1
  have hgap := gap_loud hT .stopped
  apply (gap_unguarded rfl).bind
  intro _
  apply (stopProcess_keeps hstopped hhandlers).bind
  intro _
  apply hgap.bind
  intro _
  apply (read_keeps fun s => decide (c.pid ∈ s.reading)).bind
  intro reading
  have hjoin : Keeps (fun s => (J s ∧ c.pid ∈ s.stopped) ∧ reading = decide (c.pid ∈ s.reading))
      (runIf reading call) (fun _ s => J s ∧ c.pid ∈ s.stopped)
      fun e s => (J s ∧ c.pid ∈ s.stopped) ∧ Expected handlers e := by
    apply Keeps.runIf
    · intro _
      exact call_expected.of_pre fun _ hs => hs.1
    · exact fun _ _ hs => hs.1
  have hstdin : Keeps (fun s => J s ∧ c.pid ∈ s.stopped)
      (runIf c.interactive <| tryExcept call
        fun e => if e.isBrokenPipe then gap .stopped else raise e)
      (fun _ s => J s ∧ c.pid ∈ s.stopped)
      fun e s => (J s ∧ c.pid ∈ s.stopped) ∧ Expected handlers e := by
    apply Keeps.runIf
    · intro _
      exact swallow_keeps hT call_expected Exn.isBrokenPipe .stopped
    · exact fun _ _ hs => hs
  exact hjoin.bind fun _ => hgap.bind fun _ => hstdin.bind fun _ => hgap.bind fun _ =>
    call_expected

include hclosed

/-- A controller that is closed has its process stopped, and what comes up is no more than
an `Exception` while signals are ignored. -/
theorem Controller.close_keeps :
    Keeps (fun s => J s ∧ (c.pid ∈ s.closedControllers → c.pid ∈ s.stopped)) c.close
      (fun _ s => J s ∧ c.pid ∈ s.stopped)
      fun e s => (J s ∧ c.pid ∈ s.stopped) ∧ Expected handlers e := by
  have hstop := stop_keeps c hstopped hhandlers
  apply (gap_unguarded rfl).bind
  intro _
  apply (read_keeps fun s => decide (c.pid ∈ s.closedControllers)).bind
  intro closed
  cases closed with
  | true =>
    apply Keeps.pure
    intro s hs
    obtain ⟨⟨hJ, hc⟩, hmem⟩ := hs
    exact ⟨hJ, hc (of_decide_eq_true hmem.symm)⟩
  | false =>
    have hmark : Keeps (fun s => (J s ∧ (c.pid ∈ s.closedControllers → c.pid ∈ s.stopped)) ∧
        false = decide (c.pid ∈ s.closedControllers))
        (modify fun s => { s with closedControllers := c.pid :: s.closedControllers })
        (fun _ => J) fun e s => (J s ∧ c.pid ∈ s.stopped) ∧ Expected handlers e :=
      modify_keeps fun s hs => hclosed s hs.1.1
    apply hmark.bind
    intro _
    apply (gap_unguarded rfl).bind
    intro _
    exact (quit_keeps c hhandlers).tryFinally_error hstop

end

end P4Cases.Runtime
