import P4Cases.Control.Raising
import Mathlib.Data.Nat.Notation
import Mathlib.Logic.Function.Basic

/-! The context manager of the topologies: it starts a network, controllers under it, and
stops them all on the way out. A signal may come in between any two statements. -/
namespace P4Cases.Runtime
open Control Raising

/-! Signals and exceptions. -/

inductive Signal where
  | sigint
  | sigterm
  deriving DecidableEq, Repr

def Signal.number : Signal → ℕ
  | sigint => 2
  | sigterm => 15

/-- What is installed for a signal: `_interrupt`, `SIG_IGN`, or what was there before. -/
inductive Handler where
  | interrupt
  | ignore
  | original
  deriving DecidableEq, Repr

/-- An `Exception`, as far as it is told apart. -/
inductive Fault where
  | brokenPipe
  | osError
  | other
  deriving DecidableEq, Repr

inductive Exn where
  | systemExit (code : ℕ)
  | keyboardInterrupt
  | fault (f : Fault)
  deriving DecidableEq, Repr

/-- `except Exception`. -/
def Exn.isException : Exn → Bool
  | fault _ => true
  | _ => false

/-- `except (BrokenPipeError, OSError)`. -/
def Exn.isOSError : Exn → Bool
  | fault .brokenPipe | fault .osError => true
  | _ => false

def Exn.isBrokenPipe : Exn → Bool
  | fault .brokenPipe => true
  | _ => false

/-! Where the main thread is when a signal comes in. A run of statements that change
nothing in between is one place. -/

inductive Place where
  /-- In the `try` of `__enter__`, with the handlers installed. -/
  | entering
  /-- In its `except` clause, before `close` is called. -/
  | enterFailed
  /-- In the same clause, before `raise`. -/
  | enterClosed
  /-- Behind that `try`, before `return self`. -/
  | entered
  | body
  /-- In `start_controller`, before the call of `Controller`. -/
  | starting
  /-- Between that call and the `append`. -/
  | started
  /-- Behind the `append`. -/
  | registered
  /-- In `Controller.__init__`, before `Popen`. -/
  | spawning
  /-- Behind `Popen`, before the `try`. -/
  | spawned
  /-- In the `try` around the start of the reader. -/
  | reading
  /-- In its `except` clause, before `close` is called. -/
  | readFailed
  /-- In the same clause, before `raise`. -/
  | readClosed
  /-- Behind that `try`. -/
  | constructed
  /-- In `Controller.close`, before its outer `try`. -/
  | stopping
  /-- In its outer `try`, around `quit`. -/
  | quitting
  /-- In its `finally` clause, before `stop_process`. -/
  | stop
  /-- In the same clause, behind `stop_process`. -/
  | stopped
  /-- In `stop_process`, around the first `killpg`. -/
  | terminating
  /-- In its `try` around `wait`. -/
  | waiting
  /-- In its `finally` clause. -/
  | killing
  /-- In `__exit__`, before `close` is called. -/
  | exiting
  /-- In `NetworkRuntime.close`, before both signals are ignored. -/
  | closing
  /-- In the same function, with both ignored. -/
  | teardown
  /-- In its `finally` clause. -/
  | restoring
  /-- Behind the last handler that is restored. -/
  | restored
  deriving DecidableEq, Repr

/-! The state. -/

structure Controller where
  pid : ℕ
  interactive : Bool
  deriving DecidableEq, Repr

/-- The handlers of the process, the fields of the runtime and of its controllers, and
what was done to the network and to the processes. -/
structure State where
  handlers : Signal → Handler := fun _ => .original
  saved : List (Signal × Handler) := []
  closed : Bool := false
  controllers : List Controller := []
  closedControllers : List ℕ := []
  reading : List ℕ := []
  netStops : ℕ := 0
  spawned : List ℕ := []
  stopped : List ℕ := []

/-- The state, and what the program does not control: which signals come in, by the number
of the gap between two statements, what the handlers from before do, and which of the
calls to other code raise. -/
structure World where
  state : State := {}
  deliveries : ℕ → List Signal := fun _ => []
  gaps : ℕ := 0
  originalRaises : Signal → Bool := fun _ => false
  faults : ℕ → Option Fault := fun _ => none
  netFaults : ℕ → Option Exn := fun _ => none
  calls : ℕ := 0
  /-- The places where a handler raised. -/
  raisedAt : List Place := []

abbrev Run := Raising World Exn

def modify (f : State → State) : Run Unit := update fun w => { w with state := f w.state }

def raisedIn (place : Place) (e : Exn) : Run Unit := do
  update fun w => { w with raisedAt := w.raisedAt ++ [place] }
  raise e

/-- The installed handlers run one after the other, until one of them raises. -/
def deliver (place : Place) : List Signal → Run Unit
  | [] => pure ()
  | signum :: rest => do
      match ← read fun w => w.state.handlers signum with
      | .interrupt => raisedIn place (.systemExit (128 + signum.number))
      | .ignore => deliver place rest
      | .original =>
          if ← read fun w => w.originalRaises signum then raisedIn place .keyboardInterrupt
          else deliver place rest

/-- A gap between two statements. -/
def gap (place : Place) : Run Unit := do
  let signals ← read fun w => w.deliveries w.gaps
  update fun w => { w with gaps := w.gaps + 1 }
  deliver place signals

/-- A call to other code, which may raise an `Exception`. -/
def call : Run Unit := do
  let fault ← read fun w => w.faults w.calls
  update fun w => { w with calls := w.calls + 1 }
  match fault with
  | some f => raise (.fault f)
  | none => pure ()

/-- A call to Mininet, which may raise anything. -/
def callNet : Run Unit := do
  let e ← read fun w => w.netFaults w.calls
  update fun w => { w with calls := w.calls + 1 }
  match e with
  | some e => raise e
  | none => pure ()

/-! Processes and controllers. -/

/-- The process is stopped once it is waited for, behind the `SIGKILL` to its group. -/
def stopProcess (pid : ℕ) : Run Unit := do
  gap .terminating
  tryFinally (gap .waiting) do
    gap .killing
    modify fun s => { s with stopped := pid :: s.stopped }

def Controller.close (c : Controller) : Run Unit := do
  gap .stopping
  if ← read fun w => decide (c.pid ∈ w.state.closedControllers) then pure ()
  else do
    modify fun s => { s with closedControllers := c.pid :: s.closedControllers }
    gap .stopping
    tryFinally
      (do
        gap .quitting
        runIf c.interactive <| tryExcept
          (do
            gap .quitting
            call
            gap .quitting
            call)
          fun e => if e.isOSError then gap .quitting else raise e)
      do
        gap .stop
        stopProcess c.pid
        gap .stopped
        let reading ← read fun w => decide (c.pid ∈ w.state.reading)
        runIf reading call
        gap .stopped
        runIf c.interactive <| tryExcept call
          fun e => if e.isBrokenPipe then gap .stopped else raise e
        gap .stopped
        call

/-- `subprocess.Popen`: a process of its own, or an exception. -/
def popen : Run ℕ := do
  call
  let pid ← read fun w => w.state.spawned.length
  modify fun s => { s with spawned := pid :: s.spawned }
  return pid

/-- `Controller.__init__`. -/
def Controller.init (interactive : Bool) : Run Controller := do
  gap .spawning
  let pid ← popen
  gap .spawned
  tryExcept
    (do
      gap .reading
      call
      modify fun s => { s with reading := pid :: s.reading }
      gap .reading)
    fun e => do
      gap .readFailed
      Controller.close ⟨pid, interactive⟩
      gap .readClosed
      raise e
  gap .constructed
  return ⟨pid, interactive⟩

/-! The runtime. -/

def startController (interactive : Bool) : Run Controller := do
  gap .starting
  let controller ← Controller.init interactive
  gap .started
  modify fun s => { s with controllers := s.controllers ++ [controller] }
  gap .registered
  return controller

def close : Run Unit := do
  gap .closing
  if ← read fun w => w.state.closed then pure ()
  else do
    gap .closing
    modify fun s => { s with closed := true }
    let saved ← read fun w => w.state.saved
    saved.forM fun p => do
      gap .closing
      modify fun s => { s with handlers := Function.update s.handlers p.1 .ignore }
    tryFinally
      (do
        let controllers ← read fun w => w.state.controllers
        controllers.reverse.forM fun controller => do
          gap .teardown
          tryExcept controller.close fun e => if e.isException then gap .teardown else raise e
        gap .teardown
        modify fun s => { s with netStops := s.netStops + 1 }
        callNet)
      do
        let saved ← read fun w => w.state.saved
        saved.forM fun p => do
          gap .restoring
          modify fun s => { s with handlers := Function.update s.handlers p.1 p.2 }
        gap .restored

/-- `__enter__`. Signals count from the moment both handlers are installed. -/
def enter : Run Unit := do
  tryExcept
    (do
      [Signal.sigint, .sigterm].forM fun signum => modify fun s => { s with
        saved := s.saved ++ [(signum, s.handlers signum)]
        handlers := Function.update s.handlers signum .interrupt }
      gap .entering
      callNet
      gap .entering
      callNet
      gap .entering)
    fun e => do
      gap .enterFailed
      close
      gap .enterClosed
      raise e
  gap .entered

/-- `__exit__`. -/
def exit : Run Unit := do
  gap .exiting
  close

/-- The body of the `with` statement: its statements, each of which may be in a `try` of its
own, so that the body goes on by how it ended. -/
inductive Body where
  | done
  | raise (e : Exn)
  | statement (next : Except Exn Unit → Body)
  | startController (interactive : Bool) (next : Except Exn Controller → Body)

def Body.run : Body → Run Unit
  | done => pure ()
  | raise e => Raising.raise e
  | statement next => do
      let out ← attempt (gap .body)
      (next out).run
  | startController interactive next => do
      let out ← attempt (Runtime.startController interactive)
      (next out).run

/-- `with NetworkRuntime(topo) as runtime: body`. -/
def withRuntime (body : Body) : Run Unit := do
  enter
  let out ← attempt body.run
  exit
  match out with
  | .ok () => pure ()
  | .error e => raise e

end P4Cases.Runtime
