import Mathlib.Data.List.DropRight
import Mathlib.Data.List.Infix
import P4Cases.Control.Steps

/-! The output of a controller: a thread that reads it into a bounded buffer, and a
consumer that takes lines out, step by step between their locks. -/
namespace P4Cases.Runtime.Output
open Control

abbrev Line := List Char

/-- `line.rstrip("\r\n")`. -/
def rstrip (line : Line) : Line := line.rdropWhile fun c => c = '\r' ∨ c = '\n'

def maxlen : ℕ := 4096

/-- `append` on a deque of bounded length: the oldest element goes. -/
def append (lines : List Line) (line : Line) : List Line :=
  (lines ++ [line]).drop (lines.length + 1 - maxlen)

inductive Thread where
  | reader
  | consumer
  deriving DecidableEq

/-- What `readline` comes to: a line, None at the end of the output or at the deadline,
or an error. `X` are the exceptions of the reader. -/
inductive Outcome (X : Type) where
  | line (text : Line)
  | ended
  | timedOut
  | overflowed
  | failed (cause : X)

def Outcome.text? {X : Type} : Outcome X → Option Line
  | line text => some text
  | _ => none

/-- The fields of the controller; then the lines appended so far, what the calls of
`readline` came to, and the results of `wait_ready` with their banners. -/
structure Shared (X : Type) where
  owner : Option Thread := none
  lines : List Line := []
  overflow : Bool := false
  eof : Bool := false
  error : Option X := none
  appended : List Line := []
  outcomes : List (Outcome X) := []
  answers : List (Line × Bool) := []

variable {X : Type}

def Shared.returned (g : Shared X) : List Line := g.outcomes.filterMap Outcome.text?

/-! The reader. -/

/-- Where `_read_output` is. From `testing` to `releasing` and from `setting` to `leaving`
it holds the lock. -/
inductive ReaderPc (X : Type) where
  | reading
  | acquiring (line : Line)
  | testing (line : Line)
  | appending (line : Line)
  | notifying (line : Line)
  | releasing (line : Line)
  | showing (line : Line)
  | failing (exc : X)
  | finishing
  | setting
  | announcing
  | leaving
  | gone

/-- The thread, and the output it has not read. -/
structure Reader (X : Type) where
  pc : ReaderPc X := .reading
  output : List Line

/-- One step of the reader. It may fail where it reads and where it shows a line. -/
inductive ReaderStep : Shared X → Reader X → Shared X → Reader X → Prop where
  | read {g line output} :
      ReaderStep g ⟨.reading, line :: output⟩ g ⟨.acquiring (rstrip line), output⟩
  | readEnd {g} : ReaderStep g ⟨.reading, []⟩ g ⟨.finishing, []⟩
  | readFails {g output} (exc : X) : ReaderStep g ⟨.reading, output⟩ g ⟨.failing exc, output⟩
  | acquire {g line output} : g.owner = none →
      ReaderStep g ⟨.acquiring line, output⟩ { g with owner := some .reader }
        ⟨.testing line, output⟩
  | test {g line output} :
      ReaderStep g ⟨.testing line, output⟩
        { g with overflow := g.overflow || decide (g.lines.length = maxlen) }
        ⟨.appending line, output⟩
  | append {g line output} :
      ReaderStep g ⟨.appending line, output⟩
        { g with lines := append g.lines line, appended := g.appended ++ [line] }
        ⟨.notifying line, output⟩
  | notify {g line output} :
      ReaderStep g ⟨.notifying line, output⟩ g ⟨.releasing line, output⟩
  | release {g line output} :
      ReaderStep g ⟨.releasing line, output⟩ { g with owner := none } ⟨.showing line, output⟩
  | info {g line output} : ReaderStep g ⟨.showing line, output⟩ g ⟨.reading, output⟩
  | infoFails {g line output} (exc : X) :
      ReaderStep g ⟨.showing line, output⟩ g ⟨.failing exc, output⟩
  | setError {g exc output} :
      ReaderStep g ⟨.failing exc, output⟩ { g with error := some exc } ⟨.finishing, output⟩
  | finish {g output} : g.owner = none →
      ReaderStep g ⟨.finishing, output⟩ { g with owner := some .reader } ⟨.setting, output⟩
  | setEof {g output} :
      ReaderStep g ⟨.setting, output⟩ { g with eof := true } ⟨.announcing, output⟩
  | announce {g output} : ReaderStep g ⟨.announcing, output⟩ g ⟨.leaving, output⟩
  | leave {g output} :
      ReaderStep g ⟨.leaving, output⟩ { g with owner := none } ⟨.gone, output⟩

/-! The consumer. -/

/-- What is being called: `readline`, one turn of a `lines_for` loop, or `wait_ready`. -/
inductive Call where
  | readline
  | linesFor
  | waitReady (banner : Line)

/-- Where the consumer is: at the head of the loop of `lines_for`, at one of the tests of
`readline`, in `wait`, or at the end of the block that holds the lock. -/
inductive Consumer (X : Type) where
  | idle
  | looping (call : Call)
  | acquiring (call : Call)
  | testOverflow (call : Call)
  | testError (call : Call)
  | testLines (call : Call)
  | testEof (call : Call)
  | testDeadline (call : Call)
  | waiting (call : Call)
  | releasing (call : Call) (outcome : Outcome X)

/-- The caller goes on with the outcome: where it is then, and what `wait_ready` answers. -/
def resume : Call → Outcome X → Consumer X × List (Line × Bool)
  | .waitReady banner, .line text =>
      if banner <:+: text then (.idle, [(banner, true)]) else (.looping (.waitReady banner), [])
  | .waitReady banner, .ended | .waitReady banner, .timedOut => (.idle, [(banner, false)])
  | .waitReady _, .overflowed | .waitReady _, .failed _ => (.idle, [])
  | .readline, _ | .linesFor, _ => (.idle, [])

/-- The time of a `lines_for` loop is over. -/
def expire : Call → List (Line × Bool)
  | .waitReady banner => [(banner, false)]
  | .readline | .linesFor => []

/-- `readline` has come to an outcome. -/
def Shared.decide (g : Shared X) (outcome : Outcome X) : Shared X :=
  { g with outcomes := g.outcomes ++ [outcome] }

/-- One step of the consumer. Clocks may show any time, so each test of a deadline can go
either way, and a wait can end at any time, notified or not. -/
inductive ConsumerStep : Shared X → Consumer X → Shared X → Consumer X → Prop where
  | readline {g} : ConsumerStep g .idle g (.acquiring .readline)
  | linesFor {g} : ConsumerStep g .idle g (.looping .linesFor)
  | waitReady {g} (banner : Line) : ConsumerStep g .idle g (.looping (.waitReady banner))
  | goOn {g call} : ConsumerStep g (.looping call) g (.acquiring call)
  | expire {g call} :
      ConsumerStep g (.looping call) { g with answers := g.answers ++ expire call } .idle
  | acquire {g call} : g.owner = none →
      ConsumerStep g (.acquiring call) { g with owner := some .consumer } (.testOverflow call)
  | overflowed {g call} : g.overflow = true →
      ConsumerStep g (.testOverflow call) (g.decide .overflowed) (.releasing call .overflowed)
  | notOverflowed {g call} : g.overflow = false →
      ConsumerStep g (.testOverflow call) g (.testError call)
  | failed {g call cause} : g.error = some cause →
      ConsumerStep g (.testError call) (g.decide (.failed cause)) (.releasing call (.failed cause))
  | notFailed {g call} : g.error = none →
      ConsumerStep g (.testError call) g (.testLines call)
  | popleft {g call line rest} : g.lines = line :: rest →
      ConsumerStep g (.testLines call) ({ g with lines := rest }.decide (.line line))
        (.releasing call (.line line))
  | noLines {g call} : g.lines = [] → ConsumerStep g (.testLines call) g (.testEof call)
  | ended {g call} : g.eof = true →
      ConsumerStep g (.testEof call) (g.decide .ended) (.releasing call .ended)
  | notEnded {g call} : g.eof = false → ConsumerStep g (.testEof call) g (.testDeadline call)
  | timedOut {g call} :
      ConsumerStep g (.testDeadline call) (g.decide .timedOut) (.releasing call .timedOut)
  | wait {g call} :
      ConsumerStep g (.testDeadline call) { g with owner := none } (.waiting call)
  | wake {g call} : g.owner = none →
      ConsumerStep g (.waiting call) { g with owner := some .consumer } (.testOverflow call)
  | release {g call outcome} :
      ConsumerStep g (.releasing call outcome)
        { g with owner := none, answers := g.answers ++ (resume call outcome).2 }
        (resume call outcome).1

end P4Cases.Runtime.Output
