import P4Cases.Control.Prog
import P4Cases.Target.V1Model

/-! The controller of the learning switch: it decodes digests, checks them, and
installs a forwarding entry and then the entry that stops further digests. -/
namespace P4Cases.LearningSwitch
open Wire P4 Control

/-! The tables the controller writes. -/

inductive SmacAction where
  | macLearn
  | noAction
  deriving DecidableEq

inductive DmacAction where
  | forward (egressPort : Port)
  | noAction
  deriving DecidableEq

/-- The exact-match tables: at most one action for a key. -/
structure Tables where
  smac : BitVec 48 → Option SmacAction := fun _ => none
  dmac : BitVec 48 → Option DmacAction := fun _ => none

inductive TableEntry where
  | smac (srcAddr : BitVec 48) (action : SmacAction)
  | dmac (dstAddr : BitVec 48) (action : DmacAction)
  deriving DecidableEq

def TableEntry.mac : TableEntry → BitVec 48
  | smac srcAddr _ => srcAddr
  | dmac dstAddr _ => dstAddr

def Tables.set (t : Tables) : TableEntry → Tables
  | .smac srcAddr action => { t with smac := Function.update t.smac srcAddr (some action) }
  | .dmac dstAddr action => { t with dmac := Function.update t.dmac dstAddr (some action) }

inductive UpdateType where
  | insert
  | modify
  deriving DecidableEq

/-! gRPC status codes. -/

def codes.unknown : ℕ := 2
def codes.alreadyExists : ℕ := 6

inductive Detail where
  | p4Error (canonicalCode : ℤ)
  | other
  deriving DecidableEq

structure Status where
  code : ℕ
  details : List Detail
  deriving DecidableEq

/-- An error as the controller can tell it apart: whether it wraps the library's
`ErrEntryExists`, and the status it carries. -/
structure WriteError where
  isEntryExists : Bool
  status : Option Status
  deriving DecidableEq

/-- What becomes of a write: it may fail and take effect nevertheless, but a write
that reports success took effect. -/
structure Outcome where
  applied : Bool
  error : Option WriteError
  applied_of_success : error = none → applied = true

structure Write where
  kind : UpdateType
  entry : TableEntry
  deriving DecidableEq

abbrev WriteProg := Prog Write Outcome

def writeTableEntry (kind : UpdateType) (entry : TableEntry) : WriteProg (Option WriteError) :=
  .ask ⟨kind, entry⟩ fun outcome => .pure outcome.error

/-- `AlreadyExists` in any of its three encodings: the library's error, the status
code, or the one detail of an `UNKNOWN` batch status. -/
def WriteError.alreadyExists (err : WriteError) : Bool :=
  err.isEntryExists || (match err.status with
    | none => false
    | some st => decide (st.code = codes.alreadyExists) ||
        (decide (st.code = codes.unknown) &&
          match st.details with
          | [.p4Error canonicalCode] => decide (canonicalCode = codes.alreadyExists)
          | _ => false))

def upsertEntry (entry : TableEntry) : WriteProg (Option WriteError) := do
  let err ← writeTableEntry .insert entry
  match err with
  | some e => if e.alreadyExists then writeTableEntry .modify entry else return some e
  | none => return none

inductive LearnError where
  | invalidSource
  | invalidPort (port : ℕ)
  | alreadyBound (existing : ℕ)
  | writeDmac (err : WriteError)
  | writeSmac (err : WriteError)
  deriving DecidableEq

/-- The text of an error in front of what it wraps. -/
def LearnError.message : LearnError → String
  | invalidSource => "source MAC must be a non-zero unicast address"
  | invalidPort port => s!"ingress port {port} is outside the configured host ports"
  | alreadyBound existing =>
      s!"MAC is already bound to port {existing}, movement is not supported"
  | writeDmac _ => "write dmac: "
  | writeSmac _ => "write smac: "

/-- The table key of a MAC; for six bytes it is as good as their hex string. -/
def macKey (mac : List Byte) : BitVec 48 := BitVec.ofNat 48 (beNat mac)

/-- Install forwarding before suppressing future digests for this MAC. -/
def installLearned (mac : List Byte) (port : ℕ) : WriteProg (Option LearnError) := do
  let err ← upsertEntry (.dmac (macKey mac) (.forward (BitVec.ofNat 9 port)))
  match err with
  | some e => return some (.writeDmac e)
  | none =>
      let err ← upsertEntry (.smac (macKey mac) .noAction)
      match err with
      | some e => return some (.writeSmac e)
      | none => return none

abbrev Learned := BitVec 48 → Option ℕ

/-- One call: the error it returns, and the map it leaves. -/
def learn (ports : ℕ) (learned : Learned) (mac : List Byte) (port : ℕ) :
    WriteProg (Option LearnError × Learned) :=
  if mac.length ≠ 6 ∨ (mac.headD 0).toNat &&& 1 ≠ 0 ∨ mac = [0, 0, 0, 0, 0, 0] then
    return (some .invalidSource, learned)
  else if port = 0 ∨ port > ports then return (some (.invalidPort port), learned)
  else
    match learned (macKey mac) with
    | some existing =>
        if existing ≠ port then return (some (.alreadyBound existing), learned)
        else return (none, learned)
    | none => do
        let err ← installLearned mac port
        match err with
        | some e => return (some e, learned)
        | none => return (none, Function.update learned (macKey mac) (some port))

/-! Digests. -/

/-- `p4v1.P4Data`, as far as the decoder tells it apart. -/
inductive P4Data where
  | bitstring (value : List Byte)
  | struct (members : List P4Data)
  | other

def P4Data.getStruct : P4Data → Option (List P4Data)
  | struct members => some members
  | _ => none

def P4Data.getBitstring : P4Data → List Byte
  | bitstring value => value
  | _ => []

def decodeLearnStruct (d : P4Data) : Option (List Byte × ℕ) :=
  match d.getStruct with
  | some [macData, portData] =>
      let macBytes := macData.getBitstring
      let portBytes := portData.getBitstring
      if macBytes.length = 0 ∨ macBytes.length > 6 ∨ portBytes.length = 0 ∨
          portBytes.length > 2 then
        none
      else
        let mac := List.replicate (6 - macBytes.length) 0 ++ macBytes
        let port := portBytes.foldl (fun port value => (port <<< 8) ||| value.toNat) 0
        if port > 0 ∧ port < 512 then some (mac, port) else none
  | _ => none

/-! The loop that serves digests, one table write at a time. -/

/-- The tables, the controller's map, and what has happened so far. -/
structure World where
  tables : Tables := {}
  learned : Learned := fun _ => none
  received : List P4Data := []
  writes : List Write := []

/-- A write is answered. More happens here than on a switch, where an insertion
does not replace an entry and a modification does not create one. -/
def World.apply (w : World) (write : Write) (outcome : Outcome) : World :=
  { w with
    tables := if outcome.applied then w.tables.set write.entry else w.tables
    writes := w.writes ++ [write] }

def World.receive (w : World) (member : P4Data) : World :=
  { w with received := w.received ++ [member] }

/-- The loop is idle, or in a call of `learn`. -/
structure Config where
  world : World := {}
  running : Option (WriteProg (Option LearnError × Learned)) := none

/-- A member of a digest list arrives, a write is answered, or `learn` returns. -/
inductive Event where
  | digest (member : P4Data)
  | reply (outcome : Outcome)
  | finish

/-- One step; events that cannot happen in a configuration change nothing. -/
def Config.step (ports : ℕ) (c : Config) : Event → Config
  | .digest member =>
      match c.running with
      | none =>
          { world := c.world.receive member
            running := (decodeLearnStruct member).map fun decoded =>
              learn ports c.world.learned decoded.1 decoded.2 }
      | some _ => c
  | .reply outcome =>
      match c.running with
      | some (.ask write next) =>
          { world := c.world.apply write outcome, running := some (next outcome) }
      | _ => c
  | .finish =>
      match c.running with
      | some (.pure result) => { world := { c.world with learned := result.2 }, running := none }
      | _ => c

def Config.run (ports : ℕ) (c : Config) (events : List Event) : Config :=
  events.foldl (Config.step ports) c

end P4Cases.LearningSwitch
