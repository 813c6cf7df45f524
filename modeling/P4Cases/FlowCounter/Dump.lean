import P4Cases.FlowCounter.Run
import P4Cases.Text.Python
import P4Cases.Text.Search

/-! The reading of a register dump from the output of the command line interface. -/
namespace P4Cases.FlowCounter
open Text Text.Regex

section Patterns
variable (T : Tables)

def errorWords : List String := ["error", "invalid", "unknown command", "traceback", "exception"]

/-- `\b(error|invalid|unknown command|traceback|exception)\b`, without regard to case. -/
def errorReply : Regex Char :=
  seq (boundary T.isWord) (seq (group 1 (anyOf (errorWords.map fun s => spelled T.like s.toList)))
    (boundary T.isWord))

def isNewline (c : Char) : Bool := c = '\n'

/-- `\s*`. -/
def spaces : Regex Char := star (one T.isSpace)

/-- `\d+`. -/
def digits : Regex Char := plus (one T.isDigit)

/-- `(?:RuntimeCmd:\s*)*(?:MyIngress\.)?flow_counter`. -/
def name : Regex Char :=
  seq (star (seq (literal "RuntimeCmd:".toList) (spaces T)))
    (seq (opt (literal "MyIngress.".toList)) (literal "flow_counter".toList))

/-- `(?:\[(\d+)\])?`. -/
def index : Regex Char :=
  opt (seq (literal ['[']) (seq (group 1 (digits T)) (literal [']'])))

/-- `\s*=\s*([^\n]+)`. -/
def assigned : Regex Char :=
  seq (spaces T) (seq (literal ['=']) (seq (spaces T) (group 2 (plus (one fun c => !isNewline c)))))

def sample : Regex Char :=
  seq (lineStart isNewline) (seq (name T) (seq (index T) (assigned T)))

/-- A line that names the array, whatever stands behind the name. -/
def declaration : Regex Char :=
  seq (lineStart isNewline)
    (seq (name T) (seq (boundary T.isWord) (star (one fun c => !isNewline c))))

/-- `\d+(?:\s*,\s*\d+)*`. -/
def commaList : Regex Char :=
  seq (digits T) (star (seq (seq (spaces T) (seq (literal [',']) (spaces T))) (digits T)))

/-- `\d+(?:\s+\d+)*`. -/
def spaceList : Regex Char :=
  seq (digits T) (star (seq (plus (one T.isSpace)) (digits T)))

/-- `[,\s]+`. -/
def separator : Regex Char := plus (one fun c => c = ',' || T.isSpace c)

end Patterns

variable (T : Tables)

/-- `value[1:-1].strip()` where the value is in brackets. -/
def unbracket (value : List Char) : List Char :=
  if ['['] <+: value ∧ [']'] <:+ value then T.strip value.tail.dropLast else value

def parseArray (text : List Char) : Py (List ℤ) := do
  let value := unbracket T (T.strip text)
  raiseIf (¬ ((commaList T).fullmatch value ∨ (spaceList T).fullmatch value))
    (.runtimeError "Thrift register array contains invalid values")
  ((separator T).split value).mapM T.int

/-- A dictionary, as the list of its entries. -/
abbrev Slots := List (ℤ × ℤ)

/-- The turn of the loop for one sample. -/
def addSample (values : Slots) (sample : Match Char) : Py Slots := do
  -- the second group is set in every match
  let value := (sample.stop.group 2).getD []
  match sample.stop.group 1 with
  | none => throw (.runtimeError "Thrift register samples are incomplete or mixed")
  | some index =>
      raiseIf (¬ (digits T).fullmatch (T.strip value))
        (.runtimeError "Thrift register samples are incomplete or mixed")
      let index ← T.int index
      raiseIf (index ∈ values.map Prod.fst ∨ ¬ (0 ≤ index ∧ index < registerSize))
        (.runtimeError "Thrift register index is duplicate or out of range")
      return values ++ [(index, ← T.int value)]

/-- `values[index]`. -/
def slotValue (values : Slots) (index : ℕ) : Py ℤ :=
  match values.lookup (index : ℤ) with
  | some value => .ok value
  | none => .error .keyError

def parseIndexed (samples : List (Match Char)) : Py (List ℤ) := do
  let values ← samples.foldlM (addSample T) []
  raiseIf ((values.map Prod.fst).toFinset ≠ ((List.range registerSize).map Int.ofNat).toFinset)
    (.runtimeError "Thrift register dump did not include every slot")
  (List.range registerSize).mapM (slotValue values)

def parseSamples : List (Match Char) → Py (List ℤ)
  | [sample] =>
      if sample.stop.group 1 = none then parseArray T ((sample.stop.group 2).getD [])
      else parseIndexed T [sample]
  | samples => parseIndexed T samples

def parseRegisterDump (output : List Char) : Py (List ℤ) := do
  raiseIf ((errorReply T).search output |>.isSome)
    (.runtimeError "Thrift CLI reported an error")
  let samples := (sample T).finditer output
  let declared := (declaration T).finditer output
  raiseIf (declared.length ≠ samples.length)
    (.runtimeError "Thrift register dump contains malformed samples")
  let result ← parseSamples T samples
  validateSnapshot result
  return result

end P4Cases.FlowCounter
