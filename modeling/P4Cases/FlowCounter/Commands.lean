import P4Cases.Control.Steps
import P4Cases.Wire.Bytes

/-! The command loop of the controller: a goroutine that scans the input, the loop that
answers its lines, and the unbuffered channel between them. -/
namespace P4Cases.FlowCounter
open Wire Control

/-! Text. A string is its bytes; where a rune matters they are decoded as UTF-8. -/

/-- A decoded rune with its bytes. -/
structure Rune where
  value : ℕ
  bytes : List Byte
  deriving DecidableEq, Repr

def runeError : ℕ := 0xFFFD

def isContinuation (b : Byte) : Bool := decide (b.toNat / 64 = 2)

/-- A rune of `size` bytes, the first of which holds the bits `lead`. Overlong forms,
surrogates and values past the last rune are not decoded. -/
def decodeMultibyte (size least lead : ℕ) (first : Byte) (rest : List Byte) : Rune :=
  let tail := rest.take (size - 1)
  let value := tail.foldl (fun value b => value * 64 + b.toNat % 64) lead
  if tail.length = size - 1 ∧ tail.all isContinuation ∧ least ≤ value ∧ value ≤ 0x10FFFF ∧
      ¬ (0xD800 ≤ value ∧ value ≤ 0xDFFF) then
    ⟨value, first :: tail⟩
  else ⟨runeError, [first]⟩

/-- `utf8.DecodeRune`: a byte that starts no rune is one of its own. -/
def decodeRune (first : Byte) (rest : List Byte) : Rune :=
  if first.toNat < 0x80 then ⟨first.toNat, [first]⟩
  else if first.toNat < 0xC0 then ⟨runeError, [first]⟩
  else if first.toNat < 0xE0 then decodeMultibyte 2 0x80 (first.toNat - 0xC0) first rest
  else if first.toNat < 0xF0 then decodeMultibyte 3 0x800 (first.toNat - 0xE0) first rest
  else if first.toNat < 0xF8 then decodeMultibyte 4 0x10000 (first.toNat - 0xF0) first rest
  else ⟨runeError, [first]⟩

/-- The runes of a string; `skip` bytes belong to the rune before. -/
def decodeRunes (skip : ℕ) : List Byte → List Rune
  | [] => []
  | b :: rest =>
      match skip with
      | skip + 1 => decodeRunes skip rest
      | 0 =>
          let rune := decodeRune b rest
          rune :: decodeRunes (rune.bytes.length - 1) rest

/-- `unicode.IsSpace`. -/
def isSpace (r : ℕ) : Bool :=
  decide (0x09 ≤ r ∧ r ≤ 0x0D) || decide (0x2000 ≤ r ∧ r ≤ 0x200A) ||
    decide (r ∈ [0x20, 0x85, 0xA0, 0x1680, 0x2028, 0x2029, 0x202F, 0x205F, 0x3000])

/-- `strings.TrimSpace`. -/
def trimSpace (s : List Byte) : List Byte :=
  let left := (decodeRunes 0 s).dropWhile fun r => isSpace r.value
  let right := (left.reverse.dropWhile fun r => isSpace r.value).reverse
  right.flatMap Rune.bytes

example : trimSpace (ascii " unknown\t") = ascii "unknown" := by decide

def lowerhex (n : ℕ) : Byte :=
  if n < 10 then BitVec.ofNat 8 (0x30 + n) else BitVec.ofNat 8 (0x57 + n)

def hexDigits : ℕ → ℕ → List Byte
  | 0, _ => []
  | k + 1, n => lowerhex (n / 16 ^ k % 16) :: hexDigits k n

/-- A rune that is not printed as it is. -/
def escapeRune (r : ℕ) : List Byte :=
  if r = 0x07 then ascii "\\a"
  else if r = 0x08 then ascii "\\b"
  else if r = 0x0C then ascii "\\f"
  else if r = 0x0A then ascii "\\n"
  else if r = 0x0D then ascii "\\r"
  else if r = 0x09 then ascii "\\t"
  else if r = 0x0B then ascii "\\v"
  else if r < 0x20 ∨ r = 0x7F then ascii "\\x" ++ hexDigits 2 r
  else if r < 0x10000 then ascii "\\u" ++ hexDigits 4 r
  else ascii "\\U" ++ hexDigits 8 r

section Quote
variable (isPrint : ℕ → Bool)

/-- `strconv.IsPrint`; past ASCII by its tables. -/
def isPrinted (r : ℕ) : Bool := if r < 0x80 then decide (0x20 ≤ r ∧ r < 0x7F) else isPrint r

/-- One rune between the quotes. -/
def quoteRune (r : Rune) : List Byte :=
  if r.value = runeError ∧ r.bytes.length = 1 then
    ascii "\\x" ++ hexDigits 2 (r.bytes.headD 0).toNat
  else if r.value = 0x22 then ascii "\\\""
  else if r.value = 0x5C then ascii "\\\\"
  else if isPrinted isPrint r.value then r.bytes
  else escapeRune r.value

/-- `%q`. -/
def quote (s : List Byte) : List Byte :=
  ascii "\"" ++ (decodeRunes 0 s).flatMap (quoteRune isPrint) ++ ascii "\""

/-- What is written for a line, without the spaces around it. -/
def response (line : List Byte) : List Byte :=
  ascii "unknown command " ++ quote isPrint line ++ ascii "\n"

/-! A quoted string has no line ends. -/

def newline : Byte := 0x0A

theorem decodeMultibyte_bytes (size least lead : ℕ) {first : Byte} (rest : List Byte)
    (h : 0x80 ≤ first.toNat) : ∀ b ∈ (decodeMultibyte size least lead first rest).bytes,
      0x80 ≤ b.toNat := by
  unfold decodeMultibyte
  dsimp only
  split_ifs with ht
  · intro b hb
    rcases List.mem_cons.mp hb with rfl | hb
    · exact h
    · have hc := of_decide_eq_true (List.all_eq_true.mp ht.2.1 b hb)
      omega
  · intro b hb
    rwa [List.mem_singleton.mp hb]

/-- A byte is the rune itself or not ASCII. -/
theorem decodeRune_bytes (first : Byte) (rest : List Byte) :
    ∀ b ∈ (decodeRune first rest).bytes,
      0x80 ≤ b.toNat ∨ b.toNat = (decodeRune first rest).value := by
  unfold decodeRune
  split_ifs with h
  · intro b hb
    rw [List.mem_singleton.mp hb]
    exact Or.inr rfl
  all_goals
    intro b hb
    refine Or.inl ?_
    first
    | exact decodeMultibyte_bytes _ _ _ rest (Nat.not_lt.mp h) b hb
    | rw [List.mem_singleton.mp hb]; exact Nat.not_lt.mp h

theorem decodeRunes_bytes (skip : ℕ) (s : List Byte) :
    ∀ r ∈ decodeRunes skip s, ∀ b ∈ r.bytes, 0x80 ≤ b.toNat ∨ b.toNat = r.value := by
  induction s generalizing skip with
  | nil => exact nofun
  | cons first rest ih =>
    cases skip with
    | succ skip => exact ih skip
    | zero =>
      intro r hr
      rcases List.mem_cons.mp hr with rfl | hr
      · exact decodeRune_bytes first rest
      · exact ih _ r hr

theorem lowerhex_ne (n : ℕ) (h : n < 16) : lowerhex n ≠ newline := by
  unfold lowerhex newline
  interval_cases n <;> decide

theorem hexDigits_newline (k n : ℕ) : newline ∉ hexDigits k n := by
  induction k with
  | zero => exact nofun
  | succ k ih =>
    rw [hexDigits, List.mem_cons, not_or]
    exact ⟨(lowerhex_ne _ (Nat.mod_lt _ (by norm_num))).symm, ih⟩

theorem append_newline {s : List Byte} (h : newline ∉ s) (k n : ℕ) :
    newline ∉ s ++ hexDigits k n := by
  rw [List.mem_append, not_or]
  exact ⟨h, hexDigits_newline k n⟩

theorem escapeRune_newline (r : ℕ) : newline ∉ escapeRune r := by
  unfold escapeRune
  split_ifs
  all_goals first | decide | exact append_newline (by decide) _ _

theorem quoteRune_newline {r : Rune}
    (h : ∀ b ∈ r.bytes, 0x80 ≤ b.toNat ∨ b.toNat = r.value) : newline ∉ quoteRune isPrint r := by
  unfold quoteRune
  split_ifs with he hq hb hp
  · exact append_newline (by decide) _ _
  · decide
  · decide
  · intro hmem
    have hn : newline.toNat = 10 := rfl
    rcases h newline hmem with hr | hr
    · omega
    · rw [isPrinted, if_pos (by omega), decide_eq_true_eq] at hp
      omega
  · exact escapeRune_newline r.value

/-- A response is one line. -/
theorem response_line (line : List Byte) :
    ∃ text, response isPrint line = text ++ [newline] ∧ newline ∉ text := by
  refine ⟨_, rfl, ?_⟩
  have hq : newline ∉ (decodeRunes 0 line).flatMap (quoteRune isPrint) := by
    intro hmem
    obtain ⟨r, hr, hb⟩ := List.mem_flatMap.mp hmem
    exact quoteRune_newline isPrint (decodeRunes_bytes 0 line r hr) hb
  simp only [quote, List.mem_append, not_or]
  exact ⟨by decide, ⟨by decide, hq⟩, by decide⟩

end Quote

/-! The two processes. -/

/-- The goroutine: in `scanner.Scan`, in one of its two `select`s, about to close the channel,
or gone. -/
inductive Scanner (E : Type) where
  | scanning
  | sending (line : List Byte)
  | failing (err : E)
  | closing
  | done

/-- The loop: in its `select`, about to write a response, or returned with an error or nil
and at one of its deferred calls. -/
inductive Loop (E : Type) where
  | selecting
  | writing (line : List Byte)
  | closing (err : Option E)
  | cancelling (err : Option E)
  | returned (err : Option E)

/-- What the loop returned with. -/
def Loop.result {E : Type} : Loop E → Option (Option E)
  | selecting | writing _ => none
  | closing err | cancelling err | returned err => some err

/-- The processes, what is unread, and the flags; then the lines handed over, the
responses written, and the error of a failed write. -/
structure Commands (E : Type) where
  lines : List (List Byte)
  scanner : Scanner E := .scanning
  loop : Loop E := .selecting
  interrupted : Bool := false
  inputClosed : Bool := false
  released : Bool := false
  sent : List (List Byte) := []
  written : List (List Byte) := []
  writeError : Option E := none

variable {E : Type}

/-- `ctx.Done()` is ready: the caller cancelled, or the deferred `cancel` ran. -/
def Commands.cancelled (c : Commands E) : Bool := c.interrupted || c.released

def quitLine : List Byte := ascii "quit"

/-- A trimmed line that ends the loop. -/
def isStop (line : List Byte) : Bool := decide (line = [] ∨ line = quitLine)

/-- What the loop does with a line. -/
def receive (text : List Byte) : Loop E :=
  let line := trimSpace text
  if isStop line then .closing none else .writing line

/-- What the goroutine does after the last line. -/
def scanEnd : Option E → Scanner E
  | none => .closing
  | some err => .failing err

/-- One step of one of the processes, or of both at the channel. The stream ends with
`ending`, unless the input is closed before; then a read may fail as it likes. -/
inductive Step (isPrint : ℕ → Bool) (ending : Option E) : Commands E → Commands E → Prop where
  | scan {c line lines} : c.scanner = .scanning → c.lines = line :: lines →
      Step isPrint ending c { c with scanner := .sending line, lines }
  | scanEnd {c} : c.scanner = .scanning → c.lines = [] →
      Step isPrint ending c { c with scanner := scanEnd ending }
  | scanClosed {c} (err : Option E) : c.scanner = .scanning → c.inputClosed = true →
      Step isPrint ending c { c with scanner := P4Cases.FlowCounter.scanEnd err }
  | sendLine {c line} : c.scanner = .sending line → c.loop = .selecting →
      Step isPrint ending c
        { c with scanner := .scanning, loop := receive line, sent := c.sent ++ [line] }
  | sendError {c err} : c.scanner = .failing err → c.loop = .selecting →
      Step isPrint ending c { c with scanner := .closing, loop := .closing (some err) }
  | giveUpLine {c line} : c.scanner = .sending line → c.cancelled = true →
      Step isPrint ending c { c with scanner := .closing }
  | giveUpError {c err} : c.scanner = .failing err → c.cancelled = true →
      Step isPrint ending c { c with scanner := .closing }
  | closeChannel {c} : c.scanner = .closing → Step isPrint ending c { c with scanner := .done }
  | cancelled {c} : c.loop = .selecting → c.cancelled = true →
      Step isPrint ending c { c with loop := .closing none }
  | channelClosed {c} : c.loop = .selecting → c.scanner = .done →
      Step isPrint ending c { c with loop := .closing none }
  | write {c line} : c.loop = .writing line →
      Step isPrint ending c
        { c with loop := .selecting, written := c.written ++ [response isPrint line] }
  | writeFails {c line} (err : E) : c.loop = .writing line →
      Step isPrint ending c { c with loop := .closing (some err), writeError := some err }
  | closeInput {c err} : c.loop = .closing err →
      Step isPrint ending c { c with loop := .cancelling err, inputClosed := true }
  | cancel {c err} : c.loop = .cancelling err →
      Step isPrint ending c { c with loop := .returned err, released := true }
  | interrupt {c} : c.interrupted = false → Step isPrint ending c { c with interrupted := true }

end P4Cases.FlowCounter
