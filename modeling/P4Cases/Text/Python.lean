import Mathlib.Data.List.DropRight
import P4Cases.Frames.Python
import P4Cases.Text.Regex

/-! The classes of characters, and the few methods on strings, that the reading of command
output rests on. -/
namespace P4Cases.Text
open Regex

/-- What the tables of Unicode say of the characters beyond ASCII. -/
structure Tables where
  space : Char → Bool
  word : Char → Bool
  decimal : Char → Option ℕ
  /-- Whether a search that ignores case takes the second character for the first. -/
  folds : Char → Char → Bool

def isAscii (c : Char) : Bool := c.toNat < 128

/-- What is checked character by character. -/
theorem forall_mem_of_all {P : Char → Prop} [DecidablePred P] {w : List Char}
    (h : w.all (fun x => decide (P x)) = true) : ∀ x ∈ w, P x :=
  fun x hx => of_decide_eq_true (List.all_eq_true.mp h x hx)

/-- `text` without the space at its ends. -/
def stripOf (space : Char → Bool) (text : List Char) : List Char :=
  (text.dropWhile space).rdropWhile space

namespace Tables
variable (T : Tables)

/-- `\s`. -/
def isSpace (c : Char) : Bool :=
  if isAscii c then (9 ≤ c.toNat ∧ c.toNat ≤ 13) ∨ (28 ≤ c.toNat ∧ c.toNat ≤ 32) else T.space c

/-- `\w`. -/
def isWord (c : Char) : Bool :=
  if isAscii c then c.isAlphanum || c = '_' else T.word c

def decimalValue (c : Char) : Option ℕ :=
  if isAscii c then if c.isDigit then some (c.toNat - '0'.toNat) else none else T.decimal c

/-- `\d`. -/
def isDigit (c : Char) : Bool := (T.decimalValue c).isSome

/-- A small letter or a space of a pattern, read without regard to case. -/
def like (x c : Char) : Bool :=
  if isAscii c then c.toLower = x else T.folds x c

/-- What `int` allows around its digits: not the separators U+001C to U+001F. -/
def isIntSpace (c : Char) : Bool :=
  if isAscii c then (9 ≤ c.toNat ∧ c.toNat ≤ 13) ∨ c.toNat = 32 else T.space c

/-- `text.strip()`. -/
def strip (text : List Char) : List Char := stripOf T.isSpace text

/-- The number that digits write. -/
def number (digits : List Char) : ℕ :=
  digits.foldl (fun n c => 10 * n + (T.decimalValue c).getD 0) 0

/-- `sys.int_info.default_max_str_digits`. -/
def maxDigits : ℕ := 4300

/-- `int(text)`, of digits with space around them. -/
def int (text : List Char) : Py ℤ := do
  let digits := stripOf T.isIntSpace text
  raiseIf (digits = [] ∨ ¬ digits.all T.isDigit ∨ maxDigits < digits.length)
    (.valueError "invalid literal for int() with base 10")
  return T.number digits

end Tables

/-- A text is its stripped text between space. -/
theorem stripOf_split (space : Char → Bool) (text : List Char) :
    ∃ w v, (∀ x ∈ w, space x = true) ∧ (∀ x ∈ v, space x = true) ∧
      text = w ++ (stripOf space text ++ v) := by
  refine ⟨text.takeWhile space, (text.dropWhile space).rtakeWhile space,
    fun x => List.mem_takeWhile_imp, fun x => List.mem_rtakeWhile_imp, ?_⟩
  rw [stripOf, List.rdropWhile_append_rtakeWhile, List.takeWhile_append_dropWhile]

theorem stripOf_blank {space : Char → Bool} {text : List Char}
    (h : ∀ x ∈ text, space x = true) : stripOf space text = [] := by
  rw [stripOf, List.dropWhile_eq_nil_iff.mpr h]
  rfl

/-- Text without space at its ends stays. -/
theorem stripOf_append {space : Char → Bool} {w v text : List Char}
    (hw : ∀ x ∈ w, space x = true) (hv : ∀ x ∈ v, space x = true)
    (hhead : ∀ x ∈ text.head?, space x = false) (hlast : ∀ x ∈ text.getLast?, space x = false) :
    stripOf space (w ++ (text ++ v)) = text := by
  rcases eq_or_ne text [] with rfl | hne
  · refine stripOf_blank fun x hx => ?_
    exact (List.mem_append.mp hx).elim (hw x) (hv x)
  · have hstart : ∀ x ∈ (text ++ v).head?, space x = false := by
      rwa [List.head?_append_of_ne_nil _ hne]
    rw [stripOf, dropWhile_stretch hw hstart, List.rdropWhile, List.reverse_append,
      dropWhile_stretch (by simpa using hv) (by simpa using hlast), List.reverse_reverse]

namespace Tables
variable {T : Tables}

theorem strip_split (text : List Char) : ∃ w v, (∀ x ∈ w, T.isSpace x = true) ∧
    (∀ x ∈ v, T.isSpace x = true) ∧ text = w ++ (T.strip text ++ v) :=
  stripOf_split T.isSpace text

/-- What `int` allows is space. -/
theorem isSpace_of_isIntSpace {c : Char} (h : T.isIntSpace c = true) : T.isSpace c = true := by
  rw [isIntSpace] at h
  rw [isSpace]
  split_ifs at h ⊢ with hc
  · have hrange := of_decide_eq_true h
    exact decide_eq_true (by omega)
  · exact h

theorem int_ok {text : List Char} {value : ℤ} : T.int text = .ok value ↔
    (stripOf T.isIntSpace text ≠ [] ∧ (∀ x ∈ stripOf T.isIntSpace text, T.isDigit x = true) ∧
      (stripOf T.isIntSpace text).length ≤ maxDigits) ∧
      value = T.number (stripOf T.isIntSpace text) := by
  rw [int, raiseIf_bind_ok, not_or, not_or, not_not, not_lt, List.all_eq_true]
  exact and_congr_right fun _ => ⟨fun h => (Except.ok.inj h).symm, fun h => congrArg _ h.symm⟩

/-- Where the digits are no space, `strip` leaves the same digits as `int` reads. -/
theorem strip_of_int {text : List Char} {value : ℤ} (h : T.int text = .ok value)
    (hd : ∀ x ∈ text, T.isDigit x = true → T.isSpace x = false) :
    T.strip text = stripOf T.isIntSpace text := by
  obtain ⟨⟨-, hdigits, -⟩, -⟩ := int_ok.mp h
  obtain ⟨w, v, hw, hv, htext⟩ := stripOf_split T.isIntSpace text
  have hspace : ∀ x ∈ stripOf T.isIntSpace text, T.isSpace x = false := by
    intro x hx
    refine hd x ?_ (hdigits x hx)
    rw [htext]
    simp [hx]
  have hstrip := stripOf_append (fun x hx => isSpace_of_isIntSpace (hw x hx))
    (fun x hx => isSpace_of_isIntSpace (hv x hx))
    (fun x hx => hspace x (List.mem_of_head? hx)) (fun x hx => hspace x (List.mem_of_getLast? hx))
  rwa [← htext] at hstrip

end Tables
end P4Cases.Text
