import Mathlib.Computability.Language
import Mathlib.Data.List.Infix

/-! Regular expressions with anchors and groups. A search that backtracks tries the ways
to match in a fixed order; `run` lists the places it can come to, in that order. -/
namespace P4Cases.Text
open Computability

section Stretch
variable {α : Type} {p : α → Bool} {w rest : List α}

/-! A stretch of characters of a class ends where one of another kind follows. -/

theorem takeWhile_stretch (hw : ∀ x ∈ w, p x = true) (hrest : ∀ x ∈ rest.head?, p x = false) :
    (w ++ rest).takeWhile p = w := by
  rw [List.takeWhile_append_of_pos hw]
  rcases rest with _ | ⟨y, rest⟩
  · rw [List.takeWhile_nil, List.append_nil]
  · rw [List.takeWhile_cons_of_neg (by simp [hrest y rfl]), List.append_nil]

theorem dropWhile_stretch (hw : ∀ x ∈ w, p x = true) (hrest : ∀ x ∈ rest.head?, p x = false) :
    (w ++ rest).dropWhile p = rest := by
  have happ := List.takeWhile_append_dropWhile (p := p) (l := w ++ rest)
  rw [takeWhile_stretch hw hrest] at happ
  exact List.append_cancel_left happ

end Stretch

/-- A place in a text: the character before it, what is left, and the groups so far. -/
@[ext] structure Cursor (α : Type) where
  prev : Option α
  rest : List α
  groups : List (ℕ × List α)

namespace Cursor
variable {α : Type}

/-- The place behind `w`, when `rest` is left there. -/
def past (c : Cursor α) (w rest : List α) : Cursor α := ⟨w.getLast?.or c.prev, rest, c.groups⟩

def capture (c : Cursor α) (n : ℕ) (w : List α) : Cursor α :=
  ⟨c.prev, c.rest, c.groups ++ [(n, w)]⟩

/-- `match.group(n)`, with None for a group that is not set. -/
def group (c : Cursor α) (n : ℕ) : Option (List α) :=
  (c.groups.findRev? fun entry => entry.1 = n).map Prod.snd

/-- The start of a text. -/
def start (text : List α) : Cursor α := ⟨none, text, []⟩

@[simp] theorem past_rest (c : Cursor α) (w rest : List α) : (c.past w rest).rest = rest := rfl

@[simp] theorem past_groups (c : Cursor α) (w rest : List α) :
    (c.past w rest).groups = c.groups := rfl

@[simp] theorem capture_rest (c : Cursor α) (n : ℕ) (w : List α) :
    (c.capture n w).rest = c.rest := rfl

@[simp] theorem past_nil (c : Cursor α) : c.past [] c.rest = c := rfl

@[simp] theorem past_past (c : Cursor α) (w v rest rest' : List α) :
    (c.past w rest').past v rest = c.past (w ++ v) rest := by
  ext1
  · show v.getLast?.or (w.getLast?.or c.prev) = (w ++ v).getLast?.or c.prev
    rw [List.getLast?_append, Option.or_assoc]
  · rfl
  · rfl

end Cursor

inductive Regex (α : Type) where
  | empty
  | one (p : α → Bool)
  /-- `^` in a pattern that is read line by line. -/
  | lineStart (newline : α → Bool)
  /-- `\b`. -/
  | boundary (word : α → Bool)
  | seq (a b : Regex α)
  | alt (a b : Regex α)
  | star (a : Regex α)
  | group (n : ℕ) (a : Regex α)

namespace Regex
variable {α : Type}

/-- At the start of the text or behind a newline. -/
def AtLineStart (newline : α → Bool) (c : Cursor α) : Prop := ∀ x ∈ c.prev, newline x = true

/-- Between a character of a word and one that is none, or the end of the text. -/
def AtBoundary (word : α → Bool) (c : Cursor α) : Prop := c.prev.any word ≠ c.rest.head?.any word

instance (newline : α → Bool) (c : Cursor α) : Decidable (AtLineStart newline c) :=
  inferInstanceAs (Decidable (∀ x ∈ c.prev, newline x = true))

instance (word : α → Bool) (c : Cursor α) : Decidable (AtBoundary word c) :=
  inferInstanceAs (Decidable (_ ≠ _))

/-- The greedy repetition of a step: as many turns as there can be come first. A turn that
reads nothing is not taken. -/
def iterate (step : Cursor α → List (Cursor α)) (c : Cursor α) : List (Cursor α) :=
  ((step c).flatMap fun d => if d.rest.length < c.rest.length then iterate step d else []) ++ [c]
termination_by c.rest.length

def run : Regex α → Cursor α → List (Cursor α)
  | empty, c => [c]
  | one p, c =>
      match c.rest with
      | [] => []
      | x :: rest => if p x then [c.past [x] rest] else []
  | lineStart newline, c => if AtLineStart newline c then [c] else []
  | boundary word, c => if AtBoundary word c then [c] else []
  | seq a b, c => (a.run c).flatMap b.run
  | alt a b, c => a.run c ++ b.run c
  | star a, c => iterate a.run c
  | group n a, c =>
      (a.run c).map fun d => d.capture n (c.rest.take (c.rest.length - d.rest.length))

/-- `a?`. -/
def opt (a : Regex α) : Regex α := alt a empty

/-- `a+`. -/
def plus (a : Regex α) : Regex α := seq a (star a)

/-- One character after the other, each like its character of `s`. -/
def spelled (like : α → α → Bool) (s : List α) : Regex α :=
  s.foldr (fun x r => seq (one (like x)) r) empty

def literal [DecidableEq α] (s : List α) : Regex α := spelled (fun x y => decide (y = x)) s

/-- The first of the patterns that matches; none of them is left at the end. -/
def anyOf (rs : List (Regex α)) : Regex α := rs.foldr alt (one fun _ => false)

section Run
variable {a b : Regex α} {c d : Cursor α} {p : α → Bool}

theorem run_cons {x : α} {rest : List α} (h : c.rest = x :: rest) :
    (one p).run c = if p x then [c.past [x] rest] else [] := by
  rw [run, h]

theorem run_seq : (seq a b).run c = (a.run c).flatMap b.run := rfl

theorem run_star : (star a).run c = ((a.run c).flatMap fun d =>
    if d.rest.length < c.rest.length then (star a).run d else []) ++ [c] := by
  rw [run, iterate]
  rfl

@[simp] theorem mem_run_empty : d ∈ empty.run c ↔ d = c := List.mem_singleton

theorem mem_run_one : d ∈ (one p).run c ↔
    ∃ x, p x = true ∧ c.rest = x :: d.rest ∧ d = c.past [x] d.rest := by
  rcases hr : c.rest with _ | ⟨x, rest⟩
  · simp [run, hr]
  · rw [run_cons hr]
    constructor
    · intro h
      split_ifs at h with hp
      · obtain rfl := List.mem_singleton.mp h
        exact ⟨x, hp, rfl, rfl⟩
      · exact absurd h List.not_mem_nil
    · rintro ⟨y, hp, he, hd⟩
      obtain ⟨rfl, rfl⟩ := List.cons.inj he
      rw [if_pos hp, hd]
      exact List.mem_singleton_self _

@[simp] theorem mem_run_lineStart {newline : α → Bool} :
    d ∈ (lineStart newline).run c ↔ AtLineStart newline c ∧ d = c := by
  by_cases h : AtLineStart newline c <;> simp [run, h]

@[simp] theorem mem_run_boundary {word : α → Bool} :
    d ∈ (boundary word).run c ↔ AtBoundary word c ∧ d = c := by
  by_cases h : AtBoundary word c <;> simp [run, h]

@[simp] theorem mem_run_seq : d ∈ (seq a b).run c ↔ ∃ e ∈ a.run c, d ∈ b.run e :=
  List.mem_flatMap

@[simp] theorem mem_run_alt : d ∈ (alt a b).run c ↔ d ∈ a.run c ∨ d ∈ b.run c :=
  List.mem_append

theorem mem_run_star : d ∈ (star a).run c ↔
    (∃ e ∈ a.run c, e.rest.length < c.rest.length ∧ d ∈ (star a).run e) ∨ d = c := by
  rw [run_star, List.mem_append, List.mem_flatMap, List.mem_singleton]
  refine or_congr_left (exists_congr fun e => and_congr_right fun _ => ?_)
  split_ifs with h <;> simp [h]

theorem mem_run_group {n : ℕ} : d ∈ (group n a).run c ↔ ∃ e ∈ a.run c,
    d = e.capture n (c.rest.take (c.rest.length - e.rest.length)) := by
  simp only [run, List.mem_map, eq_comm]

end Run

/-! The words a pattern reads, where neither its surroundings nor groups matter. -/

/-- The characters of a class, as words. -/
def letters (p : α → Bool) : Language α := {w | ∃ x, p x = true ∧ w = [x]}

def spellings (like : α → α → Bool) (s : List α) : Language α :=
  {w | List.Forall₂ (fun x y => like x y = true) s w}

def Reads (r : Regex α) (l : Language α) : Prop :=
  ∀ c d : Cursor α, d ∈ r.run c ↔ ∃ w ∈ l, c.rest = w ++ d.rest ∧ d = c.past w d.rest

section Reads
variable {a b : Regex α} {l m : Language α} {c d : Cursor α}

theorem Reads.mem_run (h : Reads a l) {w rest : List α} (hw : w ∈ l) (hr : c.rest = w ++ rest) :
    c.past w rest ∈ a.run c :=
  (h _ _).mpr ⟨w, hw, hr, rfl⟩

theorem reads_empty : Reads (α := α) empty 1 := by
  intro c d
  rw [mem_run_empty]
  constructor
  · rintro rfl
    exact ⟨[], rfl, rfl, rfl⟩
  · rintro ⟨w, hw, hr, hd⟩
    obtain rfl : w = [] := hw
    rw [hd, ← List.nil_append d.rest, ← hr, Cursor.past_nil]

theorem reads_one (p : α → Bool) : Reads (one p) (letters p) := by
  intro c d
  rw [mem_run_one]
  constructor
  · rintro ⟨x, hp, hr, hd⟩
    exact ⟨[x], ⟨x, hp, rfl⟩, hr, hd⟩
  · rintro ⟨w, ⟨x, hp, rfl⟩, hr, hd⟩
    exact ⟨x, hp, hr, hd⟩

theorem Reads.seq (ha : Reads a l) (hb : Reads b m) : Reads (.seq a b) (l * m) := by
  intro c d
  rw [mem_run_seq]
  constructor
  · rintro ⟨e, he, hd⟩
    obtain ⟨w, hw, hr, hpast⟩ := (ha _ _).mp he
    obtain ⟨v, hv, hr', hd⟩ := (hb _ _).mp hd
    refine ⟨w ++ v, Language.append_mem_mul hw hv, ?_, ?_⟩
    · rw [hr, hr', List.append_assoc]
    · rw [hd, hpast, Cursor.past_past]
      rfl
  · rintro ⟨u, hu, hr, hd⟩
    obtain ⟨w, hw, v, hv, rfl⟩ := Language.mem_mul.mp hu
    rw [List.append_assoc] at hr
    refine ⟨c.past w (v ++ d.rest), ha.mem_run hw hr, (hb _ _).mpr ⟨v, hv, rfl, ?_⟩⟩
    rw [Cursor.past_past]
    exact hd

theorem Reads.alt (ha : Reads a l) (hb : Reads b m) : Reads (.alt a b) (l + m) := by
  intro c d
  rw [mem_run_alt, ha, hb, ← exists_or]
  exact exists_congr fun w => or_and_right.symm

theorem reads_anyOf {κ : Type} {f : κ → Regex α} {l : κ → Language α} (keys : List κ)
    (h : ∀ k ∈ keys, Reads (f k) (l k)) :
    Reads (anyOf (keys.map f)) {w | ∃ k ∈ keys, w ∈ l k} := by
  intro c d
  induction keys with
  | nil =>
    refine iff_of_false (fun hd => ?_) ?_
    · obtain ⟨x, hp, -⟩ := mem_run_one.mp hd
      exact Bool.false_ne_true hp
    · rintro ⟨w, ⟨k, hk, -⟩, -⟩
      exact List.not_mem_nil hk
  | cons k keys ih =>
    obtain ⟨hk, hkeys⟩ := List.forall_mem_cons.mp h
    show d ∈ (Regex.alt (f k) (anyOf (keys.map f))).run c ↔ _
    rw [mem_run_alt, hk, ih hkeys, ← exists_or]
    refine exists_congr fun w => ?_
    show _ ↔ (∃ k' ∈ k :: keys, w ∈ l k') ∧ _
    rw [List.exists_mem_cons_iff]
    exact or_and_right.symm

theorem Reads.opt (ha : Reads a l) : Reads a.opt (l + 1) := ha.alt reads_empty

theorem Reads.star (ha : Reads a l) : Reads (.star a) l∗ := by
  intro c d
  constructor
  · induction hn : c.rest.length using Nat.strong_induction_on generalizing c with
    | _ n ih =>
      rw [mem_run_star]
      rintro (⟨e, he, hlt, hd⟩ | rfl)
      · obtain ⟨w, hw, hr, hpast⟩ := (ha _ _).mp he
        obtain ⟨v, hv, hr', hd⟩ := ih _ (hn ▸ hlt) e rfl hd
        refine ⟨w ++ v, ?_, by rw [hr, hr', List.append_assoc], ?_⟩
        · rw [← Language.one_add_self_mul_kstar_eq_kstar]
          exact Or.inr (Language.append_mem_mul hw hv)
        · rw [hd, hpast, Cursor.past_past]
          rfl
      · exact ⟨[], Language.nil_mem_kstar l, rfl, (Cursor.past_nil d).symm⟩
  · rintro ⟨w, hw, hr, hd⟩
    rw [Language.kstar_def_nonempty] at hw
    obtain ⟨parts, rfl, hparts⟩ := hw
    induction parts generalizing c with
    | nil =>
      refine mem_run_star.mpr (Or.inr ?_)
      rw [hd, ← List.nil_append d.rest]
      exact hr ▸ Cursor.past_nil c
    | cons w parts ih =>
      obtain ⟨hw, hne⟩ := hparts w List.mem_cons_self
      rw [List.flatten_cons] at hd
      rw [List.flatten_cons, List.append_assoc] at hr
      refine mem_run_star.mpr
        (Or.inl ⟨c.past w (parts.flatten ++ d.rest), ha.mem_run hw hr, ?_, ?_⟩)
      · have hpos := List.length_pos_of_ne_nil hne
        have hlen : c.rest.length = w.length + (parts.flatten ++ d.rest).length := by
          rw [hr, List.length_append]
        rw [Cursor.past_rest]
        omega
      · refine ih _ (fun v hv => hparts v (List.mem_cons_of_mem w hv)) rfl ?_
        rw [Cursor.past_past]
        exact hd

theorem Reads.plus (ha : Reads a l) : Reads a.plus (l * l∗) := ha.seq ha.star

theorem spellings_nil (like : α → α → Bool) : spellings like [] = 1 := by
  ext w
  exact List.forall₂_nil_left_iff

theorem spellings_cons (like : α → α → Bool) (x : α) (s : List α) :
    spellings like (x :: s) = letters (like x) * spellings like s := by
  ext w
  rw [Language.mem_mul]
  constructor
  · rintro (_ | ⟨hy, hrest⟩)
    exact ⟨_, ⟨_, hy, rfl⟩, _, hrest, rfl⟩
  · rintro ⟨_, ⟨y, hy, rfl⟩, v, hv, rfl⟩
    exact List.Forall₂.cons hy hv

theorem mem_kstar_letters {p : α → Bool} {w : List α} :
    w ∈ (letters p)∗ ↔ ∀ x ∈ w, p x = true := by
  rw [Language.mem_kstar]
  constructor
  · rintro ⟨parts, rfl, hparts⟩ x hx
    obtain ⟨part, hpart, hx⟩ := List.mem_flatten.mp hx
    obtain ⟨y, hy, rfl⟩ := hparts part hpart
    obtain rfl := List.mem_singleton.mp hx
    exact hy
  · intro h
    refine ⟨w.map fun x => [x], ?_, ?_⟩
    · rw [← List.flatMap_def, List.flatMap_singleton']
    · intro part hpart
      obtain ⟨x, hx, rfl⟩ := List.mem_map.mp hpart
      exact ⟨x, h x hx, rfl⟩

theorem mem_letters_mul_kstar {p : α → Bool} {w : List α} :
    w ∈ letters p * (letters p)∗ ↔ w ≠ [] ∧ ∀ x ∈ w, p x = true := by
  rw [Language.mem_mul]
  constructor
  · rintro ⟨_, ⟨x, hx, rfl⟩, v, hv, rfl⟩
    exact ⟨List.cons_ne_nil x v, List.forall_mem_cons.mpr ⟨hx, mem_kstar_letters.mp hv⟩⟩
  · rintro ⟨hne, h⟩
    obtain ⟨x, v, rfl⟩ := List.exists_cons_of_ne_nil hne
    obtain ⟨hx, hv⟩ := List.forall_mem_cons.mp h
    exact ⟨[x], ⟨x, hx, rfl⟩, v, mem_kstar_letters.mpr hv, rfl⟩

theorem Reads.mem_run_group (h : Reads a l) {n : ℕ} : d ∈ (group n a).run c ↔
    ∃ w ∈ l, c.rest = w ++ d.rest ∧ d = (c.past w d.rest).capture n w := by
  rw [Regex.mem_run_group]
  constructor
  · rintro ⟨e, he, hd⟩
    obtain ⟨w, hw, hr, hpast⟩ := (h _ _).mp he
    have hrest : d.rest = e.rest := by rw [hd, Cursor.capture_rest]
    rw [hr, List.length_append, Nat.add_sub_cancel, List.take_left] at hd
    exact ⟨w, hw, hrest ▸ hr, by rw [hd, hpast]; rfl⟩
  · rintro ⟨w, hw, hr, hd⟩
    refine ⟨c.past w d.rest, h.mem_run hw hr, ?_⟩
    rw [Cursor.past_rest, hr, List.length_append, Nat.add_sub_cancel, List.take_left]
    exact hd

theorem reads_spelled (like : α → α → Bool) (s : List α) :
    Reads (spelled like s) (spellings like s) := by
  induction s with
  | nil =>
    rw [spellings_nil]
    exact reads_empty
  | cons x s ih =>
    rw [spellings_cons]
    exact (reads_one _).seq ih

theorem reads_literal [DecidableEq α] (s : List α) : Reads (literal s) {s} := by
  have hself : spellings (fun x y => decide (y = x)) s = {s} := by
    ext w
    show List.Forall₂ _ s w ↔ w = s
    simp only [decide_eq_true_eq]
    constructor
    · intro h
      have hflip : List.Forall₂ (· = ·) w s := h.flip
      rwa [List.forall₂_eq_eq_eq] at hflip
    · rintro rfl
      exact List.forall₂_same.mpr fun _ _ => rfl
  exact hself ▸ reads_spelled _ s

end Reads

end Regex
end P4Cases.Text
