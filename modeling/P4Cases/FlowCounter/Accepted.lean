import P4Cases.FlowCounter.Declared
import P4Cases.Text.Joined

/-! A dump that is accepted says what is returned: its samples are the whole array in one
line, or every slot once. -/
namespace P4Cases.FlowCounter
open Text Text.Regex Computability
variable (T : Tables)

/-- The array is named in the text, at the start of a line but for prompts and the
qualifier; `post` is the text behind the name. -/
def Named (text post : List Char) : Prop := ∃ pre line, text = pre ++ (line ++ post) ∧
  (∀ x ∈ pre.getLast?, x = '\n') ∧ line ∈ nameLine T ∧ ∀ x ∈ post.head?, T.isWord x = false

/-- The command line interface reports an error: one of the words, in whatever case, not
within a longer word. -/
def ReportsError (text : List Char) : Prop := ∃ pre word post, text = pre ++ (word ++ post) ∧
  (∃ s ∈ errorWords, word ∈ spellings T.like s.toList) ∧
  (∀ x ∈ pre.getLast?, T.isWord x = false) ∧ ∀ x ∈ post.head?, T.isWord x = false

/-- The digits write this number. -/
structure Writes (ds : List Char) (value : ℤ) : Prop where
  ne_nil : ds ≠ []
  digits : ∀ x ∈ ds, T.isDigit x = true
  value : value = T.number ds

def commaSep : Language Char := blank T * ({[',']} * blank T)

def spaceSep : Language Char := letters T.isSpace * blank T

/-- Exactly these numbers in this order, with separators of one kind between them. -/
def Lists (text : List Char) (values : List ℤ) : Prop :=
  ∃ sep ∈ [commaSep T, spaceSep T], ∃ ws, Joined sep ws text ∧ List.Forall₂ (Writes T) ws values

/-- The same, in brackets or not, with space behind it. -/
def IsArray (text : List Char) (values : List ℤ) : Prop := ∃ body, Lists T body values ∧
  ((∃ v ∈ blank T, text = body ++ v) ∨
    ∃ w ∈ blank T, ∃ w' ∈ blank T, ∃ v ∈ blank T, text = '[' :: (w ++ (body ++ w')) ++ (']' :: v))

/-- `post` is an equals sign, and the whole array up to the end of the line. -/
def GivesArray (post : List Char) (values : List ℤ) : Prop :=
  ∃ text tail, Assigns T post none text tail ∧ IsArray T text values

/-- `post` is an index, an equals sign, and one number up to the end of the line. -/
def GivesSlot (post : List Char) (slot value : ℤ) : Prop := ∃ ds text tail,
  Assigns T post (some ds) text tail ∧ Writes T ds slot ∧
  ∃ number, ∃ v ∈ blank T, text = number ++ v ∧ Writes T number value

/-- What a dump that is accepted says. -/
inductive Content (output : List Char) (values : List ℤ) : Prop
  | array (post : List Char) (named : ∀ post', Named T output post' ↔ post' = post)
      (gives : GivesArray T post values)
  | slots (contributes : ∀ post, Named T output post → ∃ slot : ℕ, ∃ value,
        GivesSlot T post slot value ∧ values[slot]? = some value)
      (once : ∀ slot : ℕ, slot < registerSize → ∃ post value,
        Named T output post ∧ GivesSlot T post slot value ∧ values[slot]? = some value ∧
        ∀ post' value', Named T output post' → GivesSlot T post' slot value' → post' = post)

variable {T} {output : List Char} {values : List ℤ}

theorem Named.declaredAt {post : List Char} (h : Named T output post) :
    ∃ c w, (Cursor.start output).Before c ∧ c.groups = [] ∧ DeclaredAt T c w post := by
  obtain ⟨pre, line, htext, hpre, hline, hword⟩ := h
  refine ⟨⟨pre.getLast?, line ++ post, []⟩, line, ⟨pre, htext, ?_⟩, rfl, ⟨?_, hline, rfl⟩, hword⟩
  · exact Option.or_none.symm
  · exact fun x hx => decide_eq_true (hpre x hx)

theorem DeclaredAt.named {c : Cursor Char} {w post : List Char}
    (hb : (Cursor.start output).Before c) (h : DeclaredAt T c w post) : Named T output post := by
  obtain ⟨pre, hr, hp⟩ := hb
  refine ⟨pre, w, h.rest ▸ hr, fun x hx => ?_, h.line, h.word⟩
  have hprev : c.prev = some x := by
    rw [hp, hx]
    rfl
  exact of_decide_eq_true (h.start x hprev)

/-- What a sample is a match of. -/
structure SampleOf (T : Tables) (output : List Char) (m : Match Char) (post : List Char)
    (idx : Option (List Char)) (value tail : List Char) : Prop where
  named : Named T output post
  name : afterName m.start.rest = post
  assigns : Assigns T post idx value tail
  groups : m.stop.groups = sampleGroups idx value

/-- A match whose value is not blank is a sample. -/
theorem exists_sampleOf {m : Match Char} (hascii : ∀ x ∈ output, isAscii x = true)
    (hm : m ∈ (sample T).finditer output) {value : List Char}
    (hvalue : m.stop.group 2 = some value) (hne : T.strip value ≠ []) :
    ∃ post idx tail, SampleOf T output m post idx value tail := by
  obtain ⟨hmatch, hb, hg⟩ := mem_finds rfl hm
  have hsub : ∀ x ∈ m.start.rest, isAscii x = true := by
    obtain ⟨u, hu, -⟩ := hb
    have htext : output = u ++ m.start.rest := hu
    exact fun x hx => hascii x (htext ▸ List.mem_append_right u hx)
  obtain ⟨w, post, hd, hk⟩ := exists_sampleAt hg hsub hmatch
  rcases exists_assigns hk hg with ⟨idx, value', tail, ha, -, hgroups⟩ |
    ⟨idx, value', hgroups, hblank⟩
  · obtain rfl := Option.some.inj (hvalue.symm.trans (group_two hgroups))
    exact ⟨post, idx, tail, hd.named hb, hd.toNamedAt.afterName_eq, ha, hgroups⟩
  · obtain rfl := Option.some.inj (hvalue.symm.trans (group_two hgroups))
    exact absurd (stripOf_blank hblank) hne

/-- Counting the matches of both patterns leaves no name out. -/
theorem exists_sample (hascii : ∀ x ∈ output, isAscii x = true)
    (hcount : ((declaration T).finditer output).length = ((sample T).finditer output).length)
    (hfilled : ∀ m ∈ (sample T).finditer output,
      ∃ value, m.stop.group 2 = some value ∧ Filled T value)
    {post : List Char} (hn : Named T output post) :
    ∃ m ∈ (sample T).finditer output, afterName m.start.rest = post := by
  have hsub := names_sublist (c := .start output) rfl hascii hfilled
  have heq : names ((sample T).finditer output) = names ((declaration T).finditer output) := by
    refine hsub.eq_of_length ?_
    rw [names, names, List.length_map, List.length_map]
    exact hcount.symm
  obtain ⟨c, w, hb, hg, hd⟩ := hn.declaredAt
  have hmem : post ∈ names ((declaration T).finditer output) :=
    mem_names_declaration rfl hb hg hd
  rw [← heq] at hmem
  exact List.mem_map.mp hmem

/-! The array in one line. -/

theorem digit_not_separator {x : Char} (ha : isAscii x = true) (h : T.isDigit x = true) :
    (x = ',' || T.isSpace x) = false := by
  have hall : ∀ n < 128, (Char.ofNat n).isDigit = true → Char.ofNat n ≠ ',' ∧
      ¬ ((9 ≤ n ∧ n ≤ 13) ∨ (28 ≤ n ∧ n ≤ 32)) := by decide
  have hdigit : x.isDigit = true := by
    by_contra hn
    rw [Tables.isDigit, Tables.decimalValue, if_pos ha, if_neg hn] at h
    exact Bool.false_ne_true h
  have hx := hall x.toNat (of_decide_eq_true ha)
  rw [Char.ofNat_toNat] at hx
  obtain ⟨hcomma, hspace⟩ := hx hdigit
  rw [Tables.isSpace, if_pos ha, decide_eq_false hspace, Bool.or_false]
  exact decide_eq_false hcomma

theorem digit_not_space {x : Char} (ha : isAscii x = true) (h : T.isDigit x = true) :
    T.isSpace x = false := by
  have hs := digit_not_separator ha h
  rw [Bool.or_eq_false_iff] at hs
  exact hs.2

variable (T) in
def digitWord : Language Char := letters T.isDigit * (letters T.isDigit)∗

theorem mem_digitWord {w : List Char} : w ∈ digitWord T ↔ w ≠ [] ∧ ∀ x ∈ w, T.isDigit x = true :=
  mem_letters_mul_kstar

theorem reads_digits : Reads (digits T) (digitWord T) := (reads_one _).plus

theorem reads_commaList : Reads (commaList T) (digitWord T * (commaSep T * digitWord T)∗) :=
  reads_digits.seq (((reads_spaces T).seq ((reads_literal _).seq (reads_spaces T))).seq
    reads_digits).star

theorem reads_spaceList : Reads (spaceList T) (digitWord T * (spaceSep T * digitWord T)∗) :=
  reads_digits.seq ((reads_one _).plus.seq reads_digits).star

theorem separator_of_mem {sep : Language Char} (hsep : sep ∈ [commaSep T, spaceSep T]) :
    ∀ s ∈ sep, s ≠ [] ∧ ∀ x ∈ s, (x = ',' || T.isSpace x) = true := by
  intro s hs
  rcases List.mem_pair.mp hsep with rfl | rfl
  · obtain ⟨w, hw, _, h, rfl⟩ := Language.mem_mul.mp hs
    obtain ⟨_, rfl, w', hw', rfl⟩ := Language.mem_mul.mp h
    refine ⟨by simp, fun x hx => ?_⟩
    rw [Bool.or_eq_true, decide_eq_true_eq]
    rcases List.mem_append.mp hx with hx | hx
    · exact Or.inr (mem_blank.mp hw x hx)
    · rcases List.mem_cons.mp hx with rfl | hx
      · exact Or.inl rfl
      · exact Or.inr (mem_blank.mp hw' x hx)
  · obtain ⟨hne, hx⟩ := mem_letters_mul_kstar.mp hs
    exact ⟨hne, fun x hmem => by rw [hx x hmem, Bool.or_true]⟩

/-- A number that is read is written by its digits. -/
theorem writes_of_int {w : List Char} {value : ℤ} (hascii : ∀ x ∈ w, isAscii x = true)
    (hw : w ∈ digitWord T) (h : T.int w = .ok value) : Writes T w value := by
  obtain ⟨hne, hd⟩ := mem_digitWord.mp hw
  have hspace : ∀ x ∈ w, T.isIntSpace x = false := fun x hx =>
    Bool.eq_false_iff.mpr fun h => Bool.false_ne_true
      ((digit_not_space (hascii x hx) (hd x hx)).symm.trans (Tables.isSpace_of_isIntSpace h))
  have hs : stripOf T.isIntSpace w = w := by
    have hstrip := @stripOf_append T.isIntSpace [] [] w nofun nofun
      (fun x hx => hspace x (List.mem_of_head? hx)) (fun x hx => hspace x (List.mem_of_getLast? hx))
    rwa [List.nil_append, List.append_nil] at hstrip
  obtain ⟨-, hv⟩ := Tables.int_ok.mp h
  exact ⟨hne, hd, hs ▸ hv⟩

theorem lists_of_match {sep : Language Char} {body : List Char}
    (hsep : sep ∈ [commaSep T, spaceSep T]) (hascii : ∀ x ∈ body, isAscii x = true)
    (hbody : body ∈ digitWord T * (sep * digitWord T)∗)
    (h : ((separator T).split body).mapM T.int = .ok values) : Lists T body values := by
  obtain ⟨ws, hj, hws⟩ := mem_mul_kstar.mp hbody
  have hmem : ∀ w ∈ ws, ∀ x ∈ w, isAscii x = true := fun w hw x hx => hascii x (hj.mem hw hx)
  have hsplit : (separator T).split body = ws := by
    refine split_joined (separator_of_mem hsep) (fun w hw => ?_) hj
    obtain ⟨hne, hd⟩ := mem_digitWord.mp (hws w hw)
    exact ⟨hne, fun x hx => digit_not_separator (hmem w hw x hx) (hd x hx)⟩
  rw [hsplit] at h
  have hboth : ∀ w ∈ ws, (∀ x ∈ w, isAscii x = true) ∧ w ∈ digitWord T :=
    fun w hw => ⟨hmem w hw, hws w hw⟩
  refine ⟨sep, hsep, ws, hj, ?_⟩
  exact ((List.forall₂_and_left ws values).mpr ⟨hboth, mapM_eq_ok.mp h⟩).imp
    fun w value hw => writes_of_int hw.1.1 hw.1.2 hw.2

theorem Lists.head {body : List Char} (h : Lists T body values) :
    ∃ x v, body = x :: v ∧ T.isDigit x = true := by
  obtain ⟨sep, -, ws, hj, hvalues⟩ := h
  have hword : ∀ w, (∃ value, Writes T w value) → ∃ x v, w = x :: v ∧ T.isDigit x = true := by
    rintro w ⟨value, hw⟩
    obtain ⟨x, v, rfl⟩ := List.exists_cons_of_ne_nil hw.ne_nil
    exact ⟨x, v, rfl, hw.digits x List.mem_cons_self⟩
  cases hj with
  | last =>
    obtain ⟨value, -, hw, -, -⟩ := List.forall₂_cons_left_iff.mp hvalues
    exact hword _ ⟨value, hw⟩
  | cons w hs h =>
    obtain ⟨value, -, hw, -, -⟩ := List.forall₂_cons_left_iff.mp hvalues
    obtain ⟨x, v, rfl, hx⟩ := hword w ⟨value, hw⟩
    exact ⟨x, _, rfl, hx⟩

/-- The stripped value is the list, or the list in brackets. -/
def Enclosed (T : Tables) (value body : List Char) : Prop := value = body ∨
  ∃ w ∈ blank T, ∃ w' ∈ blank T, value = '[' :: (w ++ (body ++ w')) ++ [']']

theorem unbracket_enclosed (value : List Char) : Enclosed T value (unbracket T value) := by
  rw [unbracket]
  split_ifs with h
  · obtain ⟨⟨t, rfl⟩, t', ht⟩ := h
    have hne : t ≠ [] := by
      rintro rfl
      have hlast := congrArg List.getLast? ht
      rw [List.getLast?_append] at hlast
      exact absurd (Option.some.inj hlast) (by decide)
    have hlast : t.getLast hne = ']' := by
      have hlast := congrArg List.getLast? ht
      rw [List.getLast?_append, List.getLast?_append, List.getLast?_eq_some_getLast hne] at hlast
      exact (Option.some.inj hlast).symm
    obtain ⟨w, w', hw, hw', hinner⟩ := Tables.strip_split (T := T) t.dropLast
    refine Or.inr ⟨w, mem_blank.mpr hw, w', mem_blank.mpr hw', ?_⟩
    show '[' :: t = '[' :: (w ++ (T.strip t.dropLast ++ w')) ++ [']']
    rw [← hinner, List.cons_append, ← hlast, List.dropLast_append_getLast hne]
  · exact Or.inl rfl

theorem parseArray_lists {text : List Char} (hascii : ∀ x ∈ text, isAscii x = true)
    (h : parseArray T text = .ok values) :
    ∃ body, Lists T body values ∧ Enclosed T (T.strip text) body := by
  rw [parseArray, raiseIf_bind_ok, not_not] at h
  obtain ⟨hmatch, hvalues⟩ := h
  have henclosed := unbracket_enclosed (T := T) (T.strip text)
  have hbody : ∀ x ∈ unbracket T (T.strip text), isAscii x = true := by
    obtain ⟨w, v, -, -, htext⟩ := Tables.strip_split (T := T) text
    intro x hx
    have hmem : x ∈ T.strip text := by
      rcases henclosed with he | ⟨w, -, w', -, he⟩
      · exact he ▸ hx
      · rw [he]
        simp [hx]
    exact hascii x (htext ▸ List.mem_append_right w (List.mem_append_left v hmem))
  refine ⟨_, ?_, henclosed⟩
  rcases hmatch with hm | hm
  · exact lists_of_match List.mem_cons_self hbody (reads_commaList.fullmatch.mp hm) hvalues
  · exact lists_of_match (by simp) hbody (reads_spaceList.fullmatch.mp hm) hvalues

theorem Enclosed.filled {text body : List Char} (h : Enclosed T (T.strip text) body)
    (hl : Lists T body values) : Filled T text := by
  rcases h with he | ⟨w, -, w', -, he⟩
  · obtain ⟨x, v, hbody, hx⟩ := hl.head
    exact ⟨x, v, he.trans hbody, Or.inl hx⟩
  · exact ⟨'[', _, he, Or.inr rfl⟩

/-- A text whose first character is no space has no space in front. -/
theorem strip_split_head {x : Char} (hx : T.isSpace x = false) (v : List Char) :
    ∃ w ∈ blank T, x :: v = T.strip (x :: v) ++ w := by
  obtain ⟨w, w', hw, hw', htext⟩ := Tables.strip_split (T := T) (x :: v)
  rcases w with _ | ⟨y, w⟩
  · exact ⟨w', mem_blank.mpr hw', htext⟩
  · obtain ⟨rfl, -⟩ := List.cons.inj htext
    exact absurd (hx.symm.trans (hw x List.mem_cons_self)) Bool.false_ne_true

theorem Enclosed.isArray {x : Char} {v body : List Char} (hx : T.isSpace x = false)
    (h : Enclosed T (T.strip (x :: v)) body) (hl : Lists T body values) :
    IsArray T (x :: v) values := by
  obtain ⟨w, hw, htext⟩ := strip_split_head hx v
  refine ⟨body, hl, ?_⟩
  rcases h with he | ⟨w₁, hw₁, w₂, hw₂, he⟩
  · exact Or.inl ⟨w, hw, he ▸ htext⟩
  · refine Or.inr ⟨w₁, hw₁, w₂, hw₂, w, hw, ?_⟩
    rw [htext, he, List.append_assoc]
    rfl

/-! One sample for each slot. -/

/-- What a turn of the loop asks of its sample. -/
structure Entry (T : Tables) (m : Match Char) (entry : ℤ × ℤ) : Prop where
  index : ∃ idx, m.stop.group 1 = some idx ∧ T.int idx = .ok entry.1
  value : ∃ value, (m.stop.group 2).getD [] = value ∧ T.strip value ∈ digitWord T ∧
    T.int value = .ok entry.2
  range : 0 ≤ entry.1 ∧ entry.1 < registerSize

theorem addSample_ok {values values' : Slots} {m : Match Char} :
    addSample T values m = .ok values' ↔ ∃ entry, Entry T m entry ∧
      entry.1 ∉ values.map Prod.fst ∧ values' = values ++ [entry] := by
  rw [addSample]
  rcases hidx : m.stop.group 1 with _ | idx
  · refine iff_of_false nofun ?_
    rintro ⟨entry, ⟨⟨idx, hidx', -⟩, -, -⟩, -⟩
    rw [hidx] at hidx'
    exact absurd hidx' (by simp)
  · constructor
    · intro h
      obtain ⟨hmatch, h⟩ := raiseIf_bind_ok.mp h
      obtain ⟨key, hkey, h⟩ := py_bind_ok.mp h
      obtain ⟨hfree, h⟩ := raiseIf_bind_ok.mp h
      obtain ⟨value, hvalue, h⟩ := py_bind_ok.mp h
      rw [not_not, reads_digits.fullmatch] at hmatch
      rw [not_or, not_not] at hfree
      exact ⟨(key, value), ⟨⟨idx, hidx, hkey⟩, ⟨_, rfl, hmatch, hvalue⟩, hfree.2⟩, hfree.1,
        (Except.ok.inj h).symm⟩
    · rintro ⟨⟨key, value⟩, ⟨⟨idx', hidx', hkey⟩, ⟨_, rfl, hmatch, hvalue⟩, hrange⟩, hnew, rfl⟩
      obtain rfl := Option.some.inj (hidx.symm.trans hidx')
      refine raiseIf_bind_ok.mpr ⟨not_not.mpr (reads_digits.fullmatch.mpr hmatch), ?_⟩
      refine py_bind_ok.mpr ⟨key, hkey, raiseIf_bind_ok.mpr ⟨?_, ?_⟩⟩
      · exact not_or.mpr ⟨hnew, not_not.mpr hrange⟩
      · exact py_bind_ok.mpr ⟨value, hvalue, rfl⟩

theorem nodup_keys_append {values : Slots} {entry : ℤ × ℤ} :
    ((values ++ [entry]).map Prod.fst).Nodup ↔
      entry.1 ∉ values.map Prod.fst ∧ (values.map Prod.fst).Nodup := by
  rw [List.map_append, List.map_singleton, ← List.concat_eq_append, List.nodup_concat]

theorem addSamples_ok {samples : List (Match Char)} {values values' : Slots}
    (hn : (values.map Prod.fst).Nodup) : samples.foldlM (addSample T) values = .ok values' ↔
      ∃ entries, List.Forall₂ (Entry T) samples entries ∧ values' = values ++ entries ∧
        (values'.map Prod.fst).Nodup := by
  induction samples generalizing values with
  | nil =>
    constructor
    · intro h
      obtain rfl := Except.ok.inj h
      exact ⟨[], .nil, (List.append_nil _).symm, hn⟩
    · rintro ⟨_, ⟨⟩, rfl, -⟩
      rw [List.append_nil]
      rfl
  | cons m samples ih =>
    rw [List.foldlM_cons, py_bind_ok]
    constructor
    · rintro ⟨values₁, h₁, h⟩
      obtain ⟨entry, hentry, hnew, rfl⟩ := addSample_ok.mp h₁
      obtain ⟨entries, hentries, rfl, hnodup⟩ := (ih (nodup_keys_append.mpr ⟨hnew, hn⟩)).mp h
      exact ⟨entry :: entries, .cons hentry hentries, by simp, hnodup⟩
    · rintro ⟨_, hentries, rfl, hnodup⟩
      obtain ⟨entry, entries, hentry, hmore, rfl⟩ := List.forall₂_cons_left_iff.mp hentries
      have happ := List.append_cons values entry entries
      have hn₁ : ((values ++ [entry]).map Prod.fst).Nodup := by
        rw [happ, List.map_append] at hnodup
        exact hnodup.of_append_left
      exact ⟨_, addSample_ok.mpr ⟨entry, hentry, (nodup_keys_append.mp hn₁).1, rfl⟩,
        (ih hn₁).mpr ⟨entries, hmore, happ, hnodup⟩⟩

theorem mem_of_slotValue {entries : Slots} {slot : ℕ} {value : ℤ}
    (h : slotValue entries slot = .ok value) : ((slot : ℤ), value) ∈ entries := by
  rw [slotValue] at h
  rcases hl : entries.lookup (slot : ℤ) with _ | value'
  · rw [hl] at h
    exact absurd h nofun
  · rw [hl] at h
    obtain rfl := Except.ok.inj h
    obtain ⟨l₁, l₂, rfl, -⟩ := List.lookup_eq_some_iff.mp hl
    exact List.mem_append_right l₁ List.mem_cons_self

theorem slotValue_ok {entries : Slots} (hn : (entries.map Prod.fst).Nodup) {slot : ℕ} {value : ℤ} :
    slotValue entries slot = .ok value ↔ ((slot : ℤ), value) ∈ entries := by
  refine ⟨mem_of_slotValue, fun h => ?_⟩
  obtain ⟨value', hl⟩ : ∃ value', entries.lookup (slot : ℤ) = some value' := by
    rw [← Option.isSome_iff_exists, List.lookup_isSome_iff]
    exact ⟨_, h, beq_self_eq_true _⟩
  have hslot : slotValue entries slot = .ok value' := by rw [slotValue, hl]
  have hpair := List.inj_on_of_nodup_map hn h (mem_of_slotValue hslot) rfl
  rw [hslot, (Prod.mk.inj hpair).2]

theorem parseIndexed_ok {samples : List (Match Char)} : parseIndexed T samples = .ok values ↔
    ∃ entries, List.Forall₂ (Entry T) samples entries ∧ (entries.map Prod.fst).Nodup ∧
      values.length = registerSize ∧ ∀ slot : ℕ, slot < registerSize →
        ∃ value, ((slot : ℤ), value) ∈ entries ∧ values[slot]? = some value := by
  rw [parseIndexed, py_bind_ok]
  refine exists_congr fun entries => ?_
  rw [addSamples_ok (show (([] : Slots).map Prod.fst).Nodup from List.nodup_nil),
    raiseIf_bind_ok, not_not, mapM_eq_ok]
  constructor
  · rintro ⟨⟨_, hentries, rfl, hn⟩, -, hvalues⟩
    rw [List.forall₂_iff_get] at hvalues
    obtain ⟨hlen, hget⟩ := hvalues
    rw [List.length_range] at hlen
    refine ⟨hentries, hn, hlen.symm, fun slot hslot => ?_⟩
    have hlt : slot < values.length := hlen ▸ hslot
    have hv := hget slot (by rwa [List.length_range]) hlt
    rw [List.get_eq_getElem, List.getElem_range, slotValue_ok hn] at hv
    exact ⟨_, hv, List.getElem?_eq_getElem hlt⟩
  · rintro ⟨hentries, hn, hlen, hslots⟩
    refine ⟨⟨entries, hentries, rfl, hn⟩, ?_, ?_⟩
    · ext key
      rw [List.mem_toFinset, List.mem_toFinset, List.mem_map, List.mem_map]
      constructor
      · rintro ⟨entry, hentry, rfl⟩
        obtain ⟨m, -, he⟩ := exists_of_mem_right hentries hentry
        refine ⟨entry.1.toNat, ?_, ?_⟩
        · rw [List.mem_range]
          have := he.range
          omega
        · exact Int.toNat_of_nonneg he.range.1
      · rintro ⟨slot, hslot, rfl⟩
        obtain ⟨value, hmem, -⟩ := hslots slot (List.mem_range.mp hslot)
        exact ⟨_, hmem, rfl⟩
    · rw [List.forall₂_iff_get]
      refine ⟨by rw [List.length_range, hlen], fun slot hslot hlt => ?_⟩
      rw [List.length_range] at hslot
      obtain ⟨value, hmem, hget⟩ := hslots slot hslot
      rw [List.getElem?_eq_getElem hlt] at hget
      rw [List.get_eq_getElem, List.getElem_range, slotValue_ok hn, List.get_eq_getElem,
        Option.some.inj hget]
      exact hmem

/-! The words of an error. -/

theorem isWord_of_like {x y : Char} (hx : x.isLower = true) (ha : isAscii y = true)
    (hl : T.like x y = true) : T.isWord y = true := by
  have hall : ∀ n < 128, (Char.ofNat n).toLower.isLower = true →
      ((Char.ofNat n).isAlphanum || Char.ofNat n = '_') = true := by decide
  rw [Tables.like, if_pos ha] at hl
  obtain rfl := of_decide_eq_true hl
  have hy := hall y.toNat (of_decide_eq_true ha)
  rw [Char.ofNat_toNat] at hy
  rw [Tables.isWord, if_pos ha]
  exact hy hx

/-- The words of an error begin and end with a letter. -/
theorem errorWords_letters : ∀ s ∈ errorWords, (∃ x v, s.toList = x :: v ∧ x.isLower = true) ∧
    ∃ x v, s.toList.reverse = x :: v ∧ x.isLower = true := by
  intro s hs
  fin_cases hs <;> exact ⟨⟨_, _, rfl, by decide⟩, _, _, rfl, by decide⟩

theorem reads_errorWords : Reads (anyOf (errorWords.map fun s => spelled T.like s.toList))
    {w | ∃ s ∈ errorWords, w ∈ spellings T.like s.toList} :=
  reads_anyOf errorWords fun s _ => reads_spelled T.like s.toList

/-- Such a word begins and ends with a character of words. -/
theorem errorWord_ends {s : String} (hs : s ∈ errorWords) {w : List Char}
    (hw : w ∈ spellings T.like s.toList) (hascii : ∀ x ∈ w, isAscii x = true) :
    (∃ x v, w = x :: v ∧ T.isWord x = true) ∧ ∃ x, w.getLast? = some x ∧ T.isWord x = true := by
  obtain ⟨⟨x, v, hx, hxl⟩, y, u, hy, hyl⟩ := errorWords_letters s hs
  have hforward : List.Forall₂ (fun x y => T.like x y = true) s.toList w := hw
  have hback := List.rel_reverse hforward
  rw [hx] at hforward
  rw [hy] at hback
  obtain ⟨x', v', hx', -, rfl⟩ := List.forall₂_cons_left_iff.mp hforward
  obtain ⟨y', u', hy', -, hrev⟩ := List.forall₂_cons_left_iff.mp hback
  refine ⟨⟨x', v', rfl, isWord_of_like hxl (hascii x' List.mem_cons_self) hx'⟩, y', ?_, ?_⟩
  · rw [← List.head?_reverse, hrev, List.head?_cons]
  · refine isWord_of_like hyl (hascii y' ?_) hy'
    rw [← List.mem_reverse, hrev]
    exact List.mem_cons_self

theorem mem_run_errorReply {c d : Cursor Char} (h : d ∈ (errorReply T).run c) :
    ∃ s ∈ errorWords, ∃ w ∈ spellings T.like s.toList, c.rest = w ++ d.rest := by
  obtain ⟨e, he, htail⟩ := mem_run_seq.mp h
  obtain ⟨-, rfl⟩ := mem_run_boundary.mp he
  obtain ⟨e', he', hend⟩ := mem_run_seq.mp htail
  obtain ⟨-, rfl⟩ := mem_run_boundary.mp hend
  obtain ⟨w, ⟨s, hs, hw⟩, hr, -⟩ := reads_errorWords.mem_run_group.mp he'
  exact ⟨s, hs, w, hw, hr⟩

theorem search_isSome {r : Regex Char} {text : List Char} : (r.search text).isSome = true ↔
    ∃ w rest, text = w ++ rest ∧ r.matchAt ((Cursor.start text).past w rest) ≠ none := by
  have hnil := finds_eq_nil (r := r) (c := .start text) rfl
  rw [search, List.isSome_head?, ne_eq, finditer, hnil]
  push Not
  rfl

theorem ReportsError.search (hascii : ∀ x ∈ output, isAscii x = true)
    (h : ReportsError T output) : ((errorReply T).search output).isSome = true := by
  obtain ⟨pre, word, post, htext, ⟨s, hs, hw⟩, hpre, hpost⟩ := h
  have hword : ∀ x ∈ word, isAscii x = true := by
    intro x hx
    rw [htext] at hascii
    exact hascii x (by simp [hx])
  obtain ⟨⟨x, v, hx, hxw⟩, y, hy, hyw⟩ := errorWord_ends hs hw hword
  refine search_isSome.mpr ⟨pre, word ++ post, htext, ?_⟩
  let c := (Cursor.start output).past pre (word ++ post)
  have hstart : AtBoundary T.isWord c := by
    have hprev : c.prev.any T.isWord = false := by
      show (pre.getLast?.or none).any _ = _
      rw [Option.or_none]
      rcases hp : pre.getLast? with _ | z
      · rfl
      · exact hpre z hp
    have hhead : c.rest.head? = some x := by
      rw [show c.rest = word ++ post from rfl, hx]
      rfl
    rw [AtBoundary, hprev, hhead]
    rw [Option.any_some, hxw]
    decide
  have hend : AtBoundary T.isWord ((c.past word post).capture 1 word) := by
    have hnext : post.head?.any T.isWord = false := by
      rcases hp : post.head? with _ | z
      · rfl
      · exact hpost z hp
    show (word.getLast?.or c.prev).any _ ≠ post.head?.any _
    rw [hnext, hy, Option.some_or, Option.any_some, hyw]
    decide
  have hrun : (c.past word post).capture 1 word ∈ (errorReply T).run c :=
    mem_run_seq.mpr ⟨c, mem_run_boundary.mpr ⟨hstart, rfl⟩, mem_run_seq.mpr ⟨_,
      reads_errorWords.mem_run_group.mpr ⟨word, ⟨s, hs, hw⟩, rfl, rfl⟩,
      mem_run_boundary.mpr ⟨hend, rfl⟩⟩⟩
  obtain ⟨e, he⟩ := first_isSome hrun
  obtain ⟨s', hs', w', hw', hr⟩ := mem_run_errorReply (mem_of_first he)
  have hlen : e.rest.length < c.rest.length := by
    have hsame : s'.toList.length = w'.length := List.Forall₂.length_eq hw'
    obtain ⟨⟨z, t, hz, -⟩, -⟩ := errorWords_letters s' hs'
    rw [hz, List.length_cons] at hsame
    rw [hr, List.length_append]
    omega
  rw [matchAt_eq_some.mpr ⟨he, hlen⟩]
  exact Option.some_ne_none e

/-! What is accepted. -/

theorem parseRegisterDump_ok : parseRegisterDump T output = .ok values ↔
    ((errorReply T).search output).isSome = false ∧
      ((declaration T).finditer output).length = ((sample T).finditer output).length ∧
      parseSamples T ((sample T).finditer output) = .ok values ∧ IsSnapshot values := by
  rw [parseRegisterDump, raiseIf_bind_ok, raiseIf_bind_ok, not_not, py_bind_ok,
    Bool.not_eq_true]
  refine and_congr_right fun _ => and_congr_right fun _ => ?_
  constructor
  · rintro ⟨result, hresult, h⟩
    obtain ⟨u, hsnap, h⟩ := py_bind_ok.mp h
    obtain rfl := Except.ok.inj h
    exact ⟨hresult, validateSnapshot_ok.mp hsnap⟩
  · rintro ⟨hresult, hsnap⟩
    exact ⟨values, hresult, py_bind_ok.mpr ⟨(), validateSnapshot_ok.mpr hsnap, rfl⟩⟩

/-- The list of one unindexed sample, or the entries of indexed ones. -/
theorem parseSamples_ok {samples : List (Match Char)} (h : parseSamples T samples = .ok values) :
    (∃ m, samples = [m] ∧ m.stop.group 1 = none ∧
      parseArray T ((m.stop.group 2).getD []) = .ok values) ∨
    parseIndexed T samples = .ok values := by
  unfold parseSamples at h
  split at h
  · next m =>
    split_ifs at h with hm
    · exact Or.inl ⟨m, rfl, hm, h⟩
    · exact Or.inr h
  · exact Or.inr h

/-- A number is a value that counts. -/
theorem filled_of_digitWord {value : List Char} (h : T.strip value ∈ digitWord T) :
    Filled T value := by
  obtain ⟨hne, hd⟩ := mem_digitWord.mp h
  obtain ⟨x, v, hs⟩ := List.exists_cons_of_ne_nil hne
  exact ⟨x, v, hs, Or.inl (hd x (hs ▸ List.mem_cons_self))⟩

theorem exists_group_two {m : Match Char} (hm : m ∈ (sample T).finditer output) :
    ∃ idx value, m.stop.groups = sampleGroups idx value ∧
      (∀ ds ∈ idx, ∀ x ∈ ds, x ∈ output) ∧ ∀ x ∈ value, x ∈ output := by
  obtain ⟨hmatch, ⟨u, hu, -⟩, hg⟩ := mem_finds rfl hm
  have htext : output = u ++ m.start.rest := hu
  obtain ⟨w, post, hn, hk⟩ := exists_namedAt (matchAt_eq_some.mp hmatch).1
  obtain ⟨idx, w₁, -, w₂, -, value, -, hc, hgroups⟩ := exists_parts (mem_of_first hk) hg
  have hpost : output =
      u ++ (w ++ (indexText idx ++ (w₁ ++ '=' :: (w₂ ++ (value ++ m.stop.rest))))) := by
    rw [htext, hn.rest, ← hc]
    rfl
  refine ⟨idx, value, hgroups, ?_, fun x hx => hpost ▸ by simp [hx]⟩
  rintro ds rfl x hx
  rw [hpost]
  simp [indexText, hx]

theorem content_of_array (hascii : ∀ x ∈ output, isAscii x = true) {m : Match Char}
    (hcount : ((declaration T).finditer output).length = ((sample T).finditer output).length)
    (hm : (sample T).finditer output = [m]) (hnone : m.stop.group 1 = none)
    (h : parseArray T ((m.stop.group 2).getD []) = .ok values) : Content T output values := by
  have hmem : m ∈ (sample T).finditer output := hm ▸ List.mem_singleton_self m
  obtain ⟨idx, value, hgroups, -, hsub⟩ := exists_group_two hmem
  have hvalue := group_two hgroups
  rw [hvalue, Option.getD_some] at h
  obtain ⟨body, hl, he⟩ := parseArray_lists (fun x hx => hascii x (hsub x hx)) h
  have hf : Filled T value := he.filled hl
  obtain ⟨x, v, hs, -⟩ := id hf
  obtain ⟨post, idx, tail, hsample⟩ := exists_sampleOf hascii hmem hvalue (hs ▸ by simp)
  obtain rfl : idx = none := (group_one hsample.groups).symm.trans hnone
  obtain ⟨y, v', rfl, hy⟩ := hsample.assigns.head
  refine .array post (fun post' => ⟨fun hn => ?_, fun hp => hp ▸ hsample.named⟩)
    ⟨_, tail, hsample.assigns, he.isArray hy hl⟩
  obtain ⟨m', hm', hname⟩ := exists_sample hascii hcount
    (fun m' hm' => by
      rw [hm] at hm'
      obtain rfl := List.mem_singleton.mp hm'
      exact ⟨_, hvalue, hf⟩) hn
  rw [hm] at hm'
  obtain rfl := List.mem_singleton.mp hm'
  exact hname.symm.trans hsample.name

/-- Samples that give different slots are paired with them one to one. -/
theorem eq_of_same_key {α β κ : Type} {R : α → β → Prop} {key : β → κ} {as : List α} {bs : List β}
    (h : List.Forall₂ R as bs) (hn : (bs.map key).Nodup) {a a' : α} (ha : a ∈ as) (ha' : a' ∈ as)
    (hkey : ∀ b b', R a b → R a' b' → key b = key b') : a = a' := by
  induction h with
  | nil => exact absurd ha List.not_mem_nil
  | @cons a₀ b₀ as bs h₀ h ih =>
    rw [List.map_cons, List.nodup_cons] at hn
    rcases List.mem_cons.mp ha with rfl | hmem <;> rcases List.mem_cons.mp ha' with rfl | hmem'
    · rfl
    · obtain ⟨b', hb', hr'⟩ := exists_of_mem_left h hmem'
      exact absurd (hkey b₀ b' h₀ hr' ▸ List.mem_map_of_mem hb') hn.1
    · obtain ⟨b, hb, hr⟩ := exists_of_mem_left h hmem
      exact absurd (hkey b b₀ hr h₀ ▸ List.mem_map_of_mem hb) hn.1
    · exact ih hn.2 hmem hmem'

theorem GivesSlot.eq_slot {post ds text tail : List Char} {slot value key : ℤ}
    (h : GivesSlot T post slot value) (ha : Assigns T post (some ds) text tail)
    (hw : Writes T ds key) : key = slot := by
  obtain ⟨ds', text', tail', ha', hw', -⟩ := h
  obtain rfl := Option.some.inj (ha.unique ha').1
  rw [hw.value, hw'.value]

/-- A sample whose entry is taken gives its slot. -/
theorem Entry.sampleOf (hascii : ∀ x ∈ output, isAscii x = true) {m : Match Char}
    (hm : m ∈ (sample T).finditer output) {entry : ℤ × ℤ} (he : Entry T m entry) :
    ∃ post idx value tail, SampleOf T output m post (some idx) value tail ∧
      Writes T idx entry.1 ∧ GivesSlot T post entry.1 entry.2 := by
  obtain ⟨idx', value, hgroups, hidx, hsub⟩ := exists_group_two hm
  obtain ⟨⟨idx, hone, hkey⟩, ⟨_, rfl, hword, hint⟩, -⟩ := he
  obtain rfl : idx' = some idx := (group_one hgroups).symm.trans hone
  rw [group_two hgroups, Option.getD_some] at hword hint
  obtain ⟨post, idx', tail, hsample⟩ := exists_sampleOf hascii hm (group_two hgroups)
    (mem_digitWord.mp hword).1
  obtain rfl : idx' = some idx := (group_one hsample.groups).symm.trans hone
  have hwrites : Writes T idx entry.1 :=
    writes_of_int (fun x hx => hascii x (hidx idx rfl x hx))
      (mem_digitWord.mpr (hsample.assigns.digits idx rfl)) hkey
  obtain ⟨x, v, rfl, hx⟩ := hsample.assigns.head
  obtain ⟨w, hw, htext⟩ := strip_split_head hx v
  refine ⟨post, idx, _, tail, hsample, hwrites, idx, _, tail, hsample.assigns, hwrites, _, w, hw,
    htext, ?_⟩
  obtain ⟨hne, hd⟩ := mem_digitWord.mp hword
  have hsame := Tables.strip_of_int hint fun y hy => digit_not_space (hascii y (hsub y hy))
  exact ⟨hne, hd, hsame ▸ (Tables.int_ok.mp hint).2⟩

theorem content_of_slots (hascii : ∀ x ∈ output, isAscii x = true)
    (hcount : ((declaration T).finditer output).length = ((sample T).finditer output).length)
    (h : parseIndexed T ((sample T).finditer output) = .ok values) : Content T output values := by
  obtain ⟨entries, hentries, hn, hlen, hslots⟩ := parseIndexed_ok.mp h
  have hfilled : ∀ m ∈ (sample T).finditer output,
      ∃ value, m.stop.group 2 = some value ∧ Filled T value := by
    intro m hm
    obtain ⟨entry, -, he⟩ := exists_of_mem_left hentries hm
    obtain ⟨idx, value, hgroups, -, -⟩ := exists_group_two hm
    obtain ⟨_, rfl, hword, -⟩ := he.value
    rw [group_two hgroups, Option.getD_some] at hword
    exact ⟨value, group_two hgroups, filled_of_digitWord hword⟩
  refine .slots (fun post hpost => ?_) fun slot hslot => ?_
  · obtain ⟨m, hm, hname⟩ := exists_sample hascii hcount hfilled hpost
    obtain ⟨entry, hentry, he⟩ := exists_of_mem_left hentries hm
    obtain ⟨post', idx, value, tail, hsample, -, hgives⟩ := he.sampleOf hascii hm
    obtain rfl := hname.symm.trans hsample.name
    have hrange := he.range
    have hnat : ((entry.1.toNat : ℕ) : ℤ) = entry.1 := Int.toNat_of_nonneg hrange.1
    obtain ⟨value', hmem, hget⟩ := hslots entry.1.toNat (by omega)
    rw [hnat] at hmem
    have hpair := List.inj_on_of_nodup_map hn hmem hentry rfl
    refine ⟨entry.1.toNat, entry.2, ?_, ?_⟩
    · rwa [hnat]
    · rw [hget, (Prod.mk.inj hpair).2]
  · obtain ⟨value, hmem, hget⟩ := hslots slot hslot
    obtain ⟨m, hm, he⟩ := exists_of_mem_right hentries hmem
    obtain ⟨post, idx, text, tail, hsample, hwrites, hgives⟩ := he.sampleOf hascii hm
    refine ⟨post, value, hsample.named, hgives, hget, fun post' value' hnamed' hgives' => ?_⟩
    obtain ⟨m', hm', hname'⟩ := exists_sample hascii hcount hfilled hnamed'
    have hm_eq : m' = m := by
      refine eq_of_same_key hentries hn hm' hm fun entry' entry he' he => ?_
      obtain ⟨post₁, idx₁, text₁, tail₁, hsample₁, hwrites₁, -⟩ := he'.sampleOf hascii hm'
      obtain ⟨post₂, idx₂, text₂, tail₂, hsample₂, hwrites₂, -⟩ := he.sampleOf hascii hm
      obtain rfl := hname'.symm.trans hsample₁.name
      obtain rfl := hsample.name.symm.trans hsample₂.name
      rw [hgives'.eq_slot hsample₁.assigns hwrites₁, hgives.eq_slot hsample₂.assigns hwrites₂]
    rw [← hname', hm_eq, hsample.name]

/-- Whatever is accepted is said by every sample of the text, and by no error. -/
theorem accepted_says (hascii : ∀ x ∈ output, isAscii x = true)
    (h : parseRegisterDump T output = .ok values) :
    IsSnapshot values ∧ ¬ ReportsError T output ∧ Content T output values := by
  obtain ⟨hquiet, hcount, hparse, hsnap⟩ := parseRegisterDump_ok.mp h
  refine ⟨hsnap, fun herr => ?_, ?_⟩
  · exact Bool.false_ne_true (hquiet.symm.trans (herr.search hascii))
  · rcases parseSamples_ok hparse with ⟨m, hm, hnone, harray⟩ | hindexed
    · exact content_of_array hascii hcount hm hnone harray
    · exact content_of_slots hascii hcount hindexed

end P4Cases.FlowCounter
