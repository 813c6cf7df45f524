import P4Cases.FlowCounter.Accepted

/-! The dumps that the command line interface can print for an array, in one line or slot
by slot, are read back. -/
namespace P4Cases.FlowCounter
open Text Text.Regex Computability

/-- `str(value)` of a number that is not negative. -/
def str (value : ℤ) : List Char := Nat.toDigits 10 value.toNat

def asciiSpace (c : Char) : Bool :=
  isAscii c && ((9 ≤ c.toNat ∧ c.toNat ≤ 13) ∨ (28 ≤ c.toNat ∧ c.toNat ≤ 32))

/-- Space, which may end lines. -/
def gap : Language Char := (letters asciiSpace)∗

/-- Space within a line. -/
def lineGap : Language Char := (letters fun c => asciiSpace c && !isNewline c)∗

/-- Space within a line that a single number can be followed by, which `int` has to take. -/
def numberGap : Language Char :=
  (letters fun c => isAscii c && ((9 ≤ c.toNat ∧ c.toNat ≤ 13) ∨ c.toNat = 32) && !isNewline c)∗

/-- Any number of prompts. -/
def promptText : Language Char := ({"RuntimeCmd:".toList} * gap)∗

/-- A line for the array, or for the slot of an index, that gives `body`. -/
def sampleLine (idx : Option (List Char)) (body : List Char) (ending : Language Char) :
    Language Char :=
  promptText * (({"MyIngress.".toList} + 1) * {"flow_counter".toList}) *
    ({indexText idx} * (gap * ({['=']} * (gap * ({body} * ending)))))

/-- What may follow the last line: the prompt that waits for the next command. -/
def trailer : Language Char := 1 + {['\n']} * (gap * promptText)

/-- The values with commas or space between them. -/
def Listed (values : List ℤ) (list : List Char) : Prop :=
  ∃ sep ∈ [lineGap * ({[',']} * lineGap),
    (letters fun c => asciiSpace c && !isNewline c) * lineGap], Joined sep (values.map str) list

/-- The values, in brackets or not. -/
def ArrayBody (values : List ℤ) (body : List Char) : Prop := ∃ list, Listed values list ∧
  (body = list ∨ ∃ g ∈ lineGap, ∃ g' ∈ lineGap, body = '[' :: (g ++ (list ++ g')) ++ [']'])

/-- A dump in one line. -/
def arrayDump (values : List ℤ) : Language Char :=
  {text | ∃ body, ArrayBody values body ∧ text ∈ sampleLine none body lineGap * trailer}

/-- A dump slot by slot, in any order. -/
def slotDump (values : List ℤ) : Language Char :=
  {text | ∃ order : List ℕ, order.Perm (List.range registerSize) ∧ ∃ lines,
    List.Forall₂ (fun (slot : ℕ) line =>
      line ∈ sampleLine (some (str slot)) (str (values.getD slot 0)) numberGap) order lines ∧
    ∃ dump, Joined {['\n']} lines dump ∧ ∃ t ∈ trailer, text = dump ++ t}

variable {T : Tables}

theorem isSpace_of_ascii {c : Char} (h : asciiSpace c = true) : T.isSpace c = true := by
  obtain ⟨ha, hs⟩ := (Bool.and_eq_true _ _).mp h
  rw [Tables.isSpace, if_pos ha]
  exact hs

theorem mem_gap {w : List Char} : w ∈ gap ↔ ∀ x ∈ w, asciiSpace x = true := mem_kstar_letters

theorem mem_lineGap {w : List Char} :
    w ∈ lineGap ↔ ∀ x ∈ w, (asciiSpace x && !isNewline x) = true := mem_kstar_letters

theorem blank_of_gap {w : List Char} (h : w ∈ gap) : w ∈ blank T :=
  mem_blank.mpr fun x hx => isSpace_of_ascii (mem_gap.mp h x hx)

theorem gap_of_lineGap {w : List Char} (h : w ∈ lineGap) : w ∈ gap :=
  mem_gap.mpr fun x hx => ((Bool.and_eq_true _ _).mp (mem_lineGap.mp h x hx)).1

theorem lineGap_of_numberGap {w : List Char} (h : w ∈ numberGap) : w ∈ lineGap := by
  refine mem_lineGap.mpr fun x hx => ?_
  have hnumber := mem_kstar_letters.mp h x hx
  simp only [asciiSpace, Bool.and_eq_true, decide_eq_true_eq] at hnumber ⊢
  exact ⟨⟨hnumber.1.1, by omega⟩, hnumber.2⟩

theorem isIntSpace_of_numberGap {w : List Char} (h : w ∈ numberGap) :
    ∀ x ∈ w, T.isIntSpace x = true := by
  intro x hx
  obtain ⟨hspace, -⟩ := (Bool.and_eq_true _ _).mp (mem_kstar_letters.mp h x hx)
  obtain ⟨ha, hs⟩ := (Bool.and_eq_true _ _).mp hspace
  rw [Tables.isIntSpace, if_pos ha]
  exact hs

theorem prompts_of_promptText {w : List Char} (h : w ∈ promptText) : w ∈ prompts T := by
  have hle : promptText ≤ prompts T := kstar_mono (mul_le_mul_right (fun _ => blank_of_gap) _)
  exact hle h

/-! The numbers. -/

theorem str_digits (value : ℤ) : str value ≠ [] ∧ ∀ x ∈ str value, x.isDigit = true :=
  ⟨Nat.toDigits_ne_nil, fun _ hx => Nat.isDigit_of_mem_toDigits (by decide) (by decide) hx⟩

theorem ascii_of_isDigit {x : Char} (h : x.isDigit = true) : isAscii x = true := by
  have hx : x.val ≤ 57 := ((Bool.and_eq_true _ _).mp h).2 |> of_decide_eq_true
  exact decide_eq_true (lt_of_le_of_lt (UInt32.le_iff_toNat_le.mp hx) (by decide))

theorem decimalValue_of_isDigit {x : Char} (h : x.isDigit = true) :
    T.decimalValue x = some (x.toNat - '0'.toNat) := by
  rw [Tables.decimalValue, if_pos (ascii_of_isDigit h), if_pos h]

theorem isDigit_of_isDigit {x : Char} (h : x.isDigit = true) : T.isDigit x = true := by
  rw [Tables.isDigit, decimalValue_of_isDigit h]
  rfl

theorem number_of_digits {ds : List Char} (h : ∀ x ∈ ds, x.isDigit = true) :
    T.number ds = Nat.ofDigitChars 10 ds 0 := by
  rw [Tables.number, Nat.ofDigitChars_eq_foldl]
  refine List.foldl_ext _ _ 0 fun n x hx => ?_
  rw [decimalValue_of_isDigit (h x hx)]
  rfl

theorem strip_digits {space : Char → Bool} (hs : ∀ x, space x = true → T.isSpace x = true)
    {ds : List Char} (h : ∀ x ∈ ds, x.isDigit = true) {v : List Char}
    (hv : ∀ x ∈ v, space x = true) : stripOf space (ds ++ v) = ds := by
  have hspace : ∀ x ∈ ds, space x = false := by
    intro x hx
    have hdigit : T.isSpace x = false :=
      digit_not_space (ascii_of_isDigit (h x hx)) (isDigit_of_isDigit (h x hx))
    exact Bool.eq_false_iff.mpr fun hx => Bool.false_ne_true (hdigit.symm.trans (hs x hx))
  have hstrip := @stripOf_append space [] v ds nofun hv
    (fun x hx => hspace x (List.mem_of_head? hx)) (fun x hx => hspace x (List.mem_of_getLast? hx))
  rwa [List.nil_append] at hstrip

/-- Reading back what `str` writes, with space behind it. -/
theorem int_str {value : ℤ} (hpos : 0 ≤ value) (hlt : value < counterModulus) {v : List Char}
    (hv : ∀ x ∈ v, T.isIntSpace x = true) : T.int (str value ++ v) = .ok value := by
  obtain ⟨hne, hd⟩ := str_digits value
  rw [Tables.int_ok, strip_digits (fun _ => Tables.isSpace_of_isIntSpace) hd hv]
  refine ⟨⟨hne, fun x hx => isDigit_of_isDigit (hd x hx), ?_⟩, ?_⟩
  · have hlen : (str value).length ≤ 10 := by
      refine (Nat.length_toDigits_le_iff (by decide) (by decide)).mpr ?_
      unfold counterModulus at hlt
      omega
    exact hlen.trans (by decide)
  · rw [number_of_digits hd, str, Nat.ofDigitChars_ten_toDigits, Int.toNat_of_nonneg hpos]

/-! Searching a dump line by line. -/

/-- A line that is read as one sample, whatever lines follow. -/
structure LineOf (T : Tables) (idx : Option (List Char)) (value line : List Char) : Prop where
  filled : Filled T value
  parts : ∃ w post, line = w ++ post ∧ w ∈ nameLine T ∧
    (∃ x v, post = x :: v ∧ T.isWord x = false) ∧
    ∀ tail, (∀ x ∈ tail.head?, isNewline x = true) → Assigns T (post ++ tail) idx value tail

theorem lineOf_sampleLine {idx : Option (List Char)} {body line : List Char}
    {ending : Language Char} (hending : ∀ w ∈ ending, w ∈ lineGap)
    (hidx : ∀ ds ∈ idx, ds ≠ [] ∧ ∀ x ∈ ds, T.isDigit x = true)
    (hhead : ∃ x v, body = x :: v ∧ (T.isDigit x = true ∨ x = '[') ∧ T.isSpace x = false)
    (hbody : ∀ x ∈ body, isNewline x = false) (h : line ∈ sampleLine idx body ending) :
    ∃ v ∈ ending, LineOf T idx (body ++ v) line := by
  obtain ⟨w, hw, post, hpost, rfl⟩ := Language.mem_mul.mp h
  obtain ⟨_, rfl, _, h₁, rfl⟩ := Language.mem_mul.mp hpost
  obtain ⟨w₁, hw₁, _, h₂, rfl⟩ := Language.mem_mul.mp h₁
  obtain ⟨_, rfl, _, h₃, rfl⟩ := Language.mem_mul.mp h₂
  obtain ⟨w₂, hw₂, _, h₄, rfl⟩ := Language.mem_mul.mp h₃
  obtain ⟨_, rfl, v, hv, rfl⟩ := Language.mem_mul.mp h₄
  obtain ⟨x, u, hx, hfirst, hspace⟩ := hhead
  refine ⟨v, hv, ?_, w, _, rfl, ?_, ?_, fun tail htail => ⟨hidx, ?_, ?_, ?_, htail⟩⟩
  · obtain ⟨v', hv'⟩ := strip_cons (T := T) hspace (u ++ v)
    exact ⟨x, v', by rw [hx]; exact hv', hfirst⟩
  · obtain ⟨p, hp, name, hname, rfl⟩ := Language.mem_mul.mp hw
    exact Language.mem_mul.mpr ⟨p, prompts_of_promptText hp, name, hname, rfl⟩
  · rcases idx with _ | ds
    · rcases w₁ with _ | ⟨y, w₁⟩
      · exact ⟨'=', _, rfl, rfl⟩
      · have hy := mem_gap.mp hw₁ y List.mem_cons_self
        exact ⟨y, _, rfl, not_word_of_space ((Bool.and_eq_true _ _).mp hy).1 (isSpace_of_ascii hy)⟩
    · exact ⟨'[', _, rfl, rfl⟩
  · refine ⟨w₁, blank_of_gap hw₁, w₂, blank_of_gap hw₂, ?_⟩
    simp only [List.append_assoc, List.cons_append]
    rfl
  · exact ⟨x, u ++ v, by rw [hx]; rfl, hspace⟩
  · intro y hy
    rcases List.mem_append.mp hy with hy | hy
    · exact hbody y hy
    · have hg := ((Bool.and_eq_true _ _).mp (mem_lineGap.mp (hending v hv) y hy)).2
      simpa using hg

section Lines
variable {c : Cursor Char} {idx : Option (List Char)} {value line tail : List Char}
  {k : Regex Char}

theorem matchAt_of_not_named (h : ∀ w post, ¬ NamedAt T c w post) :
    (seq (lineStart isNewline) (seq (name T) k)).matchAt c = none := by
  by_contra hm
  obtain ⟨d, hd⟩ := Option.ne_none_iff_exists'.mp hm
  obtain ⟨w, post, hn, -⟩ := exists_namedAt (matchAt_eq_some.mp hd).1
  exact h w post hn

/-- Where no name can stand, nothing is found. -/
theorem finds_of_no_name (hg : c.groups = []) (hf : 'f' ∉ c.rest) :
    (seq (lineStart isNewline) (seq (name T) k)).finds c = [] := by
  refine (finds_eq_nil hg).mpr fun u rest hr => matchAt_of_not_named fun w post hn => ?_
  obtain ⟨v, rfl, -⟩ := nameLine_split hn.line
  have hrest : rest = v ++ "flow_counter".toList ++ post := hn.rest
  refine hf ?_
  rw [hr, hrest]
  simp

theorem finds_newline {rest : List Char} (hr : c.rest = '\n' :: rest) :
    (seq (lineStart isNewline) (seq (name T) k)).finds c =
      (seq (lineStart isNewline) (seq (name T) k)).finds (c.past ['\n'] rest) := by
  refine finds_none (matchAt_of_not_named fun w post hn => ?_) hr
  obtain ⟨x, hx, v, rfl⟩ := nameLine_head hn.line
  obtain ⟨rfl, -⟩ := List.cons.inj (hr.symm.trans hn.rest)
  exact absurd hx (by decide)

theorem LineOf.finds (h : LineOf T idx value line) (hg : c.groups = [])
    (hstart : AtLineStart isNewline c) (hr : c.rest = line ++ tail)
    (htail : ∀ x ∈ tail.head?, isNewline x = true) :
    ∃ d e, d.rest = tail ∧ d.groups = sampleGroups idx value ∧
      (sample T).finds c = ⟨c, d⟩ :: (sample T).finds d.fresh ∧
      (declaration T).finds c = ⟨c, e⟩ :: (declaration T).finds d.fresh := by
  obtain ⟨w, post, rfl, hw, ⟨x, v, rfl, hx⟩, hassigns⟩ := h.parts
  rw [List.append_assoc] at hr
  have hd : DeclaredAt T c w (x :: v ++ tail) := by
    refine ⟨⟨hstart, hw, hr⟩, ?_⟩
    rintro y ⟨⟩
    exact hx
  have ha := hassigns tail htail
  obtain ⟨d, hfirst, hrest, hgroups⟩ := ha.first (c := c.past w _) rfl hg
  have hend : (lineEnd c w (x :: v ++ tail)).groups = [] := hg
  refine ⟨d, lineEnd c w (x :: v ++ tail), hrest, hgroups, finds_some (hd.sample hfirst), ?_⟩
  rw [finds_some hd.matchAt, Cursor.fresh_eq hend]
  congr 1
  exact ha.finds_lineEnd h.filled hg (before_of_mem_run (mem_of_first hfirst)) hrest

end Lines

/-- The samples of a dump are its lines. -/
theorem finds_dump {specs : List (Option (List Char) × List Char)} {lines : List (List Char)}
    (hlines : List.Forall₂ (fun spec line => LineOf T spec.1 spec.2 line) specs lines)
    {text rest : List Char} (hj : Joined {['\n']} lines text)
    (hrest : ∀ x ∈ rest.head?, isNewline x = true) (hf : 'f' ∉ rest) {c : Cursor Char}
    (hg : c.groups = []) (hstart : AtLineStart isNewline c) (hc : c.rest = text ++ rest) :
    List.Forall₂ (fun spec m => m.stop.groups = sampleGroups spec.1 spec.2) specs
      ((sample T).finds c) ∧
    ((declaration T).finds c).length = ((sample T).finds c).length := by
  induction hj generalizing specs c with
  | last line =>
    obtain ⟨spec, specs', hline, hnil, rfl⟩ := List.forall₂_cons_right_iff.mp hlines
    obtain rfl := List.forall₂_nil_right_iff.mp hnil
    obtain ⟨d, e, hd, hgroups, hs, hdecl⟩ := hline.finds hg hstart hc hrest
    have hfd : 'f' ∉ d.fresh.rest := hd ▸ hf
    have hsnil : (sample T).finds d.fresh = [] := finds_of_no_name rfl hfd
    have hdnil : (declaration T).finds d.fresh = [] := finds_of_no_name rfl hfd
    rw [hs, hdecl, hsnil, hdnil]
    exact ⟨.cons hgroups .nil, rfl⟩
  | @cons line _ lines text hs hj ih =>
    obtain rfl := Set.mem_singleton_iff.mp hs
    obtain ⟨spec, specs', hline, hmore, rfl⟩ := List.forall₂_cons_right_iff.mp hlines
    rw [List.append_assoc] at hc
    obtain ⟨d, e, hd, hgroups, hs, hdecl⟩ := hline.finds hg hstart hc (by rintro x ⟨⟩; rfl)
    let c' := d.fresh.past ['\n'] (text ++ rest)
    have hstart' : AtLineStart isNewline c' := by
      rintro x ⟨⟩
      rfl
    obtain ⟨hsamples, hcount⟩ := ih hmore (c := c') rfl hstart' rfl
    have hs' : (sample T).finds d.fresh = (sample T).finds c' := finds_newline hd
    have hd' : (declaration T).finds d.fresh = (declaration T).finds c' := finds_newline hd
    rw [hs, hdecl, hs', hd', List.length_cons, List.length_cons, hcount]
    exact ⟨.cons hgroups hsamples, rfl⟩

/-! Reading the values back. -/

section Values
variable {values : List ℤ} {list body : List Char}

theorem str_digitWord (value : ℤ) : str value ∈ digitWord T :=
  mem_digitWord.mpr ⟨(str_digits _).1, fun x hx => isDigit_of_isDigit ((str_digits _).2 x hx)⟩

/-- A list is read as a list, with the tokens of its values. -/
theorem Listed.matches (h : Listed values list) :
    ((commaList T).fullmatch list ∨ (spaceList T).fullmatch list) ∧
      (separator T).split list = values.map str := by
  obtain ⟨sep, hsep, hj⟩ := h
  have hgap : lineGap ≤ blank T := fun w hw => blank_of_gap (gap_of_lineGap hw)
  have hwords : ∀ w ∈ values.map str, w ∈ digitWord T := by
    intro w hw
    obtain ⟨value, -, rfl⟩ := List.mem_map.mp hw
    exact str_digitWord value
  have hcut : ∀ sep' ∈ [commaSep T, spaceSep T], Joined sep' (values.map str) list →
      (separator T).split list = values.map str := by
    intro sep' hsep' hj'
    refine split_joined (separator_of_mem hsep') (fun w hw => ?_) hj'
    obtain ⟨value, -, rfl⟩ := List.mem_map.mp hw
    refine ⟨(str_digits _).1, fun x hx => ?_⟩
    have hx' := (str_digits _).2 x hx
    exact digit_not_separator (ascii_of_isDigit hx') (isDigit_of_isDigit hx')
  rcases List.mem_pair.mp hsep with rfl | rfl
  · have hle : lineGap * ({[',']} * lineGap) ≤ commaSep T :=
      mul_le_mul' hgap (mul_le_mul' le_rfl hgap)
    have hj' : Joined (commaSep T) (values.map str) list := hj.mono fun s hs => hle hs
    exact ⟨Or.inl (reads_commaList.fullmatch.mpr (mem_mul_kstar.mpr ⟨_, hj', hwords⟩)),
      hcut _ List.mem_cons_self hj'⟩
  · have hletters : (letters fun c => asciiSpace c && !isNewline c) ≤ letters T.isSpace := by
      rintro _ ⟨x, hx, rfl⟩
      exact ⟨x, isSpace_of_ascii ((Bool.and_eq_true _ _).mp hx).1, rfl⟩
    have hle : (letters fun c => asciiSpace c && !isNewline c) * lineGap ≤ spaceSep T :=
      mul_le_mul' hletters hgap
    have hj' : Joined (spaceSep T) (values.map str) list := hj.mono fun s hs => hle hs
    exact ⟨Or.inr (reads_spaceList.fullmatch.mpr (mem_mul_kstar.mpr ⟨_, hj', hwords⟩)),
      hcut _ (by simp) hj'⟩

theorem Listed.ends (h : Listed values list) :
    (∃ x v, list = x :: v ∧ x.isDigit = true) ∧ ∃ x, list.getLast? = some x ∧ x.isDigit = true := by
  obtain ⟨sep, -, hj⟩ := h
  have hword : ∀ w ∈ values.map str, w ≠ [] ∧ ∀ x ∈ w, x.isDigit = true := by
    intro w hw
    obtain ⟨value, -, rfl⟩ := List.mem_map.mp hw
    exact str_digits _
  constructor
  · refine hj.head fun w hw => ?_
    obtain ⟨x, v, rfl⟩ := List.exists_cons_of_ne_nil (hword w hw).1
    exact ⟨x, v, rfl, (hword _ hw).2 x List.mem_cons_self⟩
  · obtain ⟨w, hw, hlast⟩ := hj.exists_getLast fun w hw => (hword w hw).1
    obtain ⟨hne, hd⟩ := hword w hw
    exact ⟨w.getLast hne, hlast.trans (List.getLast?_eq_some_getLast hne),
      hd _ (List.getLast_mem hne)⟩

theorem not_space_of_isDigit {x : Char} (h : x.isDigit = true) : T.isSpace x = false :=
  digit_not_space (ascii_of_isDigit h) (isDigit_of_isDigit h)

/-- A body begins and ends with a digit or a bracket. -/
theorem ArrayBody.ends (h : ArrayBody values body) :
    (∃ x v, body = x :: v ∧ (T.isDigit x = true ∨ x = '[') ∧ T.isSpace x = false) ∧
      ∃ x, body.getLast? = some x ∧ T.isSpace x = false := by
  obtain ⟨list, hl, rfl | ⟨g, -, g', -, rfl⟩⟩ := h
  · obtain ⟨⟨x, v, hx, hxd⟩, y, hy, hyd⟩ := hl.ends
    exact ⟨⟨x, v, hx, Or.inl (isDigit_of_isDigit hxd), not_space_of_isDigit hxd⟩, y, hy,
      not_space_of_isDigit hyd⟩
  · refine ⟨⟨'[', _, rfl, Or.inr rfl, rfl⟩, ']', ?_, rfl⟩
    rw [List.getLast?_append]
    rfl

theorem unbracket_body (h : ArrayBody values body) : Listed values (unbracket T body) := by
  obtain ⟨list, hl, hbody⟩ := h
  obtain ⟨⟨x, v, hx, hxd⟩, y, hy, hyd⟩ := hl.ends
  rcases hbody with rfl | ⟨g, hg, g', hg', rfl⟩
  · rw [unbracket, if_neg]
    · exact hl
    · rintro ⟨hpre, -⟩
      rw [hx, List.cons_prefix_cons] at hpre
      rw [← hpre.1] at hxd
      exact absurd hxd (by decide)
  · have hinner : T.strip (g ++ (list ++ g')) = list := by
      refine stripOf_append (mem_blank.mp (blank_of_gap (gap_of_lineGap hg)))
        (mem_blank.mp (blank_of_gap (gap_of_lineGap hg'))) ?_ ?_
      · rw [hx]
        rintro z ⟨⟩
        exact not_space_of_isDigit hxd
      · rw [hy]
        rintro z ⟨⟩
        exact not_space_of_isDigit hyd
    rw [unbracket, if_pos ⟨⟨_, rfl⟩, _, rfl⟩, List.cons_append, List.tail_cons,
      List.dropLast_concat, hinner]
    exact hl

theorem parseArray_body (hsnap : IsSnapshot values) (hb : ArrayBody values body) {v : List Char}
    (hv : v ∈ lineGap) : parseArray T (body ++ v) = .ok values := by
  obtain ⟨⟨x, u, hx, -, hspace⟩, y, hy, hlast⟩ := hb.ends (T := T)
  have hstrip : T.strip (body ++ v) = body := by
    refine stripOf_append (w := []) nofun (mem_blank.mp (blank_of_gap (gap_of_lineGap hv)))
      ?_ ?_
    · rw [hx]
      rintro z ⟨⟩
      exact hspace
    · rw [hy]
      rintro z ⟨⟩
      exact hlast
  obtain ⟨hmatch, hsplit⟩ := (unbracket_body (T := T) hb).matches (T := T)
  rw [parseArray, hstrip, raiseIf_bind_ok, not_not]
  refine ⟨hmatch, ?_⟩
  rw [hsplit, mapM_eq_ok, List.forall₂_map_left_iff, List.forall₂_same]
  intro value hvalue
  obtain ⟨hpos, hlt⟩ := hsnap.2 value hvalue
  have hint := int_str (T := T) hpos hlt (v := []) nofun
  rwa [List.append_nil] at hint

/-- What holds of digits, of space within a line and of the marks holds of a whole body. -/
theorem ArrayBody.forall (h : ArrayBody values body) {P : Char → Prop}
    (hdigit : ∀ x, x.isDigit = true → P x)
    (hspace : ∀ x, (asciiSpace x && !isNewline x) = true → P x)
    (hmark : ∀ x ∈ ['[', ',', ']'], P x) : ∀ x ∈ body, P x := by
  have hgap : ∀ w ∈ lineGap, ∀ x ∈ w, P x := fun w hw x hx => hspace x (mem_lineGap.mp hw x hx)
  obtain ⟨list, ⟨sep, hsep, hj⟩, hbody⟩ := h
  have hlist : ∀ x ∈ list, P x := by
    refine hj.forall (fun w hw x hx => ?_) fun s hs x hx => ?_
    · obtain ⟨value, -, rfl⟩ := List.mem_map.mp hw
      exact hdigit x ((str_digits _).2 x hx)
    · rcases List.mem_pair.mp hsep with rfl | rfl
      · obtain ⟨w, hw, _, h, rfl⟩ := Language.mem_mul.mp hs
        obtain ⟨_, rfl, w', hw', rfl⟩ := Language.mem_mul.mp h
        rcases List.mem_append.mp hx with hx | hx
        · exact hgap w hw x hx
        · rcases List.mem_cons.mp hx with rfl | hx
          · exact hmark ',' (by decide)
          · exact hgap w' hw' x hx
      · obtain ⟨-, hs⟩ := mem_letters_mul_kstar.mp hs
        exact hspace x (hs x hx)
  rcases hbody with rfl | ⟨g, hg, g', hg', rfl⟩
  · exact hlist
  · intro x hx
    have hcases : x = '[' ∨ x ∈ g ∨ x ∈ list ∨ x ∈ g' ∨ x = ']' := by simpa [or_assoc] using hx
    rcases hcases with rfl | hx | hx | hx | rfl
    · exact hmark '[' (by decide)
    · exact hgap g hg x hx
    · exact hlist x hx
    · exact hgap g' hg' x hx
    · exact hmark ']' (by decide)

theorem not_newline_of_isDigit {x : Char} (h : x.isDigit = true) : isNewline x = false := by
  by_contra hn
  obtain rfl : x = '\n' := of_decide_eq_true (Bool.eq_true_of_not_eq_false hn)
  exact absurd h (by decide)

theorem ArrayBody.line (h : ArrayBody values body) : ∀ x ∈ body, isNewline x = false := by
  refine h.forall (fun x => not_newline_of_isDigit) (fun x hx => ?_) (forall_mem_of_all (by decide))
  simpa using ((Bool.and_eq_true _ _).mp hx).2

end Values

end P4Cases.FlowCounter
