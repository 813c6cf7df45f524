import P4Cases.FlowCounter.Rendered

/-! A dump is read completely or not at all. What is left to show is that no dump that is
printed can be taken for the report of an error. -/
namespace P4Cases.FlowCounter
open Text Text.Regex Computability
variable {T : Tables}

/-! All the words of an error but one have a letter that no dump has, and that one doubles
a letter that no dump doubles. -/

def isR (c : Char) : Bool := c.toLower = 'r'

def calmChar (c : Char) : Bool := isAscii c && c.toLower ∉ ['v', 'k', 'b', 'x']

/-- Text that ends in no `r`, so that more such text can follow. -/
structure Calm (w : List Char) : Prop where
  chars : ∀ x ∈ w, calmChar x = true
  single : w.IsChain fun x y => ¬ (isR x = true ∧ isR y = true)
  last : ∀ x ∈ w.getLast?, isR x = false

theorem calm_nil : Calm [] := ⟨nofun, .nil, nofun⟩

theorem Calm.append {u v : List Char} (hu : Calm u) (hv : Calm v) : Calm (u ++ v) := by
  refine ⟨fun x hx => (List.mem_append.mp hx).elim (hu.chars x) (hv.chars x), ?_, ?_⟩
  · refine List.isChain_append.mpr ⟨hu.single, hv.single, fun x hx y _ h => ?_⟩
    exact Bool.false_ne_true ((hu.last x hx).symm.trans h.1)
  · rw [List.getLast?_append]
    rcases hl : v.getLast? with _ | x
    · exact hu.last
    · exact fun y hy => hv.last y (hl ▸ hy)

/-- Text with no `r` at all. -/
theorem calm_of_chars {w : List Char} (h : ∀ x ∈ w, calmChar x = true ∧ isR x = false) :
    Calm w := by
  refine ⟨fun x hx => (h x hx).1, ?_, fun x hx => (h x (List.mem_of_getLast? hx)).2⟩
  induction w with
  | nil => exact .nil
  | cons x w ih =>
    obtain ⟨hx, hw⟩ := List.forall_mem_cons.mp h
    refine List.IsChain.cons (ih hw) fun y _ hr => ?_
    exact Bool.false_ne_true (hx.2.symm.trans hr.1)

/-- No word of an error stands in calm text. -/
theorem Calm.quiet {text : List Char} (h : Calm text) :
    ((errorReply T).search text).isSome = false := by
  rw [Bool.eq_false_iff]
  intro hs
  obtain ⟨pre, rest, htext, hm⟩ := search_isSome.mp hs
  obtain ⟨d, hd⟩ := Option.ne_none_iff_exists'.mp hm
  obtain ⟨s, hs, w, hw, hr⟩ := mem_run_errorReply (mem_of_first (matchAt_eq_some.mp hd).1)
  have hrest : rest = w ++ d.rest := hr
  have hsub : w <:+: text := ⟨pre, d.rest, by rw [htext, hrest, List.append_assoc]⟩
  have hchars : ∀ x ∈ w, calmChar x = true := fun x hx => h.chars x (hsub.subset hx)
  have hlower : w.map Char.toLower = s.toList := by
    have hback : List.Forall₂ (fun y x => T.like x y = true) w s.toList := List.Forall₂.flip hw
    have heq : List.Forall₂ (fun y x => y.toLower = x) w s.toList := by
      refine ((List.forall₂_and_left w _).mpr ⟨hchars, hback⟩).imp fun y x hy => ?_
      have hl := hy.2
      rw [Tables.like, if_pos ((Bool.and_eq_true _ _).mp hy.1).1] at hl
      exact of_decide_eq_true hl
    rwa [← List.forall₂_eq_eq_eq, List.forall₂_map_left_iff]
  have hwords : ∀ s ∈ errorWords,
      s = "error" ∨ s.toList.any (fun x => x ∈ ['v', 'k', 'b', 'x']) = true := by
    decide
  rcases (hwords s hs).imp_right List.any_eq_true.mp with rfl | ⟨x, hx, hbad⟩
  · -- the one word without such a letter doubles one
    have hsingle := h.single.infix hsub
    rcases w with _ | ⟨e, _ | ⟨r, _ | ⟨r', w⟩⟩⟩
    · exact absurd hlower (by decide)
    · exact absurd (congrArg List.length hlower) (by simp)
    · exact absurd (congrArg List.length hlower) (by simp)
    · have hr : r.toLower = 'r' := congrArg (fun l => l.getD 1 'e') hlower
      have hr' : r'.toLower = 'r' := congrArg (fun l => l.getD 2 'e') hlower
      have hpair := (List.isChain_cons_cons.mp (List.isChain_cons_cons.mp hsingle).2).1
      exact hpair ⟨decide_eq_true hr, decide_eq_true hr'⟩
  · rw [← hlower] at hx
    obtain ⟨y, hy, rfl⟩ := List.mem_map.mp hx
    have hcalm := ((Bool.and_eq_true _ _).mp (hchars y hy)).2
    exact absurd (of_decide_eq_true hbad) (of_decide_eq_true hcalm)

/-! The parts of a dump are calm. -/

def CalmLanguage (l : Language Char) : Prop := ∀ w ∈ l, Calm w

section CalmLanguage
variable {l m : Language Char}

theorem CalmLanguage.mul (hl : CalmLanguage l) (hm : CalmLanguage m) : CalmLanguage (l * m) := by
  intro w hw
  obtain ⟨u, hu, v, hv, rfl⟩ := Language.mem_mul.mp hw
  exact (hl u hu).append (hm v hv)

theorem CalmLanguage.add (hl : CalmLanguage l) (hm : CalmLanguage m) : CalmLanguage (l + m) :=
  fun w hw => hw.elim (hl w) (hm w)

theorem calm_one : CalmLanguage 1 := by
  rintro w rfl
  exact calm_nil

theorem calm_word {w : List Char} (h : Calm w) : CalmLanguage {w} := by
  rintro v rfl
  exact h

theorem CalmLanguage.kstar (hl : CalmLanguage l) : CalmLanguage l∗ := by
  intro w hw
  obtain ⟨parts, rfl, hparts⟩ := Language.mem_kstar.mp hw
  induction parts with
  | nil => exact calm_nil
  | cons part parts ih =>
    obtain ⟨hpart, hmore⟩ := List.forall_mem_cons.mp hparts
    exact (hl part hpart).append (ih hmore (Language.mem_kstar.mpr ⟨parts, rfl, hmore⟩))

end CalmLanguage

theorem calm_of_space {x : Char} (h : asciiSpace x = true) :
    calmChar x = true ∧ isR x = false := by
  have hall : ∀ n < 128, ((9 ≤ n ∧ n ≤ 13) ∨ (28 ≤ n ∧ n ≤ 32)) →
      (Char.ofNat n).toLower ∉ ['v', 'k', 'b', 'x'] ∧ (Char.ofNat n).toLower ≠ 'r' := by decide
  obtain ⟨ha, hs⟩ := (Bool.and_eq_true _ _).mp h
  have hx := hall x.toNat (of_decide_eq_true ha) (of_decide_eq_true hs)
  rw [Char.ofNat_toNat] at hx
  exact ⟨(Bool.and_eq_true _ _).mpr ⟨ha, decide_eq_true hx.1⟩, decide_eq_false hx.2⟩

theorem calm_of_digit {x : Char} (h : x.isDigit = true) :
    calmChar x = true ∧ isR x = false := by
  have hall : ∀ n < 128, (Char.ofNat n).isDigit = true →
      (Char.ofNat n).toLower ∉ ['v', 'k', 'b', 'x'] ∧ (Char.ofNat n).toLower ≠ 'r' := by decide
  have ha := ascii_of_isDigit h
  have hx := hall x.toNat (of_decide_eq_true ha)
  rw [Char.ofNat_toNat] at hx
  exact ⟨(Bool.and_eq_true _ _).mpr ⟨ha, decide_eq_true (hx h).1⟩, decide_eq_false (hx h).2⟩

theorem calm_gap : CalmLanguage gap :=
  fun _ hw => calm_of_chars fun x hx => calm_of_space (mem_gap.mp hw x hx)

theorem calm_lineGap : CalmLanguage lineGap := fun w hw => calm_gap w (gap_of_lineGap hw)

theorem calm_promptText : CalmLanguage promptText := by
  have hcalm : Calm "RuntimeCmd:".toList :=
    ⟨forall_mem_of_all (by decide), by decide, by rintro x ⟨⟩; rfl⟩
  exact ((calm_word hcalm).mul calm_gap).kstar

theorem calm_trailer : CalmLanguage trailer := by
  have hcalm : Calm ['\n'] := calm_of_chars (forall_mem_of_all (by decide))
  exact calm_one.add ((calm_word hcalm).mul (calm_gap.mul calm_promptText))

/-- The name ends in an `r`; what follows it in a line does not begin with one. -/
theorem calm_name {u : List Char} (hne : u ≠ [])
    (hu : ∀ x ∈ u, calmChar x = true ∧ isR x = false) : Calm ("flow_counter".toList ++ u) := by
  have hcalm := calm_of_chars hu
  refine ⟨fun x hx => ?_, ?_, ?_⟩
  · rcases List.mem_append.mp hx with hx | hx
    · exact forall_mem_of_all (P := fun x => calmChar x = true) (by decide) x hx
    · exact hcalm.chars x hx
  · refine List.isChain_append.mpr ⟨by decide, hcalm.single, fun x _ y hy h => ?_⟩
    exact Bool.false_ne_true ((hu y (List.mem_of_head? hy)).2.symm.trans h.2)
  · rw [List.getLast?_append, List.getLast?_eq_some_getLast hne, Option.some_or]
    rintro x ⟨⟩
    exact (hu _ (List.getLast_mem hne)).2

theorem calm_sampleLine {idx : Option (List Char)} {body : List Char} {ending : Language Char}
    (hending : ∀ w ∈ ending, w ∈ lineGap) (hidx : ∀ ds ∈ idx, ∀ x ∈ ds, x.isDigit = true)
    (hbody : Calm body) : CalmLanguage (sampleLine idx body ending) := by
  intro line hline
  obtain ⟨_, hlead, _, hpost, rfl⟩ := Language.mem_mul.mp hline
  obtain ⟨p, hp, _, hname, rfl⟩ := Language.mem_mul.mp hlead
  obtain ⟨q, hq, _, rfl, rfl⟩ := Language.mem_mul.mp hname
  obtain ⟨_, rfl, _, h₁, rfl⟩ := Language.mem_mul.mp hpost
  obtain ⟨w₁, hw₁, _, h₂, rfl⟩ := Language.mem_mul.mp h₁
  obtain ⟨_, rfl, v, hv, rfl⟩ := Language.mem_mul.mp h₂
  have hq' : Calm q := by
    refine (CalmLanguage.add (calm_word ?_) calm_one) q hq
    exact ⟨forall_mem_of_all (by decide), by decide, by rintro x ⟨⟩; rfl⟩
  have hend : CalmLanguage ending := fun w hw => calm_lineGap w (hending w hw)
  have hv' : Calm v := (calm_gap.mul ((calm_word hbody).mul hend)) v hv
  have hnamed : Calm ("flow_counter".toList ++ (indexText idx ++ (w₁ ++ ['=']))) := by
    refine calm_name (by simp) fun x hx => ?_
    have hcases : x ∈ indexText idx ∨ x ∈ w₁ ∨ x = '=' := by simpa using hx
    rcases hcases with hx | hx | rfl
    · rcases idx with _ | ds
      · exact absurd hx List.not_mem_nil
      · have hcases : x = '[' ∨ x ∈ ds ∨ x = ']' := by simpa [indexText] using hx
        rcases hcases with rfl | hx | rfl
        · decide
        · exact calm_of_digit (hidx ds rfl x hx)
        · decide
    · exact calm_of_space (mem_gap.mp hw₁ x hx)
    · decide
  have happ := ((calm_promptText p hp).append (hq'.append hnamed)).append hv'
  simpa only [List.append_assoc] using happ

theorem Joined.calm {lines : List (List Char)} {text : List Char}
    (h : Text.Joined {['\n']} lines text) (hlines : ∀ line ∈ lines, Calm line) : Calm text := by
  induction h with
  | last line => exact hlines line List.mem_cons_self
  | cons line hs h ih =>
    obtain rfl := Set.mem_singleton_iff.mp hs
    obtain ⟨hline, hmore⟩ := List.forall_mem_cons.mp hlines
    exact hline.append ((calm_of_chars (forall_mem_of_all (by decide))).append
      (ih hmore))

/-! The two kinds of dump. -/

theorem trailer_head {t : List Char} (h : t ∈ trailer) :
    (∀ x ∈ t.head?, isNewline x = true) ∧ 'f' ∉ t := by
  rcases h with rfl | h
  · exact ⟨nofun, List.not_mem_nil⟩
  · obtain ⟨_, rfl, _, hrest, rfl⟩ := Language.mem_mul.mp h
    obtain ⟨g, hg, p, hp, rfl⟩ := Language.mem_mul.mp hrest
    refine ⟨?_, ?_⟩
    · rintro x ⟨⟩
      rfl
    · have hfp : 'f' ∉ p :=
        f_notMem_prompts (T := ⟨fun _ => false, fun _ => false, fun _ => none, fun _ _ => false⟩) p
          (prompts_of_promptText hp)
      have hfg : 'f' ∉ g := fun hf => absurd (mem_gap.mp hg 'f' hf) (by decide)
      simp [hfg, hfp]

variable {values : List ℤ}

theorem parse_arrayDump (hsnap : IsSnapshot values) {text : List Char}
    (h : text ∈ arrayDump values) : parseRegisterDump T text = .ok values := by
  obtain ⟨body, hb, htext⟩ := h
  obtain ⟨line, hline, t, ht, rfl⟩ := Language.mem_mul.mp htext
  obtain ⟨v, hv, hl⟩ := lineOf_sampleLine (T := T) (fun _ => id) (by simp) hb.ends.1 hb.line hline
  obtain ⟨hhead, hf⟩ := trailer_head ht
  have hlines : List.Forall₂ (fun spec line => LineOf T spec.1 spec.2 line)
      [((none : Option (List Char)), body ++ v)] [line] := .cons hl .nil
  obtain ⟨hsamples, hcount⟩ := finds_dump hlines (.last line) hhead hf
    (c := .start (line ++ t)) rfl nofun rfl
  obtain ⟨m, ms, hgroups, hnil, hms⟩ := List.forall₂_cons_left_iff.mp hsamples
  obtain rfl := List.forall₂_nil_left_iff.mp hnil
  have hm : (sample T).finditer (line ++ t) = [m] := hms
  have hcalm : Calm (line ++ t) := by
    refine Calm.append (calm_sampleLine (fun _ => id) (by simp) (calm_of_chars ?_) line hline)
      (calm_trailer t ht)
    refine hb.forall (fun x => calm_of_digit) (fun x hx => ?_) (forall_mem_of_all (by decide))
    exact calm_of_space ((Bool.and_eq_true _ _).mp hx).1
  refine parseRegisterDump_ok.mpr ⟨hcalm.quiet, hcount, ?_, hsnap⟩
  rw [hm, parseSamples, if_pos (group_one hgroups), group_two hgroups]
  exact parseArray_body hsnap hb hv

/-- What the line of a slot is read as. -/
def SlotSpec (values : List ℤ) (slot : ℕ) (spec : Option (List Char) × List Char) : Prop :=
  slot < registerSize ∧ spec.1 = some (str slot) ∧
    ∃ v ∈ numberGap, spec.2 = str (values.getD slot 0) ++ v

theorem exists_slotSpec {slot : ℕ} (hslot : slot < registerSize) {line : List Char}
    (h : line ∈ sampleLine (some (str slot)) (str (values.getD slot 0)) numberGap) :
    ∃ spec, SlotSpec values slot spec ∧ LineOf T spec.1 spec.2 line := by
  have hd := str_digits (values.getD slot 0)
  obtain ⟨x, u, hx⟩ := List.exists_cons_of_ne_nil hd.1
  have hxd : x.isDigit = true := hd.2 x (hx ▸ List.mem_cons_self)
  have hidx : ∀ ds ∈ some (str (slot : ℤ)), ds ≠ [] ∧ ∀ x ∈ ds, T.isDigit x = true := by
    rintro _ ⟨⟩
    exact mem_digitWord.mp (str_digitWord _)
  obtain ⟨v, hv, hl⟩ := lineOf_sampleLine (T := T) (fun _ => lineGap_of_numberGap) hidx
    ⟨x, u, hx, Or.inl (isDigit_of_isDigit hxd), not_space_of_isDigit hxd⟩
    (fun y hy => not_newline_of_isDigit (hd.2 y hy)) h
  exact ⟨(some (str slot), str (values.getD slot 0) ++ v), ⟨hslot, rfl, v, hv, rfl⟩, hl⟩

theorem SlotSpec.entry (hsnap : IsSnapshot values) {slot : ℕ}
    {spec : Option (List Char) × List Char} (h : SlotSpec values slot spec) {m : Match Char}
    (hm : m.stop.groups = sampleGroups spec.1 spec.2) :
    Entry T m ((slot : ℤ), values.getD slot 0) := by
  obtain ⟨hslot, hidx, v, hv, hbody⟩ := h
  rw [hidx, hbody] at hm
  obtain ⟨hpos, hlt⟩ := hsnap.getD hslot
  have hblank := isIntSpace_of_numberGap (T := T) hv
  have hsmall : (slot : ℤ) < counterModulus := by
    unfold registerSize at hslot
    unfold counterModulus
    omega
  have hint := int_str (T := T) (by omega) hsmall (v := []) nofun
  rw [List.append_nil] at hint
  refine ⟨⟨_, group_one hm, hint⟩, ⟨_, rfl, ?_, ?_⟩, by omega, Int.ofNat_lt.mpr hslot⟩
  · rw [group_two hm, Option.getD_some, Tables.strip, strip_digits (fun _ => id)
      (str_digits _).2 fun x hx => Tables.isSpace_of_isIntSpace (hblank x hx)]
    exact str_digitWord _
  · rw [group_two hm, Option.getD_some]
    exact int_str hpos hlt hblank

theorem parseSamples_indexed {samples : List (Match Char)}
    (h : ∀ m ∈ samples, m.stop.group 1 ≠ none) :
    parseSamples T samples = parseIndexed T samples := by
  unfold parseSamples
  split
  · rw [if_neg (h _ List.mem_cons_self)]
  · rfl

theorem parse_slotDump (hsnap : IsSnapshot values) {text : List Char}
    (h : text ∈ slotDump values) : parseRegisterDump T text = .ok values := by
  obtain ⟨order, hperm, lines, hlines, dump, hj, t, ht, rfl⟩ := h
  obtain ⟨hhead, hf⟩ := trailer_head ht
  have horder : ∀ slot ∈ order, slot < registerSize := fun slot hs =>
    List.mem_range.mp (hperm.mem_iff.mp hs)
  have hspecs : List.Forall₂ (fun slot line => ∃ spec, SlotSpec values slot spec ∧
      LineOf T spec.1 spec.2 line) order lines :=
    ((List.forall₂_and_left order lines).mpr ⟨horder, hlines⟩).imp
      fun slot line hl => exists_slotSpec hl.1 hl.2
  obtain ⟨specs, hslots, hread⟩ := exists_forall₂ hspecs
  obtain ⟨hsamples, hcount⟩ := finds_dump hread hj hhead hf (c := .start (dump ++ t)) rfl nofun rfl
  let entries : Slots := order.map fun (slot : ℕ) => ((slot : ℤ), values.getD slot 0)
  have hentries : List.Forall₂ (Entry T) ((sample T).finditer (dump ++ t)) entries :=
    List.forall₂_map_right_iff.mpr
      (forall₂_comp (fun slot spec m hs hm => hs.entry hsnap hm) hslots hsamples).flip
  have hindexed : ∀ m ∈ (sample T).finditer (dump ++ t), m.stop.group 1 ≠ none := by
    intro m hm hnone
    obtain ⟨entry, -, he⟩ := exists_of_mem_left hentries hm
    obtain ⟨idx, hidx, -⟩ := he.index
    exact absurd (hnone.symm.trans hidx) (by simp)
  have hcalm : Calm (dump ++ t) := by
    refine Calm.append (Joined.calm hj fun line hline => ?_) (calm_trailer t ht)
    obtain ⟨slot, -, hl⟩ := exists_of_mem_right hlines hline
    refine calm_sampleLine (fun _ => lineGap_of_numberGap) ?_
      (calm_of_chars fun x hx => calm_of_digit ((str_digits _).2 x hx)) line hl
    rintro _ ⟨⟩
    exact (str_digits _).2
  refine parseRegisterDump_ok.mpr ⟨hcalm.quiet, hcount, ?_, hsnap⟩
  rw [parseSamples_indexed hindexed, parseIndexed_ok]
  refine ⟨entries, hentries, ?_, hsnap.1, fun slot hslot => ⟨values.getD slot 0, ?_, ?_⟩⟩
  · have hkeys : entries.map Prod.fst = order.map (Nat.cast : ℕ → ℤ) := by
      rw [List.map_map]
      rfl
    rw [hkeys]
    exact (hperm.nodup_iff.mpr List.nodup_range).map Nat.cast_injective
  · exact List.mem_map.mpr ⟨slot, hperm.mem_iff.mpr (List.mem_range.mpr hslot), rfl⟩
  · have hlt : slot < values.length := hsnap.1 ▸ hslot
    rw [List.getD_eq_getElem?_getD, List.getElem?_eq_getElem hlt, Option.getD_some]

/-- Every dump of an array is read back; and whatever is read is an array that every sample
of the text says, in a text that reports no error. -/
theorem parseRegisterDump_exact (T : Tables) :
    (∀ values, IsSnapshot values → ∀ text, text ∈ arrayDump values ∨ text ∈ slotDump values →
      parseRegisterDump T text = .ok values) ∧
    ∀ output values, (∀ x ∈ output, isAscii x = true) →
      parseRegisterDump T output = .ok values →
      IsSnapshot values ∧ ¬ ReportsError T output ∧ Content T output values :=
  ⟨fun _ hsnap _ htext => htext.elim (parse_arrayDump hsnap) (parse_slotDump hsnap),
    fun _ _ hascii h => accepted_says hascii h⟩

end P4Cases.FlowCounter
