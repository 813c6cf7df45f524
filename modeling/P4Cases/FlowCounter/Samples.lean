import P4Cases.FlowCounter.Named

/-! What follows the name in a sample, and what the pattern for samples makes of it. -/
namespace P4Cases.FlowCounter
open Text Text.Regex Computability
variable (T : Tables)

def indexText : Option (List Char) → List Char
  | none => []
  | some ds => '[' :: (ds ++ [']'])

/-- `post` gives the array, or one slot of it, the value whose text reaches to the end of
its line. -/
structure Assigns (post : List Char) (idx : Option (List Char)) (value tail : List Char) :
    Prop where
  digits : ∀ ds ∈ idx, ds ≠ [] ∧ ∀ x ∈ ds, T.isDigit x = true
  shown : ∃ w₁ ∈ blank T, ∃ w₂ ∈ blank T,
    post = indexText idx ++ (w₁ ++ '=' :: (w₂ ++ (value ++ tail)))
  head : ∃ x v, value = x :: v ∧ T.isSpace x = false
  line : ∀ x ∈ value, isNewline x = false
  behind : ∀ x ∈ tail.head?, isNewline x = true

variable {T} {c d e : Cursor Char} {post value tail : List Char} {idx : Option (List Char)}

theorem isSpace_newline {x : Char} (h : isNewline x = true) : T.isSpace x = true := by
  obtain rfl : x = '\n' := of_decide_eq_true h
  rfl

/-- The groups that a sample sets. -/
def sampleGroups (idx : Option (List Char)) (value : List Char) : List (ℕ × List Char) :=
  (idx.map fun ds => (1, ds)).toList ++ [(2, value)]

theorem group_one (h : d.groups = sampleGroups idx value) : d.group 1 = idx := by
  rw [Cursor.group, h]
  cases idx <;> rfl

theorem group_two (h : d.groups = sampleGroups idx value) : d.group 2 = some value := by
  rw [Cursor.group, h]
  cases idx <;> rfl

/-- The index is read where there is one. -/
theorem first_index {rest : List Char} (hidx : ∀ ds ∈ idx, ds ≠ [] ∧ ∀ x ∈ ds, T.isDigit x = true)
    (hc : c.rest = indexText idx ++ rest) (hrest : ∀ x ∈ rest.head?, x ≠ '[') :
    ∃ e, (index T).first c = some e ∧ e.rest = rest ∧
      e.groups = c.groups ++ (idx.map fun ds => (1, ds)).toList := by
  rcases idx with _ | ds
  · refine ⟨c, ?_, hc, (List.append_nil _).symm⟩
    rw [index, opt, first_alt_right]
    · rfl
    · refine List.eq_nil_iff_forall_not_mem.mpr fun d hd => ?_
      obtain ⟨e, he, -⟩ := mem_run_seq.mp hd
      obtain ⟨w, rfl, hr, -⟩ := (reads_literal _ _ _).mp he
      rw [show c.rest = rest from hc] at hr
      exact hrest '[' (by rw [hr]; rfl) rfl
  · obtain ⟨hne, hds⟩ := hidx ds rfl
    have hopen : (literal ['[']).first c = some (c.past ['['] (ds ++ (']' :: rest))) :=
      first_literal (by rw [hc]; simp [indexText])
    have hdigits : (group 1 (digits T)).first (c.past ['['] (ds ++ (']' :: rest))) =
        some (((c.past ['['] (ds ++ (']' :: rest))).past ds (']' :: rest)).capture 1 ds) := by
      refine first_group (first_plus_append rfl hne hds ?_) rfl
      rintro x ⟨⟩
      rfl
    have hclose := @first_literal _
      (((c.past ['['] (ds ++ (']' :: rest))).past ds (']' :: rest)).capture 1 ds) _ [']'] rest rfl
    exact ⟨_, first_alt_left (first_seq hopen (first_seq hdigits hclose)), rfl, rfl⟩

theorem Assigns.first (h : Assigns T post idx value tail) (hc : c.rest = post)
    (hg : c.groups = []) : ∃ d, (seq (index T) (assigned T)).first c = some d ∧
      d.rest = tail ∧ d.groups = sampleGroups idx value := by
  obtain ⟨w₁, hw₁, w₂, hw₂, hpost⟩ := h.shown
  obtain ⟨x, v, hv, hx⟩ := h.head
  have hw₁' := mem_blank.mp hw₁
  obtain ⟨e, he, hrest, hgroups⟩ := first_index h.digits (hc.trans hpost) (by
    rintro y hy rfl
    rcases w₁ with _ | ⟨z, w₁⟩
    · exact absurd (Option.some.inj hy) (by decide)
    · obtain rfl : z = '[' := Option.some.inj hy
      exact Bool.false_ne_true (hw₁' _ List.mem_cons_self))
  have hlead : (spaces T).first e = some (e.past w₁ ('=' :: (w₂ ++ (value ++ tail)))) := by
    refine first_star_append hrest hw₁' ?_
    rintro y ⟨⟩
    rfl
  let e₁ := e.past w₁ ('=' :: (w₂ ++ (value ++ tail)))
  have hequals : (literal ['=']).first e₁ = some (e₁.past ['='] (w₂ ++ (value ++ tail))) :=
    first_literal rfl
  let e₂ := e₁.past ['='] (w₂ ++ (value ++ tail))
  have hspace : (spaces T).first e₂ = some (e₂.past w₂ (value ++ tail)) := by
    refine first_star_append rfl (mem_blank.mp hw₂) ?_
    rw [hv]
    rintro y ⟨⟩
    exact hx
  let e₃ := e₂.past w₂ (value ++ tail)
  have hvalue : (group 2 (plus (one fun x => !isNewline x))).first e₃ =
      some ((e₃.past value tail).capture 2 value) := by
    refine first_group (first_plus_append rfl (by simp [hv]) ?_ ?_) rfl
    · exact fun y hy => by simp [h.line y hy]
    · exact fun y hy => by simp [h.behind y hy]
  refine ⟨_, first_seq he (first_seq hlead (first_seq hequals (first_seq hspace hvalue))), rfl, ?_⟩
  show e.groups ++ [(2, value)] = _
  rw [hgroups, hg]
  rfl

theorem Assigns.unique {idx' : Option (List Char)} {value' tail' : List Char}
    (h : Assigns T post idx value tail) (h' : Assigns T post idx' value' tail') :
    idx = idx' ∧ value = value' := by
  obtain ⟨d, hd, -, hg⟩ := h.first (c := .start post) rfl rfl
  obtain ⟨d', hd', -, hg'⟩ := h'.first (c := .start post) rfl rfl
  obtain rfl := Option.some.inj (hd.symm.trans hd')
  exact ⟨(group_one hg).symm.trans (group_one hg'),
    Option.some.inj ((group_two hg).symm.trans (group_two hg'))⟩

theorem mem_run_index (he : e ∈ (index T).run c) :
    ∃ idx, (∀ ds ∈ idx, ds ≠ [] ∧ ∀ x ∈ ds, T.isDigit x = true) ∧
      c.rest = indexText idx ++ e.rest ∧
      e.groups = c.groups ++ (idx.map fun ds => (1, ds)).toList := by
  rcases mem_run_alt.mp he with he | he
  · obtain ⟨e₁, he₁, h⟩ := mem_run_seq.mp he
    obtain ⟨e₂, he₂, h⟩ := mem_run_seq.mp h
    obtain ⟨_, rfl, hr₁, hp₁⟩ := (reads_literal _ _ _).mp he₁
    obtain ⟨ds, hds, hr₂, hp₂⟩ := (reads_one _).plus.mem_run_group.mp he₂
    obtain ⟨_, rfl, hr₃, hp₃⟩ := (reads_literal _ _ _).mp h
    refine ⟨some ds, ?_, ?_, by rw [hp₃, hp₂, hp₁]; rfl⟩
    · rintro _ ⟨⟩
      exact mem_letters_mul_kstar.mp hds
    · rw [hr₁, hr₂, hr₃]
      simp [indexText]
  · obtain rfl := mem_run_empty.mp he
    exact ⟨none, nofun, rfl, (List.append_nil _).symm⟩

theorem exists_parts (hd : d ∈ (seq (index T) (assigned T)).run c) (hg : c.groups = []) :
    ∃ idx, ∃ w₁ ∈ blank T, ∃ w₂ ∈ blank T, ∃ value,
      (∀ ds ∈ idx, ds ≠ [] ∧ ∀ x ∈ ds, T.isDigit x = true) ∧
      c.rest = indexText idx ++ (w₁ ++ '=' :: (w₂ ++ (value ++ d.rest))) ∧
      d.groups = sampleGroups idx value := by
  obtain ⟨e, he, h⟩ := mem_run_seq.mp hd
  obtain ⟨e₁, he₁, h⟩ := mem_run_seq.mp h
  obtain ⟨e₂, he₂, h⟩ := mem_run_seq.mp h
  obtain ⟨e₃, he₃, h⟩ := mem_run_seq.mp h
  obtain ⟨w₁, hw₁, hr₁, hp₁⟩ := (reads_spaces T _ _).mp he₁
  obtain ⟨_, rfl, hr₂, hp₂⟩ := (reads_literal _ _ _).mp he₂
  obtain ⟨w₂, hw₂, hr₃, hp₃⟩ := (reads_spaces T _ _).mp he₃
  obtain ⟨value, hvalue, hr, hp⟩ := (reads_one _).plus.mem_run_group.mp h
  obtain ⟨idx, hdigits, hc, hgroups⟩ := mem_run_index he
  refine ⟨idx, w₁, hw₁, w₂, hw₂, value, hdigits, ?_, ?_⟩
  · rw [hc, hr₁, hr₂, hr₃, hr]
    rfl
  · rw [hp, hp₃, hp₂, hp₁]
    show e.groups ++ [(2, value)] = _
    rw [hgroups, hg]
    rfl

/-- A match either gives a value, or there is only space behind the equals sign. -/
theorem exists_assigns (hd : (seq (index T) (assigned T)).first c = some d)
    (hg : c.groups = []) :
    (∃ idx value tail, Assigns T c.rest idx value tail ∧ d.rest = tail ∧
      d.groups = sampleGroups idx value) ∨
    ∃ idx value, d.groups = sampleGroups idx value ∧ ∀ x ∈ value, T.isSpace x = true := by
  obtain ⟨idx, w₁, hw₁, w₂, hw₂, value, hdigits, hc, hgd⟩ := exists_parts (mem_of_first hd) hg
  obtain ⟨behind, hbehind⟩ : ∃ behind, behind = w₂ ++ (value ++ d.rest) := ⟨_, rfl⟩
  rw [← hbehind] at hc
  have hsplit : behind = behind.takeWhile T.isSpace ++ behind.dropWhile T.isSpace :=
    List.takeWhile_append_dropWhile.symm
  rcases hdrop : behind.dropWhile T.isSpace with _ | ⟨x, v⟩
  · -- nothing but space is left, and the value is a part of it
    refine Or.inr ⟨idx, value, hgd, fun x hx => ?_⟩
    have hmem : x ∈ behind := by
      rw [hbehind]
      exact List.mem_append_right _ (List.mem_append_left _ hx)
    rw [hsplit, hdrop, List.append_nil] at hmem
    exact List.mem_takeWhile_imp hmem
  · have hx : T.isSpace x = false := by
      have hhead := List.head?_dropWhile_not T.isSpace behind
      rw [hdrop] at hhead
      simpa using hhead
    have hxn : isNewline x = false := by
      by_contra hn
      rw [isSpace_newline (Bool.eq_true_of_not_eq_false hn)] at hx
      exact absurd hx (by decide)
    have ha : Assigns T c.rest idx ((x :: v).takeWhile (!isNewline ·))
        ((x :: v).dropWhile (!isNewline ·)) := by
      refine ⟨hdigits, ⟨w₁, hw₁, behind.takeWhile T.isSpace,
        mem_blank.mpr fun y => List.mem_takeWhile_imp, ?_⟩, ?_, ?_, ?_⟩
      · rw [List.takeWhile_append_dropWhile, ← hdrop, ← hsplit, hc]
      · exact ⟨x, v.takeWhile (!isNewline ·), List.takeWhile_cons_of_pos (by simp [hxn]), hx⟩
      · exact fun y hy => by simpa using List.mem_takeWhile_imp hy
      · intro y hy
        have hhead := List.head?_dropWhile_not (!isNewline ·) (x :: v)
        rw [Option.mem_def.mp hy] at hhead
        simpa using hhead
    obtain ⟨d', hd', hrest, hgroups'⟩ := ha.first rfl hg
    obtain rfl := Option.some.inj (hd.symm.trans hd')
    exact Or.inl ⟨_, _, _, ha, hrest, hgroups'⟩

end P4Cases.FlowCounter
