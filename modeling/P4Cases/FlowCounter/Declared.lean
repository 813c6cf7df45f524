import P4Cases.FlowCounter.Samples

/-! Why the matches are counted: where the values are well formed and both patterns are found
equally often, every line that names the array is a sample that was read. -/
namespace P4Cases.FlowCounter
open Text Text.Regex Computability
variable {T : Tables} {c d : Cursor Char} {w post : List Char}

theorem not_word_of_space {x : Char} (ha : isAscii x = true) (h : T.isSpace x = true) :
    T.isWord x = false := by
  have hall : ∀ n < 128, ((9 ≤ n ∧ n ≤ 13) ∨ (28 ≤ n ∧ n ≤ 32)) →
      ((Char.ofNat n).isAlphanum || Char.ofNat n = '_') = false := by decide
  rw [Tables.isSpace, if_pos ha] at h
  rw [Tables.isWord, if_pos ha]
  have hx := hall x.toNat (of_decide_eq_true ha) (of_decide_eq_true h)
  rwa [Char.ofNat_toNat] at hx

/-- A place from which the name of the array is read as a whole word. -/
structure DeclaredAt (T : Tables) (c : Cursor Char) (w post : List Char) : Prop
    extends NamedAt T c w post where
  word : ∀ x ∈ post.head?, T.isWord x = false

/-- Where the line with the name ends. -/
def lineEnd (c : Cursor Char) (w post : List Char) : Cursor Char :=
  c.past (w ++ post.takeWhile (!isNewline ·)) (post.dropWhile (!isNewline ·))

theorem NamedAt.ne_nil (h : NamedAt T c w post) : w ≠ [] := by
  obtain ⟨x, -, v, rfl⟩ := nameLine_head h.line
  exact List.cons_ne_nil x v

theorem NamedAt.length_lt (h : NamedAt T c w post) : post.length < c.rest.length := by
  have hpos := List.length_pos_of_ne_nil h.ne_nil
  rw [h.rest, List.length_append]
  omega

theorem DeclaredAt.matchAt (h : DeclaredAt T c w post) :
    (declaration T).matchAt c = some (lineEnd c w post) := by
  have hb : AtBoundary T.isWord (c.past w post) := by
    have hpost : post.head?.any T.isWord = false := by
      rcases post with _ | ⟨x, post⟩
      · rfl
      · exact h.word x rfl
    show (c.past w post).prev.any _ ≠ post.head?.any _
    rw [h.prev, hpost, Option.any_some, show T.isWord 'r' = true from rfl]
    decide
  refine matchAt_eq_some.mpr ⟨?_, ?_⟩
  · rw [declaration, h.toNamedAt.first, first_seq_of_unique (mem_run_boundary.mpr ⟨hb, rfl⟩)
      fun e he => (mem_run_boundary.mp he).2, first_star_one, Cursor.past_past]
    rfl
  · exact (List.length_dropWhile_le _ _).trans_lt h.length_lt

theorem exists_declaredAt (h : (declaration T).matchAt c = some d) :
    ∃ w post, DeclaredAt T c w post ∧ d = lineEnd c w post := by
  obtain ⟨w, post, hn, hk⟩ := exists_namedAt (matchAt_eq_some.mp h).1
  obtain ⟨e, he, -⟩ := mem_run_seq.mp (mem_of_first hk)
  obtain ⟨hb, -⟩ := mem_run_boundary.mp he
  have hd : DeclaredAt T c w post := by
    refine ⟨hn, fun x hx => ?_⟩
    have hx' : (c.past w post).rest.head? = some x := hx
    rw [AtBoundary, hn.prev, hx'] at hb
    by_contra hw
    rw [Bool.not_eq_false] at hw
    exact hb (by rw [Option.any_some, Option.any_some, hw]; rfl)
  exact ⟨w, post, hd, Option.some.inj (h.symm.trans hd.matchAt)⟩

/-- Behind the name of a sample stands no word. -/
theorem head_of_sample (hd : d ∈ (seq (index T) (assigned T)).run c) (hg : c.groups = []) :
    ∀ x ∈ c.rest.head?, x = '[' ∨ x = '=' ∨ T.isSpace x = true := by
  obtain ⟨idx, w₁, hw₁, w₂, -, value, -, hc, -⟩ := exists_parts hd hg
  intro x hx
  rw [hc] at hx
  rcases idx with _ | ds
  · rcases w₁ with _ | ⟨y, w₁⟩
    · exact Or.inr (Or.inl (Option.some.inj hx).symm)
    · obtain rfl : y = x := Option.some.inj hx
      exact Or.inr (Or.inr (mem_blank.mp hw₁ y List.mem_cons_self))
  · exact Or.inl (Option.some.inj hx).symm

theorem NamedAt.declaredAt (h : NamedAt T c w post) (hg : c.groups = [])
    (hascii : ∀ x ∈ c.rest, isAscii x = true)
    (hd : d ∈ (seq (index T) (assigned T)).run (c.past w post)) : DeclaredAt T c w post := by
  refine ⟨h, fun x hx => ?_⟩
  have hmem : x ∈ c.rest := by
    rw [h.rest]
    exact List.mem_append_right w (List.mem_of_head? hx)
  rcases head_of_sample hd hg x hx with rfl | rfl | hs
  · rfl
  · rfl
  · exact not_word_of_space (hascii x hmem) hs

theorem exists_sampleAt (hg : c.groups = []) (hascii : ∀ x ∈ c.rest, isAscii x = true)
    (h : (sample T).matchAt c = some d) : ∃ w post, DeclaredAt T c w post ∧
      (seq (index T) (assigned T)).first (c.past w post) = some d := by
  obtain ⟨w, post, hn, hk⟩ := exists_namedAt (matchAt_eq_some.mp h).1
  exact ⟨w, post, hn.declaredAt hg hascii (mem_of_first hk), hk⟩

theorem DeclaredAt.sample (h : DeclaredAt T c w post)
    (hk : (seq (index T) (assigned T)).first (c.past w post) = some d) :
    (sample T).matchAt c = some d := by
  refine matchAt_eq_some.mpr ⟨h.toNamedAt.first.trans hk, ?_⟩
  exact (before_of_mem_run (mem_of_first hk)).length_le.trans_lt h.length_lt

/-! Between the name and the end of the value no name is found. -/

/-- The value of a match begins like a number or an array. -/
def Filled (T : Tables) (value : List Char) : Prop :=
  ∃ x v, T.strip value = x :: v ∧ (T.isDigit x = true ∨ x = '[')

theorem strip_cons {x : Char} (hx : T.isSpace x = false) (v : List Char) :
    ∃ v', T.strip (x :: v) = x :: v' := by
  have hdrop : (x :: v).dropWhile T.isSpace = x :: v :=
    List.dropWhile_cons_of_neg (by simp [hx])
  rw [Tables.strip, stripOf, hdrop]
  rcases hr : (x :: v).rdropWhile T.isSpace with _ | ⟨y, v'⟩
  · have hall := List.rdropWhile_eq_nil_iff.mp hr x List.mem_cons_self
    rw [hx] at hall
    exact absurd hall Bool.false_ne_true
  · have hpre := List.rdropWhile_prefix T.isSpace (l := x :: v)
    rw [hr] at hpre
    obtain ⟨rfl, -⟩ := List.cons_prefix_cons.mp hpre
    exact ⟨v', rfl⟩

section Between
variable {idx : Option (List Char)} {value tail : List Char} {c' : Cursor Char}

theorem Assigns.not_named (ha : Assigns T post idx value tail) (hf : Filled T value)
    (hb : (c.past w post).Before c') (hlen : tail.length < c'.rest.length) {w' post' : List Char} :
    ¬ NamedAt T c' w' post' := by
  intro hn
  obtain ⟨w₁, hw₁, w₂, hw₂, hpost⟩ := ha.shown
  obtain ⟨y, v, rfl, hy⟩ := ha.head
  obtain ⟨x, hx, v', rfl⟩ := nameLine_head hn.line
  have hx' : T.isDigit x = false ∧ T.isSpace x = false ∧ x ∉ ['[', ']', '='] := by
    fin_cases hx <;> exact ⟨rfl, rfl, by decide⟩
  obtain ⟨u, hr, hp⟩ := hb
  let lead := indexText idx ++ (w₁ ++ '=' :: w₂)
  have hlead : ∀ z ∈ lead, z ≠ x := by
    rintro z hz rfl
    rcases List.mem_append.mp hz with hz | hz
    · rcases idx with _ | ds
      · exact List.not_mem_nil hz
      · have hz' : z = '[' ∨ z ∈ ds ∨ z = ']' := by simpa [indexText] using hz
        rcases hz' with rfl | hz | rfl
        · exact hx'.2.2 (by decide)
        · exact Bool.false_ne_true (hx'.1.symm.trans ((ha.digits ds rfl).2 z hz))
        · exact hx'.2.2 (by decide)
    · rcases List.mem_append.mp hz with hz | hz
      · exact Bool.false_ne_true (hx'.2.1.symm.trans (mem_blank.mp hw₁ z hz))
      · rcases List.mem_cons.mp hz with rfl | hz
        · exact hx'.2.2 (by decide)
        · exact Bool.false_ne_true (hx'.2.1.symm.trans (mem_blank.mp hw₂ z hz))
  have hsplit : u ++ c'.rest = lead ++ (y :: v ++ tail) := by
    rw [← hr, Cursor.past_rest, hpost]
    simp [lead]
  have hrest : c'.rest = x :: (v' ++ post') := hn.rest
  rcases Nat.lt_or_ge u.length lead.length with hlt | hle
  · -- in front of the value
    obtain ⟨t, ht⟩ := List.prefix_of_prefix_length_le (List.prefix_append u c'.rest)
      (hsplit ▸ List.prefix_append lead _) hlt.le
    rw [← ht, List.append_assoc] at hsplit
    have htext := List.append_cancel_left hsplit
    rcases t with _ | ⟨z, t⟩
    · rw [← ht, List.append_nil] at hlt
      exact lt_irrefl _ hlt
    · rw [hrest] at htext
      obtain ⟨rfl, -⟩ := List.cons.inj htext
      exact hlead x (ht ▸ List.mem_append_right u List.mem_cons_self) rfl
  · obtain ⟨t, rfl⟩ := List.prefix_of_prefix_length_le (List.prefix_append lead _)
      (hsplit ▸ List.prefix_append u c'.rest) hle
    rw [List.append_assoc] at hsplit
    have htext := List.append_cancel_left hsplit
    rcases eq_or_ne t [] with rfl | hne
    · -- at the start of the value
      rw [List.nil_append, hrest] at htext
      obtain ⟨rfl, -⟩ := List.cons.inj htext
      obtain ⟨z, s, hs, hz⟩ := hf
      obtain ⟨s', hs'⟩ := strip_cons (T := T) hy v
      obtain ⟨rfl, -⟩ := List.cons.inj (hs.symm.trans hs')
      rcases hz with hz | rfl
      · exact Bool.false_ne_true (hx'.1.symm.trans hz)
      · exact hx'.2.2 (by decide)
    · -- within the value
      have ht : t <+: y :: v := by
        refine List.prefix_of_prefix_length_le (htext ▸ List.prefix_append t c'.rest)
          (List.prefix_append _ _) ?_
        have hsum := congrArg List.length htext
        simp only [List.length_append] at hsum
        omega
      exact not_atLineStart hp hne (fun z hz => ha.line z (ht.subset hz)) hn.start

theorem Assigns.length_le (ha : Assigns T post idx value tail) :
    tail.length ≤ (post.dropWhile (!isNewline ·)).length := by
  obtain ⟨w₁, -, w₂, -, hpost⟩ := ha.shown
  have happ : post = (indexText idx ++ (w₁ ++ '=' :: (w₂ ++ value))) ++ tail := by
    rw [hpost]
    simp
  have htail : tail.dropWhile (!isNewline ·) = tail := by
    rcases tail with _ | ⟨x, tail⟩
    · rfl
    · exact List.dropWhile_cons_of_neg (by simp [ha.behind x rfl])
  rw [happ, List.dropWhile_append, htail]
  split_ifs
  · exact le_refl _
  · rw [List.length_append]
    exact Nat.le_add_left ..

/-- From the end of the line with the name to the end of the value, the line-wise pattern
finds nothing. -/
theorem Assigns.finds_lineEnd (ha : Assigns T post idx value tail) (hf : Filled T value)
    (hg : c.groups = []) (hb : (c.past w post).Before d) (hd : d.rest = tail) :
    (declaration T).finds (lineEnd c w post) = (declaration T).finds d.fresh := by
  have hend : (c.past w post).Before (lineEnd c w post) := by
    refine ⟨post.takeWhile (!isNewline ·), List.takeWhile_append_dropWhile.symm, ?_⟩
    show (w ++ _).getLast?.or c.prev = _
    rw [List.getLast?_append, Option.or_assoc]
    rfl
  have hafter := hend.of_length_le hb (hd ▸ ha.length_le)
  obtain ⟨u, hu, hp⟩ := hafter
  rw [finds_skip hu]
  · congr 1
    ext1
    · exact hp.symm
    · rfl
    · exact hg
  · intro u₁ u₂ hu₁ hne
    by_contra hm
    obtain ⟨e, he⟩ := Option.ne_none_iff_exists'.mp hm
    obtain ⟨w', post', hn, -⟩ := exists_declaredAt he
    have hplace : (lineEnd c w post).rest = u₁ ++ (u₂ ++ d.rest) := by
      rw [hu, hu₁, List.append_assoc]
    refine ha.not_named hf (hend.trans (Cursor.before_past hplace)) ?_ hn.toNamedAt
    have hpos := List.length_pos_of_ne_nil hne
    rw [Cursor.past_rest, List.length_append, hd]
    omega

end Between

/-- Where the names stand that a search has found. -/
def names (found : List (Match Char)) : List (List Char) :=
  found.map fun m => afterName m.start.rest

theorem NamedAt.sample_eq (h : NamedAt T c w post) (hg : c.groups = []) {c' : Cursor Char}
    {w' : List Char} (h' : NamedAt T c' w' post) (hg' : c'.groups = []) :
    c'.past w' post = c.past w post := by
  ext1
  · exact h'.prev.trans h.prev.symm
  · rfl
  · exact hg'.trans hg.symm

/-- The names of the samples are names of declarations. -/
theorem names_sublist (hg : c.groups = []) (hascii : ∀ x ∈ c.rest, isAscii x = true)
    (hfilled : ∀ m ∈ (sample T).finds c, ∃ value, m.stop.group 2 = some value ∧ Filled T value) :
    (names ((sample T).finds c)).Sublist (names ((declaration T).finds c)) := by
  induction hn : c.rest.length using Nat.strong_induction_on generalizing c with
  | _ n ih =>
    rcases hD : (declaration T).matchAt c with _ | dD
    · have hS : (sample T).matchAt c = none := by
        by_contra hS
        obtain ⟨dS, hS⟩ := Option.ne_none_iff_exists'.mp hS
        obtain ⟨w, post, hd, -⟩ := exists_sampleAt hg hascii hS
        rw [hd.matchAt] at hD
        exact absurd hD (by simp)
      rcases hr : c.rest with _ | ⟨x, rest⟩
      · rw [finds_nil hr, finds_nil hr]
      · rw [finds_none hS hr] at hfilled
        rw [finds_none hS hr, finds_none hD hr]
        have hlt : rest.length < n := by
          rw [← hn, hr]
          exact Nat.lt_succ_self _
        exact ih _ hlt (c := c.past [x] rest) hg
          (fun y hy => hascii y (hr ▸ List.mem_cons_of_mem x hy)) hfilled rfl
    · obtain ⟨w, post, hd, rfl⟩ := exists_declaredAt hD
      have hlt : (post.dropWhile (!isNewline ·)).length < n :=
        hn ▸ (List.length_dropWhile_le _ _).trans_lt hd.length_lt
      have hsub : ∀ e : Cursor Char, c.Before e → ∀ y ∈ e.rest, isAscii y = true := by
        rintro e ⟨u, hu, -⟩ y hy
        exact hascii y (hu ▸ List.mem_append_right u hy)
      have hgend : (lineEnd c w post).groups = [] := hg
      rw [finds_some hD, Cursor.fresh_eq hgend]
      rcases hS : (sample T).matchAt c with _ | dS
      · -- a declaration that is no sample
        have hskip : (sample T).finds c = (sample T).finds (lineEnd c w post) := by
          refine finds_skip (by rw [hd.rest, List.append_assoc, List.takeWhile_append_dropWhile])
            fun u v hu hne => ?_
          by_contra hm
          obtain ⟨d, hm⟩ := Option.ne_none_iff_exists'.mp hm
          have hb : c.Before (c.past u (v ++ post.dropWhile (!isNewline ·))) := by
            refine Cursor.before_past ?_
            rw [← List.append_assoc, ← hu, List.append_assoc, List.takeWhile_append_dropWhile]
            exact hd.rest
          obtain ⟨w', post', hd', hk⟩ := exists_sampleAt (c := c.past u _) hg (hsub _ hb) hm
          obtain rfl := hd.toNamedAt.inside hb (by simp) hd'.toNamedAt
          rw [hd.toNamedAt.sample_eq hg hd'.toNamedAt hg] at hk
          exact absurd ((hd.sample hk).symm.trans hS) (by simp)
        rw [hskip] at hfilled ⊢
        exact (ih _ hlt hgend (hsub _ (before_of_matchAt hD)) hfilled rfl).cons _
      · obtain ⟨w', post', hd', hk⟩ := exists_sampleAt hg hascii hS
        obtain ⟨rfl, rfl⟩ := hd.toNamedAt.unique hd'.toNamedAt
        rw [finds_some hS] at hfilled ⊢
        obtain ⟨⟨value, hvalue, hf⟩, hrest⟩ := List.forall_mem_cons.mp hfilled
        have hb := before_of_mem_run (mem_of_first hk)
        rcases exists_assigns hk hg with ⟨idx, value', tail, ha, hd, hgroups⟩ |
          ⟨idx, value', hgroups, hblank⟩
        · obtain rfl := Option.some.inj (hvalue.symm.trans (group_two hgroups))
          have ha' : Assigns T post idx value tail := ha
          rw [ha'.finds_lineEnd hf hg hb hd]
          have hafter : c.Before dS := before_of_matchAt hS
          refine List.Sublist.cons_cons _ (ih _ ?_ rfl (hsub dS hafter) hrest rfl)
          exact hn ▸ (matchAt_eq_some.mp hS).2
        · obtain rfl := Option.some.inj (hvalue.symm.trans (group_two hgroups))
          obtain ⟨x, v, hs, -⟩ := hf
          rw [Tables.strip, stripOf_blank hblank] at hs
          exact absurd hs (by simp)

/-- Every place where the name is declared is found. -/
theorem mem_names_declaration {c' : Cursor Char} (hg : c.groups = []) (hb : c.Before c')
    (hg' : c'.groups = []) (hd' : DeclaredAt T c' w post) :
    post ∈ names ((declaration T).finds c) := by
  induction hn : c.rest.length using Nat.strong_induction_on generalizing c with
  | _ n ih =>
    rcases hD : (declaration T).matchAt c with _ | dD
    · have hlt : c'.rest.length < c.rest.length := by
        refine hb.length_le.lt_of_ne fun hlen => ?_
        obtain ⟨u, hr, hp⟩ := hb
        obtain rfl : u = [] := by
          have hsum := congrArg List.length hr
          rw [List.length_append] at hsum
          exact List.length_eq_zero_iff.mp (by omega)
        obtain rfl : c' = c := by
          ext1
          · exact hp
          · exact hr.symm
          · exact hg'.trans hg.symm
        exact absurd (hd'.matchAt.symm.trans hD) (by simp)
      rcases hr : c.rest with _ | ⟨x, rest⟩
      · rw [hr] at hlt
        exact absurd hlt (Nat.not_lt_zero _)
      · have hlen : rest.length < n := by
          rw [← hn, hr]
          exact Nat.lt_succ_self _
        rw [finds_none hD hr]
        exact ih _ hlen (c := c.past [x] rest) hg (hb.next hlt hr) rfl
    · obtain ⟨w₁, post₁, hd, rfl⟩ := exists_declaredAt hD
      have hgend : (lineEnd c w₁ post₁).groups = [] := hg
      rw [finds_some hD, Cursor.fresh_eq hgend, names, List.map_cons]
      rcases Nat.lt_or_ge c'.rest.length (post₁.dropWhile (!isNewline ·)).length with hlt | hle
      · have hbefore := (before_of_matchAt hD).of_length_le hb hlt.le
        refine List.mem_cons_of_mem _ (ih _ ?_ hgend hbefore rfl)
        exact hn ▸ (matchAt_eq_some.mp hD).2
      · obtain rfl := hd.toNamedAt.inside hb hle hd'.toNamedAt
        rw [hd.toNamedAt.afterName_eq]
        exact List.mem_cons_self

end P4Cases.FlowCounter
