import P4Cases.FlowCounter.Dump

/-! The lines of a dump that name the array. Both patterns for samples begin with the name;
where it ends can be read off the text, since no `f` stands before it. -/
namespace P4Cases.FlowCounter
open Text Text.Regex Computability
variable (T : Tables)

/-- Space, or nothing. -/
def blank : Language Char := (letters T.isSpace)∗

def prompts : Language Char := ({"RuntimeCmd:".toList} * blank T)∗

/-- What may stand in front of the name of the array in its line, and the name. -/
def nameLine : Language Char :=
  prompts T * (({"MyIngress.".toList} + 1) * {"flow_counter".toList})

theorem reads_spaces : Reads (spaces T) (blank T) := (reads_one _).star

theorem reads_name : Reads (name T) (nameLine T) :=
  ((reads_literal _).seq (reads_spaces T)).star.seq ((reads_literal _).opt.seq (reads_literal _))

variable {T}

theorem mem_blank {w : List Char} : w ∈ blank T ↔ ∀ x ∈ w, T.isSpace x = true :=
  mem_kstar_letters

/-- What every prompt keeps, all of them keep. -/
theorem prompts_induction {P : List Char → Prop} (hnil : P [])
    (hcons : ∀ space w, space ∈ blank T → P w → P ("RuntimeCmd:".toList ++ space ++ w)) :
    ∀ w ∈ prompts T, P w := by
  intro w hw
  obtain ⟨parts, rfl, hparts⟩ := Language.mem_kstar.mp hw
  induction parts with
  | nil => exact hnil
  | cons part parts ih =>
    obtain ⟨hpart, hrest⟩ := List.forall_mem_cons.mp hparts
    obtain ⟨_, rfl, space, hspace, rfl⟩ := Language.mem_mul.mp hpart
    rw [List.flatten_cons]
    exact hcons space _ hspace (ih hrest (Language.mem_kstar.mpr ⟨parts, rfl, hrest⟩))

theorem f_notMem_prompts : ∀ w ∈ prompts T, 'f' ∉ w := by
  refine prompts_induction List.not_mem_nil fun space w hspace hw hf => ?_
  rcases List.mem_append.mp hf with hf | hf
  · rcases List.mem_append.mp hf with hf | hf
    · exact absurd hf (by decide)
    · exact Bool.false_ne_true (mem_blank.mp hspace 'f' hf)
  · exact hw hf

theorem nameLine_split {w : List Char} (h : w ∈ nameLine T) :
    ∃ u, w = u ++ "flow_counter".toList ∧ 'f' ∉ u := by
  obtain ⟨p, hp, v, hv, rfl⟩ := Language.mem_mul.mp h
  obtain ⟨q, hq, _, rfl, rfl⟩ := Language.mem_mul.mp hv
  refine ⟨p ++ q, (List.append_assoc ..).symm, ?_⟩
  rw [List.mem_append, not_or]
  refine ⟨f_notMem_prompts p hp, ?_⟩
  rcases hq with rfl | rfl
  · decide
  · exact List.not_mem_nil

/-- A line with the name begins with a prompt, with the qualifier or with the name. -/
theorem nameLine_head {w : List Char} (h : w ∈ nameLine T) :
    ∃ x ∈ ['R', 'M', 'f'], ∃ v, w = x :: v := by
  obtain ⟨p, hp, v, hv, rfl⟩ := Language.mem_mul.mp h
  obtain ⟨q, hq, _, rfl, rfl⟩ := Language.mem_mul.mp hv
  obtain ⟨parts, rfl, hparts⟩ := Language.mem_kstar.mp hp
  rcases parts with _ | ⟨part, parts⟩
  · rcases hq with rfl | rfl
    · exact ⟨'M', by decide, _, rfl⟩
    · exact ⟨'f', by decide, _, rfl⟩
  · obtain ⟨_, rfl, space, -, rfl⟩ := Language.mem_mul.mp (hparts _ List.mem_cons_self)
    exact ⟨'R', by decide, _, rfl⟩

/-- The text behind the first name in it. -/
def afterName (text : List Char) : List Char := (text.dropWhile (· ≠ 'f')).drop 12

theorem afterName_append {u : List Char} (hu : 'f' ∉ u) (post : List Char) :
    afterName (u ++ ("flow_counter".toList ++ post)) = post := by
  have hdrop : (u ++ ("flow_counter".toList ++ post)).dropWhile (· ≠ 'f') =
      "flow_counter".toList ++ post := by
    rw [List.dropWhile_append_of_pos]
    · rfl
    · intro x hx
      exact decide_eq_true fun hf => hu (hf ▸ hx)
  rw [afterName, hdrop]
  rfl

variable (T) in
/-- A line starts at this place whose text `w` ends in the name; `post` is what follows. -/
structure NamedAt (c : Cursor Char) (w post : List Char) : Prop where
  start : AtLineStart isNewline c
  line : w ∈ nameLine T
  rest : c.rest = w ++ post

section NamedAt
variable {c c' d : Cursor Char} {w w' post post' : List Char} {k : Regex Char}

theorem NamedAt.afterName_eq (h : NamedAt T c w post) : afterName c.rest = post := by
  obtain ⟨u, rfl, hu⟩ := nameLine_split h.line
  rw [h.rest, List.append_assoc, afterName_append hu]

theorem NamedAt.unique (h : NamedAt T c w post) (h' : NamedAt T c w' post') :
    w = w' ∧ post = post' := by
  have hpost : post = post' := h.afterName_eq.symm.trans h'.afterName_eq
  have happ : w ++ post = w' ++ post := by rw [← h.rest, h'.rest, hpost]
  exact ⟨List.append_cancel_right happ, hpost⟩

theorem NamedAt.prev (h : NamedAt T c w post) : (c.past w post).prev = some 'r' := by
  obtain ⟨u, rfl, -⟩ := nameLine_split h.line
  show (u ++ "flow_counter".toList).getLast?.or c.prev = _
  rw [List.getLast?_append]
  rfl

theorem NamedAt.mem_run (h : NamedAt T c w post) : c.past w post ∈ (name T).run c :=
  (reads_name T).mem_run h.line h.rest

theorem NamedAt.eq_of_mem_run (h : NamedAt T c w post) (hd : d ∈ (name T).run c) :
    d = c.past w post := by
  obtain ⟨w', hw', hr, hd⟩ := (reads_name T _ _).mp hd
  obtain ⟨rfl, hpost⟩ := h.unique ⟨h.start, hw', hr⟩
  rw [hd, ← hpost]

/-- Behind the name the rest of a pattern decides. -/
theorem NamedAt.first (h : NamedAt T c w post) :
    (seq (lineStart isNewline) (seq (name T) k)).first c = k.first (c.past w post) := by
  rw [first_seq_of_unique (mem_run_lineStart.mpr ⟨h.start, rfl⟩)
    fun e he => (mem_run_lineStart.mp he).2]
  exact first_seq_of_unique h.mem_run fun e he => h.eq_of_mem_run he

theorem exists_namedAt (h : (seq (lineStart isNewline) (seq (name T) k)).first c = some d) :
    ∃ w post, NamedAt T c w post ∧ k.first (c.past w post) = some d := by
  obtain ⟨e, he, hd⟩ := mem_run_seq.mp (mem_of_first h)
  obtain ⟨hstart, rfl⟩ := mem_run_lineStart.mp he
  obtain ⟨e', he', -⟩ := mem_run_seq.mp hd
  obtain ⟨w, hw, hr, -⟩ := (reads_name T _ _).mp he'
  have hn : NamedAt T e w e'.rest := ⟨hstart, hw, hr⟩
  exact ⟨w, e'.rest, hn, hn.first ▸ h⟩

/-- No line starts behind a character that is no newline. -/
theorem not_atLineStart {u t : List Char} {before : Option Char}
    (hp : c.prev = (u ++ t).getLast?.or before) (hne : t ≠ [])
    (ht : ∀ x ∈ t, isNewline x = false) : ¬ AtLineStart isNewline c := by
  intro hstart
  have hlast : c.prev = some (t.getLast hne) := by
    rw [hp, List.getLast?_append, List.getLast?_eq_some_getLast hne]
    rfl
  have hnl := hstart _ hlast
  rw [ht _ (List.getLast_mem hne)] at hnl
  exact Bool.false_ne_true hnl

/-- Up to the end of the line with the name, no other name is found. -/
theorem NamedAt.inside (h : NamedAt T c w post) (hb : c.Before c')
    (hlen : (post.dropWhile (!isNewline ·)).length ≤ c'.rest.length)
    (h' : NamedAt T c' w' post') : post' = post := by
  obtain ⟨v, hr, hp⟩ := hb
  obtain ⟨u, rfl, hu⟩ := nameLine_split h.line
  have hrest := h.rest
  rw [List.append_assoc, hr] at hrest
  rcases Nat.lt_or_ge u.length v.length with hlt | hle
  · -- in the name or in the rest of its line, where no line starts
    obtain ⟨t, rfl⟩ := List.prefix_of_prefix_length_le (List.prefix_append u _)
      (hrest ▸ List.prefix_append v c'.rest) hlt.le
    rw [List.append_assoc] at hrest
    have htext := List.append_cancel_left hrest
    rw [← List.takeWhile_append_dropWhile (p := (!isNewline ·)) (l := post),
      ← List.append_assoc] at htext
    have ht : t <+: "flow_counter".toList ++ post.takeWhile (!isNewline ·) := by
      refine List.prefix_of_prefix_length_le (htext ▸ List.prefix_append t c'.rest)
        (List.prefix_append _ _) ?_
      have hsum := congrArg List.length htext
      simp only [List.length_append] at hsum ⊢
      omega
    have hne : t ≠ [] := by
      rintro rfl
      exact absurd hlt (by simp)
    have hnl : ∀ x ∈ t, isNewline x = false := by
      intro x hx
      rcases List.mem_append.mp (ht.subset hx) with hx | hx
      · exact forall_mem_of_all (P := fun x => isNewline x = false) (by decide) x hx
      · simpa using List.mem_takeWhile_imp hx
    exact absurd h'.start (not_atLineStart hp hne hnl)
  · -- not behind the start of the name, which is still the first
    obtain ⟨t, rfl⟩ := List.prefix_of_prefix_length_le (List.prefix_append v c'.rest)
      (hrest ▸ List.prefix_append u _) hle
    rw [List.append_assoc] at hrest
    rw [← h'.afterName_eq, List.append_cancel_left hrest]
    exact afterName_append (fun hf => hu (List.mem_append_right v hf)) post

end NamedAt

end P4Cases.FlowCounter
