import P4Cases.Text.Regex

/-! Searching a text from left to right for the matches of a pattern, and cutting it at
them. -/
namespace P4Cases.Text

structure Match (α : Type) where
  start : Cursor α
  stop : Cursor α

namespace Cursor
variable {α : Type} {c d e : Cursor α}

/-- No group is set. -/
def fresh (c : Cursor α) : Cursor α := ⟨c.prev, c.rest, []⟩

theorem fresh_eq (h : c.groups = []) : c.fresh = c := by
  rw [fresh, ← h]

/-- `d` stands in the same text, not before `c`. -/
def Before (c d : Cursor α) : Prop := ∃ w, c.rest = w ++ d.rest ∧ d.prev = w.getLast?.or c.prev

theorem Before.refl (c : Cursor α) : c.Before c := ⟨[], rfl, rfl⟩

theorem Before.trans (h : c.Before d) (h' : d.Before e) : c.Before e := by
  obtain ⟨w, hr, hp⟩ := h
  obtain ⟨v, hr', hp'⟩ := h'
  refine ⟨w ++ v, by rw [hr, hr', List.append_assoc], ?_⟩
  rw [hp', hp, List.getLast?_append, Option.or_assoc]

theorem before_past {w rest : List α} (h : c.rest = w ++ rest) : c.Before (c.past w rest) :=
  ⟨w, h, rfl⟩

theorem Before.length_le (h : c.Before d) : d.rest.length ≤ c.rest.length := by
  obtain ⟨w, hr, -⟩ := h
  rw [hr, List.length_append]
  exact Nat.le_add_left ..

/-- A later place lies behind the next character. -/
theorem Before.next (h : c.Before d) (hlt : d.rest.length < c.rest.length) {x : α}
    {rest : List α} (hr : c.rest = x :: rest) : (c.past [x] rest).Before d := by
  obtain ⟨w, hw, hp⟩ := h
  rcases w with _ | ⟨y, w⟩
  · rw [hw, List.nil_append] at hlt
    exact absurd hlt (lt_irrefl _)
  · rw [hr] at hw
    obtain ⟨rfl, hrest⟩ := List.cons.inj hw
    refine ⟨w, hrest, ?_⟩
    rw [hp, ← List.singleton_append, List.getLast?_append, Option.or_assoc]
    rfl

/-- Of two places behind one, the one with less text left is behind the other. -/
theorem Before.of_length_le (hd : c.Before d) (he : c.Before e)
    (hle : e.rest.length ≤ d.rest.length) : d.Before e := by
  obtain ⟨w, hr, hp⟩ := hd
  obtain ⟨v, hr', hp'⟩ := he
  have happ : w ++ d.rest = v ++ e.rest := hr.symm.trans hr'
  have hw : w.length ≤ v.length := by
    have hlen := congrArg List.length happ
    rw [List.length_append, List.length_append] at hlen
    omega
  obtain ⟨u, rfl⟩ := List.prefix_of_prefix_length_le (List.prefix_append w d.rest)
    (happ ▸ List.prefix_append v e.rest) hw
  rw [List.append_assoc] at happ
  refine ⟨u, List.append_cancel_left happ, ?_⟩
  rw [hp', hp, List.getLast?_append, Option.or_assoc]

end Cursor

namespace Regex
variable {α : Type} {a b r : Regex α} {c d e : Cursor α} {p : α → Bool}

/-- A match only moves forward. -/
theorem before_of_mem_run (h : d ∈ r.run c) : c.Before d := by
  induction r generalizing c d with
  | empty =>
    obtain rfl := mem_run_empty.mp h
    exact .refl d
  | one p =>
    obtain ⟨x, -, hr, hd⟩ := mem_run_one.mp h
    rw [hd]
    exact Cursor.before_past hr
  | lineStart newline =>
    obtain ⟨-, rfl⟩ := mem_run_lineStart.mp h
    exact .refl d
  | boundary word =>
    obtain ⟨-, rfl⟩ := mem_run_boundary.mp h
    exact .refl d
  | seq a b iha ihb =>
    obtain ⟨e, he, hd⟩ := mem_run_seq.mp h
    exact (iha he).trans (ihb hd)
  | alt a b iha ihb => exact (mem_run_alt.mp h).elim iha ihb
  | star a iha =>
    induction hn : c.rest.length using Nat.strong_induction_on generalizing c with
    | _ n ih =>
      rcases mem_run_star.mp h with ⟨e, he, hlt, hd⟩ | rfl
      · exact (iha he).trans (ih _ (hn ▸ hlt) hd rfl)
      · exact .refl d
  | group n a iha =>
    obtain ⟨e, he, hd⟩ := mem_run_group.mp h
    rw [hd]
    exact show c.Before e from iha he

/-- The way that is tried first. -/
def first (r : Regex α) (c : Cursor α) : Option (Cursor α) := (r.run c).head?

theorem mem_of_first (h : r.first c = some d) : d ∈ r.run c := List.mem_of_head? h

theorem first_isSome (h : d ∈ r.run c) : ∃ e, r.first c = some e :=
  ⟨_, List.head?_eq_some_head (List.ne_nil_of_mem h)⟩

theorem first_seq (ha : a.first c = some e) (hb : b.first e = some d) :
    (seq a b).first c = some d := by
  obtain ⟨es, hes⟩ := List.head?_eq_some_iff.mp ha
  obtain ⟨ds, hds⟩ := List.head?_eq_some_iff.mp hb
  rw [first, run_seq, hes, List.flatMap_cons, hds]
  rfl

/-- Where the first part can match in one way only, the second decides. -/
theorem first_seq_of_unique (he : e ∈ a.run c) (hu : ∀ e' ∈ a.run c, e' = e) :
    (seq a b).first c = b.first e := by
  rcases hb : b.first e with _ | d
  · rw [first, List.head?_eq_none_iff] at hb ⊢
    exact List.flatMap_eq_nil_iff.mpr fun e' he' => hu e' he' ▸ hb
  · obtain ⟨e', he'⟩ := first_isSome he
    obtain rfl := hu e' (mem_of_first he')
    exact first_seq he' hb

theorem first_star_one : (star (one p)).first c =
    some (c.past (c.rest.takeWhile p) (c.rest.dropWhile p)) := by
  induction hr : c.rest generalizing c with
  | nil =>
    rw [first, run_star, run, hr]
    exact congrArg some (hr ▸ c.past_nil).symm
  | cons x rest ih =>
    rw [first, run_star, run_cons hr]
    by_cases hp : p x = true
    · have hlt : (c.past [x] rest).rest.length < c.rest.length := by simp [hr]
      rw [if_pos hp, List.flatMap_cons, List.flatMap_nil, List.append_nil, if_pos hlt,
        List.head?_append]
      have hnext := ih (c := c.past [x] rest) rfl
      rw [first] at hnext
      rw [hnext, List.takeWhile_cons_of_pos hp, List.dropWhile_cons_of_pos hp,
        Cursor.past_past]
      rfl
    · rw [if_neg hp, List.flatMap_nil, List.nil_append, List.takeWhile_cons_of_neg hp,
        List.dropWhile_cons_of_neg hp, ← hr]
      rfl

/-- A stretch of characters of a class is read whole. -/
theorem first_star_append {w rest : List α} (hr : c.rest = w ++ rest)
    (hw : ∀ x ∈ w, p x = true) (hrest : ∀ x ∈ rest.head?, p x = false) :
    (star (one p)).first c = some (c.past w rest) := by
  rw [first_star_one, hr, takeWhile_stretch hw hrest, dropWhile_stretch hw hrest]

theorem first_plus_append {w rest : List α} (hr : c.rest = w ++ rest) (hne : w ≠ [])
    (hw : ∀ x ∈ w, p x = true) (hrest : ∀ x ∈ rest.head?, p x = false) :
    (one p).plus.first c = some (c.past w rest) := by
  obtain ⟨x, w, rfl⟩ := List.exists_cons_of_ne_nil hne
  obtain ⟨hx, hw⟩ := List.forall_mem_cons.mp hw
  have hone : (one p).first c = some (c.past [x] (w ++ rest)) := by
    rw [first, run_cons hr, if_pos hx]
    rfl
  rw [plus, first_seq hone (first_star_append rfl hw hrest), Cursor.past_past]
  rfl

theorem first_literal [DecidableEq α] {s rest : List α} (hr : c.rest = s ++ rest) :
    (literal s).first c = some (c.past s rest) := by
  obtain ⟨d, hd⟩ := first_isSome ((reads_literal s).mem_run rfl hr)
  obtain ⟨w, rfl, hr', hd'⟩ := (reads_literal s _ _).mp (mem_of_first hd)
  rw [hd, hd', List.append_cancel_left (hr'.symm.trans hr)]

theorem first_group {n : ℕ} {w : List α} (h : a.first c = some d) (hr : c.rest = w ++ d.rest) :
    (group n a).first c = some (d.capture n w) := by
  obtain ⟨ds, hds⟩ := List.head?_eq_some_iff.mp h
  rw [first, run, hds, List.map_cons, List.head?_cons, hr, List.length_append,
    Nat.add_sub_cancel, List.take_left]

theorem first_alt_left (h : a.first c = some d) : (alt a b).first c = some d := by
  obtain ⟨ds, hds⟩ := List.head?_eq_some_iff.mp h
  rw [first, run, hds]
  rfl

theorem first_alt_right (h : a.run c = []) : (alt a b).first c = b.first c := by
  rw [first, run, h]
  rfl

/-- `re.fullmatch`, as a test. -/
def fullmatch (r : Regex α) (text : List α) : Bool :=
  (r.run (.start text)).any fun d => d.rest.isEmpty

theorem Reads.fullmatch {l : Language α} (h : Reads r l) {text : List α} :
    r.fullmatch text = true ↔ text ∈ l := by
  rw [Regex.fullmatch, List.any_eq_true]
  constructor
  · rintro ⟨d, hd, hnil⟩
    obtain ⟨w, hw, hr, -⟩ := (h _ _).mp hd
    rw [List.isEmpty_iff.mp hnil, List.append_nil] at hr
    obtain rfl : text = w := hr
    exact hw
  · intro ht
    exact ⟨_, h.mem_run ht (List.append_nil _).symm, rfl⟩

/-- The match at a place. The patterns that are searched for here match no empty text; a
match that read nothing would not count. -/
def matchAt (r : Regex α) (c : Cursor α) : Option (Cursor α) :=
  (r.first c).filter fun d => d.rest.length < c.rest.length

theorem matchAt_eq_some :
    r.matchAt c = some d ↔ r.first c = some d ∧ d.rest.length < c.rest.length := by
  simp [matchAt, Option.filter_eq_some_iff]

theorem before_of_matchAt (h : r.matchAt c = some d) : c.Before d :=
  before_of_mem_run (mem_of_first (matchAt_eq_some.mp h).1)

/-- A text cut from left to right: the characters in no match, and the matches. -/
def scan (r : Regex α) (c : Cursor α) : List (α ⊕ Match α) :=
  match _h : r.matchAt c with
  | some d => .inr ⟨c, d⟩ :: scan r d.fresh
  | none =>
      match _hr : c.rest with
      | [] => []
      | x :: rest => .inl x :: scan r (c.past [x] rest)
termination_by c.rest.length
decreasing_by
  · exact (matchAt_eq_some.mp _h).2
  · simp [_hr]

theorem scan_some (h : r.matchAt c = some d) : r.scan c = .inr ⟨c, d⟩ :: r.scan d.fresh := by
  rw [scan]
  split
  · next d' h' =>
    obtain rfl := Option.some.inj (h'.symm.trans h)
    rfl
  · next h' => exact absurd (h'.symm.trans h) (by simp)

theorem scan_none (h : r.matchAt c = none) {x : α} {rest : List α} (hr : c.rest = x :: rest) :
    r.scan c = .inl x :: r.scan (c.past [x] rest) := by
  rw [scan]
  split
  · next h' => exact absurd (h.symm.trans h') (by simp)
  · split
    · next hr' => exact absurd (hr.symm.trans hr') (by simp)
    · next hr' =>
      obtain ⟨rfl, rfl⟩ := List.cons.inj (hr.symm.trans hr')
      rfl

theorem scan_nil (hr : c.rest = []) : r.scan c = [] := by
  rw [scan]
  split
  · next h =>
    have hlt := (matchAt_eq_some.mp h).2
    rw [hr] at hlt
    exact absurd hlt (Nat.not_lt_zero _)
  · split
    · rfl
    · next hr' => exact absurd (hr.symm.trans hr') (by simp)

/-- A stretch of text in which no match begins. -/
theorem scan_skip {w rest : List α} (hr : c.rest = w ++ rest)
    (h : ∀ u v, w = u ++ v → v ≠ [] → r.matchAt (c.past u (v ++ rest)) = none) :
    r.scan c = w.map .inl ++ r.scan (c.past w rest) := by
  induction w generalizing c with
  | nil =>
    obtain rfl : c.rest = rest := hr
    rfl
  | cons x w ih =>
    have hc : r.matchAt c = none := by
      have h₀ := h [] (x :: w) rfl (List.cons_ne_nil x w)
      rwa [← hr] at h₀
    rw [scan_none hc hr, ih rfl, Cursor.past_past]
    · rfl
    · intro u v hw hv
      rw [Cursor.past_past]
      exact h (x :: u) v (by rw [hw, List.cons_append]) hv

/-- The matches from a place on. -/
def finds (r : Regex α) (c : Cursor α) : List (Match α) := (r.scan c).filterMap Sum.getRight?

/-- `re.finditer`. -/
def finditer (r : Regex α) (text : List α) : List (Match α) := r.finds (.start text)

/-- `re.search`. -/
def search (r : Regex α) (text : List α) : Option (Match α) := (r.finditer text).head?

theorem finds_some (h : r.matchAt c = some d) : r.finds c = ⟨c, d⟩ :: r.finds d.fresh := by
  rw [finds, scan_some h]
  rfl

theorem finds_none (h : r.matchAt c = none) {x : α} {rest : List α} (hr : c.rest = x :: rest) :
    r.finds c = r.finds (c.past [x] rest) := by
  rw [finds, scan_none h hr]
  rfl

theorem finds_nil (hr : c.rest = []) : r.finds c = [] := by
  rw [finds, scan_nil hr]
  rfl

theorem finds_skip {w rest : List α} (hr : c.rest = w ++ rest)
    (h : ∀ u v, w = u ++ v → v ≠ [] → r.matchAt (c.past u (v ++ rest)) = none) :
    r.finds c = r.finds (c.past w rest) := by
  have hw : (w.map Sum.inl).filterMap (@Sum.getRight? α (Match α)) = [] := by
    rw [List.filterMap_map]
    exact List.filterMap_eq_nil_iff.mpr fun _ _ => rfl
  rw [finds, scan_skip hr h, List.filterMap_append, hw, List.nil_append, finds]

theorem mem_finds {m : Match α} (hc : c.groups = []) (h : m ∈ r.finds c) :
    r.matchAt m.start = some m.stop ∧ c.Before m.start ∧ m.start.groups = [] := by
  induction hn : c.rest.length using Nat.strong_induction_on generalizing c with
  | _ n ih =>
    rcases hm : r.matchAt c with _ | d
    · rcases hr : c.rest with _ | ⟨x, rest⟩
      · rw [finds_nil hr] at h
        exact absurd h List.not_mem_nil
      · rw [finds_none hm hr] at h
        have hlt : rest.length < n := by
          rw [← hn, hr]
          exact Nat.lt_succ_self _
        obtain ⟨hs, hb, hg⟩ := ih _ hlt (c := c.past [x] rest) hc h rfl
        exact ⟨hs, (Cursor.before_past hr).trans hb, hg⟩
    · rw [finds_some hm] at h
      rcases List.mem_cons.mp h with rfl | h
      · exact ⟨hm, .refl c, hc⟩
      · obtain ⟨hs, hb, hg⟩ := ih d.rest.length (hn ▸ (matchAt_eq_some.mp hm).2) rfl h rfl
        exact ⟨hs, (before_of_matchAt hm).trans hb, hg⟩

theorem finds_eq_nil (hc : c.groups = []) : r.finds c = [] ↔
    ∀ w rest, c.rest = w ++ rest → r.matchAt (c.past w rest) = none := by
  constructor
  · intro h w
    induction w generalizing c with
    | nil =>
      rintro rest rfl
      by_contra hm
      obtain ⟨d, hd⟩ := Option.ne_none_iff_exists'.mp hm
      rw [Cursor.past_nil] at hd
      rw [finds_some hd] at h
      exact List.cons_ne_nil _ _ h
    | cons x w ih =>
      intro rest hr
      rcases hm : r.matchAt c with _ | d
      · have hnext := ih (c := c.past [x] (w ++ rest)) hc (finds_none hm hr ▸ h) rest rfl
        rwa [Cursor.past_past] at hnext
      · rw [finds_some hm] at h
        exact absurd h (List.cons_ne_nil _ _)
  · intro h
    rw [finds_skip (List.append_nil _).symm fun u v hw _ => ?_]
    · exact finds_nil rfl
    · rw [List.append_nil]
      exact h u v hw

/-- What stands between the matches. -/
def pieces : List (α ⊕ Match α) → List (List α)
  | [] => [[]]
  | .inl x :: tokens => (pieces tokens).modifyHead (x :: ·)
  | .inr _ :: tokens => [] :: pieces tokens

/-- `re.split`. -/
def split (r : Regex α) (text : List α) : List (List α) := pieces (r.scan (.start text))

theorem pieces_append (w : List α) (tokens : List (α ⊕ Match α)) :
    pieces (w.map .inl ++ tokens) = (pieces tokens).modifyHead (w ++ ·) := by
  induction w with
  | nil => exact (congrFun List.modifyHead_id _).symm
  | cons x w ih =>
    rw [List.map_cons, List.cons_append, pieces, ih, List.modifyHead_modifyHead]
    rfl

section Plus

theorem matchAt_plus_one {s rest : List α} (hr : c.rest = s ++ rest) (hne : s ≠ [])
    (hs : ∀ x ∈ s, p x = true) (hrest : ∀ x ∈ rest.head?, p x = false) :
    (one p).plus.matchAt c = some (c.past s rest) := by
  refine matchAt_eq_some.mpr ⟨first_plus_append hr hne hs hrest, ?_⟩
  have hpos := List.length_pos_of_ne_nil hne
  rw [hr, Cursor.past_rest, List.length_append]
  omega

theorem matchAt_plus_one_eq_none (h : ∀ x ∈ c.rest.head?, p x = false) :
    (one p).plus.matchAt c = none := by
  have hrun : (one p).run c = [] := by
    rcases hr : c.rest with _ | ⟨x, rest⟩
    · rw [run, hr]
    · rw [run_cons hr, if_neg]
      simp [h x (by rw [hr]; rfl)]
  rw [matchAt, first, plus, run_seq, hrun]
  rfl

/-- A stretch of characters that separate nothing. -/
theorem scan_plus_one {w rest : List α} (hr : c.rest = w ++ rest) (hw : ∀ x ∈ w, p x = false) :
    (one p).plus.scan c = w.map .inl ++ (one p).plus.scan (c.past w rest) := by
  refine scan_skip hr fun u v hu hv => matchAt_plus_one_eq_none ?_
  obtain ⟨x, v, rfl⟩ := List.exists_cons_of_ne_nil hv
  rintro y ⟨⟩
  exact hw x (by rw [hu]; exact List.mem_append_right u List.mem_cons_self)

theorem pieces_last {w : List α} (hr : c.rest = w) (hw : ∀ x ∈ w, p x = false) :
    pieces ((one p).plus.scan c) = [w] := by
  rw [scan_plus_one (hr.trans (List.append_nil w).symm) hw, scan_nil rfl, pieces_append, pieces,
    List.modifyHead_cons, List.append_nil]

theorem pieces_cons {w s rest : List α} (hr : c.rest = w ++ (s ++ rest))
    (hw : ∀ x ∈ w, p x = false) (hne : s ≠ []) (hs : ∀ x ∈ s, p x = true)
    (hrest : ∀ x ∈ rest.head?, p x = false) :
    ∃ d : Cursor α, d.rest = rest ∧
      pieces ((one p).plus.scan c) = w :: pieces ((one p).plus.scan d) := by
  refine ⟨((c.past w (s ++ rest)).past s rest).fresh, rfl, ?_⟩
  rw [scan_plus_one hr hw, scan_some (matchAt_plus_one rfl hne hs hrest), pieces_append, pieces,
    List.modifyHead_cons, List.append_nil]

end Plus

end Regex
end P4Cases.Text
