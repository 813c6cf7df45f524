import P4Cases.Text.Search

/-! Words with separators between them: the patterns that read such a text, and cutting it
at the separators. -/
namespace P4Cases.Text
open Regex Computability
variable {α : Type} {l sep : Language α} {ws : List (List α)} {text : List α}

/-- The words, with a separator between any two. -/
inductive Joined (sep : Language α) : List (List α) → List α → Prop
  | last (w : List α) : Joined sep [w] w
  | cons (w : List α) {s : List α} {ws : List (List α)} {text : List α} (hs : s ∈ sep)
      (h : Joined sep ws text) : Joined sep (w :: ws) (w ++ (s ++ text))

theorem Joined.mono {sep' : Language α} (h : Joined sep ws text)
    (hsep : ∀ s ∈ sep, s ∈ sep') : Joined sep' ws text := by
  induction h with
  | last w => exact .last w
  | cons w hs _ ih => exact .cons w (hsep _ hs) ih

theorem Joined.mem (h : Joined sep ws text) {w : List α} (hw : w ∈ ws) {x : α} (hx : x ∈ w) :
    x ∈ text := by
  induction h with
  | last v =>
    obtain rfl := List.mem_singleton.mp hw
    exact hx
  | cons v hs h ih =>
    rcases List.mem_cons.mp hw with rfl | hw
    · exact List.mem_append_left _ hx
    · exact List.mem_append_right _ (List.mem_append_right _ (ih hw))

/-- A text that begins with a word of `l` has such a head. -/
theorem Joined.head (h : Joined sep ws text) {P : α → Prop}
    (hws : ∀ w ∈ ws, ∃ x v, w = x :: v ∧ P x) : ∃ x v, text = x :: v ∧ P x := by
  cases h with
  | last w => exact hws _ List.mem_cons_self
  | cons w hs h =>
    obtain ⟨x, v, rfl, hx⟩ := hws w List.mem_cons_self
    exact ⟨x, _, rfl, hx⟩

theorem Joined.forall (h : Joined sep ws text) {P : α → Prop} (hws : ∀ w ∈ ws, ∀ x ∈ w, P x)
    (hsep : ∀ s ∈ sep, ∀ x ∈ s, P x) : ∀ x ∈ text, P x := by
  induction h with
  | last w => exact hws w List.mem_cons_self
  | cons w hs h ih =>
    obtain ⟨hw, hws⟩ := List.forall_mem_cons.mp hws
    intro x hx
    rcases List.mem_append.mp hx with hx | hx
    · exact hw x hx
    · exact (List.mem_append.mp hx).elim (hsep _ hs x) (ih hws x)

/-- It ends as its last word does. -/
theorem Joined.exists_getLast (h : Joined sep ws text) (hws : ∀ w ∈ ws, w ≠ []) :
    ∃ w ∈ ws, text.getLast? = w.getLast? := by
  induction h with
  | last w => exact ⟨w, List.mem_cons_self, rfl⟩
  | cons w hs h ih =>
    obtain ⟨v, hv, hlast⟩ := ih fun v hv => hws v (List.mem_cons_of_mem w hv)
    refine ⟨v, List.mem_cons_of_mem w hv, ?_⟩
    have hne := hws v (List.mem_cons_of_mem w hv)
    rw [List.getLast?_append, List.getLast?_append, hlast, List.getLast?_eq_some_getLast hne]
    rfl

theorem mem_mul_kstar : text ∈ l * (sep * l)∗ ↔ ∃ ws, Joined sep ws text ∧ ∀ w ∈ ws, w ∈ l := by
  constructor
  · intro h
    obtain ⟨w, hw, _, htail, rfl⟩ := Language.mem_mul.mp h
    obtain ⟨parts, rfl, hparts⟩ := Language.mem_kstar.mp htail
    clear h htail
    induction parts generalizing w with
    | nil =>
      refine ⟨[w], ?_, List.forall_mem_singleton.mpr hw⟩
      rw [List.flatten_nil, List.append_nil]
      exact .last w
    | cons part parts ih =>
      obtain ⟨hpart, hmore⟩ := List.forall_mem_cons.mp hparts
      obtain ⟨s, hs, v, hv, rfl⟩ := Language.mem_mul.mp hpart
      obtain ⟨ws, hj, hws⟩ := ih v hv hmore
      refine ⟨w :: ws, ?_, List.forall_mem_cons.mpr ⟨hw, hws⟩⟩
      rw [List.flatten_cons, List.append_assoc]
      exact .cons w hs hj
  · rintro ⟨ws, hj, hws⟩
    induction hj with
    | last w =>
      refine Language.mem_mul.mpr ⟨w, hws w List.mem_cons_self, [], Language.nil_mem_kstar _, ?_⟩
      exact List.append_nil w
    | cons w hs h ih =>
      obtain ⟨hw, hws⟩ := List.forall_mem_cons.mp hws
      obtain ⟨v, hv, rest, hrest, rfl⟩ := Language.mem_mul.mp (ih hws)
      refine Language.mem_mul.mpr ⟨w, hw, _, ?_, rfl⟩
      rw [← Language.one_add_self_mul_kstar_eq_kstar, ← List.append_assoc]
      exact Or.inr (Language.append_mem_mul (Language.append_mem_mul hs hv) hrest)

/-- Cutting at the separators gives the words back. -/
theorem split_joined {p : α → Bool} (hsep : ∀ s ∈ sep, s ≠ [] ∧ ∀ x ∈ s, p x = true)
    (hws : ∀ w ∈ ws, w ≠ [] ∧ ∀ x ∈ w, p x = false) (h : Joined sep ws text) :
    (one p).plus.split text = ws := by
  suffices hcut : ∀ c : Cursor α, c.rest = text → pieces ((one p).plus.scan c) = ws from
    hcut _ rfl
  induction h with
  | last w => exact fun c hc => pieces_last hc (hws w List.mem_cons_self).2
  | @cons w s ws text hs h ih =>
    obtain ⟨hw, hws⟩ := List.forall_mem_cons.mp hws
    obtain ⟨hne, hps⟩ := hsep s hs
    have hhead : ∀ x ∈ text.head?, p x = false := by
      obtain ⟨x, v, rfl, hx⟩ := h.head (P := fun x => p x = false) fun w hw => by
        obtain ⟨x, v, rfl⟩ := List.exists_cons_of_ne_nil (hws w hw).1
        exact ⟨x, v, rfl, (hws _ hw).2 x List.mem_cons_self⟩
      rintro y ⟨⟩
      exact hx
    intro c hc
    obtain ⟨d, hd, hcut⟩ := pieces_cons hc hw.2 hne hps hhead
    rw [hcut, ih hws d hd]

end P4Cases.Text
