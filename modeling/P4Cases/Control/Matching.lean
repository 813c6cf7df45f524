import Mathlib.Data.List.Forall2
import Mathlib.Data.List.Nodup
import Mathlib.Data.List.Perm.Basic

/-! Sorting items by a key, and matching them one to one: when every item is labelled with
the key of what it belongs to, looking at each key's items is enough to see that all items
are matched. -/
namespace Matching

variable {α β κ : Type}

/-- The items are, in some order, related to the list one to one. -/
def Matched (R : α → β → Prop) (as : List α) (bs : List β) : Prop :=
  ∃ l : List β, l.Perm bs ∧ List.Forall₂ R as l

variable {R : α → β → Prop} {as : List α} {bs bs' : List β}

theorem Matched.perm (h : Matched R as bs) (hp : bs.Perm bs') : Matched R as bs' := by
  obtain ⟨l, hl, hr⟩ := h
  exact ⟨l, hl.trans hp, hr⟩

theorem matched_congr (hp : bs.Perm bs') : Matched R as bs ↔ Matched R as bs' :=
  ⟨fun h => h.perm hp, fun h => h.perm hp.symm⟩

/-- Matching by the values of two functions is equality of these up to the order. -/
theorem matched_map {γ : Type} {f : α → γ} {g : β → γ} :
    Matched (fun a b => g b = f a) as bs ↔ (as.map f).Perm (bs.map g) := by
  constructor
  · intro h
    obtain ⟨l, hp, hr⟩ := h
    have hl : as.map f = l.map g := by
      clear hp
      induction hr with
      | nil => rfl
      | cons hab _ ih => rw [List.map_cons, List.map_cons, ih, hab]
    rw [hl]
    exact hp.map g
  · intro h
    have hr : List.Forall₂ (fun x b => g b = x) (bs.map g) bs := by
      rw [List.forall₂_map_left_iff]
      exact List.forall₂_same.mpr fun b _ => rfl
    obtain ⟨l, hl, hp⟩ := List.perm_comp_forall₂ h hr
    exact ⟨l, hp, List.forall₂_map_left_iff.mp hl⟩

variable [DecidableEq κ] {ident : α → κ} {key : β → κ}

/-- Every item has the key of something in the list, and of each thing in it there is
exactly one item, which is related to it. -/
def Grouped (R : α → β → Prop) (ident : α → κ) (key : β → κ) (as : List α) (bs : List β) : Prop :=
  (∀ b ∈ bs, key b ∈ as.map ident) ∧
    ∀ a ∈ as, ∃ b, bs.filter (fun b => key b = ident a) = [b] ∧ R a b

theorem Grouped.exists_related (h : Grouped R ident key as bs) {b : β} (hb : b ∈ bs) :
    ∃ a ∈ as, R a b := by
  obtain ⟨a, ha, hk⟩ := List.mem_map.mp (h.1 b hb)
  obtain ⟨b', hone, hr⟩ := h.2 a ha
  have hmem : b ∈ bs.filter fun b => key b = ident a :=
    List.mem_filter.mpr ⟨hb, decide_eq_true hk.symm⟩
  rw [hone, List.mem_singleton] at hmem
  exact ⟨a, ha, hmem ▸ hr⟩

/-- The items of one key, apart from those of another. -/
theorem filter_key_of_ne {k k' : κ} (h : k' ≠ k) :
    (bs.filter fun b => key b ≠ k).filter (fun b => key b = k') =
      bs.filter fun b => key b = k' := by
  rw [List.filter_filter]
  congr 1
  funext b
  by_cases hb : key b = k'
  · simp [hb, h]
  · simp [hb]

theorem Grouped.matched (hn : (as.map ident).Nodup) (h : Grouped R ident key as bs) :
    Matched R as bs := by
  induction as generalizing bs with
  | nil =>
    have hnil : bs = [] := List.eq_nil_iff_forall_not_mem.mpr fun b hb => by simpa using h.1 b hb
    exact ⟨[], by rw [hnil], List.Forall₂.nil⟩
  | cons a as ih =>
    rw [List.map_cons, List.nodup_cons] at hn
    obtain ⟨b, hb, hr⟩ := h.2 a List.mem_cons_self
    have hrest : Grouped R ident key as (bs.filter fun b => key b ≠ ident a) := by
      constructor
      · intro b hb
        obtain ⟨hmem, hne⟩ := List.mem_filter.mp hb
        rcases List.mem_cons.mp (h.1 b hmem) with he | he
        · exact absurd he (by simpa using hne)
        · exact he
      · intro a' ha'
        have hne : ident a' ≠ ident a := fun he => hn.1 (he ▸ List.mem_map_of_mem ha')
        rw [filter_key_of_ne hne]
        exact h.2 a' (List.mem_cons_of_mem a ha')
    obtain ⟨l, hl, hrel⟩ := ih hn.2 hrest
    have hsplit : (bs.filter (fun b => key b = ident a) ++
        bs.filter fun b => key b ≠ ident a).Perm bs := by
      simpa using List.filter_append_perm (fun b => decide (key b = ident a)) bs
    rw [hb] at hsplit
    exact ⟨b :: l, (hl.cons b).trans hsplit, List.Forall₂.cons hr hrel⟩

theorem Matched.grouped (hkey : ∀ a ∈ as, ∀ b, R a b → key b = ident a)
    (hn : (as.map ident).Nodup) (h : Matched R as bs) : Grouped R ident key as bs := by
  obtain ⟨l, hl, hr⟩ := h
  have hgroup : Grouped R ident key as l := by
    clear hl
    induction hr with
    | nil => exact ⟨by simp, by simp⟩
    | @cons a b as l hab hr ih =>
      rw [List.map_cons, List.nodup_cons] at hn
      obtain ⟨hmem, hone⟩ := ih (fun a ha => hkey a (List.mem_cons_of_mem _ ha)) hn.2
      have hb := hkey a List.mem_cons_self b hab
      have hother : l.filter (fun b => key b = ident a) = [] := by
        rw [List.filter_eq_nil_iff]
        intro c hc he
        exact hn.1 ((of_decide_eq_true he) ▸ hmem c hc)
      constructor
      · intro c hc
        rcases List.mem_cons.mp hc with rfl | hc
        · rw [hb]
          exact List.mem_map_of_mem List.mem_cons_self
        · exact List.mem_cons_of_mem _ (hmem c hc)
      · intro a' ha'
        rcases List.mem_cons.mp ha' with rfl | ha'
        · refine ⟨b, ?_, hab⟩
          rw [List.filter_cons_of_pos (by simpa using hb), hother]
        · have hne : key b ≠ ident a' := by
            rw [hb]
            exact fun he => hn.1 (he ▸ List.mem_map_of_mem ha')
          rw [List.filter_cons_of_neg (by simpa using hne)]
          exact hone a' ha'
  refine ⟨fun b hb => hgroup.1 b (hl.mem_iff.mpr hb), fun a ha => ?_⟩
  obtain ⟨b, hb, hab⟩ := hgroup.2 a ha
  have hp := hl.filter fun b => key b = ident a
  rw [hb] at hp
  exact ⟨b, List.perm_singleton.mp hp.symm, hab⟩

theorem grouped_iff_matched (hkey : ∀ a ∈ as, ∀ b, R a b → key b = ident a)
    (hn : (as.map ident).Nodup) : Grouped R ident key as bs ↔ Matched R as bs :=
  ⟨fun h => h.matched hn, fun h => h.grouped hkey hn⟩

/-- The same where the list also has things of which there must not be an item. -/
theorem grouped_filter {p : α → Bool} (hn : (as.map ident).Nodup) :
    ((∀ b ∈ bs, key b ∈ as.map ident) ∧ ∀ a ∈ as,
      if p a then ∃ b, bs.filter (fun b => key b = ident a) = [b] ∧ R a b
      else bs.filter (fun b => key b = ident a) = []) ↔
    Grouped R ident key (as.filter p) bs := by
  constructor
  · intro h
    refine ⟨fun b hb => ?_, fun a ha => ?_⟩
    · obtain ⟨a, ha, he⟩ := List.mem_map.mp (h.1 b hb)
      have hone := h.2 a ha
      by_cases hp : p a
      · exact List.mem_map.mpr ⟨a, List.mem_filter.mpr ⟨ha, hp⟩, he⟩
      · rw [if_neg hp, List.filter_eq_nil_iff] at hone
        exact absurd (decide_eq_true he.symm) (hone b hb)
    · obtain ⟨ha, hp⟩ := List.mem_filter.mp ha
      simpa [hp] using h.2 a ha
  · intro h
    refine ⟨fun b hb => ?_, fun a ha => ?_⟩
    · obtain ⟨a, ha, he⟩ := List.mem_map.mp (h.1 b hb)
      exact List.mem_map.mpr ⟨a, (List.mem_filter.mp ha).1, he⟩
    · by_cases hp : p a
      · rw [if_pos hp]
        exact h.2 a (List.mem_filter.mpr ⟨ha, hp⟩)
      · rw [if_neg hp, List.filter_eq_nil_iff]
        intro b hb he
        obtain ⟨a', ha', heq⟩ := List.mem_map.mp (h.1 b hb)
        obtain ⟨ha', hp'⟩ := List.mem_filter.mp ha'
        have hkey : ident a' = ident a := heq.trans (of_decide_eq_true he)
        rw [List.inj_on_of_nodup_map hn ha' ha hkey] at hp'
        exact hp hp'

/-- Items sorted by their keys are the items. -/
theorem perm_flatMap_key (key : β → κ) (bs : List β) {keys : List κ} (hn : keys.Nodup)
    (h : ∀ b ∈ bs, key b ∈ keys) :
    bs.Perm (keys.flatMap fun k => bs.filter fun b => key b = k) := by
  induction keys generalizing bs with
  | nil =>
    have hnil : bs = [] := List.eq_nil_iff_forall_not_mem.mpr fun b hb => by simpa using h b hb
    rw [hnil, List.flatMap_nil]
  | cons k keys ih =>
    rw [List.nodup_cons] at hn
    have hrest : ∀ b ∈ bs.filter (fun b => key b ≠ k), key b ∈ keys := by
      intro b hb
      obtain ⟨hb, hne⟩ := List.mem_filter.mp hb
      exact (List.mem_cons.mp (h b hb)).resolve_left (by simpa using hne)
    have hsplit : (bs.filter (fun b => key b = k) ++ bs.filter fun b => key b ≠ k).Perm bs := by
      simpa using List.filter_append_perm (fun b => decide (key b = k)) bs
    rw [List.flatMap_cons]
    refine hsplit.symm.trans (List.Perm.append_left _ ((ih _ hn.2 hrest).trans ?_))
    refine List.Perm.flatMap_left _ fun k' hk' => ?_
    rw [filter_key_of_ne fun he : k' = k => hn.1 (he ▸ hk')]

end Matching
