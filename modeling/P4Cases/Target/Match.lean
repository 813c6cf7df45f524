import P4Cases.Wire.Bytes

/-! Match-action tables. An entry hits some keys and has a rank: the prefix
length of a longest-prefix match, the priority of a ternary match. A lookup
takes the hit of highest rank. -/
namespace P4

structure Entry (κ α : Type) where
  hits : κ → Bool
  rank : ℕ
  action : α

namespace Entry
variable {α : Type}

def exact {κ : Type} [DecidableEq κ] (key : κ) (action : α) : Entry κ α :=
  ⟨fun k => decide (k = key), 0, action⟩

/-- Keys that agree with `value` on the `len` most significant bits. -/
def lpm {w : ℕ} (value : BitVec w) (len : ℕ) (action : α) : Entry (BitVec w) α :=
  ⟨fun k => decide (k >>> (w - len) = value >>> (w - len)), len, action⟩

/-- One ternary key field: equality on the bits of the mask. -/
def ternary {w : ℕ} (value mask key : BitVec w) : Bool :=
  decide (key &&& mask = value &&& mask)

@[simp] theorem exact_hits {κ : Type} [DecidableEq κ] (key k : κ) (a : α) :
    (exact key a).hits k = decide (k = key) := rfl

@[simp] theorem exact_action {κ : Type} [DecidableEq κ] (key : κ) (a : α) :
    (exact key a).action = a := rfl

@[simp] theorem lpm_hits {w : ℕ} (value k : BitVec w) (len : ℕ) (a : α) :
    (lpm value len a).hits k = decide (k >>> (w - len) = value >>> (w - len)) := rfl

@[simp] theorem lpm_rank {w : ℕ} (value : BitVec w) (len : ℕ) (a : α) :
    (lpm value len a).rank = len := rfl

@[simp] theorem ternary_full {w : ℕ} (value key : BitVec w) :
    ternary value (BitVec.allOnes w) key = decide (key = value) := by
  simp [ternary]

@[simp] theorem ternary_any {w : ℕ} (value key : BitVec w) : ternary value 0#w key = true := by
  simp [ternary]

end Entry

abbrev Table (κ α : Type) := List (Entry κ α)

namespace Table
variable {κ α : Type}

/-- The hit of highest rank; of two with the same rank the earlier one. -/
def best : Table κ α → κ → Option (Entry κ α)
  | [], _ => none
  | e :: es, key =>
      match best es key with
      | some b => if e.hits key && decide (b.rank ≤ e.rank) then some e else some b
      | none => if e.hits key then some e else none

def lookup (t : Table κ α) (key : κ) : Option α := (best t key).map Entry.action

theorem best_eq_none {t : Table κ α} {key : κ} :
    best t key = none ↔ ∀ e ∈ t, e.hits key = false := by
  induction t with
  | nil => simp [best]
  | cons e es ih =>
    simp only [best, List.forall_mem_cons]
    rcases hb : best es key with _ | b
    · rw [hb] at ih
      simpa using fun _ => ih.mp rfl
    · rw [hb] at ih
      have hes : ¬ ∀ e ∈ es, e.hits key = false := fun h => by simpa using ih.mpr h
      simp only [hes, and_false, iff_false]
      split_ifs <;> simp

/-- The chosen entry is a hit of the table that no other hit outranks. -/
theorem best_spec {t : Table κ α} {key : κ} {b : Entry κ α} (h : best t key = some b) :
    b ∈ t ∧ b.hits key = true ∧ ∀ e ∈ t, e.hits key = true → e.rank ≤ b.rank := by
  induction t generalizing b with
  | nil => simp [best] at h
  | cons e es ih =>
    simp only [best] at h
    rcases hb : best es key with _ | b' <;> simp only [hb] at h
    · have hes := best_eq_none.mp hb
      split_ifs at h with he
      obtain rfl := Option.some.inj h
      refine ⟨by simp, he, ?_⟩
      intro d hd hk
      rcases List.mem_cons.mp hd with rfl | hd
      · exact le_rfl
      · simp [hes d hd] at hk
    · obtain ⟨hm, hh, hr⟩ := ih hb
      split_ifs at h with he
      · obtain rfl := Option.some.inj h
        obtain ⟨he, hle⟩ := Bool.and_eq_true_iff.mp he
        refine ⟨by simp, he, ?_⟩
        intro d hd hk
        rcases List.mem_cons.mp hd with rfl | hd
        · exact le_rfl
        · exact (hr d hd hk).trans (of_decide_eq_true hle)
      · obtain rfl := Option.some.inj h
        refine ⟨by simp [hm], hh, ?_⟩
        intro d hd hk
        rcases List.mem_cons.mp hd with rfl | hd
        · simp only [hk, Bool.true_and, decide_eq_true_eq, not_le] at he
          exact he.le
        · exact hr d hd hk

/-- A table holding exactly the given entries, inserted in some order. -/
structure Installed (entries : Table κ α) where
  table : Table κ α
  perm : table.Perm entries

theorem lookup_eq_none {t : Table κ α} {key : κ} :
    lookup t key = none ↔ ∀ e ∈ t, e.hits key = false := by
  rw [lookup, Option.map_eq_none_iff, best_eq_none]

/-- A hit that outranks every other hit decides the lookup, wherever it stands
in the table. -/
theorem lookup_eq_some {t : Table κ α} {key : κ} {e : Entry κ α} (he : e ∈ t)
    (hk : e.hits key = true) (hmax : ∀ d ∈ t, d.hits key = true → d = e ∨ d.rank < e.rank) :
    lookup t key = some e.action := by
  rcases hb : best t key with _ | b
  · have hn := best_eq_none.mp hb e he
    simp [hk] at hn
  · obtain ⟨hm, hh, hr⟩ := best_spec hb
    have heb := hr e he hk
    rcases hmax b hm hh with rfl | hlt
    · simp [lookup, hb]
    · omega

/-- The same for a table that was filled in any order. -/
theorem Installed.lookup_eq_some {entries : Table κ α} (t : Installed entries) {key : κ}
    {e : Entry κ α} (he : e ∈ entries) (hk : e.hits key = true)
    (hmax : ∀ d ∈ entries, d.hits key = true → d = e ∨ d.rank < e.rank) :
    lookup t.table key = some e.action :=
  Table.lookup_eq_some (t.perm.mem_iff.mpr he) hk fun d hd => hmax d (t.perm.mem_iff.mp hd)

theorem Installed.lookup_eq_none {entries : Table κ α} (t : Installed entries) {key : κ}
    (h : ∀ e ∈ entries, e.hits key = false) : lookup t.table key = none :=
  Table.lookup_eq_none.mpr fun e he => h e (t.perm.mem_iff.mp he)

/-- A table whose entries are listed by falling rank is searched from the front. -/
theorem lookup_cons {e : Entry κ α} {es : Table κ α} (h : ∀ d ∈ es, d.rank ≤ e.rank) (key : κ) :
    lookup (e :: es) key = if e.hits key then some e.action else lookup es key := by
  rw [lookup, lookup, best]
  rcases hb : best es key with _ | b
  · cases e.hits key <;> rfl
  · have hr := h b (best_spec hb).1
    cases hk : e.hits key <;> simp [hr]

end Table
end P4
