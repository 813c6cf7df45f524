import Mathlib.Logic.Function.Basic
import P4Cases.Control.Matching
import P4Cases.Frames.Python

/-! What the delivery checks of the end-to-end tests share: frames captured at the hosts,
sorted by the probe they come from. -/
namespace P4Cases
open Wire Matching

/-- `received.items()`, with the frames in the order of their capture. -/
abbrev Received (Host : Type) := List (Host × List (List Byte))

/-- The captured frames, each with the host it was captured at. -/
def captured {Host : Type} (received : Received Host) : List (Host × List Byte) :=
  received.flatMap fun item => item.2.map (item.1, ·)

/-- Replies from every host. -/
def FromAll {Host : Type} (received : Received Host) : Prop :=
  ∀ host, host ∈ received.map Prod.fst

/-- Two rounds that collect what they find wrong raise nothing when neither finds anything. -/
theorem collected_ok {α β : Type} {f : α → Py (List String)} {g : β → Py (List String)}
    {as : List α} {bs : List β} {error : List String → PyError} :
    (do
      let first ← as.mapM f
      let second ← bs.mapM g
      let errors := first.flatten ++ second.flatten
      raiseIf (errors ≠ []) (error errors)) = (.ok () : Py Unit) ↔
      (∀ a ∈ as, f a = .ok []) ∧ ∀ b ∈ bs, g b = .ok [] := by
  rw [← mapM_flatten_nil, ← mapM_flatten_nil, py_bind_ok]
  constructor
  · intro h
    obtain ⟨first, hfirst, h⟩ := h
    obtain ⟨second, hsecond, h⟩ := py_bind_ok.mp h
    obtain ⟨hnil, hnil'⟩ := List.append_eq_nil_iff.mp (not_not.mp (raiseIf_ok.mp h))
    exact ⟨⟨first, hfirst, hnil⟩, second, hsecond, hnil'⟩
  · intro h
    obtain ⟨⟨first, hfirst, hnil⟩, second, hsecond, hnil'⟩ := h
    refine ⟨first, hfirst, py_bind_ok.mpr ⟨second, hsecond, raiseIf_ok.mpr ?_⟩⟩
    exact not_not.mpr (List.append_eq_nil_iff.mpr ⟨hnil, hnil'⟩)

/-- Every frame goes to the arrivals of its key. -/
def collect {β κ : Type} [DecidableEq κ] (key : β → Py κ) (captures : List β) : Py (κ → List β) :=
  captures.foldlM (fun arrivals b => do
    let k ← key b
    return Function.update arrivals k (arrivals k ++ [b])) fun _ => []

section
variable {β κ : Type} [DecidableEq κ] {key : β → Py κ} {captures : List β} {arrivals : κ → List β}

theorem foldl_update (name : β → κ) (captures : List β) (arrivals : κ → List β) (k : κ) :
    captures.foldl (fun arrivals b =>
        Function.update arrivals (name b) (arrivals (name b) ++ [b])) arrivals k =
      arrivals k ++ captures.filter fun b => name b = k := by
  induction captures generalizing arrivals with
  | nil => simp
  | cons b captures ih =>
    rw [List.foldl_cons, ih]
    by_cases hb : name b = k
    · subst hb
      rw [Function.update_self, List.filter_cons_of_pos (by simp), List.append_assoc,
        List.singleton_append]
    · rw [Function.update_of_ne (Ne.symm hb), List.filter_cons_of_neg (by simpa using hb)]

/-- The frames are sorted when each of them has a key. -/
theorem collect_ok {P : β → Prop} {name : β → κ}
    (hkey : ∀ b ∈ captures, ∀ k, key b = .ok k ↔ P b ∧ k = name b) :
    collect key captures = .ok arrivals ↔
      (∀ b ∈ captures, P b) ∧ arrivals = fun k => captures.filter fun b => name b = k := by
  have hturn : ∀ (arrivals : κ → List β) b, b ∈ captures → ∀ arrivals',
      (do let k ← key b; return Function.update arrivals k (arrivals k ++ [b])) = .ok arrivals' ↔
        P b ∧ arrivals' = Function.update arrivals (name b) (arrivals (name b) ++ [b]) := by
    intro arrivals b hb arrivals'
    rw [py_bind_ok]
    constructor
    · intro h
      obtain ⟨k, hk, h⟩ := h
      obtain ⟨hp, rfl⟩ := (hkey b hb k).mp hk
      exact ⟨hp, (Except.ok.inj h).symm⟩
    · intro h
      obtain ⟨hp, rfl⟩ := h
      exact ⟨name b, (hkey b hb _).mpr ⟨hp, rfl⟩, rfl⟩
  have hfold : captures.foldl (fun arrivals b =>
      Function.update arrivals (name b) (arrivals (name b) ++ [b])) (fun _ => []) =
      fun k => captures.filter fun b => name b = k := by
    funext k
    rw [foldl_update, List.nil_append]
  rw [collect, foldlM_ok hturn, hfold]

end
end P4Cases
