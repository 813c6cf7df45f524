import Mathlib.Data.List.Nodup
import Mathlib.Data.Nat.Notation

/-! Hop-by-hop forwarding under a hop limit, for one destination. A node passes the
packet to another node, to an exit of the network, or has no route for it. -/
namespace Routing
variable {Node Exit : Type}

inductive Fate (Node Exit : Type) where
  | delivered (e : Exit)
  | noRoute (s : Node)
  | expired (s : Node)

/-- The nodes a packet visits from `s` on, and what becomes of it. A node reached with
a limit of one or less does not forward. -/
inductive Walk (next : Node → Option (Node ⊕ Exit)) :
    ℕ → Node → List Node → Fate Node Exit → Prop where
  | expired {limit : ℕ} {s : Node} (h : limit ≤ 1) : Walk next limit s [s] (.expired s)
  | noRoute {limit : ℕ} {s : Node} (h : 1 < limit) (hn : next s = none) :
      Walk next limit s [s] (.noRoute s)
  | exit {limit : ℕ} {s : Node} {e : Exit} (h : 1 < limit) (hn : next s = some (.inr e)) :
      Walk next limit s [s] (.delivered e)
  | hop {limit : ℕ} {s s' : Node} {path : List Node} {fate : Fate Node Exit} (h : 1 < limit)
      (hn : next s = some (.inl s')) (rest : Walk next (limit - 1) s' path fate) :
      Walk next limit s (s :: path) fate

variable {next : Node → Option (Node ⊕ Exit)} {limit : ℕ} {s t : Node} {e : Exit}
  {path : List Node} {fate : Fate Node Exit}

namespace Walk

/-- A walk that runs out of its limit has used it up. -/
theorem le_length (w : Walk next limit s path (.expired t)) : limit ≤ path.length := by
  generalize hf : Fate.expired t = fate at w
  induction w with
  | expired h => exact h
  | noRoute h hn => cases hf
  | exit h hn => cases hf
  | hop h hn rest ih =>
    have hl := ih hf
    rw [List.length_cons]
    omega

theorem next_eq_none (w : Walk next limit s path (.noRoute t)) : next t = none := by
  generalize hf : Fate.noRoute t = fate at w
  induction w with
  | expired h => cases hf
  | noRoute h hn =>
    cases hf
    exact hn
  | exit h hn => cases hf
  | hop h hn rest ih => exact ih hf

theorem next_eq_exit (w : Walk next limit s path (.delivered e)) :
    ∃ t, next t = some (.inr e) := by
  generalize hf : Fate.delivered e = fate at w
  induction w with
  | expired h => cases hf
  | noRoute h hn => cases hf
  | exit h hn =>
    cases hf
    exact ⟨_, hn⟩
  | hop h hn rest ih => exact ih hf

/-- Where every hop lowers a rank, no later node has a rank as high as the first. -/
theorem rank_le {rank : Node → ℕ} (hr : ∀ s s', next s = some (.inl s') → rank s' < rank s)
    (w : Walk next limit s path fate) : ∀ t ∈ path, rank t ≤ rank s := by
  induction w with
  | expired h => simp
  | noRoute h hn => simp
  | exit h hn => simp
  | hop h hn rest ih =>
    intro t ht
    rcases List.mem_cons.mp ht with rfl | ht
    · exact Nat.le_refl _
    · exact Nat.le_trans (ih t ht) (Nat.le_of_lt (hr _ _ hn))

/-- Such a walk visits no node twice. -/
theorem nodup {rank : Node → ℕ} (hr : ∀ s s', next s = some (.inl s') → rank s' < rank s)
    (w : Walk next limit s path fate) : path.Nodup := by
  induction w with
  | expired h => exact List.nodup_singleton _
  | noRoute h hn => exact List.nodup_singleton _
  | exit h hn => exact List.nodup_singleton _
  | hop h hn rest ih =>
    rw [List.nodup_cons]
    refine ⟨?_, ih⟩
    intro hs
    have hle := rank_le hr rest _ hs
    have hlt := hr _ _ hn
    omega

/-- Where every node passes on to another, a packet only stops when its limit is used up. -/
theorem expires (hn : ∀ s, ∃ s', next s = some (.inl s')) (w : Walk next limit s path fate) :
    ∃ t, fate = .expired t := by
  induction w with
  | expired h => exact ⟨_, rfl⟩
  | noRoute h hnone =>
    obtain ⟨s', hs⟩ := hn _
    rw [hnone] at hs
    cases hs
  | exit h hexit =>
    obtain ⟨s', hs⟩ := hn _
    rw [hexit] at hs
    cases hs
  | hop h hnext rest ih => exact ih

end Walk
end Routing
