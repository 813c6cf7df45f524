import P4Cases.Target.V1Model

/-! What a switch sends for a list of arrivals when the copies of a packet depend on
nothing that came before it: the order of the arrivals then changes only the order of
the copies, and packets that leave no copy of interest can be left out. -/
namespace P4
open Wire

/-- The frames of interest that were sent on a port. -/
def seenAt (keep : List Byte → Bool) (port : Port) (sent : List (Port × List Byte)) :
    List (List Byte) :=
  ((sent.filter fun copy => copy.1 = port).map Prod.snd).filter keep

section
variable {keep : List Byte → Bool} {port : Port} {sent sent' : List (Port × List Byte)}

theorem seenAt_append :
    seenAt keep port (sent ++ sent') = seenAt keep port sent ++ seenAt keep port sent' := by
  simp [seenAt]

theorem mem_seenAt {frame : List Byte} (h : (port, frame) ∈ sent) (hk : keep frame = true) :
    frame ∈ seenAt keep port sent :=
  List.mem_filter.mpr ⟨List.mem_map.mpr ⟨_, List.mem_filter.mpr ⟨h, decide_eq_true rfl⟩, rfl⟩, hk⟩

theorem seenAt_perm (keep : List Byte → Bool) (port : Port) (h : sent.Perm sent') :
    (seenAt keep port sent).Perm (seenAt keep port sent') :=
  ((h.filter _).map _).filter _

theorem seenAt_eq_nil (h : ∀ copy ∈ sent, keep copy.2 = false) : seenAt keep port sent = [] := by
  rw [seenAt, List.filter_eq_nil_iff]
  intro frame hframe
  obtain ⟨copy, hcopy, rfl⟩ := List.mem_map.mp hframe
  simp [h copy (List.mem_filter.mp hcopy).1]

theorem seenAt_flatMap {A : Type} (copies : A → List (Port × List Byte)) (arrivals : List A) :
    seenAt keep port (arrivals.flatMap copies) =
      arrivals.flatMap fun a => seenAt keep port (copies a) := by
  induction arrivals with
  | nil => rfl
  | cons a arrivals ih => rw [List.flatMap_cons, seenAt_append, ih, List.flatMap_cons]

/-- The packets of interest, among others in any order, leave the copies of interest. -/
theorem seenAt_traffic {A : Type} (keep : List Byte → Bool) (port : Port)
    {copies : A → List (Port × List Byte)} {arrivals packets others : List A}
    (h : arrivals.Perm (packets ++ others))
    (ho : ∀ a ∈ others, ∀ copy ∈ copies a, keep copy.2 = false) :
    (seenAt keep port (arrivals.flatMap copies)).Perm
      (packets.flatMap fun a => seenAt keep port (copies a)) := by
  have hnone : others.flatMap (fun a => seenAt keep port (copies a)) = [] :=
    List.flatMap_eq_nil_iff.mpr fun a ha => seenAt_eq_nil (ho a ha)
  have hsplit := seenAt_perm keep port (h.flatMap_right copies)
  rw [List.flatMap_append, seenAt_append, seenAt_flatMap copies packets,
    seenAt_flatMap copies others, hnone, List.append_nil] at hsplit
  exact hsplit

end

namespace V1Switch
variable {ε H S : Type} {sw : V1Switch ε H S} {groups : BitVec 16 → List Port}
  {qdepth : Port → BitVec 19}

/-- The copies of a run are those of its packets, when they do not depend on the state. -/
theorem run_copies {copies : Port × List Byte → List (Port × List Byte)}
    (h : ∀ s a, (sw.process groups qdepth s a.1 a.2).2 = copies a)
    (s : S) (arrivals : List (Port × List Byte)) :
    (sw.run groups qdepth s arrivals).2 = arrivals.flatMap copies := by
  induction arrivals generalizing s with
  | nil => rfl
  | cons a arrivals ih =>
    obtain ⟨port, packet⟩ := a
    rw [run, List.flatMap_cons, ← ih, ← h s]

theorem run_stateless (sw : V1Switch ε H Unit) (arrivals : List (Port × List Byte)) :
    (sw.run groups qdepth () arrivals).2 =
      arrivals.flatMap fun a => (sw.process groups qdepth () a.1 a.2).2 :=
  run_copies (fun _ _ => rfl) () arrivals

end V1Switch
end P4
