import P4Cases.Frames.Capture
import P4Cases.Target.Traffic

/-! What an end-to-end test decides. Its hosts send their probes to a switch that may
carry other traffic too, and the frames captured at the hosts are compared with what the
test expects. When the switch does with every probe what the test expects of it, the test
passes exactly when the hosts have seen what the switch has sent. -/
namespace P4Cases
open Wire P4 Matching

/-- What was sent, counted among what has arrived. -/
theorem filter_mem_length {β : Type} [BEq β] [LawfulBEq β] {all own : List β} (hall : all.Nodup)
    (hown : own.Nodup) (hsub : own ⊆ all) : (all.filter (· ∈ own)).length = own.length := by
  refine ((List.perm_ext_iff_of_nodup (hall.filter _) hown).mpr fun b => ?_).length_eq
  rw [List.mem_filter, decide_eq_true_eq]
  exact and_iff_right_of_imp fun hb => hsub hb

/-- Frames that end their source address in a number of their own are told apart by it. -/
theorem source_injective {frames : List (List Byte)}
    (hn : (frames.map fun frame => fieldAt frame 10 12).Nodup) {frame frame' : List Byte}
    (hf : frame ∈ frames) (hf' : frame' ∈ frames) (hs : slice frame 6 12 = slice frame' 6 12) :
    frame = frame' := by
  have hnumber : ∀ f : List Byte, slice f 10 12 = slice (slice f 6 12) 4 6 :=
    fun f => (@slice_slice f 6 12 4 6 (by decide)).symm
  refine List.inj_on_of_nodup_map hn hf hf' ?_
  rw [fieldAt, fieldAt, hnumber frame, hnumber frame', hs]

/-- Lists of one length, counted by what they have in all. -/
theorem map_length_eq_replicate {α β : Type} {frames : α → List β} {items : List α}
    {count size : ℕ} (hs : 0 < size) (h : ∀ item ∈ items, (frames item).length = size)
    (ht : (items.flatMap frames).length = count * size) :
    items.map (fun item => (frames item).length) = List.replicate count size := by
  have hmap : items.map (fun item => (frames item).length) = List.replicate items.length size :=
    List.eq_replicate_iff.mpr ⟨List.length_map _, List.forall_mem_map.mpr h⟩
  rw [List.length_flatMap, hmap, List.sum_replicate, smul_eq_mul] at ht
  rw [hmap, Nat.eq_of_mul_eq_mul_right hs ht]

/-- The hosts of a topology and the switch ports they are attached to. -/
abbrev Wiring (Name : Type) := List (Name × Port)

/-- The frames of a probe's sender: `[item["frame"] for item in probes if ...]`. -/
def framesFrom {Name P : Type} [DecidableEq Name] (sender : P → Name) (frame : P → List Byte)
    (probes : List P) (name : Name) : List (List Byte) :=
  (probes.filter fun item => sender item = name).map frame

/-- What the hosts send, with the ports at which it arrives. -/
def traffic {Name : Type} (wiring : Wiring Name) (frames : Name → List (List Byte)) :
    List (Port × List Byte) :=
  wiring.flatMap fun link => (frames link.1).map (link.2, ·)

/-- The arrivals are these, in any order, among others of no interest. -/
def Among (quiet : Port × List Byte → Prop) (sent arrivals : List (Port × List Byte)) : Prop :=
  ∃ others, arrivals.Perm (sent ++ others) ∧ ∀ a ∈ others, quiet a

/-- The other way round, and behind another frame. -/
theorem among_reverse {quiet : Port × List Byte → Prop} {other : Port × List Byte}
    (h : quiet other) (sent : List (Port × List Byte)) :
    Among quiet sent (other :: sent.reverse) :=
  ⟨[other], ((List.reverse_perm sent).cons other).trans (List.perm_append_singleton _ _).symm,
    by simpa using h⟩

/-- What the socket of each host has brought. -/
abbrev Observations (Name : Type) (restore : Message → Py (List Byte)) :=
  Name → List (Observation restore)

def Observations.messages {Name : Type} {restore : Message → Py (List Byte)}
    (observations : Observations Name restore) (name : Name) : List Message :=
  (observations name).map Observation.message

/-- Each host has seen the marked frames that were sent to it, in any order. -/
def SeenAsSent {Name : Type} {restore : Message → Py (List Byte)} (keep : List Byte → Bool)
    (wiring : Wiring Name) (observations : Observations Name restore)
    (sent : List (Port × List Byte)) : Prop :=
  ∀ link ∈ wiring, ((incoming (observations link.1)).filter keep).Perm (seenAt keep link.2 sent)

/-- A host whose socket brings these frames, as they are. -/
def observed (frames : List (List Byte)) : List (Observation fun message => .ok message.frame) :=
  frames.map fun frame => ⟨{ frame, packetType := 0 }, frame, rfl⟩

theorem incoming_observed (frames : List (List Byte)) : incoming (observed frames) = frames := by
  rw [incoming, observed, List.filter_map, List.map_map]
  simp [Function.comp_def, packetOutgoing]

/-- Hosts that see no more and no less than what is sent to them have seen it. -/
theorem seenAsSent_incoming {Name : Type} {restore : Message → Py (List Byte)}
    {keep : List Byte → Bool} {wiring : Wiring Name} {observations : Observations Name restore}
    {sent : List (Port × List Byte)}
    (h : ∀ link ∈ wiring, incoming (observations link.1) = seenAt keep link.2 sent) :
    SeenAsSent keep wiring observations sent := by
  intro link hlink
  rw [h link hlink, seenAt, List.filter_filter]
  simp

theorem seenAsSent_observed {Name : Type} {wiring : Wiring Name} {port : Name → Port}
    (hport : ∀ link ∈ wiring, port link.1 = link.2) (keep : List Byte → Bool)
    (sent : List (Port × List Byte)) :
    SeenAsSent keep wiring (fun host => observed (seenAt keep (port host) sent)) sent := by
  refine seenAsSent_incoming fun link hlink => ?_
  rw [incoming_observed, hport link hlink]

/-- The switch does with the probe what the test expects: of the copies it makes, those
with the marker go where they are wanted. -/
structure Agrees {Name P : Type} (copies : Port × List Byte → List (Port × List Byte))
    (keep : List Byte → Bool) (wiring : Wiring Name) (sender : P → Name) (frame : P → List Byte)
    (wanted : Name → P → List (List Byte)) (item : P) : Prop where
  complete : 14 ≤ (frame item).length
  known : sender item ∈ wiring.map Prod.fst
  seen : ∀ link ∈ wiring, sender item = link.1 → ∀ out ∈ wiring,
    seenAt keep out.2 (copies (link.2, frame item)) = wanted out.1 item

section
variable {Name P : Type} [DecidableEq Name] {copies : Port × List Byte → List (Port × List Byte)}
  {keep : List Byte → Bool} {wiring : Wiring Name} {sender : P → Name} {frame : P → List Byte}
  {wanted : Name → P → List (List Byte)} {probes : List P}

theorem mem_traffic {link : Name × Port} (hlink : link ∈ wiring) {item : P} (hi : item ∈ probes)
    (hs : sender item = link.1) :
    (link.2, frame item) ∈ traffic wiring (framesFrom sender frame probes) := by
  refine List.mem_flatMap.mpr ⟨link, hlink, List.mem_map_of_mem ?_⟩
  exact List.mem_map_of_mem (List.mem_filter.mpr ⟨hi, decide_eq_true hs⟩)

/-- The probes, host by host, leave at each port what is wanted there. -/
theorem traffic_seen (hn : (wiring.map Prod.fst).Nodup)
    (h : ∀ item ∈ probes, Agrees copies keep wiring sender frame wanted item)
    {out : Name × Port} (hout : out ∈ wiring) :
    ((traffic wiring (framesFrom sender frame probes)).flatMap fun a =>
      seenAt keep out.2 (copies a)).Perm (probes.flatMap (wanted out.1)) := by
  have hlink : ∀ link ∈ wiring,
      (((framesFrom sender frame probes link.1).map (link.2, ·)).flatMap fun a =>
        seenAt keep out.2 (copies a)) =
      (probes.filter fun item => sender item = link.1).flatMap (wanted out.1) := by
    intro link hlink
    rw [framesFrom, List.map_map, List.flatMap_map]
    refine List.flatMap_congr fun item hitem => ?_
    obtain ⟨hmem, hs⟩ := List.mem_filter.mp hitem
    exact (h item hmem).seen link hlink (of_decide_eq_true hs) out hout
  have hsplit := perm_flatMap_key sender probes hn fun item hitem => (h item hitem).known
  rw [traffic, List.flatMap_assoc, List.flatMap_congr hlink]
  refine List.Perm.symm ((hsplit.flatMap_right (wanted out.1)).trans (.of_eq ?_))
  rw [List.flatMap_assoc, List.flatMap_map]

variable {restore : Message → Py (List Byte)} {missing : String} {name : Name → String}
  {expected : Name → Py (List (List Byte))} {receive : Name → Py (List (List Byte))}

/-- A test that compares what every host has captured with what is wanted there passes
exactly when every host has seen, of the marked frames, those that the switch has sent to
it, whatever else the switch had to carry. -/
theorem runProbes_seen {check : Received Name → Py Unit} (hn : (wiring.map Prod.fst).Nodup)
    (h : ∀ item ∈ probes, Agrees copies keep wiring sender frame wanted item)
    (hc : ∀ frames : Name → List (List Byte),
      check ((wiring.map Prod.fst).map fun host => (host, frames host)) = .ok () ↔
        ∀ host ∈ wiring.map Prod.fst, (frames host).Perm (probes.flatMap (wanted host)))
    {observations : Observations Name restore}
    (hr : ∀ host ∈ wiring.map Prod.fst,
      receive host = .ok ((incoming (observations host)).filter keep))
    {quiet : Port × List Byte → Prop} {arrivals : List (Port × List Byte)}
    (hp : Among quiet (traffic wiring (framesFrom sender frame probes)) arrivals)
    (hq : ∀ a, quiet a → ∀ copy ∈ copies a, keep copy.2 = false) :
    runProbes (wiring.map Prod.fst) (framesFrom sender frame probes) receive check = .ok () ↔
      SeenAsSent keep wiring observations (arrivals.flatMap copies) := by
  obtain ⟨others, hp, ho⟩ := hp
  have hl : ∀ host ∈ wiring.map Prod.fst, ∀ f ∈ framesFrom sender frame probes host,
      14 ≤ f.length := by
    intro host _ f hf
    obtain ⟨item, hitem, rfl⟩ := List.mem_map.mp hf
    exact (h item (List.mem_filter.mp hitem).1).complete
  rw [runProbes_eq hl hr, hc, List.forall_mem_map]
  refine forall₂_congr fun link hlink => ?_
  have hseen := (seenAt_traffic keep link.2 hp fun a ha => hq a (ho a ha)).trans
    (traffic_seen hn h hlink)
  exact ⟨fun hperm => hperm.trans hseen.symm, fun hperm => hperm.trans hseen⟩

theorem runProbes_exact (hn : (wiring.map Prod.fst).Nodup)
    (h : ∀ item ∈ probes, Agrees copies keep wiring sender frame wanted item)
    (hw : ∀ host ∈ wiring.map Prod.fst, expected host = .ok (probes.flatMap (wanted host)))
    {observations : Observations Name restore}
    (hr : ∀ host ∈ wiring.map Prod.fst,
      receive host = .ok ((incoming (observations host)).filter keep))
    {quiet : Port × List Byte → Prop} {arrivals : List (Port × List Byte)}
    (hp : Among quiet (traffic wiring (framesFrom sender frame probes)) arrivals)
    (hq : ∀ a, quiet a → ∀ copy ∈ copies a, keep copy.2 = false) :
    runProbes (wiring.map Prod.fst) (framesFrom sender frame probes) receive
        (checkHosts (wiring.map Prod.fst) missing name expected) = .ok () ↔
      SeenAsSent keep wiring observations (arrivals.flatMap copies) :=
  runProbes_seen hn h (fun _ => checkHosts_captured hw) hr hp hq

/-- Every frame of a probe is sent once. -/
theorem traffic_frames (hn : (wiring.map Prod.fst).Nodup)
    (h : ∀ item ∈ probes, sender item ∈ wiring.map Prod.fst) :
    ((traffic wiring (framesFrom sender frame probes)).map Prod.snd).Perm (probes.map frame) := by
  have hsplit := (perm_flatMap_key sender probes hn h).map frame
  refine List.Perm.trans (.of_eq ?_) hsplit.symm
  rw [traffic, List.map_flatMap, List.map_flatMap, List.flatMap_map]
  refine List.flatMap_congr fun link _ => ?_
  rw [framesFrom, List.map_map]
  exact List.map_id _

end
end P4Cases
