import P4Cases.BroadcastSwitch.Delivery
import P4Cases.Frames.Hosts

/-! The end-to-end test of the broadcast switch: its probes among any other traffic, and
what a pass of the test says about the frames at the hosts. -/
namespace P4Cases.BroadcastSwitch
open Wire P4 Layer2

def receiveFrames (order : ByteOrder) (marker : List Byte) (messages : List Message) :
    Py (List (List Byte)) :=
  receiveTagged order hasMarker marker messages

/-- The frames a host is to get. -/
def expectedFrames (probes : List Probe) (name : String) : List (List Byte) :=
  (probes.filter fun item => name ∈ item.receivers).map Probe.frame

def checkDelivery (probes : List Probe) (received : Received String) (hosts : ℕ) : Py Unit :=
  checkHosts ((wiring hosts).map Prod.fst) "capture replies must include every host" id
    (fun name => .ok (expectedFrames probes name)) received

/-- `run_probes`, for the messages that the hosts' sockets bring. -/
def runTest (order : ByteOrder) (marker : List Byte) (hosts : ℕ) (probes : List Probe)
    (messages : String → List Message) : Py Unit :=
  runProbes ((wiring hosts).map Prod.fst) (framesFrom Probe.sender Probe.frame probes)
    (fun name => receiveFrames order marker (messages name))
    (fun received => checkDelivery probes received hosts)

section
variable {n : ℕ} (dmac : Table.Installed (dmacEntries n))
  (select : Table.Installed (selectEntries n)) (qdepth : Port → BitVec 19)

/-- Whatever the switch copies, it copies unchanged. -/
theorem copies_unchanged (port : Port) (frame : List Byte) :
    ∀ copy ∈ copies n dmac.table select.table qdepth port frame, copy.2 = frame := by
  intro copy hcopy
  by_cases hl : frame.length < 14
  · rw [copies_short dmac select qdepth port hl] at hcopy
    exact absurd hcopy List.not_mem_nil
  · obtain ⟨eth, payload, rfl⟩ : ∃ (e : Ethernet) (p : _), frame = Header.encode e ++ p :=
      Header.exists_encode_append (by simpa using hl)
    rw [copies_eq] at hcopy
    obtain ⟨out, -, rfl⟩ := List.mem_map.mp hcopy
    rfl

theorem expectedReceivers_range {call : Call} (h : call.Sound n) :
    (expectedReceivers n call).Nodup ∧ ∀ q ∈ expectedReceivers n call, 1 ≤ q ∧ q ≤ n := by
  unfold expectedReceivers
  split_ifs
  · refine ⟨(List.nodup_range').filter _, fun q hq => ?_⟩
    have hrange := List.mem_range'_1.mp (List.mem_filter.mp hq).1
    omega
  · simpa using h.receiver
  · simp

/-- A probe that has arrived is seen at each host that is to get it. -/
theorem seen_by_receiver (hn : n ≤ 128) {marker : List Byte} {call : Call} {item : Probe}
    (h : item.Of marker n call) {arrivals : List (Port × List Byte)}
    (ha : (BitVec.ofNat 9 call.sender, item.frame) ∈ arrivals) {q : ℕ}
    (hq : q ∈ expectedReceivers n call) :
    item.frame ∈ seenAt (hasMarker marker) (BitVec.ofNat 9 q)
      ((switch dmac.table select.table).run (replicaPorts (multicastGroups n)) qdepth ()
        arrivals).2 := by
  refine mem_seenAt ?_ (decide_eq_true h.marked)
  have hcopy : (BitVec.ofNat 9 q, item.frame) ∈
      copies n dmac.table select.table qdepth (BitVec.ofNat 9 call.sender) item.frame := by
    rw [copies_probe dmac select qdepth hn h]
    exact List.mem_map_of_mem hq
  rw [V1Switch.run_stateless]
  exact List.mem_flatMap.mpr ⟨_, ha, hcopy⟩

/-- The switch does with a probe what the test expects. -/
theorem agrees (hn : n ≤ 128) {marker : List Byte} {call : Call} {item : Probe}
    (h : item.Of marker n call) :
    Agrees (fun a => copies n dmac.table select.table qdepth a.1 a.2) (hasMarker marker) (wiring n)
      Probe.sender Probe.frame
      (fun name item => if name ∈ item.receivers then [item.frame] else []) item where
  complete := (by decide : 14 ≤ 60).trans h.length
  known := by
    rw [h.sender]
    exact mem_names h.sound.sender.1 h.sound.sender.2
  seen := by
    intro link hlink hsender out hout
    obtain ⟨number, h₁, h₂, rfl⟩ := mem_wiring.mp hlink
    obtain ⟨q, hq₁, hq₂, rfl⟩ := mem_wiring.mp hout
    obtain rfl : call.sender = number := hostName_inj.mp (h.sender.symm.trans hsender)
    obtain ⟨hnodup, hrange⟩ := expectedReceivers_range h.sound
    rw [copies_probe dmac select qdepth hn h, h.receivers]
    refine seenAt_copied hnodup (fun r hr => ?_) (by omega) (decide_eq_true h.marked)
    have hbound := hrange r hr
    omega

end

theorem expectedFrames_eq (probes : List Probe) (name : String) :
    expectedFrames probes name =
      probes.flatMap fun item => if name ∈ item.receivers then [item.frame] else [] := by
  induction probes with
  | nil => rfl
  | cons item probes ih =>
    rw [List.flatMap_cons, ← ih, expectedFrames, List.filter_cons]
    by_cases h : name ∈ item.receivers <;> simp [h, expectedFrames]

/-- The test passes exactly when each host has seen the marked frames that the switch has
sent to it: the probes are built for every marker and every number of hosts, each as its call
asks for; they may arrive in any order and among any frames without the marker, and the kernel
may have taken their tags out, which `restore_vlan` undoes. -/
theorem broadcastTest_exact {n : ℕ} (h₁ : 1 ≤ n) (h₂ : n ≤ 128) {marker : List Byte}
    (hm : ValidMarker marker) (dmac : Table.Installed (dmacEntries n))
    (select : Table.Installed (selectEntries n)) (qdepth : Port → BitVec 19) (order : ByteOrder) :
    ∃ calls probes, allCalls n = .ok calls ∧ makeProbes marker n = .ok probes ∧
      List.Forall₂ (Probe.Of marker n) calls.flatten probes ∧
      probes.length = n * ((n - 1) * (if n ≤ 4 then 3 else 1) + 66) ∧ ∀ arrivals,
      Among (fun a => hasMarker marker a.2 = false)
        (traffic (wiring n) (framesFrom Probe.sender Probe.frame probes)) arrivals →
      ∀ sightings : String → List (Sighting order),
        runTest order marker n probes (fun name => (sightings name).map Sighting.message) =
            .ok () ↔
          SeenAsSent (hasMarker marker) (wiring n)
            (fun name => (sightings name).map Sighting.observation)
            ((switch dmac.table select.table).run (replicaPorts (multicastGroups n)) qdepth ()
              arrivals).2 := by
  obtain ⟨probes, hprobes⟩ := makeProbes_total h₁ h₂ hm
  obtain ⟨calls, hcalls, hall⟩ := makeProbes_calls hprobes
  refine ⟨calls, probes, hcalls, hprobes, hall, ?_, fun arrivals hp sightings => ?_⟩
  · rw [← hall.length_eq, allCalls_length h₂ hcalls]
  have hagree : ∀ item ∈ probes,
      Agrees (fun a => copies n dmac.table select.table qdepth a.1 a.2) (hasMarker marker)
        (wiring n) Probe.sender Probe.frame
        (fun name item => if name ∈ item.receivers then [item.frame] else []) item := by
    intro item hitem
    obtain ⟨call, -, hof⟩ := exists_of_mem_right hall hitem
    exact agrees dmac select qdepth h₂ hof
  have hquiet : ∀ a : Port × List Byte, hasMarker marker a.2 = false →
      ∀ copy ∈ copies n dmac.table select.table qdepth a.1 a.2,
        hasMarker marker copy.2 = false := by
    intro a ha copy hcopy
    rw [copies_unchanged dmac select qdepth a.1 a.2 copy hcopy]
    exact ha
  let observations : Observations String (restoreMessage order) :=
    fun name => (sightings name).map Sighting.observation
  have hmessages : ∀ name, (sightings name).map Sighting.message = observations.messages name := by
    intro name
    rw [Observations.messages, List.map_map]
    rfl
  have hreceive : ∀ name ∈ (wiring n).map Prod.fst,
      receiveFrames order marker ((sightings name).map Sighting.message) =
        .ok ((incoming (observations name)).filter (hasMarker marker)) := by
    intro name _
    rw [hmessages]
    exact receiveTagged_ok hm.1 (observations name)
  rw [V1Switch.run_stateless]
  exact runProbes_exact (wiring_nodup n) hagree
    (fun name _ => congrArg _ (expectedFrames_eq probes name)) hreceive hp hquiet

/-- The switch delivers a call of `add` with a tag: that of the first host for the second. -/
def vlanCall : Call :=
  { name := s!"content-1-{Kind.vlan.label}", sender := 1, receiver := 2, kind := .vlan }

theorem vlanCall_mem {calls : List (List Call)} (h : allCalls 2 = .ok calls) :
    vlanCall ∈ calls.flatten := by
  obtain ⟨built, hbuilt, hrun⟩ :=
    exists_of_mem_left (mapM_eq_ok.mp h) (show 1 ∈ List.range' 1 2 by decide)
  rw [senderCalls, hostTarget_ok (by decide) (by decide), py_ok_bind] at hrun
  obtain rfl := Except.ok.inj hrun
  have hcall : vlanCall ∈ contentCalls 1 2 := List.mem_map_of_mem (show Kind.vlan ∈ _ by decide)
  refine List.mem_flatten.mpr ⟨_, hbuilt, ?_⟩
  simp only [List.mem_append]
  exact Or.inl (Or.inl (Or.inl (Or.inr hcall)))

/-- A tag that the kernel has taken out is missing from the frame that is read. -/
theorem Sighting.ofWire_tagged (order : ByteOrder) {wire : List Byte} (hl : 18 ≤ wire.length)
    (ht : fieldAt wire 12 14 = 0x8100) :
    (Sighting.ofWire order wire).message.frame ≠ (Sighting.ofWire order wire).wire := by
  rw [Sighting.ofWire, dif_pos ⟨hl, Or.inl ht⟩]
  intro he
  have hlen : (wire.take 12 ++ wire.drop 16).length = wire.length := congrArg List.length he
  rw [List.length_append, List.length_take, List.length_drop] at hlen
  omega

/-- A run with two hosts: the probes arrive in reverse behind a frame without the marker, and
the kernel takes the tag out of each tagged frame. -/
theorem broadcastTest_exact_two : ∃ probes, makeProbes [2, 0, 0, 1] 2 = .ok probes ∧
    ∃ sightings : String → List (Sighting .little),
      (∃ s ∈ sightings (hostName 2), s.message.frame ≠ s.wire) ∧
      runTest .little [2, 0, 0, 1] 2 probes (fun name => (sightings name).map Sighting.message) =
        .ok () := by
  obtain ⟨calls, probes, hcalls, hprobes, hall, -, htest⟩ :=
    @broadcastTest_exact 2 (by decide) (by decide) [2, 0, 0, 1] ⟨rfl, rfl⟩
      ⟨dmacEntries 2, .refl _⟩ ⟨selectEntries 2, .refl _⟩ (fun _ => 0) .little
  let arrivals : List (Port × List Byte) := (1, broadcastFrame) ::
    (traffic (wiring 2) (framesFrom Probe.sender Probe.frame probes)).reverse
  let sent := ((switch (dmacEntries 2) (selectEntries 2)).run (replicaPorts (multicastGroups 2))
    (fun _ => 0) () arrivals).2
  let sightings : String → List (Sighting .little) := fun name =>
    (seenAt (hasMarker [2, 0, 0, 1]) (if name = hostName 1 then 1 else 2) sent).map
      (Sighting.ofWire .little)
  have hother : hostName 2 ≠ hostName 1 := fun h => absurd (hostName_inj.mp h) (by decide)
  have hquiet : hasMarker [2, 0, 0, 1] broadcastFrame = false := by decide
  refine ⟨probes, hprobes, sightings, ?_,
    (htest arrivals (among_reverse hquiet _) sightings).mpr (seenAsSent_incoming ?_)⟩
  · obtain ⟨probe, hprobe, hof⟩ := exists_of_mem_left hall (vlanCall_mem hcalls)
    have harrives : (1, probe.frame) ∈ arrivals :=
      List.mem_cons_of_mem _ (List.mem_reverse.mpr
        (mem_traffic (mem_wiring.mpr ⟨1, by decide, by decide, rfl⟩) hprobe hof.sender))
    have hseen : probe.frame ∈ seenAt (hasMarker [2, 0, 0, 1]) 2 sent :=
      seen_by_receiver ⟨dmacEntries 2, .refl _⟩ ⟨selectEntries 2, .refl _⟩ (fun _ => 0) (by decide)
        hof harrives (List.mem_singleton_self 2)
    refine ⟨_, List.mem_map_of_mem ?_, Sighting.ofWire_tagged .little
      ((by decide : 18 ≤ 60).trans hof.length) hof.etherType⟩
    rw [if_neg hother]
    exact hseen
  · intro link hlink
    obtain ⟨number, h₁, h₂, rfl⟩ := mem_wiring.mp hlink
    rw [incoming_ofWire]
    interval_cases number
    · rw [if_pos rfl]
      rfl
    · rw [if_neg hother]
      rfl

end P4Cases.BroadcastSwitch
