import P4Cases.Firewall.Vectors
import P4Cases.Frames.SelfTest

/-! The end-to-end test of the firewall: both hosts send their frames, and what each host has
captured is compared with the allowed frames for it and counted scenario by scenario. -/
namespace P4Cases.Firewall
open Wire P4

def wiring : Wiring Host := [(.h1, 1), (.h2, 2)]

theorem wiring_port : ∀ link ∈ wiring, link.1.port = link.2 := by decide

def sendFrames : List (List Byte) → Py ℕ := sendManifest

def receiveFrames (marker : List Byte) (messages : List Message) : Py (List (List Byte)) :=
  receivePlain hasMarker 4 "capture prefix must contain four MAC bytes" marker messages

section
variable (probes : List Scenario) (received : Received Host)

def framesOf (name : Host) : List (List Byte) :=
  allFrames (probes.filter fun item => item.sender = name)

def expectedFrames (host : Host) : List (List Byte) :=
  allFrames (probes.filter fun item => item.receiver = host ∧ item.allowed = true)

def hostErrors (host : Host) : Py (List String) := do
  match received.lookup host with
  | none => throw (.runtimeError s!"missing capture from {host.name}")
  | some actual =>
      let expected := expectedFrames probes host
      if actual.Perm expected then return []
      else return [s!"{host.name} received {actual.length} frames, " ++
        s!"expected {expected.length} with exact contents"]

def scenarioErrors (item : Scenario) : Py (List String) := do
  let sources := item.frames.map source
  match received.lookup item.receiver with
  | none => throw .keyError
  | some frames =>
      let observed := frames.filter fun frame => sources.contains (source frame)
      let wanted := if item.allowed then item.frames.length else 0
      if observed.length ≠ wanted then
        return [s!"{item.name} received {observed.length}, expected {wanted}"]
      else return []

def checkDelivery : Py Unit := do
  let hosts ← [Host.h1, .h2].mapM (hostErrors probes received)
  let scenarios ← probes.mapM (scenarioErrors received)
  let errors := hosts.flatten ++ scenarios.flatten
  raiseIf (errors ≠ []) (.runtimeError ("ACL delivery differs: " ++ ", ".intercalate errors))

end

/-- `run_test`, for what the sockets of the hosts have brought. -/
def runTest (prefixBytes : List Byte) (messages : Host → List Message) : Py Unit := do
  let probes ← testVectors prefixBytes
  [Host.h1, .h2].forM fun name => do
    let frames := framesOf probes name
    let sent ← sendFrames frames
    raiseIf (sent ≠ frames.length) (.runtimeError "sender did not confirm all test frames")
  let received ← captureAll (wiring.map Prod.fst) fun host =>
    receiveFrames prefixBytes (messages host)
  checkDelivery probes received

theorem checkDelivery_ok {probes : List Scenario} {received : Received Host} :
    checkDelivery probes received = .ok () ↔
      (∀ host ∈ [Host.h1, .h2], hostErrors probes received host = .ok []) ∧
      ∀ item ∈ probes, scenarioErrors received item = .ok [] := by
  exact @collected_ok _ _ (hostErrors probes received) (scenarioErrors received) [.h1, .h2] probes
    fun errors => .runtimeError ("ACL delivery differs: " ++ ", ".intercalate errors)

/-- The scenarios of the test, their frames numbered one after the other. -/
structure Prepared (prefixBytes : List Byte) (probes : List Scenario) : Prop where
  good : ∀ item ∈ probes, item.Good prefixBytes
  numbers : (allFrames probes).map number = List.range' 1 200

section
variable {prefixBytes : List Byte} {probes : List Scenario} {item : Scenario} {frame : List Byte}

theorem mem_allFrames (hitem : item ∈ probes) (hframe : frame ∈ item.frames) :
    frame ∈ allFrames probes := List.mem_flatMap.mpr ⟨item, hitem, hframe⟩

theorem expectedFrames_sublist (host : Host) :
    (expectedFrames probes host).Sublist (allFrames probes) :=
  List.filter_sublist.flatMap Scenario.frames

namespace Prepared
variable (h : Prepared prefixBytes probes)
include h

theorem nodup_numbers : ((allFrames probes).map number).Nodup := by
  rw [h.numbers]
  exact List.nodup_range'

theorem nodup : (allFrames probes).Nodup := h.nodup_numbers.of_map

/-- No two frames of the test have the same source address. -/
theorem source_inj {frame' : List Byte} (hf : frame ∈ allFrames probes)
    (hf' : frame' ∈ allFrames probes) (hs : source frame = source frame') : frame = frame' :=
  source_injective h.nodup_numbers hf hf' hs

theorem passes_of_expected {host : Host} (hf : frame ∈ expectedFrames probes host) :
    Passes frame := by
  obtain ⟨item, hitem, hframe⟩ := List.mem_flatMap.mp hf
  obtain ⟨hprobe, hkeep⟩ := List.mem_filter.mp hitem
  exact ((h.good item hprobe).labelled frame hframe).passes.mpr (of_decide_eq_true hkeep).2

/-- When the captures are as expected, so are the counts. -/
theorem observed_eq (hitem : item ∈ probes) :
    ((expectedFrames probes item.receiver).filter fun frame =>
      (item.frames.map source).contains (source frame)).length =
        if item.allowed then item.frames.length else 0 := by
  have hown : ((expectedFrames probes item.receiver).filter fun frame =>
      (item.frames.map source).contains (source frame)) =
      (expectedFrames probes item.receiver).filter fun frame => frame ∈ item.frames := by
    refine List.filter_congr fun frame hframe => ?_
    have hall := (expectedFrames_sublist item.receiver).subset hframe
    rw [Bool.eq_iff_iff, List.contains_iff_mem, decide_eq_true_eq]
    constructor
    · intro hmem
      obtain ⟨frame', hframe', hs⟩ := List.mem_map.mp hmem
      exact h.source_inj (mem_allFrames hitem hframe') hall hs ▸ hframe'
    · exact fun hmem => List.mem_map_of_mem hmem
  rw [hown]
  split_ifs with hallowed
  · have hnodup : item.frames.Nodup := (List.nodup_flatMap.mp h.nodup).1 item hitem
    exact filter_mem_length (h.nodup.sublist (expectedFrames_sublist _)) hnodup
      fun frame hframe => List.mem_flatMap.mpr
        ⟨item, List.mem_filter.mpr ⟨hitem, decide_eq_true ⟨rfl, hallowed⟩⟩, hframe⟩
  · rw [List.length_eq_zero_iff, List.filter_eq_nil_iff]
    intro frame hframe hmem
    have hpass := h.passes_of_expected hframe
    exact hallowed (((h.good item hitem).labelled frame (of_decide_eq_true hmem)).passes.mp hpass)

/-- The check passes when every host has seen the allowed frames for it: the counts of the
scenarios are then right. -/
theorem checkDelivery_captured (frames : Host → List (List Byte)) :
    checkDelivery probes ((wiring.map Prod.fst).map fun host => (host, frames host)) = .ok () ↔
      ∀ host ∈ wiring.map Prod.fst, (frames host).Perm (expectedFrames probes host) := by
  have hlookup : ∀ host : Host, ((wiring.map Prod.fst).map fun host =>
      (host, frames host)).lookup host = some (frames host) :=
    fun host => lookup_captured frames (by cases host <;> decide)
  rw [checkDelivery_ok]
  have hhost : ∀ host, hostErrors probes ((wiring.map Prod.fst).map fun host =>
      (host, frames host)) host = .ok [] ↔ (frames host).Perm (expectedFrames probes host) := by
    intro host
    rw [hostErrors, hlookup]
    dsimp only
    by_cases hperm : (frames host).Perm (expectedFrames probes host)
    · rw [if_pos hperm]
      exact iff_of_true rfl hperm
    · rw [if_neg hperm]
      exact iff_of_false (fun hok => List.cons_ne_nil _ _ (Except.ok.inj hok)) hperm
  simp only [hhost]
  refine and_iff_left_of_imp fun hseen item hitem => ?_
  have hperm := hseen item.receiver (by cases item.receiver <;> simp)
  have hcount := (hperm.filter fun frame =>
    (item.frames.map source).contains (source frame)).length_eq.trans (h.observed_eq hitem)
  rw [scenarioErrors, hlookup]
  dsimp only
  rw [hcount, if_neg (not_not.mpr rfl)]
  rfl

end Prepared
end

/-! What the firewall sends. -/

section
variable (dmac : Table.Installed dmacEntries) (acl : Table.Installed aclEntries)
  (unset : BitVec 16) (qdepth : Port → BitVec 19) (port : Port)

/-- A frame leaves as it came. -/
theorem forward_unchanged (frame : List Byte) :
    ∀ copy ∈ (firewall dmac.table acl.table unset).forward qdepth port frame, copy.2 = frame := by
  intro copy hcopy
  rcases hp : (firewall dmac.table acl.table unset).parse port frame with ⟨e | _, payload, hdr⟩
  · rw [forward_unparsed dmac acl unset qdepth port hp] at hcopy
    cases hcopy
  · rcases parse_ok.mp hp with ⟨eth, hf, ht, -⟩ |
      ⟨eth, ip, opts, l4, hf, ht, hok, ho, hun, hports, -⟩
    · rw [forward_nonIpv4 dmac acl unset qdepth port hf ht, List.mem_singleton] at hcopy
      rw [hcopy]
    · rw [forward_ipv4 dmac acl unset qdepth port hf ht hok ho hun hports] at hcopy
      split_ifs at hcopy
      · cases hcopy
      · rw [List.mem_singleton] at hcopy
        rw [hcopy]

variable {prefixBytes : List Byte}

theorem mac_inj {host host' : Host} : host.mac.toNat = host'.mac.toNat ↔ host = host' := by
  cases host <;> cases host' <;> decide

/-- A labelled frame is seen at its receiver when it is allowed, and nowhere else. -/
theorem seenAt_forward {receiver : Host} {allowed : Bool} {frame : List Byte}
    (h : Labelled prefixBytes receiver allowed frame) (host : Host) :
    seenAt (hasMarker prefixBytes) host.port
        ((firewall dmac.table acl.table unset).forward qdepth port frame) =
      if receiver = host ∧ allowed = true then [frame] else [] := by
  obtain ⟨hmem, hone⟩ := forward_host_iff dmac acl unset qdepth port frame
  generalize (firewall dmac.table acl.table unset).forward qdepth port frame = copies at hmem hone
  have hkeep : hasMarker prefixBytes frame = true := decide_eq_true h.marked
  split_ifs with hw
  · obtain ⟨rfl, hallowed⟩ := hw
    have hin : (receiver.port, frame) ∈ copies :=
      (hmem receiver frame).mpr ⟨rfl, h.complete, h.destined, h.passes.mpr hallowed⟩
    obtain ⟨copy, rfl⟩ : ∃ copy, copies = [copy] :=
      List.length_eq_one_iff.mp (le_antisymm hone (List.length_pos_of_mem hin))
    rw [← List.mem_singleton.mp hin]
    simp [seenAt, hkeep]
  · have hnone : copies.filter (fun copy => copy.1 = host.port) = [] := by
      rw [List.filter_eq_nil_iff]
      intro copy hcopy hport
      have hcopy' : (host.port, copy.2) ∈ copies := (of_decide_eq_true hport) ▸ hcopy
      obtain ⟨-, -, hdst, hpass⟩ := (hmem host copy.2).mp hcopy'
      exact hw ⟨mac_inj.mp (h.destined.symm.trans hdst), h.passes.mp hpass⟩
    rw [seenAt, hnone]
    rfl

/-- Of the frames of one host, the other host sees the allowed ones. -/
theorem seenAt_frames {probes : List Scenario} (h : ∀ item ∈ probes, item.Good prefixBytes)
    (sender host : Host) :
    ((framesOf probes sender).flatMap fun frame => seenAt (hasMarker prefixBytes) host.port
      ((firewall dmac.table acl.table unset).forward qdepth port frame)) =
      if sender.other = host then expectedFrames probes host else [] := by
  induction probes with
  | nil => simp [framesOf, expectedFrames, allFrames]
  | cons item probes ih =>
    have hitem := h item List.mem_cons_self
    have hrest := ih fun item hi => h item (List.mem_cons_of_mem _ hi)
    rw [framesOf, expectedFrames, allFrames] at hrest ⊢
    rw [List.filter_cons, List.filter_cons]
    have hseen : (item.frames.flatMap fun frame => seenAt (hasMarker prefixBytes) host.port
        ((firewall dmac.table acl.table unset).forward qdepth port frame)) =
        if item.receiver = host ∧ item.allowed = true then item.frames else [] := by
      rw [List.flatMap_congr fun frame hframe =>
        seenAt_forward dmac acl unset qdepth port (hitem.labelled frame hframe) host]
      split_ifs
      · rw [← List.map_eq_flatMap, List.map_id']
      · simp
    -- The receiver is the host across from the sender.
    have hcross : item.receiver = host ↔ item.sender.other = host := by rw [hitem.crossed]
    simp only [decide_eq_true_eq]
    by_cases hs : item.sender = sender
    · subst hs
      rw [if_pos rfl, List.flatMap_cons, List.flatMap_append, hseen, hrest]
      simp only [hcross]
      split_ifs with hboth hhost hhost
      · rw [allFrames, allFrames, List.flatMap_cons]
      · exact absurd hboth.1 hhost
      · rfl
      · rfl
    · rw [if_neg hs, hrest]
      split_ifs with hhost hboth
      · have hsender : item.sender = sender := by
          have hother : item.sender.other = sender.other := (hcross.mp hboth.1).trans hhost.symm
          revert hother
          cases item.sender <;> cases sender <;> decide
        exact absurd hsender hs
      · rfl
      · rfl

/-- The test of the firewall passes exactly when its hosts have seen what the firewall has sent
to them: for every prefix, whatever the order in which the entries were installed, in whatever
order the frames arrive and whatever unmarked frames come along. There are forty scenarios of
five frames, and each is labelled as the firewall treats its frames. -/
theorem aclTest_exact (hp : prefixBytes.length = 4) :
    ∃ probes, testVectors prefixBytes = .ok probes ∧
      probes.map (fun item => item.frames.length) = List.replicate 40 5 ∧
      (allFrames probes).map number = List.range' 1 200 ∧
      (∀ item ∈ probes, item.Good prefixBytes) ∧ ∀ arrivals,
      Among (fun a => hasMarker prefixBytes a.2 = false) (traffic wiring (framesOf probes))
        arrivals →
      ∀ observations : Observations Host fun message => .ok message.frame,
        runTest prefixBytes observations.messages = .ok () ↔
          SeenAsSent (hasMarker prefixBytes) wiring observations
            ((firewall dmac.table acl.table unset).run (fun _ => []) qdepth () arrivals).2 := by
  obtain ⟨probes, hprobes, hgood, hnumbers, hsenders⟩ := testVectors_total hp
  have h : Prepared prefixBytes probes := ⟨hgood, hnumbers⟩
  have hlength : (allFrames probes).length = 40 * 5 := by
    rw [← List.length_map (f := number), hnumbers, List.length_range']
  refine ⟨probes, hprobes, map_length_eq_replicate (by decide) (fun item hi => (hgood item hi).five)
    hlength, hnumbers, hgood, fun arrivals hamong observations => ?_⟩
  obtain ⟨others, hperm, hquiet⟩ := hamong
  have hsend : [Host.h1, .h2].forM (fun name => do
      let frames := framesOf probes name
      let sent ← sendFrames frames
      raiseIf (sent ≠ frames.length) (.runtimeError "sender did not confirm all test frames")) =
        (.ok () : Py Unit) := by
    refine forM_ok.mpr fun name _ => ?_
    have hne : framesOf probes name ≠ [] := by
      obtain ⟨item, hitem, hsender⟩ := hsenders name
      have hfive := (hgood item hitem).five
      obtain ⟨frame, hframe⟩ := List.exists_mem_of_length_pos (show 0 < item.frames.length by omega)
      exact List.ne_nil_of_mem (mem_allFrames
        (List.mem_filter.mpr ⟨hitem, decide_eq_true hsender⟩) hframe)
    have hcomplete : ∀ frame ∈ framesOf probes name, 14 ≤ frame.length := by
      intro frame hframe
      obtain ⟨item, hitem, hmem⟩ := List.mem_flatMap.mp hframe
      exact ((hgood item (List.mem_filter.mp hitem).1).labelled frame hmem).complete
    dsimp only
    rw [sendFrames, sendManifest_ok hne hcomplete, py_ok_bind, raiseIf_ok, not_not]
  have hreceive : ∀ host ∈ wiring.map Prod.fst,
      receiveFrames prefixBytes (observations.messages host) =
        .ok ((incoming (observations host)).filter (hasMarker prefixBytes)) :=
    fun host _ => receivePlain_ok hp (observations host)
  have hseen : ∀ host : Host, (seenAt (hasMarker prefixBytes) host.port
      ((firewall dmac.table acl.table unset).run (fun _ => []) qdepth () arrivals).2).Perm
        (expectedFrames probes host) := by
    intro host
    have hnone : ∀ a ∈ others,
        ∀ copy ∈ (firewall dmac.table acl.table unset).forward qdepth a.1 a.2,
          hasMarker prefixBytes copy.2 = false := by
      intro a ha copy hcopy
      rw [forward_unchanged dmac acl unset qdepth a.1 a.2 copy hcopy]
      exact hquiet a ha
    have htraffic := seenAt_traffic (hasMarker prefixBytes) host.port hperm hnone
    have hframes := fun sender port => seenAt_frames dmac acl unset qdepth port hgood sender host
    have hall : (traffic wiring (framesOf probes)).flatMap (fun a =>
        seenAt (hasMarker prefixBytes) host.port
          ((firewall dmac.table acl.table unset).forward qdepth a.1 a.2)) =
        expectedFrames probes host := by
      simp only [traffic, wiring, List.flatMap_cons, List.flatMap_nil, List.append_nil,
        List.flatMap_append, List.flatMap_map, hframes]
      cases host <;> simp [Host.other]
    rw [V1Switch.run_stateless]
    exact htraffic.trans (.of_eq hall)
  rw [runTest, hprobes, py_ok_bind, hsend, py_ok_bind, captureAll_ok hreceive, py_ok_bind,
    h.checkDelivery_captured, SeenAsSent, List.forall_mem_map]
  refine forall₂_congr fun link hlink => ?_
  rw [← wiring_port link hlink]
  exact ⟨fun hl => hl.trans (hseen link.1).symm, fun hl => hl.trans (hseen link.1)⟩

end

/-- The frames arrive in reverse behind one without the marker, and both hosts see what is sent
to them. -/
theorem aclTest_exact_marked : ∃ probes, testVectors [2, 0, 0, 1] = .ok probes ∧
    ∃ observations : Observations Host fun message => .ok message.frame,
      runTest [2, 0, 0, 1] observations.messages = .ok () := by
  obtain ⟨probes, hprobes, -, -, -, htest⟩ := @aclTest_exact ⟨dmacEntries, .refl _⟩
    ⟨aclEntries, .refl _⟩ 0 (fun _ => 0) [2, 0, 0, 1] rfl
  let arrivals : List (Port × List Byte) :=
    (1, List.replicate 60 0xff) :: (traffic wiring (framesOf probes)).reverse
  let observations : Observations Host fun message => .ok message.frame := fun host =>
    observed (seenAt (hasMarker [2, 0, 0, 1]) host.port
      ((firewall dmacEntries aclEntries 0).run (fun _ => []) (fun _ => 0) () arrivals).2)
  have hquiet : hasMarker [2, 0, 0, 1] (List.replicate 60 0xff) = false := by decide
  exact ⟨probes, hprobes, observations,
    (htest arrivals (among_reverse hquiet _) observations).mpr
      (seenAsSent_observed wiring_port _ _)⟩

end P4Cases.Firewall
