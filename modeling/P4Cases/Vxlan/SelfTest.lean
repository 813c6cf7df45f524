import P4Cases.Frames.SelfTest
import P4Cases.Vxlan.Packets

/-! The end-to-end test of the tunnel endpoint: one host sends the inner frames, the other
captures what comes out of the tunnel, and both captures are compared with the predicted
encapsulation and counted scenario by scenario. -/
namespace P4Cases.Vxlan
open Wire P4

inductive Host where
  | h1
  | h2
  deriving DecidableEq

def wiring : Wiring Host := [(.h1, 1), (.h2, 2)]

def hostName : Host → String
  | .h1 => "h1"
  | .h2 => "h2"

/-- `frame[6:12]`. -/
def source (frame : List Byte) : List Byte := slice frame 6 12

/-- `frame[56:62]`, the source address behind the outer headers. -/
def innerSource (frame : List Byte) : List Byte := slice frame 56 62

def keeps (marker frame : List Byte) : Bool :=
  decide (slice frame 6 10 = marker ∨ source frame = outerSource)

def receiveFrames (marker : List Byte) (messages : List Message) : Py (List (List Byte)) :=
  receivePlain keeps 4 "capture prefix must contain four MAC bytes" marker messages

def sendFrames : List (List Byte) → Py ℕ := sendManifest

/-! What the test finds wrong. -/

section
variable (probes : List Scenario) (received : Received Host)

def allFrames : List (List Byte) := probes.flatMap Scenario.frames

def allowedFrames : List (List Byte) := allFrames (probes.filter Scenario.allowed)

/-- `originals.get(key)`, where a later frame replaces an earlier one. -/
def original (key : List Byte) : Option (List Byte) :=
  (allFrames probes).reverse.find? fun frame => source frame = key

/-- The outer lengths of the first frame that is not as predicted. -/
def lengthErrors : List (List Byte) → Py (List String)
  | [] => return []
  | frame :: actual => do
      match original probes (innerSource frame) with
      | some inner =>
          if 42 ≤ frame.length then
            if frame ≠ (← encapsulate inner) then
              return [s!"outer lengths IPv4={fieldAt frame 16 18} UDP={fieldAt frame 38 40}, " ++
                s!"expected IPv4={inner.length + 36} UDP={inner.length + 16}"]
          lengthErrors actual
      | none => lengthErrors actual

def hostErrors (host : Host) (wanted : List (List Byte)) : Py (List String) := do
  match received.lookup host with
  | none => throw (.runtimeError s!"missing capture from {hostName host}")
  | some actual =>
      if actual.Perm wanted then return []
      let lengths ← (if host = .h2 then lengthErrors probes actual else return [] : Py _)
      return (s!"{hostName host} received {actual.length} frames, " ++
        s!"expected {wanted.length} with exact contents") :: lengths

/-- The frames with one of these sources, encapsulated or not. -/
def observedFrom (sources frames : List (List Byte)) : ℕ :=
  frames.countP fun frame => sources.contains (innerSource frame) || sources.contains (source frame)

def scenarioErrors (item : Scenario) : Py (List String) := do
  let sources := item.frames.map source
  let observed ← [Host.h1, .h2].mapM fun host =>
    match received.lookup host with
    | some frames => .ok (observedFrom sources frames)
    | none => .error .keyError
  let wanted := if item.allowed then item.frames.length else 0
  if observed.sum ≠ wanted then
    return [s!"{item.name} received {observed.sum}, expected {wanted}"]
  else return []

def checkDelivery : Py Unit := do
  let expected ← (allowedFrames probes).mapM encapsulate
  let hosts ← [(Host.h1, []), (.h2, expected)].mapM fun item =>
    hostErrors probes received item.1 item.2
  let scenarios ← probes.mapM (scenarioErrors received)
  let errors := hosts.flatten ++ scenarios.flatten
  raiseIf (errors ≠ []) (.runtimeError ("VXLAN delivery differs: " ++ ", ".intercalate errors))

end

/-- `run_test`, for what the sockets of the hosts have brought. -/
def runTest (prefixBytes : List Byte) (messages : Host → List Message) : Py Unit := do
  let probes ← makeProbes prefixBytes
  let frames := allFrames probes
  let sent ← sendFrames frames
  raiseIf (sent ≠ frames.length) (.runtimeError "sender did not confirm all test frames")
  let received ← captureAll (wiring.map Prod.fst) fun host =>
    receiveFrames prefixBytes (messages host)
  checkDelivery probes received

/-! The check of the captures. -/

section
variable {probes : List Scenario} {received : Received Host}

theorem hostErrors_nil {host : Host} {wanted : List (List Byte)} :
    hostErrors probes received host wanted = .ok [] ↔
      ∃ actual, received.lookup host = some actual ∧ actual.Perm wanted := by
  rw [hostErrors]
  cases received.lookup host with
  | none => simp [throw, throwThe, MonadExceptOf.throw]
  | some actual =>
    simp only [Option.some.injEq, exists_eq_left']
    by_cases h : actual.Perm wanted
    · rw [if_pos h]
      exact iff_of_true rfl h
    · rw [if_neg h]
      refine iff_of_false (fun hok => ?_) h
      obtain ⟨lengths, -, hcons⟩ := py_bind_ok.mp hok
      exact List.cons_ne_nil _ _ (Except.ok.inj hcons)

theorem checkDelivery_ok {expected : List (List Byte)}
    (he : (allowedFrames probes).mapM encapsulate = .ok expected) :
    checkDelivery probes received = .ok () ↔
      (∀ item ∈ [(Host.h1, []), (.h2, expected)],
        hostErrors probes received item.1 item.2 = .ok []) ∧
      ∀ item ∈ probes, scenarioErrors received item = .ok [] := by
  rw [checkDelivery, he, py_ok_bind]
  exact @collected_ok _ _ (fun item : Host × List (List Byte) =>
    hostErrors probes received item.1 item.2) (scenarioErrors received) _ probes
      fun errors => .runtimeError ("VXLAN delivery differs: " ++ ", ".intercalate errors)

end

/-! The frames on the wire. -/

/-- The frame that leaves the tunnel for an inner frame. -/
def encapsulated (inner : List Byte) : List Byte := outer inner.length ++ inner

theorem encapsulated_ok {allowed : Bool} {frame : List Byte} (h : Inner allowed frame) :
    encapsulate frame = .ok (encapsulated frame) :=
  encapsulate_eq h.complete h.fits

theorem source_encapsulated {allowed : Bool} {frame : List Byte} (h : Inner allowed frame) :
    source (encapsulated frame) = outerSource := by
  have heth : slice (encapsulated frame) 0 14 = outerDest ++ outerSource ++ [0x08, 0x00] :=
    (carries_outer h.fits).outerEth
  rw [source, ← @slice_slice (encapsulated frame) 0 14 6 12 (by decide), heth]
  decide

theorem innerSource_encapsulated {allowed : Bool} {frame : List Byte} (h : Inner allowed frame) :
    innerSource (encapsulated frame) = source frame := by
  have hkept : (encapsulated frame).drop 50 = frame := (carries_outer h.fits).inner_kept
  rw [innerSource, source, slice, slice, ← hkept, List.drop_drop, hkept]

theorem number_eq (frame : List Byte) : number frame = beNat (slice (source frame) 4 6) := by
  rw [number, fieldAt, source, slice_slice frame (by decide)]

section
variable {probes : List Scenario} {item : Scenario} {frame : List Byte}

theorem allowedFrames_sublist : (allowedFrames probes).Sublist (allFrames probes) :=
  List.filter_sublist.flatMap Scenario.frames

theorem mem_allFrames (hitem : item ∈ probes) (hframe : frame ∈ item.frames) :
    frame ∈ allFrames probes := List.mem_flatMap.mpr ⟨item, hitem, hframe⟩

end

/-- The scenarios of the test, their frames numbered one after the other. -/
structure Prepared (probes : List Scenario) : Prop where
  good : ∀ item ∈ probes, item.Good
  numbers : (allFrames probes).map number = List.range' 1 55

namespace Prepared
variable {probes : List Scenario} (h : Prepared probes) {item : Scenario} {frame : List Byte}
include h

theorem inner (hitem : item ∈ probes) (hframe : frame ∈ item.frames) : Inner item.allowed frame :=
  (h.good item hitem).2 frame hframe

theorem inner_of_mem (hframe : frame ∈ allFrames probes) : ∃ allowed, Inner allowed frame := by
  obtain ⟨item, hitem, hmem⟩ := List.mem_flatMap.mp hframe
  exact ⟨item.allowed, h.inner hitem hmem⟩

theorem inner_allowed (hframe : frame ∈ allowedFrames probes) : Inner true frame := by
  obtain ⟨item, hitem, hmem⟩ := List.mem_flatMap.mp hframe
  obtain ⟨hprobe, hallowed⟩ := List.mem_filter.mp hitem
  exact hallowed ▸ h.inner hprobe hmem

theorem nodup_numbers : ((allFrames probes).map number).Nodup := by
  rw [h.numbers]
  exact List.nodup_range'

theorem nodup : (allFrames probes).Nodup := h.nodup_numbers.of_map

/-- No two frames of the test have the same source address. -/
theorem source_inj {frame' : List Byte} (hf : frame ∈ allFrames probes)
    (hf' : frame' ∈ allFrames probes) (hs : source frame = source frame') : frame = frame' :=
  source_injective h.nodup_numbers hf hf' hs

/-- No frame of the test has the source address of the tunnel. -/
theorem source_ne (hf : frame ∈ allFrames probes) : source frame ≠ outerSource := by
  intro hs
  have hmem : number frame ∈ List.range' 1 55 := h.numbers ▸ List.mem_map_of_mem hf
  have hnumber : number frame = 0xad01 := by
    rw [number_eq, hs]
    decide
  rw [hnumber] at hmem
  revert hmem
  decide

/-- An encapsulated frame is counted for its own scenario only. -/
theorem observed_iff (hitem : item ∈ probes) (hframe : frame ∈ allowedFrames probes) :
    (innerSource (encapsulated frame) ∈ item.frames.map source ∨
      source (encapsulated frame) ∈ item.frames.map source) ↔ frame ∈ item.frames := by
  have hinner := h.inner_allowed hframe
  have hall : frame ∈ allFrames probes := allowedFrames_sublist.subset hframe
  rw [innerSource_encapsulated hinner, source_encapsulated hinner]
  constructor
  · rintro (hmem | hmem)
    · obtain ⟨frame', hframe', hs⟩ := List.mem_map.mp hmem
      exact h.source_inj (mem_allFrames hitem hframe') hall hs ▸ hframe'
    · obtain ⟨frame', hframe', hs⟩ := List.mem_map.mp hmem
      exact absurd hs (h.source_ne (mem_allFrames hitem hframe'))
  · exact fun hmem => Or.inl (List.mem_map_of_mem hmem)

/-- When the captures are as predicted, so are the counts. -/
theorem observed_eq (hitem : item ∈ probes) :
    observedFrom (item.frames.map source) ((allowedFrames probes).map encapsulated) =
      if item.allowed then item.frames.length else 0 := by
  have hown : observedFrom (item.frames.map source) ((allowedFrames probes).map encapsulated) =
      ((allowedFrames probes).filter fun frame => frame ∈ item.frames).length := by
    rw [observedFrom, List.countP_map, List.countP_eq_length_filter]
    refine congrArg _ (List.filter_congr fun frame hframe => ?_)
    rw [Bool.eq_iff_iff, decide_eq_true_eq, ← h.observed_iff hitem hframe, Function.comp_apply,
      Bool.or_eq_true, List.contains_iff_mem, List.contains_iff_mem]
  rw [hown]
  split_ifs with hallowed
  · have hnodup : item.frames.Nodup := (List.nodup_flatMap.mp h.nodup).1 item hitem
    exact filter_mem_length (h.nodup.sublist allowedFrames_sublist) hnodup fun frame hframe =>
      List.mem_flatMap.mpr ⟨item, List.mem_filter.mpr ⟨hitem, hallowed⟩, hframe⟩
  · rw [List.length_eq_zero_iff, List.filter_eq_nil_iff]
    intro frame hframe hmem
    have htunnel := (h.inner_allowed hframe).tunnelled.mpr rfl
    exact hallowed ((h.inner hitem (of_decide_eq_true hmem)).tunnelled.mp htunnel)

theorem expected_eq : (allowedFrames probes).mapM encapsulate =
    .ok ((allowedFrames probes).map encapsulated) :=
  mapM_ok fun _ hframe => encapsulated_ok (h.inner_allowed hframe)

/-- The check passes when nothing has come back to the sender and the receiver has seen the
encapsulated frames: the counts of the scenarios are then right. -/
theorem checkDelivery_captured (frames : Host → List (List Byte)) :
    checkDelivery probes ((wiring.map Prod.fst).map fun host => (host, frames host)) = .ok () ↔
      frames .h1 = [] ∧ (frames .h2).Perm ((allowedFrames probes).map encapsulated) := by
  have hreceived : (wiring.map Prod.fst).map (fun host => (host, frames host)) =
      [(.h1, frames .h1), (.h2, frames .h2)] := rfl
  rw [hreceived, checkDelivery_ok h.expected_eq]
  simp only [List.forall_mem_cons, List.not_mem_nil, false_implies, implies_true, and_true,
    hostErrors_nil]
  have hlookup₁ : [(Host.h1, frames .h1), (.h2, frames .h2)].lookup .h1 = some (frames .h1) := rfl
  have hlookup₂ : [(Host.h1, frames .h1), (.h2, frames .h2)].lookup .h2 = some (frames .h2) := rfl
  rw [hlookup₁, hlookup₂]
  simp only [Option.some.injEq, exists_eq_left', List.perm_nil]
  refine and_iff_left_of_imp fun hseen item hitem => ?_
  obtain ⟨hnil, hperm⟩ := hseen
  have hcount : observedFrom (item.frames.map source) (frames .h2) =
      if item.allowed then item.frames.length else 0 := by
    rw [← h.observed_eq hitem]
    exact hperm.countP_eq _
  have hmapM : ([Host.h1, .h2].mapM fun host =>
      match [(Host.h1, frames .h1), (.h2, frames .h2)].lookup host with
      | some frames => .ok (observedFrom (item.frames.map source) frames)
      | none => .error .keyError) =
      (.ok [0, if item.allowed then item.frames.length else 0] : Py (List ℕ)) := by
    rw [← hcount, hnil]
    rfl
  rw [scenarioErrors]
  dsimp only
  rw [hmapM, py_ok_bind, if_neg (by simp)]
  rfl

end Prepared

section
variable (qdepth : Port → BitVec 19) (marker : List Byte) (port : Port)

/-- The copy of a frame, where there is one, is kept by the captures. -/
theorem seenAt_forward {allowed : Bool} {frame : List Byte} (h : Inner allowed frame)
    (inPort : Port) :
    seenAt (keeps marker) port ((endpoint vtepEntries).forward qdepth inPort frame) =
      if allowed = true ∧ port = 2 then [encapsulated frame] else [] := by
  have hkeep : keeps marker (encapsulated frame) = true :=
    decide_eq_true (Or.inr (source_encapsulated h))
  rw [forward_eq]
  by_cases ha : allowed = true
  · rw [if_pos ⟨h.complete, h.fits, h.tunnelled.mpr ha⟩]
    change seenAt (keeps marker) port [(2, encapsulated frame)] = _
    by_cases hp : port = 2
    · rw [if_pos ⟨ha, hp⟩]
      simp [seenAt, hp, hkeep]
    · rw [if_neg fun hall => hp hall.2, seenAt,
        List.filter_cons_of_neg fun he => hp (of_decide_eq_true he).symm]
      rfl
  · rw [if_neg fun hall => ha (h.tunnelled.mp hall.2.2), if_neg fun hall => ha hall.1]
    rfl

/-- Of all frames of the test, the allowed ones come out, at the second port. -/
theorem seenAt_frames {probes : List Scenario} (h : ∀ item ∈ probes, item.Good) (inPort : Port) :
    ((allFrames probes).flatMap fun frame =>
      seenAt (keeps marker) port ((endpoint vtepEntries).forward qdepth inPort frame)) =
      if port = 2 then (allowedFrames probes).map encapsulated else [] := by
  induction probes with
  | nil => simp [allFrames, allowedFrames]
  | cons item probes ih =>
    have hitem : (item.frames.flatMap fun frame =>
        seenAt (keeps marker) port ((endpoint vtepEntries).forward qdepth inPort frame)) =
        if item.allowed = true ∧ port = 2 then item.frames.map encapsulated else [] := by
      have hgood := (h item List.mem_cons_self).2
      rw [List.flatMap_congr fun frame hframe =>
        seenAt_forward qdepth marker port (hgood frame hframe) inPort]
      split_ifs
      · rw [← List.map_eq_flatMap]
      · simp
    have hsplit : allFrames (item :: probes) = item.frames ++ allFrames probes := List.flatMap_cons
    have hallowed : allowedFrames (item :: probes) =
        (if item.allowed = true then item.frames else []) ++ allowedFrames probes := by
      rw [allowedFrames, List.filter_cons]
      split_ifs
      · exact List.flatMap_cons
      · rfl
    rw [hsplit, List.flatMap_append, hitem, ih fun item hi => h item (List.mem_cons_of_mem _ hi),
      hallowed]
    by_cases ha : item.allowed = true
    · rw [if_pos ha, List.map_append]
      by_cases hp : port = 2
      · rw [if_pos ⟨ha, hp⟩, if_pos hp, if_pos hp]
      · rw [if_neg fun hall => hp hall.2, if_neg hp, if_neg hp]
        rfl
    · rw [if_neg ha, if_neg fun hall => ha hall.1]
      rfl

/-- The test of the tunnel endpoint passes exactly when its hosts have seen what the endpoint
has sent: for every prefix, in whatever order the frames arrive, and among any frames that are
not addressed to the tunnel. There are eleven scenarios of five frames, numbered one after the
other, and each is labelled as the endpoint treats its frames. -/
theorem tunnelTest_exact {prefixBytes : List Byte} (hp : prefixBytes.length = 4) :
    ∃ probes, makeProbes prefixBytes = .ok probes ∧
      probes.map (fun item => item.frames.length) = List.replicate 11 5 ∧
      (allFrames probes).map number = List.range' 1 55 ∧
      (∀ item ∈ probes, item.Good) ∧ ∀ arrivals : List (Port × List Byte),
      Among (fun a => dstMac a.2 ≠ 0x000000111111) ((allFrames probes).map (1, ·)) arrivals →
      ∀ observations : Observations Host fun message => .ok message.frame,
        runTest prefixBytes observations.messages = .ok () ↔
          SeenAsSent (keeps prefixBytes) wiring observations
            ((endpoint vtepEntries).run (fun _ => []) qdepth () arrivals).2 := by
  obtain ⟨probes, hprobes, hgood, hnumbers⟩ := makeProbes_total hp
  have h : Prepared probes := ⟨hgood, hnumbers⟩
  have hlength : (allFrames probes).length = 55 := by
    rw [← List.length_map (f := number), h.numbers, List.length_range']
  refine ⟨probes, hprobes, map_length_eq_replicate (by decide) (fun item hi => (hgood item hi).1)
    hlength, hnumbers, hgood, fun arrivals hamong observations => ?_⟩
  obtain ⟨others, hperm, hquiet⟩ := hamong
  have hne : allFrames probes ≠ [] := by
    refine List.ne_nil_of_length_pos ?_
    rw [hlength]
    decide
  have hsend : sendFrames (allFrames probes) = .ok (allFrames probes).length := by
    refine sendManifest_ok hne fun frame hframe => ?_
    obtain ⟨allowed, hinner⟩ := h.inner_of_mem hframe
    exact hinner.complete
  have hreceive : ∀ host ∈ wiring.map Prod.fst,
      receiveFrames prefixBytes (observations.messages host) =
        .ok ((incoming (observations host)).filter (keeps prefixBytes)) :=
    fun host _ => receivePlain_ok hp (observations host)
  have hseen : ∀ port, (seenAt (keeps prefixBytes) port
      ((endpoint vtepEntries).run (fun _ => []) qdepth () arrivals).2).Perm
        (if port = 2 then (allowedFrames probes).map encapsulated else []) := by
    intro port
    have hnone : ∀ a ∈ others, ∀ copy ∈ (endpoint vtepEntries).forward qdepth a.1 a.2,
        keeps prefixBytes copy.2 = false := by
      intro a ha copy hcopy
      rw [forward_eq, if_neg fun hall => hquiet a ha hall.2.2] at hcopy
      cases hcopy
    have htraffic := seenAt_traffic (keeps prefixBytes) port hperm hnone
    rw [List.flatMap_map] at htraffic
    rw [V1Switch.run_stateless, ← seenAt_frames qdepth prefixBytes port hgood 1]
    exact htraffic
  rw [runTest, hprobes, py_ok_bind]
  dsimp only
  rw [hsend, py_ok_bind, raiseIf_pass (not_not.mpr rfl), captureAll_ok hreceive, py_ok_bind,
    h.checkDelivery_captured]
  have hports : SeenAsSent (keeps prefixBytes) wiring observations
      ((endpoint vtepEntries).run (fun _ => []) qdepth () arrivals).2 ↔
      ∀ link ∈ wiring, ((incoming (observations link.1)).filter (keeps prefixBytes)).Perm
        (if link.2 = 2 then (allowedFrames probes).map encapsulated else []) :=
    forall₂_congr fun link _ => ⟨fun hl => hl.trans (hseen link.2),
      fun hl => hl.trans (hseen link.2).symm⟩
  rw [hports]
  simp [wiring]

end

/-- The frames arrive in reverse behind one that is not for the tunnel, and both hosts see what
is sent to them. -/
theorem tunnelTest_exact_marked : ∃ probes, makeProbes [2, 0, 0, 1] = .ok probes ∧
    ∃ observations : Observations Host fun message => .ok message.frame,
      runTest [2, 0, 0, 1] observations.messages = .ok () := by
  obtain ⟨probes, hprobes, -, -, -, htest⟩ := @tunnelTest_exact (fun _ => 0) [2, 0, 0, 1] rfl
  let arrivals : List (Port × List Byte) :=
    (2, List.replicate 60 0xff) :: ((allFrames probes).map (1, ·)).reverse
  let observations : Observations Host fun message => .ok message.frame := fun host =>
    observed (seenAt (keeps [2, 0, 0, 1]) (match host with | .h1 => 1 | .h2 => 2)
      ((endpoint vtepEntries).run (fun _ => []) (fun _ => 0) () arrivals).2)
  have hquiet : dstMac (List.replicate 60 0xff) ≠ 0x000000111111 := by decide
  exact ⟨probes, hprobes, observations,
    (htest arrivals (among_reverse hquiet _) observations).mpr
      (@seenAsSent_observed Host wiring (fun host => match host with | .h1 => 1 | .h2 => 2)
        (by decide) _ _)⟩

end P4Cases.Vxlan
