import P4Cases.FlowCounter.MakeBatches
import P4Cases.FlowCounter.ReadBack
import P4Cases.Frames.SelfTest

/-! The end-to-end test of the flow counter, batch after batch: what the hosts capture, and
the dumps of the register array between the batches. -/
namespace P4Cases.FlowCounter
open Wire P4 Text Text.Regex

/-- What a run of the command line interface returns. -/
structure Reply where
  returncode : ℤ
  stdout : List Char
  stderr : List Char

section
variable (T : Tables) (thriftPort : ℤ)

def thriftCommand (reply : Reply) : Py (List Char) := do
  raiseIf (¬ (1 ≤ thriftPort ∧ thriftPort ≤ 65535)) (.valueError "invalid Thrift port")
  raiseIf (reply.returncode ≠ 0 ∨
      ((errorReply T).search (reply.stdout ++ reply.stderr)).isSome = true)
    (.runtimeError ("Thrift command failed: " ++ String.ofList (T.strip reply.stdout) ++ " " ++
      String.ofList (T.strip reply.stderr)))
  return reply.stdout

def thriftRegisterDump (reply : Reply) : Py (List ℤ) := do
  parseRegisterDump T (← thriftCommand T thriftPort reply)

/-- `seed_register`, with the replies before and after the array is written. -/
def seedRegister (slot value : ℤ) (replies : Reply × Reply) : Py (List ℤ) := do
  raiseIf (¬ (0 ≤ slot ∧ slot < registerSize) ∨ ¬ (0 ≤ value ∧ value < counterModulus))
    (.valueError "invalid register seed index or value")
  let before ← thriftRegisterDump T thriftPort replies.1
  let output ← thriftCommand T thriftPort replies.2
  let after ← parseRegisterDump T output
  raiseIf (after ≠ before.set slot.toNat value)
    (.runtimeError "register seed did not change only the requested slot")
  return after

end

/-! The probes of one batch. -/

def wiring : Wiring Host := [(.h1, 1), (.h2, 2)]

def receiveFrames (marker : List Byte) (messages : List Message) : Py (List (List Byte)) :=
  receivePlain hasMarker 4 "capture needs four MAC bytes and a positive duration" marker messages

def hostName : Host → String
  | .h1 => "h1"
  | .h2 => "h2"

/-- The frames a host is to get. -/
def expectedFrames (probes : List TestProbe) (host : Host) : List (List Byte) :=
  (probes.filter fun item => item.allowed = true ∧ item.receiver = host).map
    fun item => item.frame

def checkDelivery (probes : List TestProbe) (received : Received Host) : Py Unit := do
  raiseIf (¬ (received.map Prod.fst ⊆ [.h1, .h2] ∧ [.h1, .h2] ⊆ received.map Prod.fst))
    (.runtimeError "capture replies must include both hosts")
  [Host.h1, .h2].forM fun host =>
    match received.lookup host with
    | some frames => raiseIf (¬ frames.Perm (expectedFrames probes host))
        (.runtimeError s!"{hostName host} did not receive exactly the expected complete frames")
    | none => .error .keyError

/-- What comes back during one batch: dumps of the array, for the seed where there is one and
around the probes, and the messages at the sockets of the hosts. -/
structure BatchReplies where
  seed : Reply × Reply
  before : Reply
  messages : Host → List Message
  after : Reply

section
variable (T : Tables) (thriftPort : ℤ) (prefixBytes : List Byte)

def runBatch (probes : List TestProbe) (replies : BatchReplies) : Py Unit := do
  let before ← thriftRegisterDump T thriftPort replies.before
  runProbes (wiring.map Prod.fst)
    (framesFrom TestProbe.sender (fun item => item.frame) probes)
    (fun host => receiveFrames prefixBytes (replies.messages host)) (checkDelivery probes)
  let after ← thriftRegisterDump T thriftPort replies.after
  checkCounts before after (probes.map TestProbe.toProbe)

/-- One turn of the loop of `run_test`; the last batch starts with a slot about to wrap. -/
def runTurn (batch : String × List TestProbe) (replies : BatchReplies) : Py Unit := do
  if batch.1 = "wraparound" then
    let _ ← seedRegister T thriftPort 0 (counterModulus - 2) replies.seed
    runBatch T thriftPort prefixBytes batch.2 replies
  else runBatch T thriftPort prefixBytes batch.2 replies

/-- `run_test`, for the replies to its commands. -/
def runTest (seed : Reply × Reply) (idle : Reply) (replies : List BatchReplies) : Py Unit := do
  let batches ← makeBatches prefixBytes
  let before ← seedRegister T thriftPort 1023 42 seed
  checkCounts before (← thriftRegisterDump T thriftPort idle) []
  (batches.zip replies).forM fun turn => runTurn T thriftPort prefixBytes turn.1 turn.2

end

/-! What a faithful interface replies. -/

/-- The reply reports no error and is read as the array. -/
structure Shows (T : Tables) (regs : Registers) (reply : Reply) : Prop where
  returncode : reply.returncode = 0
  quiet : ((errorReply T).search (reply.stdout ++ reply.stderr)).isSome = false
  dump : parseRegisterDump T reply.stdout = .ok (snapshot regs)

section
variable {T : Tables} {thriftPort : ℤ} (ht : 1 ≤ thriftPort ∧ thriftPort ≤ 65535)
  {regs : Registers} {reply : Reply}

include ht

theorem Shows.thriftCommand (h : Shows T regs reply) :
    thriftCommand T thriftPort reply = .ok reply.stdout := by
  have hgood : ¬ (reply.returncode ≠ 0 ∨
      ((errorReply T).search (reply.stdout ++ reply.stderr)).isSome = true) := by
    simp [h.returncode, h.quiet]
  rw [FlowCounter.thriftCommand, raiseIf_pass (not_not.mpr ht), raiseIf_pass hgood]
  rfl

theorem Shows.thriftRegisterDump (h : Shows T regs reply) :
    thriftRegisterDump T thriftPort reply = .ok (snapshot regs) := by
  rw [FlowCounter.thriftRegisterDump, h.thriftCommand ht, py_ok_bind, h.dump]

end

/-! One batch. -/

/-- Frames that are neither marked nor counted. -/
def Quiet (prefixBytes : List Byte) (a : Port × List Byte) : Prop :=
  hasMarker prefixBytes a.2 = false ∧ ¬ Counted a.2

def hostPort : Host → Port
  | .h1 => 1
  | .h2 => 2

theorem mem_wiring {link : Host × Port} : link ∈ wiring ↔ link = (link.1, hostPort link.1) := by
  obtain ⟨host, port⟩ := link
  cases host <;> simp [wiring, hostPort]

/-- The frames of one probe that a host is to get. -/
def wantedAt (host : Host) (item : TestProbe) : List (List Byte) :=
  if item.allowed = true ∧ item.receiver = host then [item.frame] else []

theorem expectedFrames_eq (probes : List TestProbe) (host : Host) :
    expectedFrames probes host = probes.flatMap (wantedAt host) := by
  induction probes with
  | nil => rfl
  | cons item probes ih =>
    rw [expectedFrames] at ih ⊢
    rw [List.filter_cons, List.flatMap_cons, ← ih, wantedAt]
    by_cases h : item.allowed = true ∧ item.receiver = host
    · rw [if_pos (decide_eq_true h), if_pos h]
      rfl
    · rw [if_neg (by simpa using h), if_neg h]
      rfl

theorem checkDelivery_captured {probes : List TestProbe} (frames : Host → List (List Byte)) :
    checkDelivery probes ((wiring.map Prod.fst).map fun host => (host, frames host)) = .ok () ↔
      ∀ host ∈ wiring.map Prod.fst, (frames host).Perm (probes.flatMap (wantedAt host)) := by
  have hkeys : ((wiring.map Prod.fst).map fun host => (host, frames host)).map Prod.fst =
      [.h1, .h2] := rfl
  rw [checkDelivery, hkeys, raiseIf_pass (by simp), forM_ok]
  refine forall₂_congr fun host hhost => ?_
  have hlookup : ((wiring.map Prod.fst).map fun host => (host, frames host)).lookup host =
      some (frames host) := lookup_captured frames hhost
  rw [hlookup, ← expectedFrames_eq, raiseIf_ok, not_not]

section
variable {prefixBytes : List Byte} {item : TestProbe} {probes : List TestProbe}

theorem crossPort_hostPort (host : Host) :
    crossPort (hostPort host) = some (hostPort host.other) := by
  cases host <;> decide

/-- An accepted probe is seen at its receiver, any other nowhere. -/
theorem agrees (h : item.Correct prefixBytes) :
    Agrees sent (hasMarker prefixBytes) wiring TestProbe.sender (fun item => item.frame) wantedAt
      item where
  complete := h.complete
  known := by cases item.sender <;> decide
  seen := by
    rintro link hlink hsender out hout
    rw [mem_wiring.mp hlink, mem_wiring.mp hout, ← hsender, sent, wantedAt, h.receiver]
    by_cases ha : item.allowed = true
    · rw [if_pos (h.allowed.mp ha), crossPort_hostPort]
      have hkeep : hasMarker prefixBytes item.frame = true := decide_eq_true h.marked
      by_cases ho : item.sender.other = out.1
      · simp [seenAt, ha, ho, hkeep]
      · have hport : hostPort item.sender.other ≠ hostPort out.1 := by
          revert ho
          cases item.sender.other <;> cases out.1 <;> decide
        simp [seenAt, ho, hport]
    · rw [if_neg fun hacc => ha (h.allowed.mpr hacc), if_neg fun hw => ha hw.1]
      rfl

/-- The switch counts the probes of a batch, whatever else arrives. -/
theorem tally_among {arrivals : List (Port × List Byte)}
    (hp : Among (Quiet prefixBytes)
      (traffic wiring (framesFrom TestProbe.sender (fun item => item.frame) probes)) arrivals)
    (s : ℕ) : tally s arrivals = expectedCount s (probes.map fun item => item.frame) := by
  obtain ⟨others, hperm, hquiet⟩ := hp
  have hothers : others.countP (fun arrival => decide (Tallied s arrival)) = 0 := by
    rw [List.countP_eq_zero]
    intro arrival ha ht
    exact (hquiet arrival ha).2 (of_decide_eq_true ht).2.1
  have hports : ∀ arrival ∈ traffic wiring
      (framesFrom TestProbe.sender (fun item => item.frame) probes),
      arrival.1 = 1 ∨ arrival.1 = 2 := by
    intro arrival ha
    obtain ⟨link, hlink, ha⟩ := List.mem_flatMap.mp ha
    obtain ⟨frame, -, rfl⟩ := List.mem_map.mp ha
    rw [mem_wiring.mp hlink]
    cases link.1 <;> simp [hostPort]
  have hframes : ((traffic wiring (framesFrom TestProbe.sender (fun item => item.frame)
      probes)).map Prod.snd).Perm (probes.map fun item => item.frame) :=
    traffic_frames (by decide) fun item _ => by cases item.sender <;> decide
  rw [tally, hperm.countP_eq, List.countP_append, hothers, Nat.add_zero, expectedCount,
    ← hframes.countP_eq, List.countP_map]
  refine List.countP_congr fun arrival ha => ?_
  have ht : Tallied s arrival ↔ Counted arrival.2 ∧ flowSlot arrival.2 = .ok s :=
    and_iff_right (hports arrival ha)
  simp only [Function.comp_apply, decide_eq_true_eq, ht]

/-- What happens in the course of a batch. -/
structure BatchEvents where
  seed : Reply × Reply
  before : Reply
  arrivals : List (Port × List Byte)
  observations : Observations Host fun message => .ok message.frame
  after : Reply

def BatchEvents.replies (events : BatchEvents) : BatchReplies where
  seed := events.seed
  before := events.before
  messages := events.observations.messages
  after := events.after

/-- The array when the probes of a batch are sent. -/
def seeded (name : String) (regs : Registers) : Registers :=
  if name = "wraparound" then regs.set 0 (2 ^ 32 - 2) else regs

variable {T : Tables} {thriftPort : ℤ} (groups : BitVec 16 → List Port)
  (qdepth : Port → BitVec 19)

/-- The array when a batch is over. -/
def finished (regs : Registers) (name : String) (arrivals : List (Port × List Byte)) :
    Registers :=
  (counter.run groups qdepth (seeded name regs) arrivals).1

variable {groups qdepth} {regs : Registers} {name : String} {events : BatchEvents}

/-- In the last batch the first slot passes its largest value and goes on from zero, and no
other slot moves. -/
theorem wraparound_wraps (groups : BitVec 16 → List Port) (qdepth : Port → BitVec 19)
    (hm : prefixBytes.length = 4) :
    ∃ batches, makeBatches prefixBytes = .ok batches ∧
      ∃ probes, ("wraparound", probes) ∈ batches ∧ ∀ (regs : Registers) arrivals,
        Among (Quiet prefixBytes)
          (traffic wiring (framesFrom TestProbe.sender (fun item => item.frame) probes)) arrivals →
        finished groups qdepth regs "wraparound" arrivals = regs.set 0 30 := by
  obtain ⟨batches, hbatches, hgood⟩ := makeBatches_total hm
  obtain ⟨⟨name, probes⟩, hbatch, hshape⟩ : ∃ batch ∈ batches,
      (batch.1, batch.2.length) = ("wraparound", 32) := by
    have hmem : ("wraparound", 32) ∈ batches.map fun batch => (batch.1, batch.2.length) := by
      rw [hgood.shape]
      simp
    exact List.mem_map.mp hmem
  obtain ⟨rfl, hsize⟩ := Prod.mk.inj hshape
  dsimp only at hsize
  refine ⟨_, hbatches, probes, hbatch, fun regs arrivals hp => ?_⟩
  have hcount : ∀ s, tally s arrivals = if s = 0 then 32 else 0 := by
    intro s
    rw [tally_among hp, expectedCount, List.countP_map]
    have hall : ∀ item ∈ probes, (Counted item.frame ∧ flowSlot item.frame = .ok s ↔ s = 0) := by
      intro item hitem
      obtain ⟨hc, hs⟩ := hgood.wrap _ hbatch rfl item hitem
      have hcounted := (hgood.correct _ hbatch item hitem).counted.mp hc
      rw [hs, Except.ok.injEq]
      exact ⟨fun h => h.2.symm, fun h => ⟨hcounted, h.symm⟩⟩
    split_ifs with hs
    · rw [← hsize, List.countP_eq_length]
      exact fun item hitem => decide_eq_true ((hall item hitem).mpr hs)
    · rw [List.countP_eq_zero]
      exact fun item hitem h => hs ((hall item hitem).mp (of_decide_eq_true h))
  refine Vector.ext fun s hs => ?_
  rw [finished, seeded, if_pos rfl, run_getElem groups qdepth _ _ hs, hcount, Vector.getElem_set,
    Vector.getElem_set]
  by_cases h0 : 0 = s
  · rw [if_pos h0, if_pos h0, if_pos h0.symm]
    decide
  · rw [if_neg h0, if_neg h0, if_neg fun h => h0 h.symm]
    exact BitVec.add_zero _

theorem wraparound_wraps_marked :
    ∃ batches, makeBatches [2, 0, 0, 1] = .ok batches ∧
      ∃ probes, ("wraparound", probes) ∈ batches ∧ ∀ (regs : Registers) arrivals,
        Among (Quiet [2, 0, 0, 1])
          (traffic wiring (framesFrom TestProbe.sender (fun item => item.frame) probes)) arrivals →
        finished (fun _ => []) (fun _ => 0) regs "wraparound" arrivals = regs.set 0 30 :=
  wraparound_wraps (fun _ => []) (fun _ => 0) rfl

/-! Such a session exists, and then the test passes. -/

end

end P4Cases.FlowCounter
