import P4Cases.Control.Counting
import P4Cases.Firewall.Packets

/-! The test vectors of the firewall: five frames for each decision, with a label that says
whether they are to come through. -/
namespace P4Cases.Firewall
open Wire P4 Control Numbering

def Host.other : Host → Host
  | .h1 => .h2
  | .h2 => .h1

def Host.name : Host → String
  | .h1 => "h1"
  | .h2 => "h2"

/-- The address that `IPv4Address` packs. -/
def Host.ip : Host → List Byte
  | .h1 => [10, 0, 0, 1]
  | .h2 => [10, 0, 0, 2]

def Host.macBytes : Host → List Byte
  | .h1 => [0, 0, 0, 0, 0, 1]
  | .h2 => [0, 0, 0, 0, 0, 2]

/-- The name of a protocol in lower case. -/
def Transport.lower : Transport → String
  | .tcp => "tcp"
  | .udp => "udp"
  | .icmp => "icmp"

def FrameFault.name : FrameFault → String
  | .none => ""
  | .badVersion => "bad-version"
  | .shortIhl => "short-ihl"
  | .shortTotal => "short-total"
  | .longTotal => "long-total"
  | .truncatedIp => "truncated-ip"
  | .truncatedOptions => "truncated-options"
  | .shortTcp => "short-tcp"
  | .shortUdp => "short-udp"

/-- The arguments of one call of `add`. -/
structure Call where
  name : String
  sender : Host
  protocol : Protocol
  dport : ℕ
  options : List Byte := []
  allowed : Bool := true
  fault : FrameFault := .none
  flags : ℕ := 0
  offset : ℕ := 0

def Call.args (call : Call) (srcMac : List Byte) (sequence : ℕ) : FrameArgs where
  srcMac := srcMac
  dstMac := call.sender.other.macBytes
  srcIp := call.sender.ip
  dstIp := call.sender.other.ip
  protocol := call.protocol
  dport := call.dport
  options := call.options
  sequence := sequence
  fault := call.fault
  flags := call.flags
  offset := call.offset

structure Scenario where
  name : String
  sender : Host
  receiver : Host
  allowed : Bool
  frames : List (List Byte)

/-- One frame of a call. -/
def addFrame (prefixBytes : List Byte) (call : Call) (sequence : ℕ) : Py (List Byte) := do
  makeFrame (call.args (prefixBytes ++ (← toBytes 2 sequence)) sequence)

def add (prefixBytes : List Byte) (call : Call) : Numbering PyError Scenario := do
  let frames ← (List.range 5).mapM fun _ => do
    let sequence ← next
    (addFrame prefixBytes call sequence : Py (List Byte))
  return { name := call.name, sender := call.sender, receiver := call.sender.other
           allowed := call.allowed, frames }

/-! The calls, in order. -/

def nops (n : ℕ) : List Byte := List.replicate n 1

/-- A port that would be decided otherwise, for options that look like a port. -/
def misleading (proto : Transport) (allowed : Bool) : ℕ :=
  if proto = .tcp ∧ allowed = true then 22
  else if proto = .tcp then 80
  else if allowed = true then 5000
  else 1234

def shapes (proto : Transport) (allowed : Bool) : List (String × List Byte) :=
  [("plain", []), ("options4", nops 4), ("options40", nops 40),
    ("port-like-options", [0x94, 0x04] ++ beBytes 2 (misleading proto allowed))]

def flows : List (Transport × ℕ × Bool) :=
  [(.tcp, 80, true), (.tcp, 22, false), (.udp, 5000, false), (.udp, 1234, true)]

def flowCalls (flow : Transport × ℕ × Bool) : List Call :=
  let (proto, port, allowed) := flow
  ((shapes proto allowed).map fun shape =>
    { name := s!"h1-{proto.lower}{port}-{shape.1}", sender := .h1, protocol := .ip proto
      dport := port, options := shape.2, allowed }) ++
  [("plain", []), ("options40", nops 40)].map fun shape =>
    { name := s!"h2-{proto.lower}{port}-{shape.1}", sender := .h2, protocol := .ip proto
      dport := port, options := shape.2 }

def plainCalls : List Call :=
  [{ name := "icmp-plain", sender := .h1, protocol := .ip .icmp, dport := 0 },
    { name := "icmp-options40", sender := .h1, protocol := .ip .icmp, dport := 0
      options := nops 40 },
    { name := "arp", sender := .h1, protocol := .arp, dport := 0 },
    { name := "tcp-dont-fragment", sender := .h1, protocol := .ip .tcp, dport := 80, flags := 2 }]

def faultCalls : List Call :=
  [FrameFault.badVersion, .shortIhl, .shortTotal, .longTotal, .truncatedIp, .truncatedOptions,
    .shortTcp, .shortUdp].map fun fault =>
      let proto := if fault = .shortUdp then Transport.udp else .tcp
      { name := fault.name, sender := .h1, protocol := .ip proto
        dport := if proto = .udp then 1234 else 80
        options := if fault = .shortTotal ∨ fault = .truncatedOptions then nops 40 else []
        allowed := false, fault }

def fragmentCalls : List Call :=
  [(Transport.tcp, 80), (.udp, 1234)].flatMap fun flow =>
    [{ name := s!"{flow.1.lower}-first-fragment", sender := .h1, protocol := .ip flow.1
       dport := flow.2, allowed := false, flags := 1 },
      { name := s!"{flow.1.lower}-later-fragment", sender := .h1, protocol := .ip flow.1
        dport := flow.2, allowed := false, offset := 1 }]

def calls : List Call := flows.flatMap flowCalls ++ plainCalls ++ faultCalls ++ fragmentCalls

def testVectors (prefixBytes : List Byte) : Py (List Scenario) := do
  raiseIf (prefixBytes.length ≠ 4) (.valueError "test prefix must contain four MAC bytes")
  let made ← (calls.mapM (add prefixBytes)).run 0
  return made.1

/-! The labels. -/

/-- `frame[6:12]`. -/
def source (frame : List Byte) : List Byte := slice frame 6 12

/-- The number of a frame, which ends its source address. -/
def number (frame : List Byte) : ℕ := fieldAt frame 10 12

/-- A frame for this receiver that comes through exactly when it is allowed. -/
structure Labelled (prefixBytes : List Byte) (receiver : Host) (allowed : Bool)
    (frame : List Byte) : Prop where
  complete : 14 ≤ frame.length
  marked : slice frame 6 10 = prefixBytes
  destined : dstMac frame = receiver.mac.toNat
  passes : Passes frame ↔ allowed = true

structure Scenario.Good (prefixBytes : List Byte) (item : Scenario) : Prop where
  five : item.frames.length = 5
  crossed : item.receiver = item.sender.other
  labelled : ∀ frame ∈ item.frames, Labelled prefixBytes item.receiver item.allowed frame

instance (a : FrameArgs) : Decidable a.Allowed :=
  match hp : a.protocol with
  | .arp => isTrue (by simp [FrameArgs.Allowed, hp])
  | .ip transport => decidable_of_iff (a.fault = .none ∧ a.flags % 2 = 0 ∧ a.offset = 0 ∧
      ¬ (transport = .tcp ∧ beNat a.dstIp = 0x0a000002 ∧ a.dport = 22) ∧
      ¬ (transport = .udp ∧ beNat a.srcIp = 0x0a000001 ∧ a.dport = 5000))
      (by simp [FrameArgs.Allowed, hp])

instance (a : FrameArgs) : Decidable a.Meant :=
  match hp : a.protocol with
  | .arp => isTrue (by simp [FrameArgs.Meant, hp])
  | .ip transport => decidable_of_iff (a.fault = .none ∨
      (if a.fault = .shortUdp then transport = .udp else transport = .tcp))
      (by simp [FrameArgs.Meant, hp])

/-- The label of a call says what the policy says. -/
def Call.Right (call : Call) : Prop :=
  (call.dport < 65536 ∧ (call.options.length ≤ 40 ∧ call.options.length % 4 = 0) ∧
    call.flags < 8 ∧ call.offset < 8192) ∧ (call.args [] 0).Meant ∧
    ((call.args [] 0).Allowed ↔ call.allowed = true)

instance (call : Call) : Decidable call.Right :=
  inferInstanceAs (Decidable ((_ ∧ (_ ∧ _) ∧ _ ∧ _) ∧ _ ∧ (_ ↔ _)))

/-- Every label of the test vectors is right. -/
theorem calls_right : ∀ call ∈ calls, call.Right := by
  have hall : calls.all (fun call => decide call.Right) = true := by decide
  exact fun call hcall => of_decide_eq_true (List.all_eq_true.mp hall call hcall)

section
variable {prefixBytes : List Byte} {call : Call} {sequence : ℕ}

theorem Host.macBytes_eq (host : Host) : beNat host.macBytes = host.mac.toNat := by
  cases host <;> decide

/-- A frame of a call, under any number. -/
theorem addFrame_labelled (hp : prefixBytes.length = 4) (hc : call.Right)
    (hs : sequence < 65536) :
    ∃ frame, addFrame prefixBytes call sequence = .ok frame ∧
      Labelled prefixBytes call.sender.other call.allowed frame ∧ number frame = sequence := by
  obtain ⟨⟨hdport, hoptions, hflags, hoffset⟩, hmeant, hallowed⟩ := hc
  have hmac : call.sender.other.macBytes.length = 6 := by cases call.sender <;> rfl
  have hfits : (call.args (prefixBytes ++ beBytes 2 sequence) sequence).Fits :=
    ⟨by simp [Call.args, hp], hmac, by cases h : call.sender <;> simp [Call.args, h, Host.ip],
      by cases h : call.sender <;> simp [Call.args, h, Host.ip, Host.other], hdport, hoptions, hs,
      hflags, hoffset⟩
  obtain ⟨frame, hframe, hl, hmacs, hpasses⟩ := makeFrame_passes hfits hmeant
  change slice frame 0 12 = call.sender.other.macBytes ++ (prefixBytes ++ beBytes 2 sequence)
    at hmacs
  have hpart : ∀ i j, j ≤ 12 → slice frame i j =
      slice (call.sender.other.macBytes ++ (prefixBytes ++ beBytes 2 sequence)) i j := by
    intro i j hj
    rw [← hmacs, slice_slice frame (by omega), Nat.zero_add, Nat.zero_add]
  refine ⟨frame, ?_, ⟨hl, ?_, ?_, hpasses.trans hallowed⟩, ?_⟩
  · rw [addFrame, toBytes_ok (by omega), py_ok_bind, hframe]
  · rw [hpart 6 10 (by decide), slice_append_right _ _ (by omega), hmac,
      slice_append_left _ (by omega), slice, List.drop_zero, List.take_of_length_le (by omega)]
  · rw [dstMac, fieldAt, hpart 0 6 (by decide), slice_append_left _ hmac.ge, slice, List.drop_zero,
      List.take_of_length_le hmac.le, Host.macBytes_eq]
  · have hall : slice (beBytes 2 sequence) 0 2 = beBytes 2 sequence := slice_whole 2 sequence le_rfl
    rw [number, fieldAt, hpart 10 12 (by decide), slice_append_right _ _ (by omega), hmac,
      slice_append_right _ _ (by omega), hp, hall, beNat_beBytes_of_lt (by omega)]

theorem add_draws (hp : prefixBytes.length = 4) (hc : call.Right) :
    Draws (fun item => item.Good prefixBytes ∧ item.sender = call.sender)
      (fun item => item.frames.map number) 65535 5 (add prefixBytes call) := by
  have hone : ∀ n, n + 1 ≤ 65535 → ∃ frame, addFrame prefixBytes call (n + 1) = .ok frame ∧
      Labelled prefixBytes call.sender.other call.allowed frame ∧ [number frame] = [n + 1] := by
    intro n hn
    obtain ⟨frame, hframe, hlabelled, hnumber⟩ :=
      @addFrame_labelled prefixBytes call (n + 1) hp hc (by omega)
    exact ⟨frame, hframe, hlabelled, by rw [hnumber]⟩
  have hframes := Draws.mapM (l := List.range 5) fun _ _ => Draws.one hone
  refine hframes.map fun frames hgood hlength => ?_
  rw [← List.map_eq_flatMap] at hlength ⊢
  exact ⟨⟨⟨by simpa using hlength, rfl, hgood⟩, rfl⟩, rfl⟩

end

def allFrames (probes : List Scenario) : List (List Byte) := probes.flatMap Scenario.frames

/-- The vectors are built for every prefix, and their frames numbered one after the other;
both hosts send some. -/
theorem testVectors_total {prefixBytes : List Byte} (hp : prefixBytes.length = 4) :
    ∃ probes, testVectors prefixBytes = .ok probes ∧ (∀ item ∈ probes, item.Good prefixBytes) ∧
      (allFrames probes).map number = List.range' 1 200 ∧
      ∀ host, ∃ item ∈ probes, item.sender = host := by
  obtain ⟨probes, hrun, hgood, hnumbers⟩ := Draws.mapM_forall₂ (fun call hcall =>
    add_draws hp (calls_right call hcall)) 0 (by decide)
  refine ⟨probes, ?_, fun item hitem => ?_, ?_, fun host => ?_⟩
  · rw [testVectors, raiseIf_pass (not_not.mpr hp), hrun]
    rfl
  · obtain ⟨call, -, hitem, -⟩ := exists_of_mem_right hgood hitem
    exact hitem
  · rw [allFrames, List.map_flatMap]
    exact hnumbers
  · obtain ⟨call, hcall, hsender⟩ : ∃ call ∈ calls, call.sender = host := by
      cases host <;> decide
    obtain ⟨item, hitem, -, hsame⟩ := exists_of_mem_left hgood hcall
    exact ⟨item, hitem, hsame.trans hsender⟩

end P4Cases.Firewall
