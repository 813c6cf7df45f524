import P4Cases.Control.Building
import P4Cases.FlowCounter.Collisions
import P4Cases.FlowCounter.Packets

/-! The batches of the flow counter's test: flows of UDP packets, flows that share a slot,
frames that are not counted or not forwarded, and packets that make a slot wrap around. -/
namespace P4Cases.FlowCounter
open Wire P4 Control

inductive Host where
  | h1
  | h2
  deriving DecidableEq, Repr

def Host.number : Host → ℤ
  | .h1 => 1
  | .h2 => 2

/-- `h<3 - number>`. -/
def Host.other : Host → Host
  | .h1 => .h2
  | .h2 => .h1

def Host.ip (host : Host) : BitVec 32 := hostIp host.number

structure TestProbe extends Probe where
  sender : Host
  receiver : Host
  allowed : Bool

/-- The arguments of one call of `add`. -/
structure Call where
  sender : Host := .h1
  allowed : Bool := true
  counted : Bool := true
  transform : List Byte → Py (List Byte) := Except.ok
  source : Option (BitVec 32) := none
  destination : Option (BitVec 32) := none
  sport : ℤ := 1111
  dport : ℤ := 2222
  options : List Byte := []
  payloadSize : ℤ := 24
  protocol : ℤ := 17
  ttl : ℤ := 64
  flags : ℤ := 0
  transport : Option (List Byte) := none
  udpChecksum : Bool := true
  datagramId : Option ℤ := none

/-- The arguments that are passed on to `make_frame`. -/
def Call.frameArgs (call : Call) (prefixBytes : List Byte) (sequence : ℕ) : FrameArgs where
  prefixBytes
  identification := sequence
  sender := call.sender.number
  source := call.source
  destination := call.destination
  sport := call.sport
  dport := call.dport
  options := call.options
  payloadSize := call.payloadSize
  protocol := call.protocol
  ttl := call.ttl
  flags := call.flags
  transport := call.transport
  udpChecksum := call.udpChecksum
  datagramId := call.datagramId

/-- One probe, numbered by its place among all probes of all batches. -/
def add (prefixBytes : List Byte) (call : Call) : Builder PyError TestProbe Unit := do
  let sequence := (← Builder.count) + 1
  let frame ← (makeFrame (call.frameArgs prefixBytes sequence) : Py (List Byte))
  let frame ← (call.transform frame : Py (List Byte))
  Builder.push { frame, counted := call.counted, sender := call.sender
                 receiver := call.sender.other, allowed := call.allowed }

/-- Some bytes changed and the checksum of the header recomputed. -/
def replaced (offset : ℕ) (data frame : List Byte) : Py (List Byte) :=
  recalculateChecksum (frame.take offset ++ data ++ frame.drop (offset + data.length))

/-- `b"\x01" * n`: options that do nothing. -/
def nops (n : ℕ) : List Byte := List.replicate n 1

inductive Field where
  | source
  | destination
  | sport
  | dport

/-- A flow with one field of its own. -/
def changed (sender : Host) (field : Field) (value : ℕ) : Call :=
  match field with
  | .source => { sender, options := nops 4
                 source := some (BitVec.ofNat 32 (0xC0000200 + (value + 10))) }
  | .destination => { sender, options := nops 4
                      destination := some (BitVec.ofNat 32 (0xC6336400 + (value + 10))) }
  | .sport => { sender, options := nops 4, sport := value + 3000 }
  | .dport => { sender, options := nops 4, dport := value + 4000 }

section
variable (prefixBytes : List Byte)

def repeatedProbes (sender : Host) : Builder PyError TestProbe Unit :=
  (List.range 30).forM fun turn =>
    add prefixBytes
      { sender, options := [[], nops 4, nops 40].getD (turn % 3) []
        payloadSize := [24, 127, 1024].getD (turn % 3) 0 }

def fieldProbes (sender : Host) : Builder PyError TestProbe Unit :=
  [Field.source, .destination, .sport, .dport].forM fun field =>
    (List.range 4).forM fun value => add prefixBytes (changed sender field value)

def flows : Builder PyError TestProbe Unit :=
  [Host.h1, .h2].forM fun sender => do
    repeatedProbes prefixBytes sender
    fieldProbes prefixBytes sender
    [(0 : ℤ), 1472].forM fun payloadSize => add prefixBytes { sender, payloadSize }
    add prefixBytes { sender, udpChecksum := false }
    add prefixBytes { sender, flags := 0x4000 }
    [(0 : ℤ), 1].forM fun ttl => add prefixBytes { sender, ttl }

/-- Two flows of one slot. -/
def collidingProbes (sender : Host) (target : ℤ) (sizes : ℕ × ℕ) :
    Builder PyError TestProbe Unit := do
  let ports ← (portsForSlot sender.ip sender.other.ip target : Py (ℕ × ℕ))
  [(ports.1, sizes.1), (ports.2, sizes.2)].forM fun flow =>
    (List.range flow.2).forM fun turn =>
      add prefixBytes { sender, sport := flow.1, options := nops (4 * (turn % 3)) }

def collisions : Builder PyError TestProbe Unit := do
  collidingProbes prefixBytes .h1 1023 (7, 11)
  collidingProbes prefixBytes .h2 0 (5, 9)

def notIpv4 (frame : List Byte) : Py (List Byte) :=
  .ok (frame.take 12 ++ [0x88, 0xb5] ++ frame.drop 14)

def arp (sender : Host) (frame : List Byte) : Py (List Byte) :=
  let payload := beBytes 2 1 ++ beBytes 2 0x0800 ++ beBytes 1 6 ++ beBytes 1 4 ++ beBytes 2 1 ++
    slice frame 6 12 ++ beBytes 4 sender.ip.toNat ++ List.replicate 6 0 ++
    beBytes 4 sender.other.ip.toNat
  .ok (ljust 60 (List.replicate 6 0xff ++ slice frame 6 12 ++ [0x08, 0x06] ++ payload))

/-- The pieces of a datagram, each a fragment of its own. -/
def fragmentProbes (sender : Host) (protocol : ℤ) : Builder PyError TestProbe Unit := do
  let fragmentId := (← Builder.count) + 1
  let whole ← (makeFrame
    { prefixBytes, identification := fragmentId, sender := sender.number, protocol
      payloadSize := if protocol = 17 then 40 else 28 } : Py (List Byte))
  let datagram := slice whole 34 82
  (List.range 3).forM fun piece =>
    add prefixBytes
      { sender, protocol, datagramId := some fragmentId, counted := false, options := nops 4
        flags := (piece * 2 ||| (if piece < 2 then 0x2000 else 0) : ℕ)
        transport := some (slice datagram (16 * piece) (16 * (piece + 1))) }

/-- Frames that are forwarded and not counted. -/
def uncountedProbes (sender : Host) : Builder PyError TestProbe Unit := do
  [(6 : ℤ), 1, 253].forM fun protocol =>
    add prefixBytes { sender, protocol, counted := false, options := nops 4 }
  add prefixBytes { sender, protocol := 253, payloadSize := 0, counted := false }
  add prefixBytes { sender, counted := false, transform := notIpv4 }
  add prefixBytes { sender, counted := false, transform := arp sender }
  [(17 : ℤ), 6].forM (fragmentProbes prefixBytes sender)

/-- `frame[24] ^ 1`. -/
def flipped (frame : List Byte) : Py (List Byte) := do
  let b ← byteAt frame 24
  return frame.take 24 ++ beBytes 1 (b ^^^ 1) ++ frame.drop 25

/-- A frame that is not to be forwarded. -/
def bad (sender : Host) : Call := { sender, allowed := false, counted := false }

def badHeaderProbes (sender : Host) : Builder PyError TestProbe Unit := do
  add prefixBytes { bad sender with transform := replaced 14 [0x65] }
  add prefixBytes { bad sender with transform := replaced 14 [0x44] }
  add prefixBytes { bad sender with transform := replaced 14 [0x4f] }
  add prefixBytes { bad sender with options := nops 4, transform := replaced 16 (beBytes 2 20) }
  add prefixBytes { bad sender with transform := replaced 16 (beBytes 2 600) }
  add prefixBytes { bad sender with transform := fun frame => .ok (frame.take 30) }
  add prefixBytes { bad sender with options := nops 40
                                    transform := fun frame => .ok (frame.take 60) }
  [[], nops 40].forM fun options =>
    add prefixBytes { bad sender with options, transform := flipped }

def badUdpProbes (sender : Host) : Builder PyError TestProbe Unit := do
  add prefixBytes { bad sender with transport := some (List.replicate 7 0) }
  [7, 80].forM fun length =>
    add prefixBytes { bad sender with transform := replaced 38 (beBytes 2 length) }

def excluded : Builder PyError TestProbe Unit :=
  [Host.h1, .h2].forM fun sender => do
    uncountedProbes prefixBytes sender
    badHeaderProbes prefixBytes sender
    badUdpProbes prefixBytes sender

/-- Packets of one flow, from both hosts. -/
def wrapping : Builder PyError TestProbe Unit := do
  let ports ← (portsForSlot Host.h1.ip Host.h2.ip 0 : Py (ℕ × ℕ))
  [Host.h1, .h2].forM fun sender =>
    (List.range 16).forM fun turn =>
      add prefixBytes
        { sender, source := some Host.h1.ip, destination := some Host.h2.ip, sport := ports.1
          options := nops (4 * (turn % 3)) }

def makeBatches : Py (List (String × List TestProbe)) := do
  raiseIf (prefixBytes.length ≠ 4) (.valueError "capture prefix must contain four MAC bytes")
  let batches ← StateT.run (do
    let flows ← Builder.batch "udp-flows" (flows prefixBytes)
    let collisions ← Builder.batch "collisions" (collisions prefixBytes)
    let excluded ← Builder.batch "excluded-and-malformed" (excluded prefixBytes)
    let wrapping ← Builder.batch "wraparound" (wrapping prefixBytes)
    return [flows, collisions, excluded, wrapping] : Builder PyError TestProbe _) []
  return batches.1

end
end P4Cases.FlowCounter
