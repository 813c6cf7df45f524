import P4Cases.Ecmp.Delivery
import P4Cases.Ecmp.Packets

/-! The packets of the ECMP self-test, in the order in which the test builds them. -/
namespace P4Cases.Ecmp
open Wire

/-- The arguments of `add`. -/
structure ProbeArgs where
  name : String
  sender : Host := .h1
  destination : BitVec 32 := 0x0a000064
  source : List Byte := []
  allowed : Bool := true
  transform : Option (List Byte → Py (List Byte)) := none
  identification : Option ℤ := none
  protocol : ℤ := 17
  sport : ℤ := 1000
  dport : ℤ := 5000
  options : List Byte := []
  tcpOptions : List Byte := []
  payloadSize : ℤ := 24
  ttl : ℤ := 64
  flags : ℤ := 0
  transport : Option (List Byte) := none
  udpChecksum : Bool := true

/-- `source or prefix + b"\x4d"`. -/
def ProbeArgs.sourceBytes (a : ProbeArgs) (prefixBytes : List Byte) : List Byte :=
  if a.source = [] then prefixBytes ++ [0x4d] else a.source

/-- The arguments of `make_frame` for the probe with this number. -/
def ProbeArgs.frameArgs (a : ProbeArgs) (prefixBytes : List Byte) (number : ℕ) : FrameArgs where
  source := a.sourceBytes prefixBytes
  destination := a.destination
  sender := a.sender
  identification := a.identification.getD number
  protocol := a.protocol
  sport := a.sport
  dport := a.dport
  options := a.options
  tcpOptions := a.tcpOptions
  payloadSize := a.payloadSize
  ttl := a.ttl
  flags := a.flags
  transport := a.transport
  udpChecksum := a.udpChecksum

def ProbeArgs.change (a : ProbeArgs) (frame : List Byte) : Py (List Byte) :=
  match a.transform with
  | some transform => transform frame
  | none => .ok frame

/-- `expected_host(frame) if allowed else None`. -/
def ProbeArgs.receiver (a : ProbeArgs) (frame : List Byte) : Py (Option Host) :=
  if a.allowed then some <$> expectedHost frame else .ok none

def add (prefixBytes : List Byte) (probes : List Probe) (a : ProbeArgs) : Py (List Probe) := do
  let frame ← makeFrame (a.frameArgs prefixBytes (probes.length + 1))
  let frame ← a.change frame
  let receiver ← a.receiver frame
  return probes ++ [{ name := a.name, sender := a.sender, receiver, allowed := a.allowed, frame }]

def replace (offset : ℕ) (data frame : List Byte) : Py (List Byte) :=
  recalculateChecksum (frame.take offset ++ data ++ frame.drop (offset + data.length))

def Host.name : Host → String
  | .h1 => "h1"
  | .h2 => "h2"
  | .h3 => "h3"

/-- `b"\x01" * n`. -/
def noOps (n : ℕ) : List Byte := List.replicate n 1

/-! The calls of `add`, group by group. -/

def directProbes (protocol : ℕ) : List ProbeArgs :=
  hosts.flatMap fun sender => (hosts.filter (· ≠ sender)).map fun receiver =>
    { name := s!"direct-{protocol}-{sender.name}-{receiver.name}", sender
      destination := receiver.address, protocol }

/-- Sender, options and payload size of the three packets of a flow. -/
def flowPackets : List (ℕ × Host × List Byte × ℤ) :=
  [(0, .h1, [], 24), (1, .h2, noOps 4, 127), (2, .h3, noOps 40, 1376)]

def flowProbe (protocol flow : ℕ) : ℕ × Host × List Byte × ℤ → ProbeArgs
  | (number, sender, options, payloadSize) =>
    { name := s!"ecmp-{protocol}-{flow}-{number}", sender, protocol, sport := 1000 + flow, options
      tcpOptions := if number = 2 ∧ protocol = 6 then noOps 4 else []
      payloadSize, ttl := 64 + number }

def flowProbes (nFlows protocol : ℕ) : List ProbeArgs :=
  (List.range nFlows).flatMap fun flow => flowPackets.map (flowProbe protocol flow)

def tupleProbes (prefixBytes : List Byte) (protocol : ℕ) : List ProbeArgs :=
  ((List.range 8).map fun value =>
    { name := s!"tuple-{protocol}-source-{value}", protocol
      source := prefixBytes ++ beBytes 1 (value + 80) }) ++
  ((List.range 8).map fun value =>
    { name := s!"tuple-{protocol}-destination-{value}", protocol
      destination := 0x0a000000 + BitVec.ofNat 32 (value + 100) }) ++
  ((List.range 8).map fun value =>
    { name := s!"tuple-{protocol}-sport-{value}", protocol, sport := value + 2000 }) ++
  ((List.range 8).map fun value =>
    { name := s!"tuple-{protocol}-dport-{value}", protocol, dport := value + 6000 })

def opaqueProbes : List ProbeArgs :=
  [1, 253].flatMap fun protocol : ℕ => (List.range 3).map fun number =>
    { name := s!"opaque-{protocol}-{number}", protocol, options := noOps (4 * number)
      transport := some (List.replicate (16 + number * 8) (BitVec.ofNat 8 (number + 1))) }

/-- Two addresses, one of a host and one behind the ECMP group. -/
def destinations : List (String × BitVec 32) :=
  [("10.0.0.2", 0x0a000002), ("10.0.0.100", 0x0a000064)]

def fragmentWord (piece : ℕ) : ℕ := piece * 2 ||| if piece < 2 then 0x2000 else 0

def fragmentProbe (protocol : ℕ) (destination : String × BitVec 32) (ident : ℕ)
    (datagram : List Byte) (piece : ℕ) : ProbeArgs where
  name := s!"fragment-{protocol}-{destination.1}-{piece}"
  destination := destination.2
  protocol := protocol
  identification := some ident
  flags := fragmentWord piece
  transport := some (slice datagram (16 * piece) (16 * (piece + 1)))
  options := noOps 4

/-- A datagram in three fragments with one identification. -/
def addFragments (prefixBytes : List Byte) (probes : List Probe)
    (datagram : ℕ × String × BitVec 32) : Py (List Probe) := do
  let (protocol, destination) := datagram
  let ident := probes.length + 1
  let frame ← makeFrame
    { source := prefixBytes ++ [0x4d], destination := destination.2, sender := .h1
      identification := ident, protocol, payloadSize := if protocol = 17 then 40 else 28 }
  ((List.range 3).map (fragmentProbe protocol destination ident (slice frame 34 82))).foldlM
    (add prefixBytes) probes

def fragmentedDatagrams : List (ℕ × String × BitVec 32) :=
  protocols.flatMap fun protocol => destinations.map fun destination => (protocol, destination)

def ttlProbes : List ProbeArgs :=
  destinations.flatMap fun destination => [0, 1, 2, 255].map fun ttl : ℕ =>
    { name := s!"ttl-{destination.1}-{ttl}", destination := destination.2, ttl, allowed := ttl > 1 }

def sizeProbes : List ProbeArgs :=
  [{ name := "udp-no-checksum", udpChecksum := false },
    { name := "udp-minimum", payloadSize := 0 },
    { name := "tcp-minimum", protocol := 6, payloadSize := 0 },
    { name := "udp-mtu", payloadSize := 1472 },
    { name := "tcp-mtu", protocol := 6, payloadSize := 1460 }]

/-- `frame[:24] + bytes((frame[24] ^ 1,)) + frame[25:]`. -/
def flipChecksum (frame : List Byte) : Py (List Byte) := do
  return frame.take 24 ++ beBytes 1 ((← byteAt frame 24) ^^^ 1) ++ frame.drop 25

/-- Packets that the switch must not forward. -/
def refusedProbes : List ProbeArgs :=
  ([{ name := "unknown-route", destination := 0xc0000201 },
    { name := "non-ipv4"
      transform := some fun frame => .ok (frame.take 12 ++ [0x88, 0xb5] ++ frame.drop 14) },
    { name := "bad-version", transform := some (replace 14 [0x65]) },
    { name := "short-ihl", transform := some (replace 14 [0x44]) },
    { name := "short-total", options := noOps 4, transform := some (replace 16 (beBytes 2 20)) },
    { name := "long-total", transform := some (replace 16 (beBytes 2 600)) },
    { name := "truncated-ip", transform := some fun frame => .ok (frame.take 30) },
    { name := "truncated-options", options := noOps 40
      transform := some fun frame => .ok (frame.take 60) },
    { name := "bad-checksum-0", transform := some flipChecksum },
    { name := "bad-checksum-40", options := noOps 40, transform := some flipChecksum },
    { name := "short-transport-17", transport := some (List.replicate 7 0) },
    { name := "short-transport-6", protocol := 6, transport := some (List.replicate 19 0) },
    { name := "bad-udp-length-7", transform := some (replace 38 (beBytes 2 7)) },
    { name := "bad-udp-length-80", transform := some (replace 38 (beBytes 2 80)) },
    { name := "bad-tcp-offset-4", protocol := 6
      transform := some (replace 46 (beBytes 1 (4 <<< 4))) },
    { name := "bad-tcp-offset-15", protocol := 6
      transform := some (replace 46 (beBytes 1 (15 <<< 4))) }] : List ProbeArgs).map
    fun a => { a with allowed := false }

def makeProbes (prefixBytes : List Byte) (nFlows : ℤ) : Py (List Probe) := do
  raiseIf (prefixBytes.length ≠ 3 ∨ ¬ (2 ≤ nFlows ∧ nFlows ≤ 100))
    (.valueError "test needs a three-byte prefix and 2..100 flows")
  let probes ← (protocols.flatMap fun protocol => directProbes protocol ++
    flowProbes nFlows.toNat protocol ++ tupleProbes prefixBytes protocol).foldlM
      (add prefixBytes) []
  let probes ← opaqueProbes.foldlM (add prefixBytes) probes
  let probes ← fragmentedDatagrams.foldlM (addFragments prefixBytes) probes
  (ttlProbes ++ sizeProbes ++ refusedProbes).foldlM (add prefixBytes) probes

end P4Cases.Ecmp
