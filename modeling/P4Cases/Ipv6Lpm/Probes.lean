import P4Cases.Control.Building
import P4Cases.Ipv6Lpm.Packets

/-! The probes of the IPv6 router's test: forwarded packets at the boundaries of the routes,
fragments and extension headers, and packets that the router has to drop. -/
namespace P4Cases.Ipv6Lpm
open Wire P4 Control

structure Probe where
  sender : Host
  receiver : Option Host
  allowed : Bool
  frame : List Byte

/-- The arguments of one call of `add`. -/
structure Call extends FrameArgs where
  allowed : Bool := true
  transform : List Byte → List Byte := id

/-- One probe, numbered by its place in the list. -/
def add (marker : List Byte) (call : Call) : Builder PyError Probe Unit := do
  let identification := (← Builder.count) + 1
  let frame ← (makeFrame marker identification call.toFrameArgs : Py (List Byte))
  let receiver := if call.allowed then expectedHost call.destination else none
  (raiseIf (call.allowed = true ∧ receiver = none)
    (.valueError "forwarded probe must have a configured route") : Py Unit)
  Builder.push { sender := call.sender, receiver, allowed := call.allowed
                 frame := call.transform frame }

def replaceAt (offset : ℕ) (value frame : List Byte) : List Byte :=
  frame.take offset ++ value ++ frame.drop (offset + value.length)

def arp (sender : Host) (frame : List Byte) : List Byte :=
  let payload := beBytes 2 1 ++ beBytes 2 0x0800 ++ beBytes 1 6 ++ beBytes 1 4 ++ beBytes 2 1 ++
    slice frame 6 12 ++ [10, 0, 0, sender.port.setWidth 8] ++ List.replicate 6 0 ++ [10, 0, 0, 4]
  ljust 60 (List.replicate 6 0xff ++ slice frame 6 12 ++ [0x08, 0x06] ++ payload)

/-! The calls of `add` for one sender. -/

section
variable (marker : List Byte) (sender : Host)

def pairProbes : Builder PyError Probe Unit :=
  (hosts.filter (· ≠ sender)).forM fun receiver => [17, 6, 58].forM fun protocol =>
    (List.range 2).forM fun repetition =>
      add marker { sender, destination := hostAddresses receiver, protocol
                   payloadSize := 23 + repetition }

def lpmProbes : Builder PyError Probe Unit :=
  [0x20010db8000300000000000000000041, 0x20010db8000300000000000000000042,
      0x20010db8000300000000000000000043].forM fun destination =>
    [17, 6, 58, 253].forM fun protocol => add marker { sender, destination, protocol }

/-- The first and the last address of each subnet. -/
def boundaryProbes : Builder PyError Probe Unit :=
  subnets.forM fun subnet =>
    [subnet.2, subnet.2 ||| BitVec.ofNat 128 (2 ^ 64 - 1)].forM fun destination =>
      add marker { sender, destination }

def sizeProbes : Builder PyError Probe Unit :=
  [0, 1, 127, 1452].forM fun payloadSize => add marker { sender, payloadSize }

def hopProbes : Builder PyError Probe Unit :=
  [2, 255].forM fun hopLimit => add marker { sender, hopLimit }

def nextHeaderProbes : Builder PyError Probe Unit := do
  add marker { sender, protocol := 59, body := some [] }
  add marker { sender, protocol := 59, body := some (ascii "opaque trailer") }
  add marker { sender, protocol := 253, payloadSize := 33 }

/-- Hop-by-hop and destination options before a segment. -/
def extensionChain : List Byte := [60, 0, 1, 4, 0, 0, 0, 0, 17, 0, 1, 4, 0, 0, 0, 0]

def extensionProbes (destination : BitVec 128) : Builder PyError Probe Unit := do
  let identification := (← Builder.count) + 1
  let segment ← (transportSegment (hostAddresses sender) destination 17 identification 33 :
    Py (List Byte))
  add marker { sender, destination, protocol := 0, body := some (extensionChain ++ segment) }

/-- Where a datagram is cut into fragments. -/
def spans (protocol : ℕ) : List (ℕ × ℕ) :=
  if protocol = 17 then [(0, 16), (16, 32), (32, 48)] else [(0, 24), (24, 40), (40, 48)]

def fragmentProbes (destination : BitVec 128) (protocol : ℕ) : Builder PyError Probe Unit := do
  let datagramId := (← Builder.count) + 1
  let segment ← (transportSegment (hostAddresses sender) destination protocol datagramId
    (if protocol = 17 then 40 else 28) : Py (List Byte))
  (spans protocol).zipIdx.forM fun span => do
    let fragment ← (packInts [(1, protocol), (1, 0),
      (2, ((span.1.1 / 8) <<< 3 ||| (if span.2 < 2 then 1 else 0) : ℕ)), (4, datagramId)] :
        Py (List Byte))
    add marker { sender, destination, protocol := 44
                 body := some (fragment ++ slice segment span.1.1 span.1.2)
                 flowLabel := some datagramId }

def chainProbes : Builder PyError Probe Unit :=
  [0x20010db8000300000000000000000042, 0x20010db8000300000000000000000043].forM
    fun destination => do
      extensionProbes marker sender destination
      [17, 6].forM fun protocol => fragmentProbes marker sender destination protocol

def expiredProbes : Builder PyError Probe Unit :=
  (hosts.map hostAddresses ++ [hostRoute]).forM fun destination =>
    [0, 1].forM fun hopLimit => add marker { sender, destination, hopLimit, allowed := false }

def unroutedProbes : Builder PyError Probe Unit :=
  [0x20010db8000000000000000000000001, 0x20010db8000400000000000000000001,
      0x20010db8000300010000000000000042, 0x20010db80002ffff0000000000000001,
      0xff020000000000000000000000000001].forM fun destination =>
    add marker { sender, destination, allowed := false }

/-- Frames that are no valid IPv6 packets. -/
def malformedProbes : Builder PyError Probe Unit := do
  [4, 15].forM fun version =>
    add marker { sender, allowed := false
                 transform := replaceAt 14 (beBytes 1 (version <<< 4 ||| 2)) }
  add marker { sender, allowed := false, transform := replaceAt 18 [0xff, 0xff] }
  [22, 53].forM fun length => add marker { sender, allowed := false, transform := List.take length }
  add marker { sender, allowed := false
               transform := fun frame => frame.take (frame.length - 12) }
  add marker { sender, allowed := false, protocol := 59, body := some []
               transform := replaceAt 18 [0, 0x07] }
  [[0x08, 0x00], [0x88, 0xb5]].forM fun etherType =>
    add marker { sender, allowed := false, transform := replaceAt 12 etherType }
  add marker { sender, allowed := false, transform := arp sender }

def senderProbes : Builder PyError Probe Unit := do
  pairProbes marker sender
  lpmProbes marker sender
  boundaryProbes marker sender
  sizeProbes marker sender
  hopProbes marker sender
  nextHeaderProbes marker sender
  chainProbes marker sender
  expiredProbes marker sender
  unroutedProbes marker sender
  malformedProbes marker sender

end

def makeProbes (marker : List Byte) : Py (List Probe) := do
  let built ← (hosts.forM (senderProbes marker)).run []
  return built.2

end P4Cases.Ipv6Lpm
