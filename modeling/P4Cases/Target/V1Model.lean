import P4Cases.Target.Parser
import P4Cases.Target.Match
import P4Cases.Wire.OnesComplement
import P4Cases.Wire.Crc

/-! The v1model switch: parser, checksum verification, ingress, replication,
egress, checksum update and deparser, with the externs the programs call. -/
namespace P4
open Wire

abbrev Port := BitVec 9

/-- The port value that means the packet is dropped. -/
def dropPort : Port := 511

structure StandardMetadata (ε : Type) where
  ingressPort : Port
  egressSpec : Port := 0
  egressPort : Port := 0
  packetLength : BitVec 32
  deqQdepth : BitVec 19 := 0
  mcastGrp : BitVec 16 := 0
  checksumError : BitVec 1 := 0
  parserError : Option (ParserError ε) := none

/-- `packet_length`: the number of bytes received. A byte string longer than the
32-bit field can express reads as its largest value. -/
def packetLength (packet : List Byte) : BitVec 32 :=
  BitVec.ofNat 32 (min packet.length (2 ^ 32 - 1))

def markToDrop {ε : Type} (sm : StandardMetadata ε) : StandardMetadata ε :=
  { sm with egressSpec := dropPort, mcastGrp := 0 }

/-- `verify_checksum`: whether this call raises the error flag. -/
def verifyChecksum (condition : Bool) (data : List Bool) (stored : BitVec 16) : Bool :=
  condition && decide (stored ≠ csum16 (packBits data))

/-- `update_checksum`: the new value of the checksum field. -/
def updateChecksum (condition : Bool) (data : List Bool) (stored : BitVec 16) : BitVec 16 :=
  if condition then csum16 (packBits data) else stored

/-- `hash` with `HashAlgorithm.crc16`, before the result is cut to its width. -/
def hashCrc16 (base : ℕ) (data : List Bool) (max : ℕ) : ℕ :=
  if max = 0 then base else base + (crc16Arc (packBits data)).toNat % max

/-! Multicast groups of the replication engine. -/

structure Replica where
  egressPort : ℕ
  instanceId : ℕ := 0
  deriving DecidableEq

structure MulticastGroup where
  id : ℕ
  replicas : List Replica
  deriving DecidableEq

/-- The ports a group copies to; a group that was not installed copies nowhere. -/
def replicaPorts (groups : List MulticastGroup) (id : BitVec 16) : List Port :=
  match groups.find? fun group => group.id == id.toNat with
  | some group => group.replicas.map fun replica => BitVec.ofNat 9 replica.egressPort
  | none => []

/-- A program for the switch. `H` holds the headers and user metadata, `S` the
state that outlives a packet. -/
structure V1Switch (ε H S : Type) where
  initial : H
  parser : StandardMetadata ε → Parser ε H Unit
  verifyChecksum : H → Bool
  ingress : S → H → StandardMetadata ε → S × H × StandardMetadata ε
  egress : H → StandardMetadata ε → H × StandardMetadata ε
  computeChecksum : H → H
  deparser : H → List Byte

namespace V1Switch
variable {ε H S : Type} (sw : V1Switch ε H S)

def arrival (port : Port) (packet : List Byte) : StandardMetadata ε :=
  { ingressPort := port, packetLength := packetLength packet }

def parse (port : Port) (packet : List Byte) :
    Except (ParserError ε) Unit × Cursor H :=
  sw.parser (arrival port packet) ⟨packet, sw.initial⟩

def errorOf (result : Except (ParserError ε) Unit) : Option (ParserError ε) :=
  match result with
  | .ok _ => none
  | .error e => some e

/-- The metadata ingress sees: the parser's error and the checksum flag are set. -/
def parsedMetadata (port : Port) (packet : List Byte) : StandardMetadata ε :=
  let parsed := sw.parse port packet
  { (arrival port packet : StandardMetadata ε) with
    parserError := errorOf parsed.1
    checksumError := if sw.verifyChecksum parsed.2.hdr then 1 else 0 }

def runIngress (s : S) (port : Port) (packet : List Byte) : S × H × StandardMetadata ε :=
  sw.ingress s (sw.parse port packet).2.hdr (sw.parsedMetadata port packet)

/-- Egress ports of the copies made after ingress: the replicas of the selected
group, or the unicast port unless the packet was dropped. -/
def copies (groups : BitVec 16 → List Port) (sm : StandardMetadata ε) : List Port :=
  if sm.mcastGrp ≠ 0 then groups sm.mcastGrp
  else if sm.egressSpec = dropPort then [] else [sm.egressSpec]

/-- One copy through egress; `qdepth` is the queue depth sampled on its way. -/
def emit (qdepth : Port → BitVec 19) (hdr : H) (sm : StandardMetadata ε)
    (payload : List Byte) (port : Port) : Option (Port × List Byte) :=
  let out := sw.egress hdr
    { sm with egressPort := port, egressSpec := 0, deqQdepth := qdepth port }
  if out.2.egressSpec = dropPort then none
  else some (port, sw.deparser (sw.computeChecksum out.1) ++ payload)

/-- One packet through the switch: the new state and the copies sent. -/
def process (groups : BitVec 16 → List Port) (qdepth : Port → BitVec 19) (s : S)
    (port : Port) (packet : List Byte) : S × List (Port × List Byte) :=
  let payload := (sw.parse port packet).2.rest
  let out := sw.runIngress s port packet
  (out.1, (copies groups out.2.2).filterMap (sw.emit qdepth out.2.1 out.2.2 payload))

/-- The copies sent by a program without state or replication groups. -/
def forward {ε H : Type} (sw : V1Switch ε H Unit) (qdepth : Port → BitVec 19) (port : Port)
    (packet : List Byte) : List (Port × List Byte) :=
  (sw.process (fun _ => []) qdepth () port packet).2

/-- Packets processed one after the other: the final state and all copies sent. -/
def run (groups : BitVec 16 → List Port) (qdepth : Port → BitVec 19) (s : S) :
    List (Port × List Byte) → S × List (Port × List Byte)
  | [] => (s, [])
  | (port, packet) :: arrivals =>
      let first := sw.process groups qdepth s port packet
      let others := run groups qdepth first.1 arrivals
      (others.1, first.2 ++ others.2)

/-- The packet was parsed without error and no checksum check failed. -/
def Accepts (port : Port) (packet : List Byte) (hdr : H) (payload : List Byte) : Prop :=
  sw.parse port packet = (.ok (), ⟨payload, hdr⟩) ∧ sw.verifyChecksum hdr = false

variable {sw}

/-- A dropped packet leaves no copy. -/
theorem copies_markToDrop (groups : BitVec 16 → List Port) (sm : StandardMetadata ε) :
    copies groups (markToDrop sm) = [] := by
  simp [copies, markToDrop]

theorem copies_unicast (groups : BitVec 16 → List Port) {sm : StandardMetadata ε}
    (hm : sm.mcastGrp = 0) (hp : sm.egressSpec ≠ dropPort) :
    copies groups sm = [sm.egressSpec] := by
  rw [copies, if_neg (not_not.mpr hm), if_neg hp]

/-- A packet that ends ingress with the drop port and no group leaves no copy. -/
theorem process_dropPort {groups : BitVec 16 → List Port} {qdepth : Port → BitVec 19} {s s' : S}
    {port : Port} {packet : List Byte} {hdr : H} {sm : StandardMetadata ε}
    (h : sw.runIngress s port packet = (s', hdr, sm)) (hm : sm.mcastGrp = 0)
    (hp : sm.egressSpec = dropPort) : sw.process groups qdepth s port packet = (s', []) := by
  simp [process, h, copies, hm, hp]

theorem forward_dropPort {sw : V1Switch ε H Unit} {qdepth : Port → BitVec 19} {port : Port}
    {packet : List Byte} (hm : (sw.runIngress () port packet).2.2.mcastGrp = 0)
    (hp : (sw.runIngress () port packet).2.2.egressSpec = dropPort) :
    sw.forward qdepth port packet = [] := by
  rw [forward, process_dropPort rfl hm hp]

/-- A packet that ingress drops leaves no copy. -/
theorem forward_dropped {sw : V1Switch ε H Unit} {qdepth : Port → BitVec 19} {port : Port}
    {packet : List Byte} {sm : StandardMetadata ε}
    (h : (sw.runIngress () port packet).2.2 = markToDrop sm) :
    sw.forward qdepth port packet = [] :=
  forward_dropPort (h ▸ rfl) (h ▸ rfl)

theorem Accepts.parsedMetadata {port : Port} {packet payload : List Byte} {hdr : H}
    (h : sw.Accepts port packet hdr payload) :
    sw.parsedMetadata port packet = arrival port packet := by
  simp [V1Switch.parsedMetadata, h.1, h.2, errorOf, arrival]

theorem Accepts.runIngress {s : S} {port : Port} {packet payload : List Byte} {hdr : H}
    (h : sw.Accepts port packet hdr payload) :
    sw.runIngress s port packet = sw.ingress s hdr (arrival port packet) := by
  rw [V1Switch.runIngress, h.parsedMetadata, h.1]

/-- Every copy of an accepted packet is the same frame, when the program does
nothing in egress. -/
theorem Accepts.process_copies (groups : BitVec 16 → List Port) (qdepth : Port → BitVec 19)
    {s s' : S} {port : Port} {packet payload : List Byte} {hdr hdr' : H} {sm : StandardMetadata ε}
    (ha : sw.Accepts port packet hdr payload) (hi : sw.runIngress s port packet = (s', hdr', sm))
    (he : ∀ hdr sm, sw.egress hdr sm = (hdr, sm)) :
    sw.process groups qdepth s port packet = (s', (copies groups sm).map fun out =>
      (out, sw.deparser (sw.computeChecksum hdr') ++ payload)) := by
  have hemit : sw.emit qdepth hdr' sm payload = fun out =>
      some (out, sw.deparser (sw.computeChecksum hdr') ++ payload) := by
    funext out
    simp [emit, he, dropPort]
  simp only [process, hi, ha.1, hemit]
  rw [← List.filterMap_eq_map]
  rfl

/-- A packet that ingress sends to one port leaves there as deparsed. -/
theorem Accepts.process_unicast (groups : BitVec 16 → List Port) (qdepth : Port → BitVec 19)
    {s s' : S} {port : Port} {packet payload : List Byte} {hdr hdr' : H} {sm : StandardMetadata ε}
    (ha : sw.Accepts port packet hdr payload) (hi : sw.runIngress s port packet = (s', hdr', sm))
    (he : ∀ hdr sm, sw.egress hdr sm = (hdr, sm)) (hm : sm.mcastGrp = 0)
    (hp : sm.egressSpec ≠ dropPort) :
    sw.process groups qdepth s port packet =
      (s', [(sm.egressSpec, sw.deparser (sw.computeChecksum hdr') ++ payload)]) := by
  rw [ha.process_copies groups qdepth hi he, copies_unicast groups hm hp]
  rfl

theorem Accepts.forward_unicast {sw : V1Switch ε H Unit} (qdepth : Port → BitVec 19) {port : Port}
    {packet payload : List Byte} {hdr hdr' : H} {sm : StandardMetadata ε}
    (ha : sw.Accepts port packet hdr payload) (hi : sw.runIngress () port packet = ((), hdr', sm))
    (he : ∀ hdr sm, sw.egress hdr sm = (hdr, sm)) (hm : sm.mcastGrp = 0)
    (hp : sm.egressSpec ≠ dropPort) :
    sw.forward qdepth port packet =
      [(sm.egressSpec, sw.deparser (sw.computeChecksum hdr') ++ payload)] := by
  rw [forward, ha.process_unicast _ _ hi he hm hp]

/-- The same for a program that works in egress. -/
theorem Accepts.forward_egress {sw : V1Switch ε H Unit} (qdepth : Port → BitVec 19) {port : Port}
    {packet payload : List Byte} {hdr hdr' hdr'' : H} {sm sm' : StandardMetadata ε}
    (ha : sw.Accepts port packet hdr payload) (hi : sw.runIngress () port packet = ((), hdr', sm))
    (hm : sm.mcastGrp = 0) (hp : sm.egressSpec ≠ dropPort)
    (he : sw.egress hdr'
      { sm with egressPort := sm.egressSpec, egressSpec := 0, deqQdepth := qdepth sm.egressSpec } =
        (hdr'', sm')) (hs : sm'.egressSpec ≠ dropPort) :
    sw.forward qdepth port packet =
      [(sm.egressSpec, sw.deparser (sw.computeChecksum hdr'') ++ payload)] := by
  have hemit : sw.emit qdepth hdr' sm payload sm.egressSpec =
      some (sm.egressSpec, sw.deparser (sw.computeChecksum hdr'') ++ payload) := by
    simp only [emit, he, if_neg hs]
  simp [forward, process, hi, ha.1, copies, hm, hp, hemit]

theorem parserError_of_parse {port : Port} {packet : List Byte} {e : ParserError ε}
    {c : Cursor H} (h : sw.parse port packet = (.error e, c)) :
    (sw.parsedMetadata port packet).parserError = some e := by
  simp [V1Switch.parsedMetadata, h, errorOf]

/-- Ingress of a packet that is not accepted sees the parser error or the
checksum flag. -/
theorem rejected {port : Port} {packet : List Byte}
    (h : ∀ hdr payload, ¬ sw.Accepts port packet hdr payload) :
    (sw.parsedMetadata port packet).parserError ≠ none ∨
      (sw.parsedMetadata port packet).checksumError = 1 := by
  rcases hp : sw.parse port packet with ⟨e | _, payload, hdr⟩
  · left
    rw [parserError_of_parse hp]
    simp
  · right
    cases hv : sw.verifyChecksum hdr
    · exact absurd ⟨hp, hv⟩ (h hdr payload)
    · simp [V1Switch.parsedMetadata, hp, hv]

end V1Switch

/-! The 32-bit `packet_length` and the subtraction of a fixed header length. -/

theorem packetLength_toNat (packet : List Byte) :
    (packetLength packet).toNat = min packet.length (2 ^ 32 - 1) := by
  rw [packetLength, BitVec.toNat_ofNat]
  omega

/-- Once `k` bytes are known to be there, `packet_length - k` does not wrap, and a
16-bit length is compared with it as an integer. -/
theorem le_packetLength_sub {packet : List Byte} (k : ℕ) (hk : k ≤ packet.length)
    (hs : k ≤ 1000) (len : BitVec 16) :
    (len.setWidth 32 ≤ packetLength packet - BitVec.ofNat 32 k) ↔
      len.toNat + k ≤ packet.length := by
  have hl := len.isLt
  have hp := packetLength_toNat packet
  rw [BitVec.le_def, BitVec.toNat_sub, BitVec.toNat_setWidth, BitVec.toNat_ofNat, hp]
  omega

end P4
