import P4Cases.Target.V1Model
import P4Cases.Frames.Headers

/-! The switch that forwards between two ports and clones every packet to the port of
the CPU, under a header with the port it came in on. -/
namespace P4Cases.CloneToCpu
open Wire P4

def cpuCloneSessionId : BitVec 32 := 99

def etherTypeCpu : BitVec 16 := 0x1010

structure Cpu where
  ingressPort : BitVec 16
  deriving DecidableEq

theorem Cpu.sum_layout : [16].sum = 8 * 2 := rfl

instance : Header Cpu where
  layout := [16]
  size := 2
  sum_layout := Cpu.sum_layout
  toFields h := (h.ingressPort, ())
  ofFields f := ⟨f.1⟩
  ofFields_toFields _ := rfl
  toFields_ofFields _ := rfl

/-- The headers, and the port in the user metadata. -/
structure Headers where
  ethernet : Option Ethernet := none
  cpu : Option Cpu := none
  ingressPort : Port := 0

abbrev Metadata := StandardMetadata Empty

def myParser (_ : Metadata) : Parser Empty Headers Unit := do
  let _ : Ethernet ← Parser.extract fun h hdr => { hdr with ethernet := some h }
  Parser.accept

/-- A call of `clone_preserving_field_list` with `I2E` and field list 0, and what the
list holds at the end of ingress. -/
structure CloneRequest where
  session : BitVec 32
  ingressPort : Port
  deriving DecidableEq

def myIngress (requests : List CloneRequest) (hdr : Headers) (sm : Metadata) :
    List CloneRequest × Headers × Metadata :=
  let hdr := { hdr with ingressPort := sm.ingressPort }
  if sm.ingressPort = 1 then
    (requests ++ [⟨cpuCloneSessionId, hdr.ingressPort⟩], hdr, { sm with egressSpec := 2 })
  else if sm.ingressPort = 2 then
    (requests ++ [⟨cpuCloneSessionId, hdr.ingressPort⟩], hdr, { sm with egressSpec := 1 })
  else (requests, hdr, markToDrop sm)

/-- A field that is written in an invalid header stays invalid. -/
def myEgress (instanceType : BitVec 32) (hdr : Headers) : Headers :=
  if instanceType = 1 then
    { hdr with
      cpu := some ⟨hdr.ingressPort.setWidth 16⟩
      ethernet := hdr.ethernet.map fun eth => { eth with etherType := etherTypeCpu } }
  else hdr

def myDeparser (hdr : Headers) : List Byte :=
  hdr.ethernet.elim [] Header.encode ++ hdr.cpu.elim [] Header.encode

/-- The program, for the packets of one instance type. -/
def program (instanceType : BitVec 32) : V1Switch Empty Headers (List CloneRequest) where
  initial := {}
  parser := myParser
  verifyChecksum _ := false
  ingress := myIngress
  egress hdr sm := (myEgress instanceType hdr, sm)
  computeChecksum hdr := hdr
  deparser := myDeparser

/-! Clones. -/

structure CloneSession where
  id : ℕ
  replicas : List Replica
  deriving DecidableEq

/-- The session the controller installs. -/
def cloneSession : CloneSession := { id := 99, replicas := [{ egressPort := 510 }] }

/-- The ports a session copies to. -/
def sessionPorts (sessions : List CloneSession) (id : BitVec 32) : List Port :=
  match sessions.find? fun session => session.id == id.toNat with
  | some session => session.replicas.map fun replica => BitVec.ofNat 9 replica.egressPort
  | none => []

section
variable (sessions : List CloneSession) (qdepth : Port → BitVec 19) (port : Port)
  (frame : List Byte)

/-- The copies of a clone: the packet as received is parsed again, the field list is
restored, and egress runs with instance type 1. -/
def clone (request : CloneRequest) : List (Port × List Byte) :=
  let parsed := ((program 1).parse port frame).2
  let hdr := { parsed.hdr with ingressPort := request.ingressPort }
  (sessionPorts sessions request.session).filterMap
    ((program 1).emit qdepth hdr ((program 1).parsedMetadata port frame) parsed.rest)

/-- One frame through the switch: the copies sent, and those of its clones. -/
def receive : List (Port × List Byte) × List (Port × List Byte) :=
  let out := (program 0).process (fun _ => []) qdepth [] port frame
  (out.2, out.1.flatMap (clone sessions qdepth port frame))

end

/-! What is sent. -/

/-- The parser takes the Ethernet header when it is complete, and nothing else. -/
theorem parse_eq (instanceType : BitVec 32) (port : Port) (frame : List Byte) :
    ∃ ethernet : Option Ethernet, ∃ rest, ∃ result,
      (program instanceType).parse port frame = (result, ⟨rest, { ethernet := ethernet }⟩) ∧
        frame = ethernet.elim [] Header.encode ++ rest ∧
        (ethernet.isSome ↔ 14 ≤ frame.length) := by
  by_cases hf : frame.length < 14
  · refine ⟨none, frame, .error .packetTooShort, ?_, rfl, ?_⟩
    · exact Parser.bind_error (Parser.extract_short hf)
    · simp only [Option.isSome_none, Bool.false_eq_true, false_iff]
      omega
  · obtain ⟨eth, payload, hframe⟩ : ∃ (e : Ethernet) (p : _), frame = Header.encode e ++ p :=
      Header.exists_encode_append (by simpa using hf)
    refine ⟨some eth, payload, .ok (), ?_, hframe, ?_⟩
    · exact Parser.extract_bind_ok.mpr ⟨eth, payload, hframe, Parser.accept_ok.mpr ⟨rfl, rfl⟩⟩
    · simp only [Option.isSome_some, true_iff]
      omega

/-- The clone of a frame: the CPU's EtherType when there is a header, then the port. -/
def cloneBytes (port : Port) (ethernet : Option Ethernet) (rest : List Byte) : List Byte :=
  (ethernet.elim [] fun eth => Header.encode { eth with etherType := etherTypeCpu }) ++
    beBytes 2 port.toNat ++ rest

theorem Cpu.encode_eq (h : Cpu) : Header.encode h = beBytes 2 h.ingressPort.toNat := by
  change packBits (toBits h.ingressPort ++ []) = _
  simp

theorem port_toNat (port : Port) : (port.setWidth 16).toNat = port.toNat := by
  have hp := port.isLt
  rw [BitVec.toNat_setWidth]
  omega

/-- Egress of a clone writes the CPU header, whether or not there is an Ethernet header. -/
theorem deparse_clone (port : Port) (ethernet : Option Ethernet) (rest : List Byte) :
    myDeparser (myEgress 1 { ethernet := ethernet, ingressPort := port }) ++ rest =
      cloneBytes port ethernet rest := by
  unfold myDeparser myEgress cloneBytes
  rw [if_pos rfl]
  dsimp only
  rw [Option.elim_some, Cpu.encode_eq, port_toNat]
  cases ethernet <;> rfl

section
variable (sessions : List CloneSession) (qdepth : Port → BitVec 19)

/-- The host on the other side. -/
def otherPort (port : Port) : Port := if port = 1 then 2 else 1

theorem clone_eq (port : Port) {frame rest : List Byte} {ethernet : Option Ethernet}
    {result : Except (ParserError Empty) Unit}
    (hparse : (program 1).parse port frame = (result, ⟨rest, { ethernet := ethernet }⟩))
    (request : CloneRequest) :
    clone sessions qdepth port frame request =
      (sessionPorts sessions request.session).map fun out =>
        (out, cloneBytes request.ingressPort ethernet rest) := by
  have hemit : ∀ out, (program 1).emit qdepth
      { ethernet := ethernet, ingressPort := request.ingressPort }
        ((program 1).parsedMetadata port frame) rest out =
      some (out, cloneBytes request.ingressPort ethernet rest) := by
    intro out
    rw [← deparse_clone]
    rfl
  unfold clone
  rw [hparse]
  dsimp only
  rw [List.filterMap_congr fun out _ => hemit out, List.filterMap_eq_map']

/-- A frame from one of the hosts: one copy, and one request for a clone. -/
theorem process_host {port : Port} (hp : port = 1 ∨ port = 2) (frame : List Byte) :
    (program 0).process (fun _ => []) qdepth [] port frame =
      ([⟨cpuCloneSessionId, port⟩], [(otherPort port, frame)]) := by
  obtain ⟨ethernet, rest, result, hparse, hframe, -⟩ := parse_eq 0 port frame
  have hdeparse : myDeparser { ethernet := ethernet, ingressPort := port } ++ rest = frame := by
    rw [hframe, myDeparser, Option.elim_none, List.append_nil]
  have hrun : (program 0).runIngress [] port frame =
      ([⟨cpuCloneSessionId, port⟩], { ethernet := ethernet, ingressPort := port },
        { (program 0).parsedMetadata port frame with egressSpec := otherPort port }) := by
    unfold V1Switch.runIngress
    rw [hparse]
    rcases hp with rfl | rfl
    · rfl
    · rfl
  have hout : otherPort port ≠ dropPort := by
    rcases hp with rfl | rfl
    · decide
    · decide
  have hcopies : V1Switch.copies (fun _ => []) ({ (program 0).parsedMetadata port frame with
      egressSpec := otherPort port } : Metadata) = [otherPort port] :=
    V1Switch.copies_unicast _ rfl hout
  have hemit : (program 0).emit qdepth { ethernet := ethernet, ingressPort := port }
      { (program 0).parsedMetadata port frame with egressSpec := otherPort port } rest
        (otherPort port) = some (otherPort port, frame) := by
    rw [← hdeparse]
    rfl
  unfold V1Switch.process
  rw [hrun, hparse]
  dsimp only
  rw [hcopies, List.filterMap_cons_some hemit, List.filterMap_nil]

/-- A frame from any other port: nothing. -/
theorem process_other {port : Port} (h₁ : port ≠ 1) (h₂ : port ≠ 2) (frame : List Byte) :
    (program 0).process (fun _ => []) qdepth [] port frame = ([], []) := by
  have hrun : (program 0).runIngress [] port frame =
      ([], { ((program 0).parse port frame).2.hdr with ingressPort := port },
        markToDrop ((program 0).parsedMetadata port frame)) := by
    show myIngress [] _ _ = _
    have hport : ((program 0).parsedMetadata port frame).ingressPort = port := rfl
    unfold myIngress
    rw [hport, if_neg h₁, if_neg h₂]
  exact V1Switch.process_dropPort hrun rfl rfl

end

end P4Cases.CloneToCpu
