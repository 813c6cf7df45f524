import P4Cases.LearningSwitch.Runs
import P4Cases.Frames.Layer2

/-! The data plane of the learning switch, over the tables the controller has written. -/
namespace P4Cases.LearningSwitch
open Wire P4 Layer2

/-- `learn_t`, the content of a digest. -/
structure Learn where
  srcAddr : BitVec 48
  ingressPort : Port
  deriving DecidableEq

inductive BroadcastAction where
  | setMcastGrp (mcastGrp : BitVec 16)
  | noAction
  deriving DecidableEq

def applySmac (tables : Tables) (srcAddr : BitVec 48) (sm : Metadata) (digests : List Learn) :
    List Learn :=
  match (tables.smac srcAddr).getD .macLearn with
  | .macLearn => digests ++ [⟨srcAddr, sm.ingressPort⟩]
  | .noAction => digests

def applyBroadcast (broadcast : Table Port BroadcastAction) (sm : Metadata) : Metadata :=
  match (broadcast.lookup sm.ingressPort).getD .noAction with
  | .setMcastGrp mcastGrp => { sm with mcastGrp }
  | .noAction => sm

def applyDmac (tables : Tables) (broadcast : Table Port BroadcastAction) (dstAddr : BitVec 48)
    (sm : Metadata) : Metadata :=
  match tables.dmac dstAddr with
  | some (.forward egressPort) => { sm with egressSpec := egressPort }
  | some .noAction => sm
  | none => applyBroadcast broadcast sm

/-- The parser's error is not looked at; `unset` is what reading a field of an invalid
header gives. -/
def myIngress (tables : Tables) (broadcast : Table Port BroadcastAction) (unset : BitVec 48)
    (digests : List Learn) (hdr : Headers) (sm : Metadata) : List Learn × Metadata :=
  (applySmac tables (hdr.ethernet.elim unset Ethernet.srcAddr) sm digests,
    applyDmac tables broadcast (hdr.ethernet.elim unset Ethernet.dstAddr) sm)

/-- The state is the digests sent so far. -/
def switch (tables : Tables) (broadcast : Table Port BroadcastAction) (unset : BitVec 48) :
    V1Switch ErrorCode Headers (List Learn) where
  initial := {}
  parser := myParser
  verifyChecksum _ := false
  ingress digests hdr sm :=
    let out := myIngress tables broadcast unset digests hdr sm
    (out.1, hdr, out.2)
  egress hdr sm := (hdr, sm)
  computeChecksum hdr := hdr
  deparser := myDeparser

theorem switch_plain (tables : Tables) (broadcast : Table Port BroadcastAction)
    (unset : BitVec 48) : Plain (switch tables broadcast unset) :=
  ⟨rfl, rfl, fun _ => rfl, fun _ _ => rfl, fun _ => rfl, rfl⟩

/-! The controller's groups and broadcast entries. -/

def multicastGroups (ports : ℕ) : List MulticastGroup :=
  (List.range' 1 ports).map (floodGroup ports)

def broadcastEntries (ports : ℕ) : Table Port BroadcastAction :=
  (List.range' 1 ports).map fun ingress =>
    .exact (BitVec.ofNat 9 ingress) (.setMcastGrp (BitVec.ofNat 16 ingress))

section
variable {ports : ℕ} (tables : Tables) (broadcast : Table.Installed (broadcastEntries ports))
  (unset : BitVec 48) (qdepth : Port → BitVec 19) (digests : List Learn) (port : Port)
  (eth : Ethernet) (payload : List Byte)

/-- The copies the switch sends. -/
def copies (ports : ℕ) (tables : Tables) (broadcast : Table Port BroadcastAction)
    (unset : BitVec 48) (qdepth : Port → BitVec 19) (digests : List Learn) (port : Port)
    (frame : List Byte) : List (Port × List Byte) :=
  ((switch tables broadcast unset).process (replicaPorts (multicastGroups ports)) qdepth digests
    port frame).2

theorem copies_eq : copies ports tables broadcast.table unset qdepth digests port
      (Header.encode eth ++ payload) =
    (V1Switch.copies (replicaPorts (multicastGroups ports)) (applyDmac tables broadcast.table
      eth.dstAddr (V1Switch.arrival port (Header.encode eth ++ payload)))).map
        fun out => (out, Header.encode eth ++ payload) := by
  unfold copies
  rw [(switch_plain tables broadcast.table unset).process_complete _ qdepth rfl]
  rfl

/-- A destination with a forwarding entry gets the frame on that port, also when the
frame came in there. -/
theorem copies_known {n : ℕ} (hn : n < 256)
    (hd : tables.dmac eth.dstAddr = some (.forward (BitVec.ofNat 9 n))) :
    copies ports tables broadcast.table unset qdepth digests port (Header.encode eth ++ payload) =
      [(BitVec.ofNat 9 n, Header.encode eth ++ payload)] := by
  have hdrop := port_ne_drop hn
  rw [copies_eq, applyDmac, hd]
  simp [V1Switch.copies, V1Switch.arrival, hdrop]

/-- Every other frame is flooded. -/
theorem copies_unknown (hp : ports < 256) {ingress : ℕ} (h₁ : 1 ≤ ingress) (h₂ : ingress ≤ ports)
    (hd : tables.dmac eth.dstAddr = none) :
    copies ports tables broadcast.table unset qdepth digests (BitVec.ofNat 9 ingress)
        (Header.encode eth ++ payload) =
      (floodPorts ports ingress).map fun out => (out, Header.encode eth ++ payload) := by
  rw [copies_eq, applyDmac, hd]
  dsimp only
  rw [applyBroadcast, V1Switch.arrival, lookup_numbered port_inj hp broadcast h₁ h₂,
    Option.getD_some, multicastGroups, copies_flood hp h₁ h₂ rfl]

end

end P4Cases.LearningSwitch
