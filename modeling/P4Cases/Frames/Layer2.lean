import P4Cases.Target.V1Model
import P4Cases.Target.Match
import P4Cases.Frames.View

/-! What the layer 2 switches have in common: the parser, the groups that flood a
frame to every other port, and the addresses of the hosts. -/
namespace P4Cases.Layer2
open Wire P4

/-- The programs declare no errors of their own. -/
abbrev ErrorCode := Empty

structure Headers where
  ethernet : Option Ethernet := none

abbrev Metadata := StandardMetadata ErrorCode

def myParser (_ : Metadata) : Parser ErrorCode Headers Unit := do
  let _ : Ethernet ← Parser.extract fun h hdr => { hdr with ethernet := some h }
  Parser.accept

def myDeparser (hdr : Headers) : List Byte := hdr.ethernet.elim [] Header.encode

/-- The group of an ingress port: every port except that one. -/
def floodGroup (ports ingress : ℕ) : MulticastGroup where
  id := ingress
  replicas := ((List.range' 1 ports).filter fun port => decide (port ≠ ingress)).map
    fun port => { egressPort := port }

/-- `00:00:00:00:00:` followed by the number of the host. -/
def hostMac (n : ℕ) : BitVec 48 := BitVec.ofNat 48 n

def hostName (number : ℕ) : String := s!"h{number}"

theorem hostMac_inj {m n : ℕ} (hm : m < 256) (hn : n < 256) : hostMac m = hostMac n ↔ m = n := by
  unfold hostMac
  rw [← BitVec.toNat_inj, BitVec.toNat_ofNat, BitVec.toNat_ofNat]
  omega

theorem port_inj {m n : ℕ} (hm : m < 256) (hn : n < 256) :
    (BitVec.ofNat 9 m : Port) = BitVec.ofNat 9 n ↔ m = n := by
  rw [← BitVec.toNat_inj, BitVec.toNat_ofNat, BitVec.toNat_ofNat]
  omega

theorem port_ne_drop {n : ℕ} (hn : n < 256) : (BitVec.ofNat 9 n : Port) ≠ dropPort := by
  rw [dropPort, ne_eq, ← BitVec.toNat_inj, BitVec.toNat_ofNat]
  have hd : (511 : Port).toNat = 511 := rfl
  omega

/-- Where a frame from `ingress` is flooded to. -/
def floodPorts (ports ingress : ℕ) : List Port :=
  ((List.range' 1 ports).filter fun port => decide (port ≠ ingress)).map (BitVec.ofNat 9)

theorem not_mem_floodPorts {ports ingress : ℕ} (hp : ports < 256) (hi : ingress ≤ ports) :
    BitVec.ofNat 9 ingress ∉ floodPorts ports ingress := by
  intro h
  obtain ⟨port, hport, he⟩ := List.mem_map.mp h
  obtain ⟨hmem, hne⟩ := List.mem_filter.mp hport
  have hr := List.mem_range'_1.mp hmem
  exact of_decide_eq_true hne ((port_inj (by omega) (by omega)).mp he)

theorem replicaPorts_flood {ports ingress : ℕ} (hp : ports < 256) (h₁ : 1 ≤ ingress)
    (h₂ : ingress ≤ ports) :
    replicaPorts ((List.range' 1 ports).map (floodGroup ports)) (BitVec.ofNat 16 ingress) =
      floodPorts ports ingress := by
  have hid : (BitVec.ofNat 16 ingress).toNat = ingress := by
    rw [BitVec.toNat_ofNat]
    omega
  have hmem : ingress ∈ List.range' 1 ports := List.mem_range'_1.mpr ⟨h₁, by omega⟩
  have hfind : ∀ l : List ℕ, ingress ∈ l →
      (l.map (floodGroup ports)).find? (fun group => group.id == ingress) =
        some (floodGroup ports ingress) := by
    intro l
    induction l with
    | nil => intro h; cases h
    | cons a l ih =>
      intro h
      by_cases ha : a = ingress
      · subst ha
        simp [floodGroup]
      · have hl : ingress ∈ l := (List.mem_cons.mp h).resolve_left fun he => ha he.symm
        have hne : ((floodGroup ports a).id == ingress) = false := by simpa [floodGroup] using ha
        rw [List.map_cons, List.find?_cons, hne]
        exact ih hl
  unfold replicaPorts
  rw [hid, hfind _ hmem]
  simp [floodGroup, floodPorts]

/-- The engine copies a frame for the group of its ingress port to every other port. -/
theorem copies_flood {ports ingress : ℕ} (hp : ports < 256) (h₁ : 1 ≤ ingress)
    (h₂ : ingress ≤ ports) {sm : Metadata} (hm : sm.mcastGrp = BitVec.ofNat 16 ingress) :
    V1Switch.copies (replicaPorts ((List.range' 1 ports).map (floodGroup ports))) sm =
      floodPorts ports ingress := by
  have hgroup : sm.mcastGrp ≠ 0 := by
    rw [hm, ne_eq, ← BitVec.toNat_inj, BitVec.toNat_ofNat]
    have hz : (0 : BitVec 16).toNat = 0 := rfl
    omega
  unfold V1Switch.copies
  rw [if_pos hgroup, hm, replicaPorts_flood hp h₁ h₂]

/-- A table with one entry for each host or port, under keys that tell them apart. -/
theorem lookup_numbered {κ α : Type} [DecidableEq κ] {key : ℕ → κ} {action : ℕ → α}
    (hinj : ∀ {m n}, m < 256 → n < 256 → (key m = key n ↔ m = n)) {count : ℕ} (hc : count < 256)
    (t : Table.Installed ((List.range' 1 count).map fun n => Entry.exact (key n) (action n)))
    {n : ℕ} (h₁ : 1 ≤ n) (h₂ : n ≤ count) : t.table.lookup (key n) = some (action n) := by
  have hmem : n ∈ List.range' 1 count := List.mem_range'_1.mpr ⟨h₁, by omega⟩
  apply t.lookup_eq_some (e := .exact (key n) (action n))
  · exact List.mem_map_of_mem hmem
  · simp
  · intro d hd hk
    obtain ⟨m, hm, rfl⟩ := List.mem_map.mp hd
    have hr := List.mem_range'_1.mp hm
    have he : n = m := (hinj (by omega) (by omega)).mp (by simpa using hk)
    exact Or.inl (he ▸ rfl)

/-- A program that works in ingress only, behind the shared parser. -/
structure Plain {S : Type} (sw : V1Switch ErrorCode Headers S) : Prop where
  parser : sw.parser = myParser
  initial : sw.initial = {}
  verifyChecksum : ∀ hdr, sw.verifyChecksum hdr = false
  egress : ∀ hdr sm, sw.egress hdr sm = (hdr, sm)
  computeChecksum : ∀ hdr, sw.computeChecksum hdr = hdr
  deparser : sw.deparser = myDeparser

namespace Plain
variable {S : Type} {sw : V1Switch ErrorCode Headers S} (hp : Plain sw) {s s' : S} {port : Port}
include hp

/-- A frame with a complete Ethernet header is accepted. -/
theorem accepts (port : Port) (eth : Ethernet) (payload : List Byte) :
    sw.Accepts port (Header.encode eth ++ payload) { ethernet := some eth } payload := by
  refine ⟨?_, hp.verifyChecksum _⟩
  unfold V1Switch.parse
  rw [hp.parser, hp.initial, myParser, Parser.extract_bind_ok]
  exact ⟨eth, payload, rfl, Parser.accept_ok.mpr ⟨rfl, rfl⟩⟩

/-- A shorter one is not, and no header of it is set. -/
theorem parse_short (port : Port) {frame : List Byte} (h : frame.length < 14) :
    sw.parse port frame = (.error .packetTooShort, ⟨frame, {}⟩) := by
  unfold V1Switch.parse
  rw [hp.parser, hp.initial, myParser]
  exact Parser.bind_error (Parser.extract_short h)

/-- The copies of a frame with a complete header are the frame. -/
theorem process_complete (groups : BitVec 16 → List Port) (qdepth : Port → BitVec 19)
    {eth : Ethernet} {payload : List Byte} {sm : Metadata}
    (hi : sw.ingress s { ethernet := some eth }
      (V1Switch.arrival port (Header.encode eth ++ payload)) =
        (s', { ethernet := some eth }, sm)) :
    sw.process groups qdepth s port (Header.encode eth ++ payload) =
      (s', (V1Switch.copies groups sm).map fun out => (out, Header.encode eth ++ payload)) := by
  have ha := hp.accepts port eth payload
  have hr := ha.runIngress (s := s)
  rw [hi] at hr
  rw [ha.process_copies groups qdepth hr hp.egress, hp.computeChecksum, hp.deparser]
  rfl

/-- A shorter frame that ingress drops leaves no copy and no trace in the state. -/
theorem process_short (groups : BitVec 16 → List Port) (qdepth : Port → BitVec 19)
    {frame : List Byte} (hf : frame.length < 14)
    (hdrop : ∀ hdr (sm : Metadata), sm.parserError ≠ none →
      sw.ingress s hdr sm = (s, hdr, markToDrop sm)) :
    sw.process groups qdepth s port frame = (s, []) := by
  have herr := V1Switch.parserError_of_parse (hp.parse_short port hf)
  have hr : sw.runIngress s port frame =
      (s, (sw.parse port frame).2.hdr, markToDrop (sw.parsedMetadata port frame)) := by
    apply hdrop
    rw [herr]
    simp
  exact V1Switch.process_dropPort hr rfl rfl

end Plain

end P4Cases.Layer2
