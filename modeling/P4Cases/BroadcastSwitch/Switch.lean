import P4Cases.Frames.Layer2

/-! The broadcast switch: known destinations by a MAC table, and not back to where the
frame came from; everything else to the group of the ingress port. -/
namespace P4Cases.BroadcastSwitch
open Wire P4 Layer2

inductive DmacAction where
  | forward (egressPort : Port)
  | noAction
  deriving DecidableEq

inductive SelectAction where
  | setMcastGrp (mcastGrp : BitVec 16)
  | drop
  deriving DecidableEq

def applySelect (selectMcastGrp : Table Port SelectAction) (sm : Metadata) : Metadata :=
  match (selectMcastGrp.lookup sm.ingressPort).getD .drop with
  | .setMcastGrp mcastGrp => { sm with mcastGrp }
  | .drop => markToDrop sm

def myIngress (dmac : Table (BitVec 48) DmacAction) (selectMcastGrp : Table Port SelectAction)
    (hdr : Headers) (sm : Metadata) : Metadata :=
  match sm.parserError, hdr.ethernet with
  | none, some ethernet =>
      match dmac.lookup ethernet.dstAddr with
      | some action =>
          let sm := match action with
            | .forward egressPort => { sm with egressSpec := egressPort }
            | .noAction => sm
          if sm.egressSpec = sm.ingressPort then markToDrop sm else sm
      | none => applySelect selectMcastGrp sm
  | _, _ => markToDrop sm

def switch (dmac : Table (BitVec 48) DmacAction) (selectMcastGrp : Table Port SelectAction) :
    V1Switch ErrorCode Headers Unit where
  initial := {}
  parser := myParser
  verifyChecksum _ := false
  ingress _ hdr sm := ((), hdr, myIngress dmac selectMcastGrp hdr sm)
  egress hdr sm := (hdr, sm)
  computeChecksum hdr := hdr
  deparser := myDeparser

theorem switch_plain (dmac : Table (BitVec 48) DmacAction)
    (selectMcastGrp : Table Port SelectAction) : Plain (switch dmac selectMcastGrp) :=
  ⟨rfl, rfl, fun _ => rfl, fun _ _ => rfl, fun _ => rfl, rfl⟩

/-! The controller's entries and groups. -/

def dmacEntries (hosts : ℕ) : Table (BitVec 48) DmacAction :=
  (List.range' 1 hosts).map fun n => .exact (hostMac n) (.forward (BitVec.ofNat 9 n))

def multicastGroups (hosts : ℕ) : List MulticastGroup :=
  if hosts < 2 then [] else (List.range' 1 hosts).map (floodGroup hosts)

def selectEntries (hosts : ℕ) : Table Port SelectAction :=
  (multicastGroups hosts).map fun group =>
    .exact (BitVec.ofNat 9 group.id) (.setMcastGrp (BitVec.ofNat 16 group.id))

section
variable {hosts : ℕ}

theorem lookup_dmac_none (dmac : Table.Installed (dmacEntries hosts)) {mac : BitVec 48}
    (h : ∀ n, 1 ≤ n → n ≤ hosts → mac ≠ hostMac n) : dmac.table.lookup mac = none := by
  apply dmac.lookup_eq_none
  intro d hd
  obtain ⟨m, hm, rfl⟩ := List.mem_map.mp hd
  have hr := List.mem_range'_1.mp hm
  simpa using h m (by omega) (by omega)

theorem lookup_select (select : Table.Installed (selectEntries hosts)) (hh : hosts < 256)
    (h2 : 2 ≤ hosts) {n : ℕ} (h₁ : 1 ≤ n) (h₂ : n ≤ hosts) :
    select.table.lookup (BitVec.ofNat 9 n) = some (.setMcastGrp (BitVec.ofNat 16 n)) := by
  have hentries : selectEntries hosts = (List.range' 1 hosts).map fun n =>
      .exact (BitVec.ofNat 9 n) (.setMcastGrp (BitVec.ofNat 16 n)) := by
    unfold selectEntries multicastGroups
    rw [if_neg (by omega), List.map_map]
    rfl
  obtain ⟨table, hperm⟩ := select
  rw [hentries] at hperm
  exact lookup_numbered port_inj hh ⟨table, hperm⟩ h₁ h₂

end

/-! What is sent for a frame with a complete Ethernet header. -/

section
variable {hosts : ℕ} (dmac : Table.Installed (dmacEntries hosts))
  (select : Table.Installed (selectEntries hosts)) (qdepth : Port → BitVec 19) (port : Port)
  (eth : Ethernet) (payload : List Byte)

/-- The copies the switch sends. -/
def copies (hosts : ℕ) (dmac : Table (BitVec 48) DmacAction)
    (selectMcastGrp : Table Port SelectAction) (qdepth : Port → BitVec 19) (port : Port)
    (frame : List Byte) : List (Port × List Byte) :=
  ((switch dmac selectMcastGrp).process (replicaPorts (multicastGroups hosts)) qdepth () port
    frame).2

theorem copies_eq :
    copies hosts dmac.table select.table qdepth port (Header.encode eth ++ payload) =
      (V1Switch.copies (replicaPorts (multicastGroups hosts))
        (myIngress dmac.table select.table { ethernet := some eth }
          (V1Switch.arrival port (Header.encode eth ++ payload)))).map
        fun out => (out, Header.encode eth ++ payload) := by
  unfold copies
  rw [(switch_plain dmac.table select.table).process_complete _ qdepth rfl]

/-- A known destination behind another port gets the frame, and nobody else. -/
theorem copies_known (hh : hosts < 256) {n : ℕ} (h₁ : 1 ≤ n) (h₂ : n ≤ hosts)
    (hd : eth.dstAddr = hostMac n) :
    copies hosts dmac.table select.table qdepth port (Header.encode eth ++ payload) =
      if BitVec.ofNat 9 n = port then []
      else [(BitVec.ofNat 9 n, Header.encode eth ++ payload)] := by
  have hdrop := port_ne_drop (n := n) (by omega)
  rw [copies_eq, myIngress, V1Switch.arrival]
  dsimp only
  rw [hd, lookup_numbered hostMac_inj hh dmac h₁ h₂]
  dsimp only
  split_ifs
  · rfl
  · simp [V1Switch.copies, hdrop]

/-- Every other frame is flooded. -/
theorem copies_unknown (hh : hosts < 256) (h2 : 2 ≤ hosts) {ingress : ℕ} (h₁ : 1 ≤ ingress)
    (h₂ : ingress ≤ hosts) (hd : ∀ n, 1 ≤ n → n ≤ hosts → eth.dstAddr ≠ hostMac n) :
    copies hosts dmac.table select.table qdepth (BitVec.ofNat 9 ingress)
        (Header.encode eth ++ payload) =
      (floodPorts hosts ingress).map fun out => (out, Header.encode eth ++ payload) := by
  rw [copies_eq, myIngress, V1Switch.arrival]
  dsimp only
  rw [lookup_dmac_none dmac hd]
  dsimp only
  rw [applySelect, lookup_select select hh h2 h₁ h₂, Option.getD_some, multicastGroups,
    if_neg (by omega), copies_flood hh h₁ h₂ rfl]

end

end P4Cases.BroadcastSwitch
