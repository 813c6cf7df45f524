import P4Cases.LearningSwitch.Learned

/-! The switch and its controller together: frames arrive, digests of them reach the
controller or not, and every frame is flooded until its destination was seen. -/
namespace P4Cases.LearningSwitch
open Wire P4 Layer2 Control

def dstOf (frame : List Byte) : BitVec 48 := macKey (slice frame 0 6)

def srcOf (frame : List Byte) : BitVec 48 := macKey (slice frame 6 12)

/-- A frame with this source address has come in on the port. -/
def Seen (arrived : List (Port × List Byte)) (mac : BitVec 48) (port : Port) : Prop :=
  ∃ frame, (port, frame) ∈ arrived ∧ 14 ≤ frame.length ∧ srcOf frame = mac

/-- A digest that is not forged. One that cannot be decoded says nothing. -/
def Genuine (arrived : List (Port × List Byte)) (member : P4Data) : Prop :=
  ∀ mac port, decodeLearnStruct member = some (mac, port) →
    Seen arrived (macKey mac) (BitVec.ofNat 9 port)

/-- The controller with its tables, and all frames so far. -/
structure System where
  config : Config := {}
  arrived : List (Port × List Byte) := []

/-- Frames arrive on any port at any time. A digest may be lost, repeated or overtaken, and
every write may fail, take effect, or both. -/
inductive Reachable (ports : ℕ) : System → Prop where
  | start : Reachable ports {}
  | arrive {s : System} (port : Port) (frame : List Byte) : Reachable ports s →
      Reachable ports { s with arrived := s.arrived ++ [(port, frame)] }
  | digest {s : System} (member : P4Data) : Reachable ports s → Genuine s.arrived member →
      Reachable ports { s with config := s.config.step ports (.digest member) }
  | reply {s : System} (outcome : Outcome) : Reachable ports s →
      Reachable ports { s with config := s.config.step ports (.reply outcome) }
  | finish {s : System} : Reachable ports s →
      Reachable ports { s with config := s.config.step ports .finish }

theorem dstOf_encode (eth : Ethernet) (payload : List Byte) :
    dstOf (Header.encode eth ++ payload) = eth.dstAddr := by
  unfold dstOf macKey
  rw [Ethernet.encode_eq]
  simp

theorem srcOf_encode (eth : Ethernet) (payload : List Byte) :
    srcOf (Header.encode eth ++ payload) = eth.srcAddr := by
  unfold srcOf macKey
  rw [Ethernet.encode_eq]
  simp

/-- The digest the switch sends for a complete frame is not forged. -/
theorem digests_seen (tables : Tables) (broadcast : Table Port BroadcastAction)
    (unset : BitVec 48) (groups : BitVec 16 → List Port) (qdepth : Port → BitVec 19) (port : Port)
    {frame : List Byte} (hf : 14 ≤ frame.length) (arrived : List (Port × List Byte)) :
    ∀ digest ∈ ((switch tables broadcast unset).process groups qdepth [] port frame).1,
      Seen (arrived ++ [(port, frame)]) digest.srcAddr digest.ingressPort := by
  obtain ⟨eth, payload, rfl⟩ : ∃ (e : Ethernet) (p : _), frame = Header.encode e ++ p :=
    Header.exists_encode_append (by simpa using hf)
  intro digest hmem
  rw [(switch_plain tables broadcast unset).process_complete groups qdepth rfl] at hmem
  have hsent : digest ∈ applySmac tables eth.srcAddr
      (V1Switch.arrival port (Header.encode eth ++ payload)) [] := hmem
  have hdigest : digest = ⟨eth.srcAddr, port⟩ := by
    unfold applySmac at hsent
    split at hsent
    · exact List.mem_singleton.mp hsent
    · cases hsent
  rw [hdigest]
  exact ⟨_, List.mem_append_right _ (List.mem_singleton.mpr rfl), hf, srcOf_encode eth payload⟩

theorem Seen.append {arrived : List (Port × List Byte)} {mac : BitVec 48} {port : Port}
    (h : Seen arrived mac port) (arrival : Port × List Byte) :
    Seen (arrived ++ [arrival]) mac port := by
  obtain ⟨frame, hmem, hf⟩ := h
  exact ⟨frame, List.mem_append_left _ hmem, hf⟩

/-- A step adds at most the digest that arrives. -/
theorem step_received {ports : ℕ} {c : Config} {event : Event} {member : P4Data}
    (h : member ∈ (c.step ports event).world.received) :
    member ∈ c.world.received ∨ event = .digest member := by
  have hrun : member ∈ (c.run ports [event]).world.received := h
  rcases received_subset c [event] hrun with hm | hm
  · exact Or.inl hm
  · exact Or.inr (List.mem_singleton.mp hm).symm

/-- What the controller has installed and what it has received, in every state. -/
structure System.Sound (ports : ℕ) (s : System) : Prop where
  config : LearningSwitch.Sound ports s.config
  genuine : ∀ member ∈ s.config.world.received, Genuine s.arrived member

theorem System.Sound.step {ports : ℕ} {s : System} (h : s.Sound ports) {event : Event}
    (hevent : ∀ member, event = .digest member → Genuine s.arrived member) :
    System.Sound ports { s with config := s.config.step ports event } := by
  refine ⟨h.config.step event, ?_⟩
  intro member hmem
  rcases step_received hmem with hm | hm
  · exact h.genuine member hm
  · exact hevent member hm

theorem Reachable.sound {ports : ℕ} {s : System} (h : Reachable ports s) : s.Sound ports := by
  induction h with
  | start => exact ⟨LearningSwitch.Sound.initial ports, nofun⟩
  | arrive port frame _ ih =>
    refine ⟨ih.config, ?_⟩
    intro member hmem mac port' hdec
    exact (ih.genuine member hmem mac port' hdec).append _
  | digest member _ hgenuine ih =>
    apply ih.step
    intro member' he
    cases he
    exact hgenuine
  | reply outcome _ ih => exact ih.step nofun
  | finish _ ih => exact ih.step nofun

/-- Every forwarding entry leads a unicast address to a host port where it was seen. -/
theorem Reachable.dmac_seen {ports : ℕ} {s : System} (h : Reachable ports s) {mac : BitVec 48}
    {action : DmacAction} (ha : s.config.world.tables.dmac mac = some action) :
    ∃ port : Port, action = .forward port ∧ Unicast mac ∧ 1 ≤ port.toNat ∧ port.toNat ≤ ports ∧
      Seen s.arrived mac port := by
  obtain ⟨port, he, hu, h₁, h₂, member, hmem, bytes, hdec, hkey⟩ :=
    h.sound.config.invariant.bound mac action ha
  have hseen := h.sound.genuine member hmem bytes port.toNat hdec
  rw [hkey, BitVec.ofNat_toNat, BitVec.setWidth_eq] at hseen
  exact ⟨port, he, hu, h₁, h₂, hseen⟩

section
variable {ports : ℕ} (broadcast : Table.Installed (broadcastEntries ports)) (unset : BitVec 48)
  (qdepth : Port → BitVec 19) (digests : List Learn)

/-- In every reachable state a frame to a group, to nobody or to an address that was never
seen is sent once to every other port, and a frame whose destination is in the table once,
to a port where that address was seen. -/
theorem floods_and_forwards (hn : ports ≤ 254) {s : System} (hs : Reachable ports s) {p : ℕ}
    (h₁ : 1 ≤ p) (h₂ : p ≤ ports) {frame : List Byte} (hf : 14 ≤ frame.length) :
    ((¬ Unicast (dstOf frame) ∨ ∀ port, ¬ Seen s.arrived (dstOf frame) port) →
      copies ports s.config.world.tables broadcast.table unset qdepth digests (BitVec.ofNat 9 p)
          frame =
        ((List.range' 1 ports).filter (· ≠ p)).map fun q => (BitVec.ofNat 9 q, frame)) ∧
    ∀ action, s.config.world.tables.dmac (dstOf frame) = some action →
      ∃ port : Port, copies ports s.config.world.tables broadcast.table unset qdepth digests
          (BitVec.ofNat 9 p) frame = [(port, frame)] ∧
        1 ≤ port.toNat ∧ port.toNat ≤ ports ∧ Seen s.arrived (dstOf frame) port := by
  obtain ⟨eth, payload, rfl⟩ : ∃ (e : Ethernet) (p : _), frame = Header.encode e ++ p :=
    Header.exists_encode_append (by simpa using hf)
  rw [dstOf_encode]
  constructor
  · intro hunknown
    have hnone : s.config.world.tables.dmac eth.dstAddr = none := by
      cases hd : s.config.world.tables.dmac eth.dstAddr with
      | none => rfl
      | some action =>
        obtain ⟨port, -, hu, -, -, hseen⟩ := hs.dmac_seen hd
        rcases hunknown with hgroup | hnever
        · exact absurd hu hgroup
        · exact absurd hseen (hnever port)
    rw [copies_unknown _ broadcast unset qdepth digests eth payload (by omega) h₁ h₂ hnone,
      floodPorts, List.map_map]
    rfl
  · intro action ha
    obtain ⟨port, rfl, -, hp₁, hp₂, hseen⟩ := hs.dmac_seen ha
    have hport : BitVec.ofNat 9 port.toNat = port := by
      rw [BitVec.ofNat_toNat, BitVec.setWidth_eq]
    refine ⟨port, ?_, hp₁, hp₂, hseen⟩
    have hcopies := copies_known s.config.world.tables broadcast unset qdepth digests
      (BitVec.ofNat 9 p) eth payload (n := port.toNat) (by omega) (by rw [hport]; exact ha)
    rw [hport] at hcopies
    exact hcopies

end

/-- The first host has sent a frame and is being learned: its forwarding entry is
written, and the write that stops its digests is not answered yet. -/
def learningFirst : System where
  config := (({} : Config).step 2 (.digest (hostDigest 1))).step 2 (.reply success)
  arrived := [(1, ownFrame)]

theorem learningFirst_reachable : Reachable 2 learningFirst := by
  have harrived : Reachable 2 { arrived := [(1, ownFrame)] } := .arrive 1 ownFrame .start
  have hgenuine : Genuine [(1, ownFrame)] (hostDigest 1) := by
    intro mac port hdec
    rw [decode_hostDigest (by decide) (by decide)] at hdec
    obtain ⟨rfl, rfl⟩ := Prod.mk.inj (Option.some.inj hdec)
    have hsrc : srcOf (ownFrame ++ []) = hostMac 1 := srcOf_encode _ []
    rw [List.append_nil] at hsrc
    rw [macKey_hostBytes (by decide)]
    exact ⟨ownFrame, List.mem_singleton.mpr rfl, by simp [ownFrame], hsrc⟩
  exact .reply success (.digest (hostDigest 1) harrived hgenuine)

theorem floods_and_forwards_learningFirst :
    learningFirst.config.world.tables.dmac (dstOf ownFrame) = some (.forward 1) ∧
    ∃ port : Port, copies 2 learningFirst.config.world.tables (broadcastEntries 2) 0 (fun _ => 0)
        [] (BitVec.ofNat 9 2) ownFrame = [(port, ownFrame)] ∧
      1 ≤ port.toNat ∧ port.toNat ≤ 2 ∧ Seen learningFirst.arrived (dstOf ownFrame) port := by
  have hd : learningFirst.config.world.tables.dmac (dstOf ownFrame) = some (.forward 1) := by
    have hdst : dstOf (ownFrame ++ []) = hostMac 1 := dstOf_encode _ []
    rw [List.append_nil] at hdst
    rw [hdst]
    rfl
  exact ⟨hd, (floods_and_forwards ⟨broadcastEntries 2, .refl _⟩ 0 (fun _ => 0) [] (by decide)
    learningFirst_reachable (by decide) (by decide) (by simp [ownFrame])).2 _ hd⟩

end P4Cases.LearningSwitch
