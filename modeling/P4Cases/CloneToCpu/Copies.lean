import P4Cases.CloneToCpu.Switch
import P4Cases.Frames.Python

/-! The controller's decoder of the clones, the test's check of all copies, and what both
say of any frames. -/
namespace P4Cases.CloneToCpu
open Wire P4

def expectedEthType : ℕ := 0x1010

def cpuHeaderLen : ℕ := 2

def decodePacketIn (payload : List Byte) : Except String ℕ :=
  if payload.length < 14 + cpuHeaderLen then .error s!"short payload ({payload.length} bytes)"
  else if beNat (slice payload 12 14) ≠ expectedEthType then .error "EtherType must be 0x1010"
  else
    let port := beNat (slice payload 14 16)
    if port ≠ 1 ∧ port ≠ 2 then .error s!"unexpected ingress port {port}" else .ok port

/-- The packets the handler reports: those it can decode. -/
def packetIns (payloads : List (List Byte)) : List (ℕ × List Byte) :=
  payloads.filterMap fun payload =>
    (decodePacketIn payload).toOption.map fun port => (port, payload)

def checkCopies (frames received : List (List Byte)) (clones : List (ℕ × List Byte))
    (ingress : ℕ) : Py Unit := do
  raiseIf (¬ received.Perm frames) (.runtimeError
    s!"forwarded frames differ: received {received.length}, expected {frames.length}")
  let expected ← frames.mapM fun frame => do
    let port ← packWord ingress
    return slice frame 0 12 ++ [0x10, 0x10] ++ port ++ frame.drop 14
  raiseIf (∃ clone ∈ clones, clone.1 ≠ ingress)
    (.runtimeError "PacketIn reported an unexpected ingress port")
  raiseIf (¬ (clones.map Prod.snd).Perm expected) (.runtimeError
    s!"CPU copies differ: received {clones.length}, expected {frames.length}")

/-- The bytes of a clone, in terms of the frame. -/
def expectedClone (port : ℕ) (frame : List Byte) : List Byte :=
  slice frame 0 12 ++ [0x10, 0x10] ++ beBytes 2 port ++ frame.drop 14

theorem cloneBytes_some (port : Port) (eth : Ethernet) (rest : List Byte) :
    cloneBytes port (some eth) rest =
      expectedClone port.toNat (Header.encode eth ++ rest) := by
  have hdrop : (Header.encode eth ++ rest).drop 14 = rest := List.drop_left' (by simp)
  have htype : beBytes 2 etherTypeCpu.toNat = [0x10, 0x10] := rfl
  unfold cloneBytes expectedClone
  rw [hdrop, Option.elim_some, Ethernet.encode_eq, Ethernet.encode_eq]
  dsimp only
  rw [htype]
  simp

/-- A frame with an Ethernet header decodes to its port. -/
theorem decodePacketIn_some {port : Port} (hp : port = 1 ∨ port = 2) (eth : Ethernet)
    (rest : List Byte) : decodePacketIn (cloneBytes port (some eth) rest) = .ok port.toNat := by
  have hn : port.toNat = 1 ∨ port.toNat = 2 := by
    rcases hp with rfl | rfl
    · exact Or.inl rfl
    · exact Or.inr rfl
  have hbytes : cloneBytes port (some eth) rest =
      beBytes 6 eth.dstAddr.toNat ++ (beBytes 6 eth.srcAddr.toNat ++
        (beBytes 2 etherTypeCpu.toNat ++ (beBytes 2 port.toNat ++ rest))) := by
    unfold cloneBytes
    rw [Option.elim_some, Ethernet.encode_eq]
    simp only [List.append_assoc]
  have hlen : ¬ (cloneBytes port (some eth) rest).length < 14 + cpuHeaderLen := by
    rw [hbytes, cpuHeaderLen]
    simp only [List.length_append, beBytes_length]
    omega
  have htype : beNat (slice (cloneBytes port (some eth) rest) 12 14) = expectedEthType := by
    rw [hbytes]
    simp
    rfl
  have hport : beNat (slice (cloneBytes port (some eth) rest) 14 16) = port.toNat := by
    have hlt : port.toNat < 256 ^ 2 := by omega
    rw [hbytes]
    simp [beNat_beBytes_of_lt hlt]
  unfold decodePacketIn
  rw [if_neg hlen, if_neg (not_not.mpr htype), hport]
  dsimp only
  rw [if_neg (by omega)]

/-- Without one the clone is too short. -/
theorem decodePacketIn_none (port : Port) {frame : List Byte} (hf : frame.length < 14) :
    decodePacketIn (cloneBytes port none frame) =
      .error s!"short payload ({frame.length + 2} bytes)" := by
  have hlen : (cloneBytes port none frame).length = frame.length + 2 := by
    unfold cloneBytes
    rw [Option.elim_none, List.nil_append, List.length_append, beBytes_length, Nat.add_comm]
  unfold decodePacketIn
  rw [hlen, if_pos (by rw [cpuHeaderLen]; omega)]

theorem sessionPorts_cpu : sessionPorts [cloneSession] cpuCloneSessionId = [510] := rfl

section
variable (qdepth : Port → BitVec 19)

/-- One frame from a host. -/
theorem receive_host {port : Port} (hp : port = 1 ∨ port = 2) (frame : List Byte) :
    ∃ copy, receive [cloneSession] qdepth port frame =
        ([(otherPort port, frame)], [(510, copy)]) ∧
      (∀ reported, decodePacketIn copy = .ok reported ↔
        14 ≤ frame.length ∧ reported = port.toNat) ∧
      (14 ≤ frame.length → copy = expectedClone port.toNat frame) := by
  obtain ⟨ethernet, rest, result, hparse, hframe, hlen⟩ := parse_eq 1 port frame
  have hclone := clone_eq [cloneSession] qdepth port hparse ⟨cpuCloneSessionId, port⟩
  refine ⟨cloneBytes port ethernet rest, ?_, ?_, ?_⟩
  · unfold receive
    rw [process_host qdepth hp]
    dsimp only
    rw [List.flatMap_cons, List.flatMap_nil, List.append_nil, hclone, sessionPorts_cpu]
    rfl
  · intro reported
    cases ethernet with
    | none =>
      obtain rfl : frame = rest := hframe
      have hshort : ¬ 14 ≤ frame.length := fun h => absurd (hlen.mpr h) (by simp)
      rw [decodePacketIn_none port (by omega)]
      exact iff_of_false nofun fun h => hshort h.1
    | some eth =>
      rw [decodePacketIn_some hp, Except.ok.injEq]
      exact ⟨fun h => ⟨hlen.mp rfl, h.symm⟩, fun h => h.2.symm⟩
  · intro h
    obtain ⟨eth, rfl⟩ := Option.isSome_iff_exists.mp (hlen.mpr h)
    rw [cloneBytes_some, hframe]
    rfl

theorem receive_other {port : Port} (h₁ : port ≠ 1) (h₂ : port ≠ 2) (frame : List Byte) :
    receive [cloneSession] qdepth port frame = ([], []) := by
  unfold receive
  rw [process_other qdepth h₁ h₂]
  rfl

end

/-- A check whose three comparisons hold. -/
theorem checkCopies_ok {frames received : List (List Byte)} {clones : List (ℕ × List Byte)}
    {ingress : ℕ} (hi : ingress < 65536) (hr : received.Perm frames)
    (hp : ∀ clone ∈ clones, clone.1 = ingress)
    (hc : (clones.map Prod.snd).Perm (frames.map (expectedClone ingress))) :
    checkCopies frames received clones ingress = .ok () := by
  have hexpected : (frames.mapM fun frame => do
      let port ← packWord ingress
      return slice frame 0 12 ++ [0x10, 0x10] ++ port ++ frame.drop 14) =
        .ok (frames.map (expectedClone ingress)) := by
    apply mapM_ok
    intro frame _
    rw [packWord, if_pos hi]
    rfl
  unfold checkCopies
  rw [raiseIf_bind_ok, hexpected, py_ok_bind, raiseIf_bind_ok, raiseIf_ok]
  refine ⟨not_not.mpr hr, ?_, not_not.mpr hc⟩
  intro h
  obtain ⟨clone, hmem, hne⟩ := h
  exact hne (hp clone hmem)

/-! Runs of frames from one host. -/

/-- The copies of a run, and those of its clones. -/
def receiveAll (sessions : List CloneSession) (qdepth : Port → BitVec 19) (port : Port)
    (arrivals : List (List Byte)) : List (Port × List Byte) × List (Port × List Byte) :=
  (arrivals.flatMap fun frame => (receive sessions qdepth port frame).1,
    arrivals.flatMap fun frame => (receive sessions qdepth port frame).2)

theorem receiveAll_host (qdepth : Port → BitVec 19) {port : Port} (hp : port = 1 ∨ port = 2)
    {arrivals : List (List Byte)} (hf : ∀ frame ∈ arrivals, 14 ≤ frame.length) :
    receiveAll [cloneSession] qdepth port arrivals =
      (arrivals.map fun frame => (otherPort port, frame),
        arrivals.map fun frame => (510, expectedClone port.toNat frame)) := by
  have hstep : ∀ frame ∈ arrivals, receive [cloneSession] qdepth port frame =
      ([(otherPort port, frame)], [(510, expectedClone port.toNat frame)]) := by
    intro frame hmem
    obtain ⟨copy, hr, -, hcopy⟩ := receive_host qdepth hp frame
    rw [hr, hcopy (hf frame hmem)]
  unfold receiveAll
  rw [List.map_eq_flatMap, List.map_eq_flatMap, Prod.mk.injEq]
  constructor
  · exact List.flatMap_congr fun frame hmem => by rw [hstep frame hmem]
  · exact List.flatMap_congr fun frame hmem => by rw [hstep frame hmem]

/-- Every clone of such a run is decoded, to the port of the run. -/
theorem packetIns_expected (qdepth : Port → BitVec 19) {port : Port} (hp : port = 1 ∨ port = 2)
    {arrivals : List (List Byte)} (hf : ∀ frame ∈ arrivals, 14 ≤ frame.length) :
    packetIns (arrivals.map (expectedClone port.toNat)) =
      arrivals.map fun frame => (port.toNat, expectedClone port.toNat frame) := by
  have hdecode : ∀ frame ∈ arrivals,
      decodePacketIn (expectedClone port.toNat frame) = .ok port.toNat := by
    intro frame hmem
    obtain ⟨copy, -, hd, hcopy⟩ := receive_host qdepth hp frame
    rw [← hcopy (hf frame hmem), hd]
    exact ⟨hf frame hmem, rfl⟩
  unfold packetIns
  rw [List.filterMap_map, ← List.filterMap_eq_map']
  apply List.filterMap_congr
  intro frame hmem
  show (decodePacketIn (expectedClone port.toNat frame)).toOption.map _ = _
  rw [hdecode frame hmem]
  rfl

/-- A frame from a host leaves once, unchanged, to the other host, and once to the CPU,
where it is decoded exactly when it has an Ethernet header; other ports lead nowhere. The
test accepts the copies of any run over complete frames, in whatever order they arrive. -/
theorem clone_faithful (qdepth : Port → BitVec 19) :
    (∀ port frame, port = 1 ∨ port = 2 →
      ∃ copy, receive [cloneSession] qdepth port frame =
          ([(otherPort port, frame)], [(510, copy)]) ∧
        (∀ reported, decodePacketIn copy = .ok reported ↔
          14 ≤ frame.length ∧ reported = port.toNat) ∧
        (14 ≤ frame.length →
          copy = slice frame 0 12 ++ [0x10, 0x10] ++ beBytes 2 port.toNat ++ frame.drop 14)) ∧
    (∀ port frame, port ≠ 1 → port ≠ 2 →
      receive [cloneSession] qdepth port frame = ([], [])) ∧
    ∀ port, port = 1 ∨ port = 2 → ∀ frames arrivals received payloads : List (List Byte),
      (∀ frame ∈ frames, 14 ≤ frame.length) → arrivals.Perm frames →
      received.Perm ((receiveAll [cloneSession] qdepth port arrivals).1.map Prod.snd) →
      payloads.Perm ((receiveAll [cloneSession] qdepth port arrivals).2.map Prod.snd) →
      checkCopies frames received (packetIns payloads) port.toNat = .ok () := by
  refine ⟨?_, ?_, ?_⟩
  · intro port frame hp
    exact receive_host qdepth hp frame
  · intro port frame h₁ h₂
    exact receive_other qdepth h₁ h₂ frame
  · intro port hp frames arrivals received payloads hf harrivals hreceived hpayloads
    have hf' : ∀ frame ∈ arrivals, 14 ≤ frame.length := fun frame hmem =>
      hf frame (harrivals.mem_iff.mp hmem)
    have hlt := port.isLt
    rw [receiveAll_host qdepth hp hf'] at hreceived hpayloads
    rw [List.map_map] at hreceived hpayloads
    have hpackets : (packetIns payloads).Perm
        (arrivals.map fun frame => (port.toNat, expectedClone port.toNat frame)) := by
      rw [← packetIns_expected qdepth hp hf']
      exact hpayloads.filterMap _
    apply checkCopies_ok (by omega)
    · have hid : arrivals.map (Prod.snd ∘ fun frame => (otherPort port, frame)) = arrivals :=
        List.map_id' arrivals
      rw [hid] at hreceived
      exact hreceived.trans harrivals
    · intro packet hmem
      obtain ⟨frame, -, rfl⟩ := List.mem_map.mp (hpackets.mem_iff.mp hmem)
      rfl
    · have hsnd := hpackets.map Prod.snd
      rw [List.map_map] at hsnd
      exact hsnd.trans (harrivals.map _)

end P4Cases.CloneToCpu
