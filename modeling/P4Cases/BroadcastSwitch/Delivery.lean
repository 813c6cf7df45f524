import P4Cases.BroadcastSwitch.Switch
import P4Cases.BroadcastSwitch.Probes

/-! Every frame, from every port of every topology: the copies the broadcast switch sends,
and the probes of the test among them. -/
namespace P4Cases.BroadcastSwitch
open Wire P4 Layer2

/-- The frame is for host `k`: its destination is the address that the text of the
host's MAC stands for. -/
def Addressed (frame : List Byte) (k : ℕ) : Prop :=
  fromHex ((macOfHost k).filter (· ≠ ':')) = .ok (slice frame 0 6)

theorem addressed_iff {frame : List Byte} (hf : 14 ≤ frame.length) {k : ℕ} (hk : k < 256) :
    Addressed frame k ↔ dstMac frame = k := by
  have hl : (slice frame 0 6).length = 6 := slice_length (by omega)
  have hh : (hostBytes k).length = 6 := rfl
  rw [Addressed, fromHex_macOfHost hk, Except.ok.injEq, ← beNat_inj (hh.trans hl.symm),
    beNat_hostBytes hk, dstMac, fieldAt]
  exact eq_comm

theorem addressed_encode {eth : Ethernet} {payload : List Byte} {k : ℕ} (hk : k < 256) :
    Addressed (Header.encode eth ++ payload) k ↔ eth.dstAddr = hostMac k := by
  rw [addressed_iff (by simp) hk, dstMac_encode, hostMac, ← BitVec.toNat_inj, BitVec.toNat_ofNat]
  omega

section
variable {n : ℕ} (dmac : Table.Installed (dmacEntries n))
  (select : Table.Installed (selectEntries n)) (qdepth : Port → BitVec 19)

/-- A frame without a complete Ethernet header is dropped. -/
theorem copies_short (port : Port) {frame : List Byte} (hf : frame.length < 14) :
    copies n dmac.table select.table qdepth port frame = [] := by
  unfold copies
  rw [(switch_plain dmac.table select.table).process_short _ qdepth hf]
  intro hdr sm he
  show ((), hdr, myIngress dmac.table select.table hdr sm) = _
  cases hsm : sm.parserError with
  | none => exact absurd hsm he
  | some e => rw [myIngress, hsm]

/-- A host on its own reaches nobody: there are no groups. -/
theorem copies_alone (h : n < 2) (port : Port) (eth : Ethernet) (payload : List Byte)
    (hd : ∀ k, 1 ≤ k → k ≤ n → eth.dstAddr ≠ hostMac k) :
    copies n dmac.table select.table qdepth port (Header.encode eth ++ payload) = [] := by
  have hselect : select.table.lookup port = none := by
    apply select.lookup_eq_none
    rw [selectEntries, multicastGroups, if_pos h]
    exact fun d hd => absurd hd List.not_mem_nil
  rw [copies_eq, myIngress, V1Switch.arrival]
  dsimp only
  rw [lookup_dmac_none dmac hd]
  dsimp only
  rw [applySelect, hselect]
  rfl

/-- The ports a frame from `p` is flooded to. -/
def otherPorts (n p : ℕ) : List ℕ := (List.range' 1 n).filter (· ≠ p)

theorem copies_flooded (hn : n ≤ 128) {p : ℕ} (h₁ : 1 ≤ p) (h₂ : p ≤ n) (eth : Ethernet)
    (payload : List Byte) (hd : ∀ k, 1 ≤ k → k ≤ n → eth.dstAddr ≠ hostMac k) :
    copies n dmac.table select.table qdepth (BitVec.ofNat 9 p) (Header.encode eth ++ payload) =
      (otherPorts n p).map fun q => (BitVec.ofNat 9 q, Header.encode eth ++ payload) := by
  by_cases h : n < 2
  · obtain rfl : n = 1 := by omega
    obtain rfl : p = 1 := by omega
    exact copies_alone dmac select qdepth h _ eth payload hd
  · rw [copies_unknown dmac select qdepth eth payload (by omega) (by omega) h₁ h₂ hd, floodPorts,
      List.map_map]
    rfl

/-- A probe reaches the hosts that the test expects, unchanged. -/
theorem copies_probe (hn : n ≤ 128) {marker : List Byte} {call : Call} {probe : Probe}
    (h : probe.Of marker n call) :
    copies n dmac.table select.table qdepth (BitVec.ofNat 9 call.sender) probe.frame =
      (expectedReceivers n call).map fun q => (BitVec.ofNat 9 q, probe.frame) := by
  obtain ⟨⟨hs₁, hs₂⟩, ⟨hr₁, hr₂⟩, hunicast, hflooded⟩ := h.sound
  have hlen : 14 ≤ probe.frame.length := (by decide : 14 ≤ 60).trans h.length
  have hdest := h.destination
  obtain ⟨eth, payload, hframe⟩ : ∃ (e : Ethernet) (p : _), probe.frame = Header.encode e ++ p :=
    Header.exists_encode_append (by simpa using hlen)
  rw [hframe, ← dstMac, dstMac_encode] at hdest
  rw [hframe, expectedReceivers]
  have hport : (BitVec.ofNat 9 call.receiver : Port) = BitVec.ofNat 9 call.sender ↔
      call.receiver = call.sender := port_inj (by omega) (by omega)
  cases hf : call.flooded with
  | true =>
    obtain ⟨mac, hmac, -, hne⟩ := hflooded hf
    rw [hmac, Option.getD_some] at hdest
    have hd : ∀ k, 1 ≤ k → k ≤ n → eth.dstAddr ≠ hostMac k := by
      intro k hk₁ hk₂ he
      rw [he, hostMac, BitVec.toNat_ofNat] at hdest
      omega
    exact copies_flooded dmac select qdepth hn hs₁ hs₂ eth payload hd
  | false =>
    rw [hunicast hf, Option.getD_none, beNat_hostBytes (by omega)] at hdest
    have hd : eth.dstAddr = hostMac call.receiver := by
      rw [hostMac, ← BitVec.toNat_inj, BitVec.toNat_ofNat]
      omega
    rw [copies_known dmac select qdepth _ eth payload (by omega) hr₁ hr₂ hd]
    simp only [hport]
    by_cases he : call.receiver = call.sender
    · simp [he]
    · simp [he]

end

/-- What the broadcast switch sends for any frame from any port, under the entries and
groups of its controller for `n` hosts, and for the probes of the test. -/
theorem copies_exact {n : ℕ} (h₁ : 1 ≤ n) (h₂ : n ≤ 128)
    (dmac : Table.Installed (dmacEntries n)) (select : Table.Installed (selectEntries n))
    (qdepth : Port → BitVec 19) :
    (∀ p, 1 ≤ p → p ≤ n → ∀ frame,
      (frame.length < 14 →
        copies n dmac.table select.table qdepth (BitVec.ofNat 9 p) frame = []) ∧
      (14 ≤ frame.length → ∀ k, 1 ≤ k → k ≤ n → Addressed frame k →
        copies n dmac.table select.table qdepth (BitVec.ofNat 9 p) frame =
          if k = p then [] else [(BitVec.ofNat 9 k, frame)]) ∧
      (14 ≤ frame.length → (∀ k, 1 ≤ k → k ≤ n → ¬ Addressed frame k) →
        copies n dmac.table select.table qdepth (BitVec.ofNat 9 p) frame =
          (otherPorts n p).map fun q => (BitVec.ofNat 9 q, frame))) ∧
    (∀ marker, ValidMarker marker → ∃ probes, makeProbes marker n = .ok probes) ∧
    ∀ marker probes, makeProbes marker n = .ok probes → ∀ probe ∈ probes,
      ∃ sender, 1 ≤ sender ∧ sender ≤ n ∧ probe.sender = hostName sender ∧
        ∃ receivers : List ℕ, probe.receivers = receivers.map hostName ∧
          copies n dmac.table select.table qdepth (BitVec.ofNat 9 sender) probe.frame =
            receivers.map fun q => (BitVec.ofNat 9 q, probe.frame) := by
  refine ⟨?_, fun marker hm => makeProbes_total h₁ h₂ hm, ?_⟩
  · intro p hp₁ hp₂ frame
    refine ⟨copies_short dmac select qdepth _, ?_, ?_⟩
    · intro hf k hk₁ hk₂ hk
      obtain ⟨eth, payload, rfl⟩ : ∃ (e : Ethernet) (p : _), frame = Header.encode e ++ p :=
        Header.exists_encode_append (by simpa using hf)
      have hd := (addressed_encode (by omega)).mp hk
      have hport : (BitVec.ofNat 9 k : Port) = BitVec.ofNat 9 p ↔ k = p :=
        port_inj (by omega) (by omega)
      rw [copies_known dmac select qdepth _ eth payload (by omega) hk₁ hk₂ hd]
      simp only [hport]
    · intro hf hk
      obtain ⟨eth, payload, rfl⟩ : ∃ (e : Ethernet) (p : _), frame = Header.encode e ++ p :=
        Header.exists_encode_append (by simpa using hf)
      refine copies_flooded dmac select qdepth h₂ hp₁ hp₂ eth payload ?_
      exact fun k hk₁ hk₂ hd => hk k hk₁ hk₂ ((addressed_encode (by omega)).mpr hd)
  · intro marker probes h probe hp
    obtain ⟨call, hof⟩ := makeProbes_sound h probe hp
    exact ⟨call.sender, hof.sound.sender.1, hof.sound.sender.2, hof.sender, _, hof.receivers,
      copies_probe dmac select qdepth h₂ hof⟩

/-- A frame to all hosts. -/
def broadcastFrame : List Byte :=
  [0xff, 0xff, 0xff, 0xff, 0xff, 0xff, 0x02, 0, 0, 0, 0, 0x01, 0x88, 0xb5]

theorem copies_exact_two :
    copies 2 (dmacEntries 2) (selectEntries 2) (fun _ => 0) (BitVec.ofNat 9 1) broadcastFrame =
      [(BitVec.ofNat 9 2, broadcastFrame)] := by
  have hdst : dstMac broadcastFrame = 281474976710655 := by decide
  have hnone : ∀ k, 1 ≤ k → k ≤ 2 → ¬ Addressed broadcastFrame k := by
    intro k h₁ h₂ h
    have hk := (addressed_iff (by decide) (by omega)).mp h
    omega
  exact ((copies_exact (by decide) (by decide) ⟨dmacEntries 2, .refl _⟩ ⟨selectEntries 2, .refl _⟩
    (fun _ => 0)).1 1 (by decide) (by decide) broadcastFrame).2.2 (by decide) hnone

end P4Cases.BroadcastSwitch
