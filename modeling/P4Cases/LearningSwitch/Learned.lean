import P4Cases.LearningSwitch.Switch
import P4Cases.BroadcastSwitch.Switch

/-! The learning switch once every host is learned, against the broadcast switch with
its static entries. -/
namespace P4Cases.LearningSwitch
open Wire P4 Layer2 Control

/-- The forwarding table binds the address of each host to its port, and no other. -/
def BindsHosts (n : ℕ) (tables : Tables) : Prop :=
  ∀ mac action, tables.dmac mac = some action ↔
    ∃ i, 1 ≤ i ∧ i ≤ n ∧ mac = hostMac i ∧ action = .forward (BitVec.ofNat 9 i)

theorem BindsHosts.dmac_eq {n : ℕ} {tables : Tables} (h : BindsHosts n tables) {i : ℕ}
    (h₁ : 1 ≤ i) (h₂ : i ≤ n) : tables.dmac (hostMac i) = some (.forward (BitVec.ofNat 9 i)) :=
  (h (hostMac i) _).mpr ⟨i, h₁, h₂, rfl, rfl⟩

theorem BindsHosts.dmac_none {n : ℕ} {tables : Tables} (h : BindsHosts n tables) {mac : BitVec 48}
    (hm : ∀ i, 1 ≤ i → i ≤ n → mac ≠ hostMac i) : tables.dmac mac = none := by
  cases hd : tables.dmac mac with
  | none => rfl
  | some action =>
    obtain ⟨i, h₁, h₂, he, -⟩ := (h mac action).mp hd
    exact absurd he (hm i h₁ h₂)

/-! Such tables are reached: one digest from each host, every write a success. -/

def success : Outcome := ⟨true, none, fun _ => rfl⟩

theorem upsert_success (entry : TableEntry) (w : World) :
    (upsertEntry entry).eval World.apply w [success] =
      some (none, w.apply ⟨.insert, entry⟩ success, []) := rfl

def hostDigest (i : ℕ) : P4Data :=
  .struct [.bitstring [BitVec.ofNat 8 i], .bitstring [BitVec.ofNat 8 i]]

def learnHost (i : ℕ) : List Event :=
  .digest (hostDigest i) :: (([success] ++ [success]).map .reply ++ [.finish])

def learnHosts (n : ℕ) : List Event := (List.range' 1 n).flatMap learnHost

def hostBytes (i : ℕ) : List Byte := [0, 0, 0, 0, 0, BitVec.ofNat 8 i]

theorem decode_hostDigest {i : ℕ} (h₁ : 1 ≤ i) (h₂ : i < 256) :
    decodeLearnStruct (hostDigest i) = some (hostBytes i, i) := by
  have hb : (BitVec.ofNat 8 i).toNat = i := by
    rw [BitVec.toNat_ofNat]
    omega
  have hp : i > 0 ∧ i < 512 := by omega
  simp only [decodeLearnStruct, hostDigest, P4Data.getStruct, P4Data.getBitstring,
    List.length_singleton, List.foldl_cons, List.foldl_nil, hb, Nat.zero_shiftLeft, Nat.zero_or]
  rw [if_neg (by omega), if_pos hp]
  rfl

theorem macKey_hostBytes {i : ℕ} (h : i < 256) : macKey (hostBytes i) = hostMac i := by
  have hb : (BitVec.ofNat 8 i).toNat = i := by
    rw [BitVec.toNat_ofNat]
    omega
  simp [macKey, hostMac, hostBytes, beNat, hb]

theorem hostBytes_accepted {ports i : ℕ} (h₁ : 1 ≤ i) (h₂ : i ≤ ports) (h₃ : i < 256) :
    ¬ Rejected ports (hostBytes i) i := by
  have hb : (BitVec.ofNat 8 i).toNat = i := by
    rw [BitVec.toNat_ofNat]
    omega
  unfold Rejected hostBytes
  rintro ((h | h | h) | h)
  · exact h rfl
  · exact h (by simp)
  · have hz : BitVec.ofNat 8 i = 0 := by simpa using h
    rw [hz] at hb
    exact absurd hb (by simp; omega)
  · omega

/-- Learning one more host. -/
theorem BindsHosts.learn {n k : ℕ} (hn : n < 256) (hk : k < n) {c : Config} (hs : Sound n c)
    (hidle : c.running = none) (h : BindsHosts k c.world.tables) :
    (c.run n (learnHost (k + 1))).running = none ∧
      BindsHosts (k + 1) (c.run n (learnHost (k + 1))).world.tables := by
  have hdec := decode_hostDigest (i := k + 1) (by omega) (by omega)
  have hkey := macKey_hostBytes (i := k + 1) (by omega)
  have hne : ∀ i, 1 ≤ i → i ≤ k → hostMac (k + 1) ≠ hostMac i := by
    intro i h₁ h₂ he
    have hki := (hostMac_inj (m := k + 1) (n := i) (by omega) (by omega)).mp he
    omega
  have hnew : c.world.learned (macKey (hostBytes (k + 1))) = none := by
    cases hl : c.world.learned (macKey (hostBytes (k + 1))) with
    | none => rfl
    | some port =>
      have hd := (hs.invariant.learned _ port hl).1
      have hfree : c.world.tables.dmac (hostMac (k + 1)) = none := h.dmac_none hne
      rw [hkey, hfree] at hd
      cases hd
  have hacc : ¬ Rejected n (hostBytes (k + 1)) (k + 1) :=
    hostBytes_accepted (by omega) (by omega) (by omega)
  have hrun := run_learn hidle hdec hacc hnew (upsert_success _ _) (upsert_success _ _)
  unfold learnHost
  rw [hrun]
  refine ⟨rfl, ?_⟩
  intro mac action
  change Function.update c.world.tables.dmac (macKey (hostBytes (k + 1)))
    (some (.forward (BitVec.ofNat 9 (k + 1)))) mac = some action ↔ _
  rw [hkey]
  by_cases hm : mac = hostMac (k + 1)
  · subst hm
    rw [Function.update_self]
    constructor
    · intro he
      exact ⟨k + 1, by omega, le_rfl, rfl, (Option.some.inj he).symm⟩
    · rintro ⟨i, h₁, h₂, he, ha⟩
      obtain rfl := (hostMac_inj (by omega) (by omega)).mp he
      rw [ha]
  · rw [Function.update_of_ne hm, h mac action]
    constructor
    · rintro ⟨i, h₁, h₂, he, ha⟩
      exact ⟨i, h₁, by omega, he, ha⟩
    · rintro ⟨i, h₁, h₂, he, ha⟩
      have hik : i ≠ k + 1 := by
        rintro rfl
        exact hm he
      exact ⟨i, h₁, by omega, he, ha⟩

/-- For every number of ports there is a run that learns all hosts. -/
theorem learnHosts_binds {n : ℕ} (hn : n < 256) :
    BindsHosts n (reached n (learnHosts n)).world.tables := by
  have hsteps : ∀ k ≤ n, Sound n (reached n (learnHosts k)) ∧
      (reached n (learnHosts k)).running = none ∧
      BindsHosts k (reached n (learnHosts k)).world.tables := by
    intro k
    induction k with
    | zero =>
      intro _
      refine ⟨Sound.initial n, rfl, ?_⟩
      intro mac action
      constructor
      · intro h
        cases h
      · rintro ⟨i, h₁, h₂, -⟩
        omega
    | succ k ih =>
      intro hk
      obtain ⟨hs, hidle, hb⟩ := ih (by omega)
      have hrun : reached n (learnHosts (k + 1)) =
          (reached n (learnHosts k)).run n (learnHost (k + 1)) := by
        unfold reached learnHosts
        rw [List.range'_1_concat, List.flatMap_append, Config.run_append, Nat.add_comm 1 k]
        simp
      rw [hrun]
      exact ⟨hs.run _, hb.learn hn (by omega) hs hidle⟩
  exact (hsteps n le_rfl).2.2

section
variable {n : ℕ} (broadcast : Table.Installed (broadcastEntries n))
  (dmac : Table.Installed (BroadcastSwitch.dmacEntries n))
  (select : Table.Installed (BroadcastSwitch.selectEntries n)) (unset : BitVec 48)
  (qdepth : Port → BitVec 19) (digests : List Learn)

/-- With every host learned the switch sends the copies of the broadcast switch, and
none back to where the frame came from, unless the frame is addressed to the host
it came from: then the broadcast switch drops it and this switch returns it. -/
theorem learned_eq_broadcast_iff (h2 : 2 ≤ n) (h128 : n ≤ 128) (events : List Event)
    (ht : BindsHosts n (reached n events).world.tables) {ingress : ℕ} (h₁ : 1 ≤ ingress)
    (h₂ : ingress ≤ n) {frame : List Byte} (hf : 14 ≤ frame.length) :
    ((copies n (reached n events).world.tables broadcast.table unset qdepth digests
          (BitVec.ofNat 9 ingress) frame : Multiset (Port × List Byte)) =
        BroadcastSwitch.copies n dmac.table select.table qdepth (BitVec.ofNat 9 ingress) frame ∧
      ∀ copy ∈ copies n (reached n events).world.tables broadcast.table unset qdepth digests
        (BitVec.ofNat 9 ingress) frame, copy.1 ≠ BitVec.ofNat 9 ingress) ↔
      dstMac frame ≠ (hostMac ingress).toNat := by
  obtain ⟨eth, payload, rfl⟩ : ∃ (e : Ethernet) (p : _), frame = Header.encode e ++ p :=
    Header.exists_encode_append (by simpa using hf)
  rw [dstMac_encode, ne_eq, BitVec.toNat_inj]
  by_cases hk : ∃ i, 1 ≤ i ∧ i ≤ n ∧ eth.dstAddr = hostMac i
  · obtain ⟨i, hi₁, hi₂, hd⟩ := hk
    have hport : (BitVec.ofNat 9 i : Port) = BitVec.ofNat 9 ingress ↔ i = ingress :=
      port_inj (by omega) (by omega)
    have hmac : eth.dstAddr = hostMac ingress ↔ i = ingress := by
      rw [hd]
      exact hostMac_inj (by omega) (by omega)
    have hl := copies_known (reached n events).world.tables broadcast unset qdepth digests
      (BitVec.ofNat 9 ingress) eth payload (n := i) (by omega) (by
        rw [hd]
        exact ht.dmac_eq hi₁ hi₂)
    have hb := BroadcastSwitch.copies_known dmac select qdepth (BitVec.ofNat 9 ingress) eth payload
      (by omega) hi₁ hi₂ hd
    rw [hl, hb, hmac]
    by_cases he : i = ingress
    · simp [he]
    · simp [he, hport]
  · simp only [not_exists, not_and] at hk
    have hne : eth.dstAddr ≠ hostMac ingress := hk ingress h₁ h₂
    have hl := copies_unknown (reached n events).world.tables broadcast unset qdepth digests eth
      payload (by omega) h₁ h₂ (ht.dmac_none hk)
    have hb := BroadcastSwitch.copies_unknown dmac select qdepth eth payload (by omega) h2 h₁ h₂ hk
    have hflood : BitVec.ofNat 9 ingress ∉ floodPorts n ingress :=
      not_mem_floodPorts (by omega) h₂
    rw [hl, hb]
    refine iff_of_true ⟨rfl, ?_⟩ hne
    intro copy hcopy
    obtain ⟨out, hout, rfl⟩ := List.mem_map.mp hcopy
    intro he
    exact hflood (he ▸ hout)

end

/-- A frame from the first host to itself. -/
def ownFrame : List Byte :=
  Header.encode ({ dstAddr := hostMac 1, srcAddr := hostMac 1, etherType := typeIpv4 } : Ethernet)

/-- Two hosts are learned, and the frame goes back out of the port it came in on, where
the broadcast switch drops it. -/
theorem learned_returns_ownFrame :
    BindsHosts 2 (reached 2 (learnHosts 2)).world.tables ∧
    copies 2 (reached 2 (learnHosts 2)).world.tables (broadcastEntries 2) 0 (fun _ => 0) [] 1
      ownFrame = [(1, ownFrame)] ∧
    BroadcastSwitch.copies 2 (BroadcastSwitch.dmacEntries 2) (BroadcastSwitch.selectEntries 2)
      (fun _ => 0) 1 ownFrame = [] := by
  have hb : BindsHosts 2 (reached 2 (learnHosts 2)).world.tables := learnHosts_binds (by decide)
  let eth : Ethernet := { dstAddr := hostMac 1, srcAddr := hostMac 1, etherType := typeIpv4 }
  have hf : Header.encode eth ++ [] = ownFrame := List.append_nil _
  refine ⟨hb, ?_, ?_⟩
  · rw [← hf]
    exact copies_known (reached 2 (learnHosts 2)).world.tables ⟨broadcastEntries 2, .refl _⟩ 0
      (fun _ => 0) [] 1 eth [] (n := 1) (by decide) (hb.dmac_eq (by decide) (by decide))
  · rw [← hf]
    exact BroadcastSwitch.copies_known ⟨BroadcastSwitch.dmacEntries 2, .refl _⟩
      ⟨BroadcastSwitch.selectEntries 2, .refl _⟩ (fun _ => 0) 1 eth [] (n := 1) (by decide)
      (by decide) (by decide) rfl

theorem learned_eq_broadcast_iff_two :
    ((copies 2 (reached 2 (learnHosts 2)).world.tables (broadcastEntries 2) 0 (fun _ => 0) []
          (BitVec.ofNat 9 2) ownFrame : Multiset (Port × List Byte)) =
        BroadcastSwitch.copies 2 (BroadcastSwitch.dmacEntries 2)
          (BroadcastSwitch.selectEntries 2) (fun _ => 0) (BitVec.ofNat 9 2) ownFrame ∧
      ∀ copy ∈ copies 2 (reached 2 (learnHosts 2)).world.tables (broadcastEntries 2) 0
        (fun _ => 0) [] (BitVec.ofNat 9 2) ownFrame, copy.1 ≠ BitVec.ofNat 9 2) ↔
      dstMac ownFrame ≠ (hostMac 2).toNat :=
  learned_eq_broadcast_iff ⟨broadcastEntries 2, .refl _⟩ ⟨BroadcastSwitch.dmacEntries 2, .refl _⟩
    ⟨BroadcastSwitch.selectEntries 2, .refl _⟩ 0 (fun _ => 0) [] (by decide) (by decide)
    (learnHosts 2) (learnHosts_binds (by decide)) (by decide) (by decide) (by simp [ownFrame])

end P4Cases.LearningSwitch
