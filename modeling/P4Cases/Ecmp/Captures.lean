import P4Cases.Ecmp.SelfTest

/-! The captures behind a correct router pass the self-test, for every prefix and every
number of flows. -/
namespace P4Cases.Ecmp
open Wire Matching

/-- The frames captured at a host. -/
def framesAt (received : Received Host) (host : Host) : List (List Byte) :=
  (received.filter fun item => item.1 = host).flatMap Prod.snd

/-- The packets that are to arrive at a host. -/
def expectedAt (probes : List Probe) (host : Host) : List Probe :=
  probes.filter fun item => item.allowed = true ∧ expectedHost item.frame = .ok host

/-- Each host holds the expected frames of the packets that are to arrive there, in any order. -/
def HoldsExpected (probes : List Probe) (received : Received Host) : Prop :=
  ∀ host, ((framesAt received host).map Except.ok).Perm
    ((expectedAt probes host).map fun item => expectedFrame item.frame none)

variable {probes : List Probe} {received : Received Host}

theorem captured_filter (received : Received Host) (host : Host) :
    (captured received).filter (fun capture => capture.1 = host) =
      (framesAt received host).map (host, ·) := by
  induction received with
  | nil => rfl
  | cons item received ih =>
    have hsplit : captured (item :: received) = item.2.map (item.1, ·) ++ captured received := rfl
    rw [hsplit, List.filter_append, ih]
    unfold framesAt
    rw [List.filter_cons]
    split_ifs with hh
    · have hhost : item.1 = host := by simpa using hh
      rw [List.flatMap_cons, List.map_append, hhost]
      congr 1
      exact List.filter_eq_self.mpr (by simp)
    · have hhost : item.1 ≠ host := by simpa using hh
      have hnil : (item.2.map (item.1, ·)).filter (fun capture => capture.1 = host) = [] := by
        rw [List.filter_eq_nil_iff]
        simp [hhost]
      rw [hnil]
      rfl

theorem Good.sendable (h : Good probes) : Sendable probes where
  complete item hitem := (h.ok item hitem).complete
  distinct := h.distinct
  member item hitem ha := (h.ok item hitem).member ha

/-- The receiver that the test has noted is the expected host. -/
theorem Good.receiver_iff (h : Good probes) {item : Probe} (hitem : item ∈ probes)
    (ha : item.allowed = true) {host : Host} :
    item.receiver = some host ↔ expectedHost item.frame = .ok host := by
  obtain ⟨host', hr, he, -⟩ := (h.ok item hitem).routed ha
  rw [hr, he]
  simp

theorem Good.delivery_eq (h : Good probes) {host : Host} {item : Probe}
    (hitem : item ∈ expectedAt probes host) :
    item.delivery = (some host, expectedFrame item.frame none) := by
  obtain ⟨hmem, hcond⟩ := List.mem_filter.mp hitem
  obtain ⟨ha, he⟩ := of_decide_eq_true hcond
  rw [Probe.delivery, (h.receiver_iff hmem ha).mpr he]
  congr 1
  simp only [expectedFrame, he]
  rfl

/-- What is to arrive somewhere, host by host. -/
theorem Good.allowed_perm (h : Good probes) :
    (probes.filter Probe.allowed).Perm (hosts.flatMap (expectedAt probes)) := by
  have hgroup : ∀ host, (probes.filter Probe.allowed).filter
      (fun item => item.receiver.getD .h1 = host) = expectedAt probes host := by
    intro host
    rw [List.filter_filter, expectedAt]
    refine List.filter_congr fun item hitem => ?_
    by_cases ha : item.allowed = true
    · obtain ⟨host', hr, he, -⟩ := (h.ok item hitem).routed ha
      simp [ha, hr, he]
    · simp [ha]
  have hsplit := perm_flatMap_key (fun item : Probe => item.receiver.getD .h1)
    (probes.filter Probe.allowed) (show hosts.Nodup by decide) fun item _ => by
      cases item.receiver.getD Host.h1 <;> decide
  simpa only [hgroup] using hsplit

theorem captured_perm (received : Received Host) :
    (captured received).Perm
      (hosts.flatMap fun host => (framesAt received host).map (host, ·)) := by
  have hhost : ∀ capture ∈ captured received, capture.1 ∈ hosts :=
    fun capture _ => by cases capture.1 <;> decide
  have hsplit := perm_flatMap_key Prod.fst (captured received) (show hosts.Nodup by decide) hhost
  simpa only [captured_filter] using hsplit

/-- Such captures are matched by the packets that are to arrive. -/
theorem HoldsExpected.matched (hg : Good probes) (h : HoldsExpected probes received) :
    Matched Delivers (probes.filter Probe.allowed) (captured received) := by
  refine matched_map.mpr ((hg.allowed_perm.map _).trans (List.Perm.symm ?_))
  refine ((captured_perm received).map _).trans ?_
  rw [List.map_flatMap, List.map_flatMap]
  refine List.Perm.flatMap_left _ fun host _ => ?_
  have hdelivery : (expectedAt probes host).map Probe.delivery =
      ((expectedAt probes host).map fun item => expectedFrame item.frame none).map
        fun frame => (some host, frame) := by
    rw [List.map_map]
    exact List.map_congr_left fun item hitem => hg.delivery_eq hitem
  have hframes : ((framesAt received host).map (host, ·)).map
      (fun capture => (some capture.1, (Except.ok capture.2 : Py (List Byte)))) =
        ((framesAt received host).map Except.ok).map fun frame => (some host, frame) := by
    rw [List.map_map, List.map_map]
    rfl
  rw [hdelivery, hframes]
  exact (h host).map _

/-- A flow of this protocol that a correct router sends to the host. -/
def Hits (probes : List Probe) (protocol : ℕ) (host : Host) : Prop :=
  ∃ item ∈ probes, item.allowed = true ∧ item.Flow protocol ∧ expectedHost item.frame = .ok host

/-- The first packets of the first two flows go to different members. -/
theorem hits_members {prefixBytes : List Byte} {nFlows : ℤ} (hn : 2 ≤ nFlows) (hg : Good probes)
    {protocol : ℕ} (hproto : protocol ∈ protocols)
    (hall : ∀ a ∈ flowProbes nFlows.toNat protocol, ∃ item ∈ probes, ∃ number,
      Added prefixBytes number a item) :
    Hits probes protocol .h2 ∧ Hits probes protocol .h3 := by
  have hflow : ∀ flow < 2, Hits probes protocol
      ((flowProbe protocol flow (0, .h1, [], 24)).member prefixBytes) := by
    intro flow hlt
    have hmem : flowProbe protocol flow (0, .h1, [], 24) ∈ flowProbes nFlows.toNat protocol :=
      List.mem_flatMap.mpr ⟨flow, List.mem_range.mpr (by omega),
        List.mem_map_of_mem (by simp [flowPackets])⟩
    obtain ⟨item, hitem, number, hadded⟩ := hall _ hmem
    have hports : (protocol : ℤ) = 17 ∨ (protocol : ℤ) = 6 := by
      have hcases : protocol = 17 ∨ protocol = 6 := by simpa [protocols] using hproto
      omega
    have hallowed : item.allowed = true := hadded.allowed
    have hreceiver := hadded.hashed ⟨rfl, rfl, rfl, hports, rfl⟩
    refine ⟨item, hitem, hallowed, ?_, (hg.receiver_iff hitem hallowed).mp hreceiver⟩
    rw [Probe.Flow, hadded.name]
    simp [flowProbe]
  have hne := flow_member_ne prefixBytes protocol (0, .h1, [], 24)
  have h₀ := hflow 0 (by omega)
  have h₁ := hflow 1 (by omega)
  have hcases : ∀ a : ProbeArgs, a.member prefixBytes = .h2 ∨ a.member prefixBytes = .h3 := by
    intro a
    unfold ProbeArgs.member
    split_ifs <;> simp
  rcases hcases (flowProbe protocol 0 (0, .h1, [], 24)) with hc₀ | hc₀ <;>
    rcases hcases (flowProbe protocol 1 (0, .h1, [], 24)) with hc₁ | hc₁ <;>
    rw [hc₀] at h₀ hne <;> rw [hc₁] at h₁ hne
  · exact absurd rfl hne
  · exact ⟨h₀, h₁⟩
  · exact ⟨h₁, h₀⟩
  · exact absurd rfl hne

theorem balanced_of_hits (hg : Good probes)
    (hm : Matched Delivers (probes.filter Probe.allowed) (captured received))
    (h : ∀ protocol ∈ protocols, Hits probes protocol .h2 ∧ Hits probes protocol .h3) :
    Balanced probes received := by
  have hs := hg.sendable
  have hgroup : Grouped Delivers (fun item => identityOf item.frame)
      (fun capture => identityOf capture.2) (probes.filter Probe.allowed) (captured received) :=
    hm.grouped
      (fun item hitem _ hd => (hd.identity (hs.complete item (List.mem_filter.mp hitem).1)).2)
    (hs.distinct.sublist (List.filter_sublist.map _))
  have harrived : ∀ protocol host, Hits probes protocol host →
      Arrived probes received protocol host := by
    intro protocol host hhit
    obtain ⟨item, hitem, ha, hf, he⟩ := hhit
    exact (arrived_iff hs hgroup).mpr ⟨item, hitem, ha, (hg.receiver_iff hitem ha).mpr he, hf⟩
  exact fun protocol hproto _ =>
    ⟨harrived protocol .h2 (h protocol hproto).1, harrived protocol .h3 (h protocol hproto).2⟩

/-- The packets are built, with different identities and, where they are to arrive, with an
expected frame; the check passes on every capture in which each host holds its expected
frames, in any order; and the flows of each protocol hit both members. -/
theorem selfTest_accepts (prefixBytes : List Byte) (nFlows : ℤ) (hp : prefixBytes.length = 3)
    (hn : 2 ≤ nFlows ∧ nFlows ≤ 100) :
    ∃ probes, makeProbes prefixBytes nFlows = .ok probes ∧
      (∃ keys, probes.mapM (fun item => identity item.frame) = .ok keys ∧ keys.Nodup) ∧
      (∀ item ∈ probes, item.allowed = true → ∃ frame, expectedFrame item.frame none = .ok frame) ∧
      (∀ received, FromAll received → HoldsExpected probes received →
        checkDelivery probes received = .ok ()) ∧
      ∀ protocol ∈ protocols, Hits probes protocol .h2 ∧ Hits probes protocol .h3 := by
  obtain ⟨probes, hrun, hg, hall⟩ := makeProbes_total hp hn
  have hhits : ∀ protocol ∈ protocols, Hits probes protocol .h2 ∧ Hits probes protocol .h3 :=
    fun protocol hproto => hits_members hn.1 hg hproto (hall protocol hproto)
  refine ⟨probes, hrun, ⟨_, mapM_ok fun item hitem =>
    identity_ok.mpr ⟨(hg.ok item hitem).complete, rfl⟩, hg.distinct⟩, ?_, ?_, hhits⟩
  · intro item hitem ha
    obtain ⟨host, -, he, frame, hf⟩ := (hg.ok item hitem).routed ha
    refine ⟨frame, ?_⟩
    rw [← hf]
    simp only [expectedFrame, he]
    rfl
  · intro received hfrom hholds
    have hm := hholds.matched hg
    exact (checkDelivery_ok hg.sendable).mpr ⟨hfrom, hm, balanced_of_hits hg hm hhits⟩

theorem selfTest_accepts_twenty : ∃ probes, makeProbes [198, 18, 7] 20 = .ok probes ∧
    (∃ keys, probes.mapM (fun item => identity item.frame) = .ok keys ∧ keys.Nodup) ∧
    (∀ item ∈ probes, item.allowed = true → ∃ frame, expectedFrame item.frame none = .ok frame) ∧
    (∀ received, FromAll received → HoldsExpected probes received →
      checkDelivery probes received = .ok ()) ∧
    ∀ protocol ∈ protocols, Hits probes protocol .h2 ∧ Hits probes protocol .h3 :=
  selfTest_accepts [198, 18, 7] 20 rfl (by decide)

end P4Cases.Ecmp
