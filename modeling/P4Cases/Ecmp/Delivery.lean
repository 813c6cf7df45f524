import P4Cases.Ecmp.Oracle
import P4Cases.Frames.Delivery

/-! The delivery check of the ECMP router accepts exactly the captures that hold the expected
frame of every packet that is to arrive, with both members used. -/
namespace P4Cases.Ecmp
open Wire Matching

structure Probe where
  name : String
  sender : Host
  receiver : Option Host
  allowed : Bool
  frame : List Byte

def identity (frame : List Byte) : Py (List Byte) := do
  raiseIf (frame.length < 30) (.runtimeError "capture contains an incomplete IPv4 identity")
  return slice frame 18 22 ++ slice frame 26 30

def checkForwarded (sent received : List Byte) (host : Host) : Py Unit := do
  let expected ← expectedFrame sent (some host)
  raiseIf (received ≠ expected)
    (.runtimeError "routed frame differs in MACs, TTL, checksum or contents")

def captureKey (identities : List (List Byte)) (capture : Host × List Byte) : Py (List Byte) := do
  let key ← identity capture.2
  raiseIf (key ∉ identities) (.runtimeError "capture contains an unrecognised frame")
  return key

/-- The name of a flow over the members says its protocol. -/
def Probe.Flow (item : Probe) (protocol : ℕ) : Prop :=
  s!"ecmp-{protocol}-".toList <+: item.name.toList

instance (item : Probe) (protocol : ℕ) : Decidable (item.Flow protocol) :=
  inferInstanceAs (Decidable (_ <+: _))

/-- How many flows of a protocol arrived at a host. -/
abbrev Distribution := ℕ → Host → ℕ

def protocols : List ℕ := [17, 6]

/-- One flow more. -/
def Distribution.add (counts : Distribution) (protocol : ℕ) (host : Host) : Distribution :=
  Function.update counts protocol
    (Function.update (counts protocol) host (counts protocol host + 1))

/-- The counters are those of h2 and h3 only. -/
def countArrival (item : Probe) (host : Host) (counts : Distribution) : Py Distribution :=
  protocols.foldlM (fun counts protocol =>
    if item.Flow protocol then do
      raiseIf (host = .h1) .keyError
      return counts.add protocol host
    else return counts) counts

def checkArrival (arrivals : List Byte → List (Host × List Byte)) (counts : Distribution)
    (entry : List Byte × Probe) : Py Distribution := do
  let (key, item) := entry
  let actual := arrivals key
  let expected := if item.allowed then 1 else 0
  raiseIf (actual.length ≠ expected)
    (.runtimeError s!"{item.name} received {actual.length} frames, expected {expected}")
  match actual with
  | [] => return counts
  | (host, frame) :: _ =>
      raiseIf (some host ≠ item.receiver)
        (.runtimeError s!"{item.name} arrived at the wrong ECMP or direct host")
      checkForwarded item.frame frame host
      countArrival item host counts

def checkMembers (counts : Distribution) (protocol : ℕ) : Py Unit :=
  raiseIf (counts protocol .h2 + counts protocol .h3 ≠ 0 ∧
    ¬ (counts protocol .h2 ≠ 0 ∧ counts protocol .h3 ≠ 0))
    (.runtimeError s!"protocol {protocol} did not use both ECMP members")

def hosts : List Host := [.h1, .h2, .h3]

def checkDelivery (probes : List Probe) (received : Received Host) : Py Unit := do
  raiseIf (¬ ∀ host ∈ hosts, host ∈ received.map Prod.fst)
    (.runtimeError "capture replies must include all three hosts")
  let identities ← probes.mapM fun item => do return (← identity item.frame, item)
  raiseIf (¬ (identities.map Prod.fst).Nodup)
    (.runtimeError "test packets must have unique identities")
  let arrivals ← collect (captureKey (identities.map Prod.fst)) (captured received)
  let counts ← identities.foldlM (checkArrival arrivals) fun _ _ => 0
  protocols.forM (checkMembers counts)

/-- Where a packet is to arrive, and as which frame. -/
def Probe.delivery (item : Probe) : Option Host × Py (List Byte) :=
  (item.receiver, expectedFrame item.frame item.receiver)

/-- What the test asks of a captured frame. -/
def Delivers (item : Probe) (capture : Host × List Byte) : Prop :=
  (some capture.1, .ok capture.2) = item.delivery

/-! Forwarding keeps the identity of a frame. -/

section
variable {frame sent : List Byte}

def identityOf (frame : List Byte) : List Byte := slice frame 18 22 ++ slice frame 26 30

theorem identity_ok {key : List Byte} :
    identity frame = .ok key ↔ 30 ≤ frame.length ∧ key = identityOf frame := by
  rw [identity, raiseIf_bind_ok, not_lt]
  refine and_congr_right fun _ => ?_
  exact ⟨fun h => (Except.ok.inj h).symm, fun h => congrArg Except.ok h.symm⟩

/-- Assigning bytes that are not in the identity. -/
theorem setSlice_identity (data : List Byte) (i j : ℕ) (new : List Byte) (hij : i ≤ j)
    (hj : j ≤ 18 ∨ 22 ≤ i ∧ j ≤ 26 ∨ 30 ≤ i) (hl : j ≤ data.length) (hnew : new.length = j - i) :
    (setSlice data i j new).length = data.length ∧
      identityOf (setSlice data i j new) = identityOf data := by
  refine ⟨setSlice_length hij hl hnew, ?_⟩
  rw [identityOf, slice_setSlice hij hl hnew (by omega), slice_setSlice hij hl hnew (by omega)]
  rfl

theorem recalculateChecksum_identity {result : List Byte} (hlen : 30 ≤ frame.length)
    (h : recalculateChecksum frame = .ok result) :
    result.length = frame.length ∧ identityOf result = identityOf frame := by
  obtain ⟨first, -, h⟩ := py_bind_ok.mp h
  obtain rfl := Except.ok.inj h
  have hz : ([0, 0] : List Byte).length = 26 - 24 := rfl
  obtain ⟨hl₁, hi₁⟩ := setSlice_identity frame 24 26 _ (by omega) (by omega) (by omega) hz
  obtain ⟨hl₂, hi₂⟩ := setSlice_identity (setSlice frame 24 26 [0, 0]) 24 26 _ (by omega)
    (by omega) (by omega) (beBytes_length 2 _)
  exact ⟨hl₂.trans hl₁, hi₂.trans hi₁⟩

theorem expectedFrame_identity {host : Host} (hlen : 30 ≤ sent.length)
    (h : expectedFrame sent (some host) = .ok frame) :
    frame.length = sent.length ∧ identityOf frame = identityOf sent := by
  have hmac : (hostMacs host).length = 6 - 0 := by cases host <;> rfl
  have hold : (slice sent 0 6).length = 12 - 6 := slice_length (by omega)
  obtain ⟨hl₁, hi₁⟩ := setSlice_identity sent 0 6 _ (by omega) (by omega) (by omega) hmac
  obtain ⟨hl₂, hi₂⟩ := setSlice_identity (setSlice sent 0 6 (hostMacs host)) 6 12 _ (by omega)
    (by omega) (by omega) hold
  have hpure : (pure host : Py Host) = .ok host := rfl
  rw [expectedFrame, hpure, py_ok_bind] at h
  obtain ⟨ttl, -, h⟩ := py_bind_ok.mp h
  split_ifs at h with httl
  · obtain ⟨_, hthrow, -⟩ := py_bind_ok.mp h
    cases hthrow
  obtain ⟨hl₃, hi₃⟩ := setSlice_identity
    (setSlice (setSlice sent 0 6 (hostMacs host)) 6 12 (slice sent 0 6)) 22 23 _ (by omega)
    (by omega) (by omega) (beBytes_length 1 (ttl - 1))
  obtain ⟨hl, hi⟩ := recalculateChecksum_identity (by omega) h
  exact ⟨by omega, by rw [hi, hi₃, hi₂, hi₁]⟩

end

/-! Arrivals and counters. -/

section
variable {item : Probe} {host : Host} {frame : List Byte} {counts counts' : Distribution}

theorem delivers_iff : Delivers item (host, frame) ↔
    some host = item.receiver ∧ checkForwarded item.frame frame host = .ok () := by
  rw [Delivers, Probe.delivery, Prod.mk.injEq]
  refine and_congr_right fun hhost => ?_
  rw [← hhost, checkForwarded, py_bind_ok]
  constructor
  · intro h
    exact ⟨frame, h.symm, raiseIf_ok.mpr (not_not.mpr rfl)⟩
  · intro h
    obtain ⟨expected, hexpected, h⟩ := h
    rw [hexpected, not_not.mp (raiseIf_ok.mp h)]

theorem Delivers.identity {capture : Host × List Byte} (hlen : 30 ≤ item.frame.length)
    (h : Delivers item capture) :
    30 ≤ capture.2.length ∧ identityOf capture.2 = identityOf item.frame := by
  obtain ⟨hhost, hframe⟩ := Prod.mk.inj h
  rw [← hhost] at hframe
  obtain ⟨hl, hi⟩ := expectedFrame_identity hlen hframe.symm
  exact ⟨by omega, hi⟩

/-- The counters after an arrival. -/
def Probe.counted (item : Probe) (host : Host) (counts : Distribution) : Distribution :=
  protocols.foldl
    (fun counts protocol => if item.Flow protocol then counts.add protocol host else counts) counts

theorem countArrival_ok (h : ∀ protocol ∈ protocols, item.Flow protocol → host ≠ .h1) :
    countArrival item host counts = .ok counts' ↔ counts' = item.counted host counts := by
  have hturn : ∀ (counts : Distribution) protocol, protocol ∈ protocols → ∀ counts',
      (if item.Flow protocol then do
          raiseIf (host = .h1) .keyError
          return counts.add protocol host
        else return counts : Py Distribution) = .ok counts' ↔
      True ∧ counts' = if item.Flow protocol then counts.add protocol host else counts := by
    intro counts protocol hp counts'
    rw [true_and]
    split_ifs with hflow
    · rw [raiseIf_bind_ok]
      constructor
      · exact fun h => (Except.ok.inj h.2).symm
      · exact fun he => ⟨h protocol hp hflow, congrArg Except.ok he.symm⟩
    · exact ⟨fun h => (Except.ok.inj h).symm, fun h => congrArg Except.ok h.symm⟩
  rw [countArrival, foldlM_ok hturn]
  exact and_iff_right fun _ _ => trivial

theorem add_ne_zero (counts : Distribution) (protocol p : ℕ) (host h : Host) :
    counts.add protocol host p h ≠ 0 ↔ counts p h ≠ 0 ∨ p = protocol ∧ h = host := by
  unfold Distribution.add
  by_cases hp : p = protocol
  · subst hp
    by_cases hh : h = host
    · subst hh
      simp
    · simp [hh]
  · simp [hp]

theorem counted_ne_zero (item : Probe) (host : Host) (counts : Distribution) (p : ℕ) (h : Host) :
    item.counted host counts p h ≠ 0 ↔
      counts p h ≠ 0 ∨ ∃ protocol ∈ protocols, item.Flow protocol ∧ p = protocol ∧ h = host := by
  have hturn : ∀ (counts : Distribution) protocol,
      (if item.Flow protocol then counts.add protocol host else counts) p h ≠ 0 ↔
        counts p h ≠ 0 ∨ item.Flow protocol ∧ p = protocol ∧ h = host := by
    intro counts protocol
    split_ifs with hf
    · rw [add_ne_zero, and_iff_right hf]
    · simp [hf]
  exact foldl_or (P := fun counts : Distribution => counts p h ≠ 0) hturn protocols counts

/-- The counters after a packet that is to arrive has arrived. -/
def Probe.tally (item : Probe) (counts : Distribution) : Distribution :=
  if item.allowed then item.receiver.elim counts fun host => item.counted host counts else counts

theorem checkArrival_ok {arrivals : List Byte → List (Host × List Byte)} {key : List Byte}
    (h : item.allowed = true → ∀ protocol ∈ protocols, item.Flow protocol →
      item.receiver ≠ some .h1) :
    checkArrival arrivals counts (key, item) = .ok counts' ↔
      (if item.allowed then ∃ capture, arrivals key = [capture] ∧ Delivers item capture
        else arrivals key = []) ∧ counts' = item.tally counts := by
  rw [checkArrival, raiseIf_bind_ok, not_not]
  split_ifs with ha
  · rw [List.length_eq_one_iff]
    have htally : ∀ host, some host = item.receiver →
        item.tally counts = item.counted host counts := by
      intro host hhost
      rw [Probe.tally, if_pos ha, ← hhost]
      rfl
    have hcount : ∀ host, some host = item.receiver → (countArrival item host counts = .ok counts' ↔
        counts' = item.counted host counts) := by
      intro host hhost
      refine countArrival_ok fun protocol hp hf he => h ha protocol hp hf ?_
      rw [← hhost, he]
    constructor
    · intro h
      obtain ⟨⟨capture, hone⟩, h⟩ := h
      rw [hone] at h
      obtain ⟨hhost, h⟩ := raiseIf_bind_ok.mp h
      have hhost := not_not.mp hhost
      obtain ⟨_, hforwarded, h⟩ := py_bind_ok.mp h
      refine ⟨⟨capture, hone, delivers_iff.mpr ⟨hhost, hforwarded⟩⟩, ?_⟩
      rw [htally _ hhost]
      exact (hcount _ hhost).mp h
    · intro h
      obtain ⟨⟨capture, hone, hdelivers⟩, hc⟩ := h
      obtain ⟨hhost, hforwarded⟩ := delivers_iff.mp hdelivers
      rw [hone]
      refine ⟨⟨capture, rfl⟩, raiseIf_bind_ok.mpr ⟨not_not.mpr hhost, py_bind_ok.mpr
        ⟨(), hforwarded, (hcount _ hhost).mpr ?_⟩⟩⟩
      rw [hc, htally _ hhost]
  · rw [List.length_eq_zero_iff]
    have htally : item.tally counts = counts := by
      rw [Probe.tally, if_neg ha]
    rw [htally]
    constructor
    · intro h
      obtain ⟨hnil, h⟩ := h
      rw [hnil] at h
      exact ⟨hnil, (Except.ok.inj h).symm⟩
    · intro h
      obtain ⟨hnil, rfl⟩ := h
      rw [hnil]
      exact ⟨rfl, rfl⟩

theorem tally_ne_zero (counts : Distribution) (item : Probe) (p : ℕ) (h : Host) :
    item.tally counts p h ≠ 0 ↔ counts p h ≠ 0 ∨
      item.allowed = true ∧ item.receiver = some h ∧ p ∈ protocols ∧ item.Flow p := by
  unfold Probe.tally
  split_ifs with ha
  · cases hr : item.receiver with
    | none => simp
    | some host =>
      rw [Option.elim_some, counted_ne_zero]
      refine or_congr_right ?_
      constructor
      · intro hc
        obtain ⟨protocol, hp, hf, rfl, rfl⟩ := hc
        exact ⟨ha, rfl, hp, hf⟩
      · intro hc
        obtain ⟨-, hhost, hp, hf⟩ := hc
        exact ⟨p, hp, hf, rfl, (Option.some.inj hhost).symm⟩
  · simp [ha]

end

/-! The whole check. -/

/-- A flow of this protocol arrived at the host. -/
def Arrived (probes : List Probe) (received : Received Host) (protocol : ℕ) (host : Host) : Prop :=
  ∃ item ∈ probes, item.Flow protocol ∧ ∃ frame, (host, frame) ∈ captured received ∧
    identityOf frame = identityOf item.frame

/-- Where a protocol has flows that arrived, both members have received one. -/
def Balanced (probes : List Probe) (received : Received Host) : Prop :=
  ∀ protocol ∈ protocols, (∃ host, Arrived probes received protocol host) →
    Arrived probes received protocol .h2 ∧ Arrived probes received protocol .h3

/-- What the test takes care of when it builds its packets. -/
structure Sendable (probes : List Probe) : Prop where
  complete : ∀ item ∈ probes, 30 ≤ item.frame.length
  distinct : (probes.map fun item => identityOf item.frame).Nodup
  member : ∀ item ∈ probes, item.allowed = true → ∀ protocol ∈ protocols, item.Flow protocol →
    item.receiver = some .h2 ∨ item.receiver = some .h3

section
variable {probes : List Probe} {received : Received Host}

theorem captureKey_ok {identities : List (List Byte)} {capture : Host × List Byte} {k : List Byte} :
    captureKey identities capture = .ok k ↔
      (30 ≤ capture.2.length ∧ identityOf capture.2 ∈ identities) ∧ k = identityOf capture.2 := by
  rw [captureKey, py_bind_ok]
  constructor
  · intro h
    obtain ⟨key, hkey, h⟩ := h
    obtain ⟨hlen, rfl⟩ := identity_ok.mp hkey
    obtain ⟨hmem, h⟩ := raiseIf_bind_ok.mp h
    exact ⟨⟨hlen, not_not.mp hmem⟩, (Except.ok.inj h).symm⟩
  · intro h
    obtain ⟨⟨hlen, hmem⟩, rfl⟩ := h
    exact ⟨_, identity_ok.mpr ⟨hlen, rfl⟩, raiseIf_bind_ok.mpr ⟨not_not.mpr hmem, rfl⟩⟩

/-- Whose flows have arrived can be read off the packets, once each capture is matched. -/
theorem arrived_iff (h : Sendable probes)
    (hg : Grouped Delivers (fun item => identityOf item.frame) (fun capture => identityOf capture.2)
      (probes.filter Probe.allowed) (captured received)) {protocol : ℕ} {host : Host} :
    Arrived probes received protocol host ↔ ∃ item ∈ probes, item.allowed = true ∧
      item.receiver = some host ∧ item.Flow protocol := by
  constructor
  · intro ha
    obtain ⟨item, hitem, hf, frame, hc, hi⟩ := ha
    obtain ⟨item', hitem', hd⟩ := hg.exists_related hc
    obtain ⟨hmem, hallowed⟩ := List.mem_filter.mp hitem'
    have hsame : identityOf item'.frame = identityOf item.frame :=
      (hd.identity (h.complete _ hmem)).2.symm.trans hi
    obtain rfl := List.inj_on_of_nodup_map h.distinct hmem hitem hsame
    exact ⟨item', hitem, hallowed, (Prod.mk.inj hd).1.symm, hf⟩
  · intro ha
    obtain ⟨item, hitem, hallowed, hr, hf⟩ := ha
    obtain ⟨⟨host', frame⟩, hone, hd⟩ := hg.2 item (List.mem_filter.mpr ⟨hitem, hallowed⟩)
    have hhost : host' = host := Option.some.inj ((Prod.mk.inj hd).1.trans hr)
    subst hhost
    have hmem : (host', frame) ∈ (captured received).filter
        fun capture => identityOf capture.2 = identityOf item.frame := by
      rw [hone]
      exact List.mem_singleton_self _
    obtain ⟨hc, hi⟩ := List.mem_filter.mp hmem
    exact ⟨item, hitem, hf, frame, hc, of_decide_eq_true hi⟩

theorem checkMembers_ok {counts : Distribution} {protocol : ℕ} :
    checkMembers counts protocol = .ok () ↔
      (counts protocol .h2 ≠ 0 ∨ counts protocol .h3 ≠ 0 →
        counts protocol .h2 ≠ 0 ∧ counts protocol .h3 ≠ 0) := by
  rw [checkMembers, raiseIf_ok, not_and, not_not]
  refine imp_congr_left ?_
  omega

/-- What the loop over the packets counts. -/
theorem tallied_ne_zero {identities : List (List Byte × Probe)} {protocol : ℕ} {host : Host} :
    identities.foldl (fun counts entry => entry.2.tally counts) (fun _ _ => 0) protocol host ≠ 0 ↔
      ∃ entry ∈ identities, entry.2.allowed = true ∧ entry.2.receiver = some host ∧
        protocol ∈ protocols ∧ entry.2.Flow protocol := by
  have hloop := foldl_or (P := fun counts : Distribution => counts protocol host ≠ 0)
    (fun counts (entry : List Byte × Probe) => tally_ne_zero counts entry.2 protocol host)
    identities (fun _ _ => 0)
  rw [hloop]
  simp

theorem balanced_iff {counts : Distribution}
    (hc : ∀ protocol ∈ protocols, ∀ host, counts protocol host ≠ 0 ↔
      Arrived probes received protocol host)
    (hother : ∀ protocol ∈ protocols, ∀ host, Arrived probes received protocol host →
      host = .h2 ∨ host = .h3) :
    protocols.forM (checkMembers counts) = .ok () ↔ Balanced probes received := by
  rw [forM_ok]
  refine forall₂_congr fun protocol hp => ?_
  rw [checkMembers_ok, hc protocol hp, hc protocol hp]
  refine imp_congr_left ⟨?_, ?_⟩
  · rintro (ha | ha)
    · exact ⟨.h2, ha⟩
    · exact ⟨.h3, ha⟩
  · intro ha
    obtain ⟨host, ha⟩ := ha
    rcases hother protocol hp host ha with rfl | rfl
    · exact Or.inl ha
    · exact Or.inr ha

/-- The check passes when the captured frames are the expected ones, one for each packet that
is to arrive, and both members were used. -/
theorem checkDelivery_ok (h : Sendable probes) :
    checkDelivery probes received = .ok () ↔ (∀ host, host ∈ received.map Prod.fst) ∧
      Matched Delivers (probes.filter Probe.allowed) (captured received) ∧
        Balanced probes received := by
  have hhosts : (∀ host ∈ hosts, host ∈ received.map Prod.fst) ↔
      ∀ host, host ∈ received.map Prod.fst :=
    ⟨fun h host => h host (by cases host <;> decide), fun h host _ => h host⟩
  have hn' : ((probes.filter Probe.allowed).map fun item => identityOf item.frame).Nodup :=
    h.distinct.sublist (List.filter_sublist.map _)
  have hkey : ∀ item ∈ probes.filter Probe.allowed, ∀ capture, Delivers item capture →
      identityOf capture.2 = identityOf item.frame := fun item hitem capture hd =>
    (hd.identity (h.complete item (List.mem_filter.mp hitem).1)).2
  have hids : probes.mapM (fun item => do return (← identity item.frame, item)) =
      (.ok (probes.map fun item => (identityOf item.frame, item)) : Py _) :=
    mapM_ok fun item hitem => py_bind_ok.mpr
      ⟨_, identity_ok.mpr ⟨h.complete item hitem, rfl⟩, rfl⟩
  have hfst : (probes.map fun item => (identityOf item.frame, item)).map Prod.fst =
      probes.map fun item => identityOf item.frame := by
    rw [List.map_map]
    rfl
  have hturn : ∀ (arrivals : List Byte → List (Host × List Byte)) (counts : Distribution)
      (entry : List Byte × Probe), entry ∈ probes.map (fun item => (identityOf item.frame, item)) →
      ∀ counts', checkArrival arrivals counts entry = .ok counts' ↔
        (if entry.2.allowed then ∃ capture, arrivals entry.1 = [capture] ∧ Delivers entry.2 capture
          else arrivals entry.1 = []) ∧ counts' = entry.2.tally counts := by
    intro arrivals counts entry hentry counts'
    obtain ⟨item, hitem, rfl⟩ := List.mem_map.mp hentry
    refine checkArrival_ok fun ha protocol hp hf he => ?_
    rcases h.member item hitem ha protocol hp hf with hr | hr <;> simp [hr] at he
  have hbalanced : Grouped Delivers (fun item => identityOf item.frame)
      (fun capture => identityOf capture.2) (probes.filter Probe.allowed) (captured received) →
      (protocols.forM (checkMembers ((probes.map fun item => (identityOf item.frame, item)).foldl
        (fun counts entry => entry.2.tally counts) fun _ _ => 0)) = .ok () ↔
          Balanced probes received) := by
    intro hg
    refine balanced_iff (fun protocol hp host => ?_) fun protocol hp host ha => ?_
    · rw [tallied_ne_zero, arrived_iff h hg]
      simp [hp]
    · obtain ⟨item, hitem, hallowed, hr, hf⟩ := (arrived_iff h hg).mp ha
      have hmember := h.member item hitem hallowed protocol hp hf
      rwa [hr, Option.some_inj, Option.some_inj] at hmember
  rw [checkDelivery, raiseIf_bind_ok, not_not, hhosts, hids, py_ok_bind, hfst]
  refine and_congr_right fun _ => ?_
  rw [raiseIf_bind_ok, not_not, ← grouped_iff_matched hkey hn', ← grouped_filter h.distinct]
  simp only [py_bind_ok, collect_ok fun capture _ k => captureKey_ok, foldlM_ok (hturn _),
    List.forall_mem_map]
  constructor
  · intro hall
    obtain ⟨-, arrivals, ⟨hkeys, rfl⟩, counts, ⟨hone, rfl⟩, hmembers⟩ := hall
    have hg : (∀ capture ∈ captured received, identityOf capture.2 ∈
        probes.map fun item => identityOf item.frame) ∧ _ :=
      ⟨fun capture hc => (hkeys capture hc).2, hone⟩
    exact ⟨hg, (hbalanced ((grouped_filter h.distinct).mp hg)).mp hmembers⟩
  · intro hall
    obtain ⟨hg, hb⟩ := hall
    have hgrouped := (grouped_filter h.distinct).mp hg
    refine ⟨h.distinct, _, ⟨fun capture hc => ⟨?_, hg.1 capture hc⟩, rfl⟩, _, ⟨hg.2, rfl⟩,
      (hbalanced hgrouped).mpr hb⟩
    obtain ⟨item, hitem, hd⟩ := hgrouped.exists_related hc
    exact (hd.identity (h.complete item (List.mem_filter.mp hitem).1)).1

end

end P4Cases.Ecmp
