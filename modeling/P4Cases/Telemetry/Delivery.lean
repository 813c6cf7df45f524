import P4Cases.Frames.Delivery
import P4Cases.Telemetry.Packets

/-! The delivery check of the telemetry network accepts exactly the captures in which every
packet that is to arrive has arrived once, where and as it should. -/
namespace P4Cases.Telemetry
open Wire Matching

structure Probe where
  name : String
  sender : Host
  receiver : Host
  path : List (ℕ × ℕ)
  allowed : Bool
  frame : List Byte

/-- The IPv4 source of a frame. -/
def sourceOf (frame : List Byte) : List Byte := slice frame 26 30

def captureKey (identities : List (List Byte)) (capture : Host × List Byte) : Py (List Byte) := do
  raiseIf (capture.2.length < 30 ∨ ¬ identities.contains (sourceOf capture.2))
    (.runtimeError "capture contains an unrecognised or incomplete frame")
  return sourceOf capture.2

def checkArrival (arrivals : List Byte → List (Host × List Byte)) (item : Probe) : Py Unit := do
  let actual := arrivals (sourceOf item.frame)
  let expected := if item.allowed then 1 else 0
  raiseIf (actual.length ≠ expected)
    (.runtimeError s!"{item.name} received {actual.length} frames, expected {expected}")
  match actual with
  | [] => return
  | (host, frame) :: _ =>
      raiseIf (host ≠ item.receiver) (.runtimeError s!"{item.name} arrived at the wrong host")
      checkForwarded item.frame frame item.path

def hosts : List Host := [.h1, .h2, .h3, .h4]

def checkDelivery (probes : List Probe) (received : Received Host) : Py Unit := do
  raiseIf (¬ ∀ host ∈ hosts, host ∈ received.map Prod.fst)
    (.runtimeError "capture replies must include all four hosts")
  let identities := probes.map fun item => sourceOf item.frame
  raiseIf (¬ identities.Nodup) (.runtimeError "test packets must have unique IPv4 sources")
  let arrivals ← collect (captureKey identities) (captured received)
  probes.forM (checkArrival arrivals)

/-- What the test asks of a captured frame. -/
def Delivers (item : Probe) (capture : Host × List Byte) : Prop :=
  capture.1 = item.receiver ∧ checkForwarded item.frame capture.2 item.path = .ok ()

/-! A frame that passes the check has the source of the frame that was sent. -/

section
variable {sent received newOptions payload header mac : List Byte} {path : List (ℕ × ℕ)}

/-- Assigning a byte before the addresses. -/
theorem setItem_address {data data' : List Byte} {i : ℕ} {value : ℤ} (hi : i < 12)
    (hlen : 20 ≤ data.length) (h : setItem data i value = .ok data') :
    data'.length = data.length ∧ slice data' 12 16 = slice data 12 16 := by
  obtain ⟨-, h⟩ := raiseIf_bind_ok.mp h
  obtain ⟨-, h⟩ := raiseIf_bind_ok.mp h
  obtain rfl := Except.ok.inj h
  have hnew : (beBytes 1 value.toNat).length = i + 1 - i := by simp
  exact ⟨setSlice_length (by omega) (by omega) hnew,
    slice_setSlice (by omega) (by omega) hnew (by omega)⟩

theorem setWord_address (data : List Byte) {new : List Byte} (i j : ℕ) (hj : j = i + 2)
    (hi : j ≤ 12) (hlen : 20 ≤ data.length) (hnew : new.length = 2) :
    (setSlice data i j new).length = data.length ∧
      slice (setSlice data i j new) 12 16 = slice data 12 16 := by
  have hnew : new.length = j - i := by omega
  exact ⟨setSlice_length (by omega) (by omega) hnew,
    slice_setSlice (by omega) (by omega) hnew (by omega)⟩

theorem packWord_length {n : ℕ} {bytes : List Byte} (h : packWord n = .ok bytes) :
    bytes.length = 2 := by
  unfold packWord at h
  split_ifs at h
  obtain rfl := Except.ok.inj h
  exact beBytes_length 2 n

/-- The header of the expected frame keeps the source. -/
theorem forwardedHeader_source {hops : ℕ} (hs : 34 ≤ sent.length)
    (h : forwardedHeader sent newOptions payload hops = .ok header) :
    20 ≤ header.length ∧ slice header 12 16 = sourceOf sent := by
  have hfixed : (slice sent 14 34).length = 20 := slice_length hs
  have h₀ : slice (slice sent 14 34 ++ newOptions) 12 16 = sourceOf sent := by
    rw [slice_append_left _ (by omega), slice_slice _ (by omega), sourceOf]
  have hl₀ : 20 ≤ (slice sent 14 34 ++ newOptions).length := by
    rw [List.length_append]
    omega
  obtain ⟨ip₁, h₁, h⟩ := py_bind_ok.mp h
  obtain ⟨hl₁, hs₁⟩ := setItem_address (by omega) hl₀ h₁
  obtain ⟨total, htotal, h⟩ := py_bind_ok.mp h
  obtain ⟨hl₂, hs₂⟩ := setWord_address ip₁ 2 4 rfl (by omega) (by omega) (packWord_length htotal)
  obtain ⟨ttl, -, h⟩ := py_bind_ok.mp h
  obtain ⟨ip₃, h₃, h⟩ := py_bind_ok.mp h
  obtain ⟨hl₃, hs₃⟩ := setItem_address (by omega) (by omega) h₃
  obtain ⟨sum, hsum, h⟩ := py_bind_ok.mp h
  obtain rfl := Except.ok.inj h
  have hz : ([0, 0] : List Byte).length = 2 := rfl
  obtain ⟨hl₄, hs₄⟩ := setWord_address ip₃ 10 12 rfl (by omega) (by omega) hz
  obtain ⟨hl₅, hs₅⟩ := setWord_address (setSlice ip₃ 10 12 [0, 0]) 10 12 rfl (by omega) (by omega)
    (packWord_length hsum)
  exact ⟨by omega, by rw [hs₅, hs₄, hs₃, hs₂, hs₁, h₀]⟩

theorem nextHop_length {i : ℕ} (h : nextHop path i = .ok mac) : mac.length = 6 := by
  have hall : ∀ entry ∈ nextHops, entry.2.length = 6 := by decide
  unfold nextHop at h
  split at h
  · cases h
  · split at h
    · cases h
    · rename_i hop _ _ mac' hl
      obtain rfl := Except.ok.inj h
      obtain ⟨l₁, l₂, hl, -⟩ := List.lookup_eq_some_iff.mp hl
      exact hall (hop, mac') (by rw [hl]; simp)

theorem forwardedFrame_source {frame : List Byte} (hs : 34 ≤ sent.length)
    (h : forwardedFrame sent newOptions payload path = .ok frame) :
    30 ≤ frame.length ∧ sourceOf frame = sourceOf sent := by
  obtain ⟨header, hheader, h⟩ := py_bind_ok.mp h
  obtain ⟨source, hsource, h⟩ := py_bind_ok.mp h
  obtain ⟨target, htarget, h⟩ := py_bind_ok.mp h
  obtain rfl := Except.ok.inj h
  obtain ⟨hl, hheader⟩ := forwardedHeader_source hs hheader
  have ht : target.length = 6 := nextHop_length htarget
  have hsource : source.length = 6 := by
    unfold sourceMac at hsource
    split_ifs at hsource
    · exact nextHop_length hsource
    · obtain rfl := Except.ok.inj hsource
      exact slice_length (by omega)
  have hmacs : (target ++ source ++ [0x08, 0x00]).length = 14 := by
    simp [ht, hsource]
  constructor
  · simp only [List.length_append] at hmacs ⊢
    omega
  · rw [← hheader, sourceOf, List.append_assoc _ header, slice_append_right _ _ (by omega), hmacs,
      slice_append_left _ (by omega)]

theorem checkForwarded_source (h : checkForwarded sent received path = .ok ()) :
    30 ≤ received.length ∧ sourceOf received = sourceOf sent := by
  obtain ⟨original, horiginal, h⟩ := py_bind_ok.mp h
  obtain ⟨actual, -, h⟩ := py_bind_ok.mp h
  obtain ⟨count, -, h⟩ := py_bind_ok.mp h
  obtain ⟨newOptions, -, h⟩ := py_bind_ok.mp h
  obtain ⟨expected, hexpected, h⟩ := py_bind_ok.mp h
  obtain rfl := not_not.mp (raiseIf_ok.mp h)
  obtain ⟨hlen, -⟩ := raiseIf_bind_ok.mp horiginal
  have hs : 34 ≤ sent.length := by
    by_contra hlt
    exact hlen (Or.inl (by omega))
  exact forwardedFrame_source hs hexpected

end

section
variable {probes : List Probe} {received : Received Host}

theorem captureKey_ok {identities : List (List Byte)} {capture : Host × List Byte} {k : List Byte} :
    captureKey identities capture = .ok k ↔
      (30 ≤ capture.2.length ∧ sourceOf capture.2 ∈ identities) ∧ k = sourceOf capture.2 := by
  rw [captureKey, raiseIf_bind_ok, not_or, not_lt, not_not, List.contains_iff_mem]
  refine and_congr_right fun _ => ?_
  exact ⟨fun h => (Except.ok.inj h).symm, fun h => congrArg Except.ok h.symm⟩

theorem checkArrival_ok {arrivals : List Byte → List (Host × List Byte)} {item : Probe} :
    checkArrival arrivals item = .ok () ↔
      if item.allowed then ∃ capture, arrivals (sourceOf item.frame) = [capture] ∧
        Delivers item capture
      else arrivals (sourceOf item.frame) = [] := by
  rw [checkArrival, raiseIf_bind_ok, not_not]
  split_ifs with ha
  · rw [List.length_eq_one_iff]
    constructor
    · intro h
      obtain ⟨⟨capture, hone⟩, h⟩ := h
      rw [hone] at h
      obtain ⟨hhost, h⟩ := raiseIf_bind_ok.mp h
      exact ⟨capture, hone, not_not.mp hhost, h⟩
    · intro h
      obtain ⟨capture, hone, hhost, h⟩ := h
      rw [hone]
      exact ⟨⟨capture, rfl⟩, raiseIf_bind_ok.mpr ⟨not_not.mpr hhost, h⟩⟩
  · rw [List.length_eq_zero_iff]
    constructor
    · exact fun h => h.1
    · intro h
      rw [h]
      exact ⟨rfl, rfl⟩

theorem Delivers.source {item : Probe} {capture : Host × List Byte} (h : Delivers item capture) :
    30 ≤ capture.2.length ∧ sourceOf capture.2 = sourceOf item.frame :=
  checkForwarded_source h.2

/-- The check passes when the captured frames are, one for one, what the packets that are to
arrive should have become. -/
theorem checkDelivery_ok (hn : (probes.map fun item => sourceOf item.frame).Nodup) :
    checkDelivery probes received = .ok () ↔ (∀ host, host ∈ received.map Prod.fst) ∧
      Matched Delivers (probes.filter Probe.allowed) (captured received) := by
  have hhosts : (∀ host ∈ hosts, host ∈ received.map Prod.fst) ↔
      ∀ host, host ∈ received.map Prod.fst :=
    ⟨fun h host => h host (by cases host <;> decide), fun h host _ => h host⟩
  have hn' : ((probes.filter Probe.allowed).map fun item => sourceOf item.frame).Nodup :=
    hn.sublist (List.filter_sublist.map _)
  rw [checkDelivery, raiseIf_bind_ok, not_not, hhosts]
  refine and_congr_right fun _ => ?_
  dsimp only
  rw [raiseIf_bind_ok, not_not, ← grouped_iff_matched (fun item _ capture h => h.source.2) hn',
    ← grouped_filter hn]
  simp only [py_bind_ok, collect_ok fun capture _ k => captureKey_ok, forM_ok, checkArrival_ok]
  constructor
  · intro h
    obtain ⟨-, arrivals, ⟨hkeys, rfl⟩, hall⟩ := h
    exact ⟨fun capture hc => (hkeys capture hc).2, hall⟩
  · intro h
    refine ⟨hn, _, ⟨fun capture hc => ⟨?_, h.1 capture hc⟩, rfl⟩, h.2⟩
    obtain ⟨item, -, hitem⟩ := ((grouped_filter hn).mp h).exists_related hc
    exact hitem.source.1

end

end P4Cases.Telemetry
