import P4Cases.Frames.Delivery

/-! The helpers with which the end-to-end tests send their frames and capture what
arrives: what a packet socket hands over for a frame on the wire, the frames that are
kept, and the comparison with the frames that each host is to get. -/
namespace P4Cases
open Wire Matching

/-- The byte order of the machine that the test runs on. -/
inductive ByteOrder where
  | little
  | big
  deriving DecidableEq

/-- The bytes from the most significant one on. -/
def ByteOrder.arrange : ByteOrder → List Byte → List Byte
  | .little, data => data.reverse
  | .big, data => data

def ByteOrder.nat (order : ByteOrder) (data : List Byte) : ℕ := beNat (order.arrange data)

@[simp] theorem ByteOrder.arrange_arrange (order : ByteOrder) (data : List Byte) :
    order.arrange (order.arrange data) = data := by
  cases order
  · exact List.reverse_reverse data
  · rfl

@[simp] theorem ByteOrder.arrange_length (order : ByteOrder) (data : List Byte) :
    (order.arrange data).length = data.length := by
  cases order
  · exact List.length_reverse
  · rfl

structure Ancillary where
  level : ℕ
  kind : ℕ
  data : List Byte

/-- What one read of a packet socket returns. -/
structure Message where
  frame : List Byte
  ancillary : List Ancillary := []
  flags : ℕ := 0
  packetType : ℕ

def solPacket : ℕ := 263
def packetAuxdata : ℕ := 8
def packetOutgoing : ℕ := 4
def msgTrunc : ℕ := 0x20
def msgCtrunc : ℕ := 0x8

/-- `struct.Struct("=IIIHHHH").size`. -/
def auxdataSize : ℕ := 20

def packetSamples (ancillary : List Ancillary) : List (List Byte) :=
  (ancillary.filter fun item => item.level = solPacket ∧ item.kind = packetAuxdata).map
    Ancillary.data

def restoreVlan (order : ByteOrder) (frame : List Byte) (ancillary : List Ancillary)
    (flags : ℕ) : Py (List Byte) := do
  raiseIf (flags &&& (msgTrunc ||| msgCtrunc) ≠ 0)
    (.runtimeError "capture contains truncated bytes or ancillary data")
  let samples := packetSamples ancillary
  raiseIf (1 < samples.length) (.runtimeError "capture contains duplicate packet metadata")
  match samples with
  | [] => return frame
  | sample :: _ =>
      raiseIf (sample.length ≠ auxdataSize)
        (.runtimeError "capture contains malformed packet metadata")
      let status := order.nat (slice sample 0 4)
      let tci := order.nat (slice sample 16 18)
      let tpid := order.nat (slice sample 18 20)
      if status &&& (1 <<< 4) ≠ 0 then
        raiseIf (frame.length < 14)
          (.runtimeError "VLAN capture lacks a complete Ethernet header")
        let tpid := if status &&& (1 <<< 6) ≠ 0 then tpid else 0x8100
        return frame.take 12 ++ (beBytes 2 tpid ++ beBytes 2 tci) ++ frame.drop 12
      else return frame

/-- The metadata of a message: `status`, `tci` and `tpid`. -/
structure Auxdata (order : ByteOrder) (message : Message) (status tci tpid : ℕ) : Prop where
  sample : ∃ data, packetSamples message.ancillary = [data] ∧ data.length = auxdataSize ∧
    order.nat (slice data 0 4) = status ∧ order.nat (slice data 16 18) = tci ∧
    order.nat (slice data 18 20) = tpid

/-- How the kernel hands over a frame: as it was on the wire, or without its outer VLAN
tag, which is then in the metadata. Without the bit for its type, the tag is 802.1Q. -/
inductive Carries (order : ByteOrder) (message : Message) (wire : List Byte) : Prop where
  | bare (hflags : message.flags &&& (msgTrunc ||| msgCtrunc) = 0) (hframe : message.frame = wire)
      (haux : packetSamples message.ancillary = [])
  | whole (hflags : message.flags &&& (msgTrunc ||| msgCtrunc) = 0) (hframe : message.frame = wire)
      {status tci tpid : ℕ} (haux : Auxdata order message status tci tpid)
      (hstatus : status &&& (1 <<< 4) = 0)
  | untagged (hflags : message.flags &&& (msgTrunc ||| msgCtrunc) = 0)
      (hlength : 18 ≤ wire.length) (hframe : message.frame = wire.take 12 ++ wire.drop 16)
      {status tpid : ℕ} (haux : Auxdata order message status (fieldAt wire 14 16) tpid)
      (hstatus : status &&& (1 <<< 4) ≠ 0)
      (htpid : fieldAt wire 12 14 = if status &&& (1 <<< 6) ≠ 0 then tpid else 0x8100)

/-- A tag that was taken out of a frame goes back to its place. -/
theorem restore_tag {wire : List Byte} (h : 18 ≤ wire.length) :
    (wire.take 12 ++ wire.drop 16).take 12 ++
        (beBytes 2 (fieldAt wire 12 14) ++ beBytes 2 (fieldAt wire 14 16)) ++
      (wire.take 12 ++ wire.drop 16).drop 12 = wire := by
  have ht : (wire.take 12).length = 12 := by
    rw [List.length_take]
    omega
  have hl₁ : (slice wire 12 14).length = 2 := slice_length (by omega)
  have hl₂ : (slice wire 14 16).length = 2 := slice_length (by omega)
  have htype : beBytes 2 (fieldAt wire 12 14) = slice wire 12 14 := (eq_beBytes hl₁).symm
  have htci : beBytes 2 (fieldAt wire 14 16) = slice wire 14 16 := (eq_beBytes hl₂).symm
  have hrest : wire.drop 12 = slice wire 12 14 ++ (slice wire 14 16 ++ wire.drop 16) := by
    rw [slice, slice, show wire.drop 14 = (wire.drop 12).drop 2 by rw [List.drop_drop],
      show wire.drop 16 = ((wire.drop 12).drop 2).drop 2 by rw [List.drop_drop, List.drop_drop],
      List.take_append_drop, List.take_append_drop]
  rw [List.take_append_of_le_length ht.ge, List.take_of_length_le ht.le,
    List.drop_append_of_le_length ht.ge, List.drop_of_length_le ht.le, List.nil_append, htype, htci,
    List.append_assoc, List.append_assoc, ← hrest, List.take_append_drop]

theorem restoreVlan_carries {order : ByteOrder} {message : Message} {wire : List Byte}
    (h : Carries order message wire) :
    restoreVlan order message.frame message.ancillary message.flags = .ok wire := by
  cases h with
  | bare hflags hframe haux =>
    rw [restoreVlan, raiseIf, if_neg (not_not.mpr hflags), py_ok_bind, haux, hframe]
    rfl
  | whole hflags hframe haux hstatus =>
    obtain ⟨data, hone, hsize, rfl, -, -⟩ := haux
    rw [restoreVlan, raiseIf, if_neg (not_not.mpr hflags), py_ok_bind, hone]
    simp only [raiseIf, List.length_singleton, lt_irrefl, if_false, py_ok_bind, hsize, ne_eq,
      not_true_eq_false, hstatus, hframe]
    rfl
  | untagged hflags hlength hframe haux hstatus htpid =>
    obtain ⟨data, hone, hsize, rfl, htci, rfl⟩ := haux
    have hl : ¬ message.frame.length < 14 := by
      rw [hframe, List.length_append, List.length_take, List.length_drop]
      omega
    rw [restoreVlan, raiseIf, if_neg (not_not.mpr hflags), py_ok_bind, hone]
    simp only [raiseIf, List.length_singleton, lt_irrefl, if_false, py_ok_bind, hsize, ne_eq,
      not_true_eq_false, hl]
    rw [if_pos hstatus, htci]
    simp only [ne_eq] at htpid
    rw [← htpid, hframe, restore_tag hlength]
    rfl

/-- A frame with a tag, as the kernel hands it over when it takes the tag out. -/
def untaggedMessage (order : ByteOrder) (wire : List Byte) : Message where
  frame := wire.take 12 ++ wire.drop 16
  ancillary := [{ level := solPacket, kind := packetAuxdata
                  data := order.arrange [0, 0, 0, 0x50] ++ List.replicate 12 0 ++
                    order.arrange (slice wire 14 16) ++ order.arrange (slice wire 12 14) }]
  packetType := 0

theorem carries_untagged (order : ByteOrder) {wire : List Byte} (h : 18 ≤ wire.length) :
    Carries order (untaggedMessage order wire) wire := by
  have htci : (slice wire 14 16).length = 2 := slice_length (by omega)
  have htype : (slice wire 12 14).length = 2 := slice_length (by omega)
  have hread : ∀ data : List Byte, data.length = 2 →
      order.nat (slice (order.arrange data) 0 2) = beNat data := by
    intro data hl
    rw [ByteOrder.nat, slice, List.drop_zero, List.take_of_length_le (by simp [hl]),
      ByteOrder.arrange_arrange]
  have haux : Auxdata order (untaggedMessage order wire) 0x50 (fieldAt wire 14 16)
      (fieldAt wire 12 14) := by
    refine ⟨_, rfl, ?_, ?_, ?_, ?_⟩
    · simp [htci, htype, auxdataSize]
    · rw [List.append_assoc, List.append_assoc, slice_append_left _ (by simp), ByteOrder.nat]
      cases order <;> decide
    · rw [slice_append_left _ (by simp [htci]), slice_append_right _ _ (by simp)]
      simpa [fieldAt] using hread _ htci
    · rw [slice_append_right _ _ (by simp [htci])]
      simpa [htci, fieldAt] using hread _ htype
  refine @Carries.untagged order _ wire (Nat.zero_and _) h rfl 0x50 _ haux (by decide) ?_
  rw [if_pos (by decide)]

/-! The capture loop. -/

/-- One turn: the frame is kept unless it was sent from this host or lacks the marker. -/
def captureTurn (restore : Message → Py (List Byte)) (keep : List Byte → Bool)
    (frames : List (List Byte)) (message : Message) : Py (List (List Byte)) := do
  let frame ← restore message
  if message.packetType ≠ packetOutgoing ∧ keep frame then return frames ++ [frame]
  else return frames

def captureFrames (restore : Message → Py (List Byte)) (keep : List Byte → Bool)
    (messages : List Message) : Py (List (List Byte)) :=
  messages.foldlM (captureTurn restore keep) []

/-- A frame on the wire of a host and the message that brought it. -/
structure Observation (restore : Message → Py (List Byte)) where
  message : Message
  wire : List Byte
  restored : restore message = .ok wire

section
variable {restore : Message → Py (List Byte)} {keep : List Byte → Bool}

/-- The frames that came in, as they were on the wire. -/
def incoming (observations : List (Observation restore)) : List (List Byte) :=
  (observations.filter fun o => o.message.packetType ≠ packetOutgoing).map Observation.wire

theorem captureFrames_ok (keep : List Byte → Bool) (observations : List (Observation restore)) :
    captureFrames restore keep (observations.map Observation.message) =
      .ok ((incoming observations).filter keep) := by
  have hrun : ∀ frames, (observations.map Observation.message).foldlM (captureTurn restore keep)
      frames = .ok (frames ++ (incoming observations).filter keep) := by
    induction observations with
    | nil => intro frames; simp [incoming, pure, Except.pure]
    | cons o observations ih =>
      intro frames
      rw [List.map_cons, List.foldlM_cons, captureTurn, o.restored, py_ok_bind]
      by_cases hout : o.message.packetType = packetOutgoing
      · rw [if_neg (by simp [hout])]
        refine (ih frames).trans ?_
        simp [incoming, hout]
      · by_cases hk : keep o.wire = true
        · rw [if_pos ⟨hout, hk⟩]
          refine (ih _).trans ?_
          simp [incoming, hout, hk]
        · rw [if_neg (by simp [hk])]
          refine (ih frames).trans ?_
          simp [incoming, hout, hk]
  exact hrun []

end

/-- `frame[6:10] == marker`: the marker is in the source address. -/
def hasMarker (marker frame : List Byte) : Bool := decide (slice frame 6 10 = marker)

/-- `restore_vlan` on what was read. -/
def restoreMessage (order : ByteOrder) (message : Message) : Py (List Byte) :=
  restoreVlan order message.frame message.ancillary message.flags

/-- A frame on the wire of a host and what the kernel has handed over for it. -/
structure Sighting (order : ByteOrder) where
  message : Message
  wire : List Byte
  carries : Carries order message wire

/-- `restore_vlan` undoes what the kernel has done. -/
def Sighting.observation {order : ByteOrder} (s : Sighting order) :
    Observation (restoreMessage order) where
  message := s.message
  wire := s.wire
  restored := restoreVlan_carries s.carries

/-- A frame without a tag is handed over as it is. -/
def Sighting.bare (order : ByteOrder) (wire : List Byte) : Sighting order where
  message := { frame := wire, packetType := 0 }
  wire := wire
  carries := .bare (Nat.zero_and _) rfl rfl

/-- The kernel takes out the tag of a frame that has one. -/
def Sighting.ofWire (order : ByteOrder) (wire : List Byte) : Sighting order :=
  if h : 18 ≤ wire.length ∧ (fieldAt wire 12 14 = 0x8100 ∨ fieldAt wire 12 14 = 0x88A8) then
    { message := untaggedMessage order wire, wire, carries := carries_untagged order h.1 }
  else .bare order wire

theorem Sighting.ofWire_incoming (order : ByteOrder) (wire : List Byte) :
    (Sighting.ofWire order wire).wire = wire ∧
      (Sighting.ofWire order wire).message.packetType ≠ packetOutgoing := by
  have hhost : 0 ≠ packetOutgoing := by decide
  unfold Sighting.ofWire
  split_ifs
  · exact ⟨rfl, hhost⟩
  · exact ⟨rfl, hhost⟩

theorem incoming_ofWire (order : ByteOrder) (frames : List (List Byte)) :
    incoming ((frames.map (Sighting.ofWire order)).map Sighting.observation) = frames := by
  have hall : ∀ o ∈ (frames.map (Sighting.ofWire order)).map Sighting.observation,
      decide (o.message.packetType ≠ packetOutgoing) = true := by
    intro o ho
    obtain ⟨s, hs, rfl⟩ := List.mem_map.mp ho
    obtain ⟨wire, -, rfl⟩ := List.mem_map.mp hs
    exact decide_eq_true (Sighting.ofWire_incoming order wire).2
  rw [incoming, List.filter_eq_self.mpr hall, List.map_map, List.map_map]
  exact (List.map_congr_left fun wire _ => (Sighting.ofWire_incoming order wire).1).trans
    (List.map_id frames)

/-- `receive_frames` of the layer 2 tests, which put back the tags that the kernel has
taken out. -/
def receiveTagged (order : ByteOrder) (keep : List Byte → List Byte → Bool) (marker : List Byte)
    (messages : List Message) : Py (List (List Byte)) := do
  raiseIf (marker.length ≠ 4) (.valueError "capture needs four MAC bytes and a positive duration")
  captureFrames (restoreMessage order) (keep marker) messages

theorem receiveTagged_ok {order : ByteOrder} {keep : List Byte → List Byte → Bool}
    {marker : List Byte} (hm : marker.length = 4)
    (observations : List (Observation (restoreMessage order))) :
    receiveTagged order keep marker (observations.map Observation.message) =
      .ok ((incoming observations).filter (keep marker)) := by
  rw [receiveTagged, raiseIf, if_neg (not_not.mpr hm), py_ok_bind, captureFrames_ok]

/-- `receive_frames` of the other tests. -/
def receivePlain (keep : List Byte → List Byte → Bool) (size : ℕ) (error : String)
    (marker : List Byte) (messages : List Message) : Py (List (List Byte)) := do
  raiseIf (marker.length ≠ size) (.valueError error)
  captureFrames (fun message => .ok message.frame) (keep marker) messages

theorem receivePlain_ok {keep : List Byte → List Byte → Bool} {size : ℕ} {error : String}
    {marker : List Byte} (hm : marker.length = size)
    (observations : List (Observation fun message => .ok message.frame)) :
    receivePlain keep size error marker (observations.map Observation.message) =
      .ok ((incoming observations).filter (keep marker)) := by
  rw [receivePlain, raiseIf, if_neg (not_not.mpr hm), py_ok_bind, captureFrames_ok]

/-! The comparison with what is expected. -/

/-- `{name: frames for name in hosts}`. -/
def captureAll {Host : Type} (hosts : List Host) (receive : Host → Py (List (List Byte))) :
    Py (Received Host) :=
  hosts.mapM fun host => do return (host, ← receive host)

theorem captureAll_ok {Host : Type} {hosts : List Host}
    {receive : Host → Py (List (List Byte))} {frames : Host → List (List Byte)}
    (hr : ∀ host ∈ hosts, receive host = .ok (frames host)) :
    captureAll hosts receive = .ok (hosts.map fun host => (host, frames host)) := by
  refine mapM_ok fun host hhost => ?_
  rw [hr host hhost]
  rfl

/-- `received[name]` of what every host has captured. -/
theorem lookup_captured {Host : Type} [DecidableEq Host] {hosts : List Host}
    (frames : Host → List (List Byte)) {host : Host} (h : host ∈ hosts) :
    (hosts.map fun host => (host, frames host)).lookup host = some (frames host) := by
  induction hosts with
  | nil => cases h
  | cons head hosts ih =>
    rw [List.map_cons, List.lookup_cons]
    by_cases he : host = head
    · rw [he]
      simp
    · rw [beq_false_of_ne he]
      exact ih ((List.mem_cons.mp h).resolve_left he)

/-- Every host of the topology has replied, and no other, and at each the frames are the
expected ones, in any order. -/
def checkHosts {Host : Type} [DecidableEq Host] (hosts : List Host) (missing : String)
    (name : Host → String) (expected : Host → Py (List (List Byte))) (received : Received Host) :
    Py Unit := do
  raiseIf (¬ (received.map Prod.fst ⊆ hosts ∧ hosts ⊆ received.map Prod.fst))
    (.runtimeError missing)
  received.forM fun item => do
    let wanted ← expected item.1
    raiseIf (¬ item.2.Perm wanted)
      (.runtimeError s!"{name item.1} did not receive exactly the expected complete frames")

section
variable {Host : Type} [DecidableEq Host] {hosts : List Host} {missing : String}
  {name : Host → String} {expected : Host → Py (List (List Byte))}
  {wanted : Host → List (List Byte)} {received : Received Host}

theorem checkHosts_ok (hw : ∀ host ∈ hosts, expected host = .ok (wanted host)) :
    checkHosts hosts missing name expected received = .ok () ↔
      (∀ host, host ∈ received.map Prod.fst ↔ host ∈ hosts) ∧
        ∀ item ∈ received, item.2.Perm (wanted item.1) := by
  rw [checkHosts, raiseIf_bind_ok, not_not, forM_ok]
  have hkeys : (received.map Prod.fst ⊆ hosts ∧ hosts ⊆ received.map Prod.fst) ↔
      ∀ host, host ∈ received.map Prod.fst ↔ host ∈ hosts :=
    ⟨fun h host => ⟨fun hh => h.1 hh, fun hh => h.2 hh⟩,
      fun h => ⟨fun host => (h host).mp, fun host => (h host).mpr⟩⟩
  rw [hkeys]
  refine and_congr_right fun hall => forall₂_congr fun item hitem => ?_
  have hmem : item.1 ∈ hosts := (hall item.1).mp (List.mem_map_of_mem hitem)
  rw [hw item.1 hmem, py_ok_bind, raiseIf_ok, not_not]

theorem checkHosts_captured (hw : ∀ host ∈ hosts, expected host = .ok (wanted host))
    {frames : Host → List (List Byte)} :
    checkHosts hosts missing name expected (hosts.map fun host => (host, frames host)) = .ok () ↔
      ∀ host ∈ hosts, (frames host).Perm (wanted host) := by
  rw [checkHosts_ok hw]
  simp only [List.map_map, Function.comp_def, List.map_id', List.forall_mem_map, implies_true,
    true_and]

end

/-! The senders. -/

/-- `send_frames`, which confirms the number of frames it has sent. -/
def sendFrames (frames : List (List Byte)) : Py ℕ := do
  raiseIf (frames = []) (.valueError "manifest must contain frame hex strings")
  raiseIf ((frames.any fun frame => frame.length < 14) = true)
    (.valueError "manifest must contain complete Ethernet headers")
  return frames.length

theorem sendFrames_ok {frames : List (List Byte)} (hne : frames ≠ [])
    (hl : ∀ frame ∈ frames, 14 ≤ frame.length) : sendFrames frames = .ok frames.length := by
  have hany : ¬ (frames.any fun frame => frame.length < 14) = true := by simpa using hl
  rw [sendFrames, raiseIf, if_neg hne, py_ok_bind, raiseIf, if_neg hany]
  rfl

/-- `send_frames` of the tests that make one check of the manifest. -/
def sendManifest (frames : List (List Byte)) : Py ℕ := do
  raiseIf (frames = [] ∨ (frames.any fun frame => frame.length < 14) = true)
    (.valueError "manifest must contain Ethernet frames")
  return frames.length

theorem sendManifest_ok {frames : List (List Byte)} (hne : frames ≠ [])
    (hl : ∀ frame ∈ frames, 14 ≤ frame.length) : sendManifest frames = .ok frames.length := by
  have hgood : ¬ (frames = [] ∨ (frames.any fun frame => frame.length < 14) = true) := by
    rw [not_or]
    exact ⟨hne, by simpa using hl⟩
  rw [sendManifest, raiseIf_pass hgood]
  rfl

/-- `run_probes`: every host that has frames sends them, and what all hosts have captured
is checked. -/
def runProbes {Host : Type} (hosts : List Host) (framesFrom : Host → List (List Byte))
    (receive : Host → Py (List (List Byte))) (check : Received Host → Py Unit) : Py Unit := do
  hosts.forM fun host =>
    if framesFrom host = [] then return ()
    else do
      let sent ← sendFrames (framesFrom host)
      raiseIf (sent ≠ (framesFrom host).length)
        (.runtimeError "sender did not confirm all test frames")
  let captured ← captureAll hosts receive
  check captured

theorem runProbes_eq {Host : Type} {hosts : List Host} {framesFrom : Host → List (List Byte)}
    {receive : Host → Py (List (List Byte))} {check : Received Host → Py Unit}
    {frames : Host → List (List Byte)}
    (hl : ∀ host ∈ hosts, ∀ frame ∈ framesFrom host, 14 ≤ frame.length)
    (hr : ∀ host ∈ hosts, receive host = .ok (frames host)) :
    runProbes hosts framesFrom receive check =
      check (hosts.map fun host => (host, frames host)) := by
  have hsend : (hosts.forM fun host =>
      if framesFrom host = [] then return ()
      else do
        let sent ← sendFrames (framesFrom host)
        raiseIf (sent ≠ (framesFrom host).length)
          (.runtimeError "sender did not confirm all test frames")) = (.ok () : Py Unit) := by
    refine forM_ok.mpr fun host hhost => ?_
    by_cases hnil : framesFrom host = []
    · rw [if_pos hnil]
      rfl
    · rw [if_neg hnil, sendFrames_ok hnil (hl host hhost), py_ok_bind, raiseIf,
        if_neg (not_not.mpr rfl)]
  rw [runProbes, hsend, py_ok_bind, captureAll_ok hr, py_ok_bind]

end P4Cases
