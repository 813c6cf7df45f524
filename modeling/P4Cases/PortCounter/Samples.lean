import P4Cases.PortCounter.Switch
import Mathlib.Data.List.AList
import Mathlib.Data.Nat.Log

/-! Reading the counters: the controller's samples, the snapshots the test takes of
them, and the check of two snapshots against the frames sent. -/
namespace P4Cases.PortCounter
open Wire P4 Layer2

structure Sample where
  packets : ℤ
  bytes : ℤ
  deriving DecidableEq, Repr

/-- `counter.Data`. -/
structure Data where
  index : ℤ
  packets : ℤ
  bytes : ℤ
  deriving DecidableEq, Repr

def indirectSample (entries : List (Option Data)) (port : ℤ) : Except String Sample :=
  match entries with
  | [some entry] =>
      if entry.index ≠ port then .error s!"expected one counter entry for port {port}"
      else if entry.packets < 0 ∨ entry.bytes < 0 then
        .error s!"negative counter values for port {port}"
      else .ok ⟨entry.packets, entry.bytes⟩
  | _ => .error s!"expected one counter entry for port {port}"

/-! The messages of a direct counter read. A pointer may be nil. -/

/-- A match, and its value when it is an exact one. -/
structure FieldMatch where
  fieldId : ℕ
  value : Option (List Byte)
  deriving DecidableEq, Repr

structure TableEntry where
  tableId : ℕ
  fieldMatches : List (Option FieldMatch)
  isDefaultAction : Bool
  deriving DecidableEq, Repr

structure CounterData where
  packetCount : ℤ
  byteCount : ℤ
  deriving DecidableEq, Repr

structure DirectCounterEntry where
  tableEntry : Option TableEntry
  data : Option CounterData
  deriving DecidableEq, Repr

/-- The field and the value of an entry that has one match, an exact one. -/
def TableEntry.exactMatch (entry : TableEntry) : Option (ℕ × List Byte) :=
  match entry.fieldMatches with
  | [some fieldMatch] => fieldMatch.value.map fun value => (fieldMatch.fieldId, value)
  | _ => none

/-- The library's codec of integers, as far as the controller relies on it. -/
structure Codec where
  encodeUint : ℕ → ℕ → List Byte
  decodeUint : List Byte → Except String ℕ
  decode_encode : ∀ value width, width ≤ 64 → value < 2 ^ width →
    decodeUint (encodeUint value width) = .ok value

/-- The entities are given as `GetDirectCounterEntry` returns them. -/
def directSample (codec : Codec) (entities : List (Option DirectCounterEntry))
    (key : Option TableEntry) : Except String Sample :=
  match entities, key.bind fun key => key.exactMatch.map fun field => (key.tableId, field) with
  | [entry], some (tableId, fieldId, value) =>
      match entry with
      | some ⟨some table, some data⟩ =>
          match table.exactMatch with
          | some (fieldId', value') =>
              if table.tableId ≠ tableId ∨ table.isDefaultAction ∨ fieldId' ≠ fieldId then
                .error "direct counter reply does not match the requested table entry"
              else do
                let want ← codec.decodeUint value
                match codec.decodeUint value' with
                | .ok actual =>
                    if actual ≠ want ∨ data.packetCount < 0 ∨ data.byteCount < 0 then
                      .error "invalid direct counter reply"
                    else .ok ⟨data.packetCount, data.byteCount⟩
                | .error _ => .error "invalid direct counter reply"
          | none => .error "direct counter reply does not match the requested table entry"
      | _ => .error "direct counter reply does not match the requested table entry"
  | _, _ => .error "expected one direct counter entry"

/-! The readers that `prepareCounters` returns. -/

/-- What the target answers for an index of the indirect counter. -/
abbrev IndirectReply := Counters (BitVec 32) → ℤ → List (Option Data)

/-- What the target answers for the direct counter of an entry. -/
abbrev DirectReply := Counters Port → TableEntry → List (Option DirectCounterEntry)

/-- The answer for a port is one entry, with its index and what was counted there. -/
def AnswersIndirect (reply : IndirectReply) : Prop :=
  ∀ counters port, port = 1 ∨ port = 2 →
    let value := counters (BitVec.ofInt 32 port)
    reply counters port = [some ⟨port, value.packets, value.bytes⟩]

def readIndirect (reply : IndirectReply) (counters : Counters (BitVec 32)) (port : ℤ) :
    Except String Sample :=
  indirectSample (reply counters port) port

section
variable (codec : Codec) (tableId fieldId : ℕ)

def counterKey (value : List Byte) : TableEntry := ⟨tableId, [some ⟨fieldId, some value⟩], false⟩

/-- The key kept for a port. -/
def keys (port : ℤ) : Option TableEntry :=
  if port = 1 ∨ port = 2 then
    some (counterKey tableId fieldId (codec.encodeUint port.toNat 9))
  else none

/-- The answer for the entry of a port is that entry, whichever encoding of the port it
comes with, and what was counted there. -/
def AnswersDirect (reply : DirectReply) : Prop :=
  ∀ counters port key, port = 1 ∨ port = 2 → keys codec tableId fieldId port = some key →
    let value := counters (BitVec.ofInt 9 port)
    ∃ bytes, codec.decodeUint bytes = .ok port.toNat ∧ reply counters key =
      [some ⟨some (counterKey tableId fieldId bytes), some ⟨value.packets, value.bytes⟩⟩]

def readDirect (reply : DirectReply) (counters : Counters Port) (port : ℤ) :
    Except String Sample :=
  match keys codec tableId fieldId port with
  | none => .error s!"unsupported ingress port {port}"
  | some key => directSample codec (reply counters key) (some key)

end

/-! Snapshots. Of a Python value only what the check looks at is kept. -/

inductive Number where
  | int (n : ℤ)
  | other
  deriving DecidableEq

inductive PortSample where
  | dict (fields : AList fun _ : String => Number)
  | other

inductive Snapshot where
  | dict (ports : AList fun _ : ℤ => PortSample)
  | other

def Number.Valid : Number → Prop
  | int n => 0 ≤ n
  | other => False

def PortSample.Valid : PortSample → Prop
  | dict fields => fields.keys.toFinset = {"packets", "bytes"} ∧ ∀ e ∈ fields.entries, e.2.Valid
  | other => False

def Snapshot.Valid : Snapshot → Prop
  | dict ports => ports.keys.toFinset = {1, 2} ∧ ∀ e ∈ ports.entries, e.2.Valid
  | other => False

instance : DecidablePred Number.Valid
  | .int n => inferInstanceAs (Decidable (0 ≤ n))
  | .other => inferInstanceAs (Decidable False)

instance : DecidablePred PortSample.Valid
  | .dict _ => inferInstanceAs (Decidable (_ ∧ _))
  | .other => inferInstanceAs (Decidable False)

instance : DecidablePred Snapshot.Valid
  | .dict _ => inferInstanceAs (Decidable (_ ∧ _))
  | .other => inferInstanceAs (Decidable False)

/-- `snapshot[port][field]`. -/
def Snapshot.get (snapshot : Snapshot) (port : ℤ) (field : String) : Py ℤ :=
  match snapshot with
  | .other => .error .keyError
  | .dict ports =>
      match ports.lookup port with
      | some (.dict fields) =>
          match fields.lookup field with
          | some (.int n) => .ok n
          | _ => .error .keyError
      | _ => .error .keyError

def checkField (before after : Snapshot) (port : ℤ) (field : String) (wanted : ℕ) : Py Unit := do
  let actual := (← after.get port field) - (← before.get port field)
  raiseIf (actual ≠ wanted)
    (.runtimeError s!"port {port} {field} delta is {actual}, expected {wanted}")

def checkCounters (before after : Snapshot) (frames : ℤ → Option (List (List Byte))) :
    Py Unit := do
  [before, after].forM fun snapshot => raiseIf (¬ snapshot.Valid)
    (.runtimeError "counter snapshots must contain complete nonnegative samples")
  [1, 2].forM fun port => do
    let sent := (frames port).getD []
    checkField before after port "packets" sent.length
    checkField before after port "bytes" (sent.map List.length).sum

/-- One line of a dump, as the test reads it back. -/
def portSample (value : Sample) : PortSample :=
  .dict (((∅ : AList _).insert "packets" (.int value.packets)).insert "bytes" (.int value.bytes))

/-- The snapshot of two samples. -/
def snapshotOf (value₁ value₂ : Sample) : Snapshot :=
  .dict (((∅ : AList _).insert 1 (portSample value₁)).insert 2 (portSample value₂))

/-- `dump`: both ports are read, and no line is missing. -/
def dump (readCounter : ℤ → Except String Sample) : Except String Snapshot := do
  let value₁ ← readCounter 1
  let value₂ ← readCounter 2
  return snapshotOf value₁ value₂

/-! What the readers return. -/

/-- A counter's value as a sample. -/
def Count.sample (value : Count) : Sample := ⟨value.packets, value.bytes⟩

theorem readIndirect_eq {reply : IndirectReply} (hreply : AnswersIndirect reply)
    (counters : Counters (BitVec 32)) {port : ℤ} (hp : port = 1 ∨ port = 2) :
    readIndirect reply counters port = .ok (counters (BitVec.ofInt 32 port)).sample := by
  have hn : ¬ (((counters (BitVec.ofInt 32 port)).packets : ℤ) < 0 ∨
      ((counters (BitVec.ofInt 32 port)).bytes : ℤ) < 0) := by omega
  rw [readIndirect, hreply counters port hp]
  unfold indirectSample
  dsimp only
  rw [if_neg (not_not.mpr rfl), if_neg hn]
  rfl

/-- A reply for the entry that was asked for is accepted. -/
theorem readDirect_eq {codec : Codec} {tableId fieldId : ℕ} {reply : DirectReply}
    (hreply : AnswersDirect codec tableId fieldId reply) (counters : Counters Port) {port : ℤ}
    (hp : port = 1 ∨ port = 2) : readDirect codec tableId fieldId reply counters port =
      .ok (counters (BitVec.ofInt 9 port)).sample := by
  have hd : codec.decodeUint (codec.encodeUint port.toNat 9) = .ok port.toNat :=
    codec.decode_encode port.toNat 9 (by omega) (by omega)
  have hn : ¬ (port.toNat ≠ port.toNat ∨ ((counters (BitVec.ofInt 9 port)).packets : ℤ) < 0 ∨
      ((counters (BitVec.ofInt 9 port)).bytes : ℤ) < 0) := by omega
  have hm : ¬ (tableId ≠ tableId ∨ false = true ∨ fieldId ≠ fieldId) := by simp
  have hkey : keys codec tableId fieldId port =
      some (counterKey tableId fieldId (codec.encodeUint port.toNat 9)) := if_pos hp
  obtain ⟨bytes, hbytes, hanswer⟩ := hreply counters port _ hp hkey
  rw [readDirect, hkey]
  dsimp only
  rw [hanswer]
  unfold directSample counterKey
  simp only [Option.bind_some, TableEntry.exactMatch, Option.map_some, if_neg hm, hd, hbytes]
  show (if _ then _ else _ : Except String Sample) = _
  rw [if_neg hn]
  rfl

/-! What the check accepts. -/

/-- A dictionary with two keys. -/
theorem pair_entries {κ α : Type} [DecidableEq κ] {a b : κ} (h : a ≠ b) (x y : α) :
    (((∅ : AList fun _ : κ => α).insert a x).insert b y).entries = [⟨b, y⟩, ⟨a, x⟩] := by
  have hb : b ∉ (∅ : AList fun _ : κ => α).insert a x := by
    rw [AList.mem_insert]
    exact fun hb => hb.elim (fun he => h he.symm) (AList.notMem_empty b)
  rw [AList.entries_insert_of_notMem hb, AList.entries_insert_of_notMem (AList.notMem_empty a)]
  rfl

theorem portSample_valid {value : Sample} (h₁ : 0 ≤ value.packets) (h₂ : 0 ≤ value.bytes) :
    (portSample value).Valid := by
  have he := pair_entries (show "packets" ≠ "bytes" by decide) (Number.int value.packets)
    (Number.int value.bytes)
  constructor
  · rw [AList.keys, he]
    exact Finset.pair_comm "bytes" "packets"
  · intro e hmem
    rw [he] at hmem
    rcases List.mem_pair.mp hmem with rfl | rfl
    · exact h₂
    · exact h₁

theorem snapshotOf_valid (value₁ value₂ : Count) :
    (snapshotOf value₁.sample value₂.sample).Valid := by
  have hs : ∀ value : Count, (portSample value.sample).Valid := fun value =>
    portSample_valid (Int.natCast_nonneg _) (Int.natCast_nonneg _)
  have he := pair_entries (show (1 : ℤ) ≠ 2 by decide) (portSample value₁.sample)
    (portSample value₂.sample)
  constructor
  · rw [AList.keys, he]
    exact Finset.pair_comm (2 : ℤ) 1
  · intro e hmem
    rw [he] at hmem
    rcases List.mem_pair.mp hmem with rfl | rfl
    · exact hs value₂
    · exact hs value₁

theorem portSample_lookup (value : Sample) :
    ∃ fields, portSample value = .dict fields ∧
      fields.lookup "packets" = some (.int value.packets) ∧
      fields.lookup "bytes" = some (.int value.bytes) := by
  refine ⟨_, rfl, ?_, AList.lookup_insert _⟩
  rw [AList.lookup_insert_ne (by decide), AList.lookup_insert]

theorem snapshotOf_lookup (value₁ value₂ : Sample) :
    ∃ ports, snapshotOf value₁ value₂ = .dict ports ∧
      ports.lookup 1 = some (portSample value₁) ∧ ports.lookup 2 = some (portSample value₂) := by
  refine ⟨_, rfl, ?_, AList.lookup_insert _⟩
  rw [AList.lookup_insert_ne (by decide), AList.lookup_insert]

/-- Looking up a port of a snapshot whose sample is known. -/
theorem get_of_lookup {snapshot : Snapshot} {ports : AList fun _ : ℤ => PortSample} {port : ℤ}
    {value : Sample} (hs : snapshot = .dict ports)
    (hp : ports.lookup port = some (portSample value)) :
    snapshot.get port "packets" = .ok value.packets ∧
      snapshot.get port "bytes" = .ok value.bytes := by
  obtain ⟨fields, hf, hpackets, hbytes⟩ := portSample_lookup value
  rw [hf] at hp
  subst hs
  unfold Snapshot.get
  simp only [hp, hpackets, hbytes, and_self]

/-- One port of the check: both counters moved by what the frames add up to. -/
theorem checkPort_ok {before after : Snapshot} {port : ℤ} {value value' : Count}
    (hb : before.get port "packets" = .ok value.sample.packets ∧
      before.get port "bytes" = .ok value.sample.bytes)
    (ha : after.get port "packets" = .ok value'.sample.packets ∧
      after.get port "bytes" = .ok value'.sample.bytes) (sent : List (List Byte)) :
    (do
      checkField before after port "packets" sent.length
      checkField before after port "bytes" (sent.map List.length).sum) = .ok () ↔
      value' = ⟨value.packets + (tally sent).packets, value.bytes + (tally sent).bytes⟩ := by
  obtain ⟨packets, bytes⟩ := value
  obtain ⟨packets', bytes'⟩ := value'
  unfold checkField
  rw [hb.1, hb.2, ha.1, ha.2]
  simp only [py_ok_bind, raiseIf_bind_ok, raiseIf_ok, Count.sample, tally, Count.mk.injEq]
  omega

theorem checkCounters_ok (value value' : ℤ → Count) (frames : ℤ → Option (List (List Byte))) :
    checkCounters (snapshotOf (value 1).sample (value 2).sample)
        (snapshotOf (value' 1).sample (value' 2).sample) frames = .ok () ↔
      ∀ port, port = 1 ∨ port = 2 → value' port =
        ⟨(value port).packets + (tally ((frames port).getD [])).packets,
          (value port).bytes + (tally ((frames port).getD [])).bytes⟩ := by
  obtain ⟨ports, hs, h₁, h₂⟩ := snapshotOf_lookup (value 1).sample (value 2).sample
  obtain ⟨ports', hs', h₁', h₂'⟩ := snapshotOf_lookup (value' 1).sample (value' 2).sample
  have hvalid : ([snapshotOf (value 1).sample (value 2).sample,
      snapshotOf (value' 1).sample (value' 2).sample].forM fun snapshot =>
        raiseIf (¬ snapshot.Valid)
          (.runtimeError "counter snapshots must contain complete nonnegative samples")) =
      .ok () := by
    rw [forM_ok]
    intro snapshot hmem
    rw [raiseIf_ok, not_not]
    rcases List.mem_pair.mp hmem with rfl | rfl
    · exact snapshotOf_valid (value 1) (value 2)
    · exact snapshotOf_valid (value' 1) (value' 2)
  unfold checkCounters
  rw [hvalid, py_ok_bind, forM_ok]
  have hp₁ := checkPort_ok (get_of_lookup hs h₁) (get_of_lookup hs' h₁')
  have hp₂ := checkPort_ok (get_of_lookup hs h₂) (get_of_lookup hs' h₂')
  constructor
  · intro h port hport
    rcases hport with rfl | rfl
    · exact (hp₁ _).mp (h 1 (by simp))
    · exact (hp₂ _).mp (h 2 (by simp))
  · intro h port hmem
    rcases List.mem_pair.mp hmem with rfl | rfl
    · exact (hp₁ _).mpr (h 1 (Or.inl rfl))
    · exact (hp₂ _).mpr (h 2 (Or.inr rfl))

end P4Cases.PortCounter
