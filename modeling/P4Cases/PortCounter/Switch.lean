import P4Cases.Frames.Layer2

/-! The two programs that count packets by port, one with an indirect counter and one
with the direct counter of its table. -/
namespace P4Cases.PortCounter
open Wire P4 Layer2

def forward (port : Port) (sm : Metadata) : Metadata := { sm with egressSpec := port }

/-- The state is the indexes `port_counter.count` was called with. -/
def indirectIngress (counts : List (BitVec 32)) (sm : Metadata) : List (BitVec 32) × Metadata :=
  if sm.parserError ≠ none then (counts, markToDrop sm)
  else if sm.ingressPort = 1 then (counts ++ [sm.ingressPort.setWidth 32], forward 2 sm)
  else if sm.ingressPort = 2 then (counts ++ [sm.ingressPort.setWidth 32], forward 1 sm)
  else (counts, markToDrop sm)

def indirect : V1Switch ErrorCode Headers (List (BitVec 32)) where
  initial := {}
  parser := myParser
  verifyChecksum _ := false
  ingress counts hdr sm :=
    let out := indirectIngress counts sm
    (out.1, hdr, out.2)
  egress hdr sm := (hdr, sm)
  computeChecksum hdr := hdr
  deparser := myDeparser

inductive CountAction where
  | forward (port : Port)
  | drop
  deriving DecidableEq

/-- The state is the keys of the entries that were hit. -/
def directIngress (countTable : Table Port CountAction) (hits : List Port) (sm : Metadata) :
    List Port × Metadata :=
  if sm.parserError ≠ none then (hits, markToDrop sm)
  else
    match countTable.lookup sm.ingressPort with
    | some (.forward port) => (hits ++ [sm.ingressPort], forward port sm)
    | some .drop => (hits ++ [sm.ingressPort], markToDrop sm)
    | none => (hits, markToDrop sm)

def direct (countTable : Table Port CountAction) : V1Switch ErrorCode Headers (List Port) where
  initial := {}
  parser := myParser
  verifyChecksum _ := false
  ingress hits hdr sm :=
    let out := directIngress countTable hits sm
    (out.1, hdr, out.2)
  egress hdr sm := (hdr, sm)
  computeChecksum hdr := hdr
  deparser := myDeparser

/-- The entries `prepareCounters` installs. -/
def countEntries : Table Port CountAction :=
  [1, 2].map fun port => .exact (BitVec.ofNat 9 port) (.forward (BitVec.ofNat 9 (3 - port)))

/-! The counters. -/

structure Count where
  packets : ℕ
  bytes : ℕ
  deriving DecidableEq, Repr

/-- Counters by index, or by the key of the entry they belong to. -/
abbrev Counters (κ : Type) := κ → Count

section
variable {κ : Type} [DecidableEq κ]

/-- One packet, and its bytes. -/
def count (counters : Counters κ) (key : κ) (length : ℕ) : Counters κ :=
  Function.update counters key ⟨(counters key).packets + 1, (counters key).bytes + length⟩

variable (sw : V1Switch ErrorCode Headers (List κ)) (qdepth : Port → BitVec 19)

/-- One arrival: what was counted for it advances by the packet. -/
def arrive (counters : Counters κ) (arrival : Port × List Byte) :
    Counters κ × List (Port × List Byte) :=
  let out := sw.process (fun _ => []) qdepth [] arrival.1 arrival.2
  (out.1.foldl (fun counters key => count counters key arrival.2.length) counters, out.2)

def run (counters : Counters κ) : List (Port × List Byte) → Counters κ × List (Port × List Byte)
  | [] => (counters, [])
  | arrival :: arrivals =>
      let first := arrive sw qdepth counters arrival
      let others := run first.1 arrivals
      (others.1, first.2 ++ others.2)

end

def zeroCounters {κ : Type} : Counters κ := fun _ => ⟨0, 0⟩

/-! What both programs do with an arrival. -/

/-- The copies sent. -/
def crossed (arrival : Port × List Byte) : List (Port × List Byte) :=
  if arrival.2.length < 14 then []
  else if arrival.1 = 1 then [(2, arrival.2)]
  else if arrival.1 = 2 then [(1, arrival.2)]
  else []

/-- The ports counted. -/
def counted (arrival : Port × List Byte) : List Port :=
  if 14 ≤ arrival.2.length ∧ (arrival.1 = 1 ∨ arrival.1 = 2) then [arrival.1] else []

/-- A program that crosses frames between the two ports, and counts them under `key`. -/
def Crosses {κ : Type} (key : Port → κ) (sw : V1Switch ErrorCode Headers (List κ)) : Prop :=
  ∀ qdepth arrival, sw.process (fun _ => []) qdepth [] arrival.1 arrival.2 =
    ((counted arrival).map key, crossed arrival)

theorem indirect_plain : Plain indirect :=
  ⟨rfl, rfl, fun _ => rfl, fun _ _ => rfl, fun _ => rfl, rfl⟩

theorem direct_plain (countTable : Table Port CountAction) : Plain (direct countTable) :=
  ⟨rfl, rfl, fun _ => rfl, fun _ _ => rfl, fun _ => rfl, rfl⟩

/-- What a program does with a complete frame, by the port it came in on. -/
theorem crosses_of_ports {κ : Type} {key : Port → κ} {sw : V1Switch ErrorCode Headers (List κ)}
    (hp : Plain sw)
    (hdrop : ∀ hdr (sm : Metadata), sm.parserError ≠ none →
      sw.ingress [] hdr sm = ([], hdr, markToDrop sm))
    (h₁ : ∀ hdr (sm : Metadata), sm.parserError = none → sm.ingressPort = 1 →
      sw.ingress [] hdr sm = ([key 1], hdr, forward 2 sm))
    (h₂ : ∀ hdr (sm : Metadata), sm.parserError = none → sm.ingressPort = 2 →
      sw.ingress [] hdr sm = ([key 2], hdr, forward 1 sm))
    (hother : ∀ hdr (sm : Metadata), sm.parserError = none → sm.ingressPort ≠ 1 →
      sm.ingressPort ≠ 2 → sw.ingress [] hdr sm = ([], hdr, markToDrop sm)) :
    Crosses key sw := by
  intro qdepth arrival
  obtain ⟨port, frame⟩ := arrival
  by_cases hf : frame.length < 14
  · have hs : ¬ (14 ≤ frame.length ∧ (port = 1 ∨ port = 2)) := by omega
    rw [crossed, counted, if_pos hf, if_neg hs]
    exact hp.process_short _ qdepth hf hdrop
  · obtain ⟨eth, payload, rfl⟩ : ∃ (e : Ethernet) (p : _), frame = Header.encode e ++ p :=
      Header.exists_encode_append (by simpa using hf)
    have hlen : 14 ≤ (Header.encode eth ++ payload).length := by omega
    simp only [crossed, counted, if_neg hf, hlen, true_and]
    by_cases hp₁ : port = 1
    · subst hp₁
      rw [hp.process_complete _ qdepth (h₁ _ _ rfl rfl)]
      rfl
    by_cases hp₂ : port = 2
    · subst hp₂
      rw [hp.process_complete _ qdepth (h₂ _ _ rfl rfl)]
      rfl
    · have hnone : ¬ (port = 1 ∨ port = 2) := fun h => h.elim hp₁ hp₂
      rw [hp.process_complete _ qdepth (hother _ _ rfl hp₁ hp₂), V1Switch.copies_markToDrop,
        if_neg hnone, if_neg hp₁, if_neg hp₂]
      rfl

theorem indirect_crosses : Crosses (BitVec.setWidth 32) indirect := by
  have hingress : ∀ hdr sm, indirect.ingress [] hdr sm =
      ((indirectIngress [] sm).1, hdr, (indirectIngress [] sm).2) := fun _ _ => rfl
  apply crosses_of_ports indirect_plain
  · intro hdr sm he
    rw [hingress, indirectIngress, if_pos he]
  · intro hdr sm he hp
    rw [hingress, indirectIngress, if_neg (not_not.mpr he), if_pos hp, hp]
    rfl
  · intro hdr sm he hp
    have h₁ : sm.ingressPort ≠ 1 := by
      rw [hp]
      decide
    rw [hingress, indirectIngress, if_neg (not_not.mpr he), if_neg h₁, if_pos hp, hp]
    rfl
  · intro hdr sm he h₁ h₂
    rw [hingress, indirectIngress, if_neg (not_not.mpr he), if_neg h₁, if_neg h₂]

section
variable (countTable : Table.Installed countEntries)

theorem lookup_count (port : ℕ) (h₁ : 1 ≤ port) (h₂ : port ≤ 2) :
    countTable.table.lookup (BitVec.ofNat 9 port) =
      some (.forward (BitVec.ofNat 9 (3 - port))) := by
  obtain ⟨table, hperm⟩ := countTable
  have hentries : countEntries = (List.range' 1 2).map fun n =>
      .exact (BitVec.ofNat 9 n) (.forward (BitVec.ofNat 9 (3 - n))) := rfl
  rw [hentries] at hperm
  exact lookup_numbered port_inj (show 2 < 256 by omega) ⟨table, hperm⟩ h₁ h₂

theorem lookup_count_none {port : Port} (h₁ : port ≠ 1) (h₂ : port ≠ 2) :
    countTable.table.lookup port = none := by
  apply countTable.lookup_eq_none
  intro e he
  obtain ⟨n, hn, rfl⟩ := List.mem_map.mp he
  have hports : n = 1 ∨ n = 2 := by simpa using hn
  rcases hports with rfl | rfl
  · simpa using h₁
  · simpa using h₂

theorem direct_crosses : Crosses id (direct countTable.table) := by
  have hingress : ∀ hdr sm, (direct countTable.table).ingress [] hdr sm =
      ((directIngress countTable.table [] sm).1, hdr,
        (directIngress countTable.table [] sm).2) := fun _ _ => rfl
  apply crosses_of_ports (direct_plain countTable.table)
  · intro hdr sm he
    rw [hingress, directIngress, if_pos he]
  · intro hdr sm he hp
    have hl : countTable.table.lookup 1 = _ := lookup_count countTable 1 (by omega) (by omega)
    rw [hingress, directIngress, if_neg (not_not.mpr he), hp, hl]
    rfl
  · intro hdr sm he hp
    have hl : countTable.table.lookup 2 = _ := lookup_count countTable 2 (by omega) (by omega)
    rw [hingress, directIngress, if_neg (not_not.mpr he), hp, hl]
    rfl
  · intro hdr sm he h₁ h₂
    rw [hingress, directIngress, if_neg (not_not.mpr he), lookup_count_none countTable h₁ h₂]

end

/-! Runs. -/

/-- The frames that came in on a port, as far as they have an Ethernet header. -/
def arrived (port : Port) (arrivals : List (Port × List Byte)) : List (List Byte) :=
  (arrivals.filter fun arrival => arrival.1 = port ∧ 14 ≤ arrival.2.length).map Prod.snd

/-- Their number and total length. -/
def tally (frames : List (List Byte)) : Count := ⟨frames.length, (frames.map List.length).sum⟩

section
variable {κ : Type} [DecidableEq κ] {key : Port → κ} {sw : V1Switch ErrorCode Headers (List κ)}
  (hc : Crosses key sw) (qdepth : Port → BitVec 19)
include hc

/-- One arrival: the counter of its port moves, and no other. -/
theorem Crosses.arrive_eq (counters : Counters κ) (port : Port) (frame : List Byte) :
    arrive sw qdepth counters (port, frame) =
      (if 14 ≤ frame.length ∧ (port = 1 ∨ port = 2) then count counters (key port) frame.length
        else counters, crossed (port, frame)) := by
  have hp := hc qdepth (port, frame)
  rw [arrive, hp, counted]
  split_ifs <;> rfl

/-- What was sent does not depend on how packets are counted. -/
theorem Crosses.run_sent (counters : Counters κ) (arrivals : List (Port × List Byte)) :
    (run sw qdepth counters arrivals).2 = arrivals.flatMap crossed := by
  induction arrivals generalizing counters with
  | nil => rfl
  | cons arrival arrivals ih =>
    have hstep := hc.arrive_eq qdepth counters arrival.1 arrival.2
    rw [List.flatMap_cons, run]
    dsimp only
    rw [ih, hstep]

/-- A counter holds the number and the length of the frames of its port. -/
theorem Crosses.run_count (counters : Counters κ) (arrivals : List (Port × List Byte))
    {port : Port} (hport : port = 1 ∨ port = 2) (hkey : ∀ p, key p = key port → p = port) :
    (run sw qdepth counters arrivals).1 (key port) =
      ⟨(counters (key port)).packets + (tally (arrived port arrivals)).packets,
        (counters (key port)).bytes + (tally (arrived port arrivals)).bytes⟩ := by
  induction arrivals generalizing counters with
  | nil => rfl
  | cons arrival arrivals ih =>
    obtain ⟨p, frame⟩ := arrival
    have hstep := hc.arrive_eq qdepth counters p frame
    rw [run]
    dsimp only
    rw [ih, hstep]
    dsimp only
    by_cases hp : p = port ∧ 14 ≤ frame.length
    · obtain ⟨rfl, hl⟩ := hp
      have hkeep : arrived p ((p, frame) :: arrivals) = frame :: arrived p arrivals := by
        unfold arrived
        rw [List.filter_cons_of_pos (by simpa using hl), List.map_cons]
      rw [if_pos ⟨hl, hport⟩, hkeep]
      simp only [count, Function.update_self, tally, List.map_cons, List.length_cons,
        List.sum_cons, Count.mk.injEq]
      omega
    · have hskip : arrived port ((p, frame) :: arrivals) = arrived port arrivals := by
        rw [arrived, List.filter_cons_of_neg (by simpa using hp), arrived]
      have hother : ∀ length, (count counters (key p) length) (key port) = counters (key port) ∨
          p = port := by
        intro length
        by_cases he : p = port
        · exact Or.inr he
        · exact Or.inl (Function.update_of_ne (fun h => he (hkey p h.symm)) _ _)
      rw [hskip]
      split_ifs with hs
      · rcases hother frame.length with h | h
        · rw [h]
        · exact absurd ⟨h, hs.1⟩ hp
      · rfl

end

end P4Cases.PortCounter
