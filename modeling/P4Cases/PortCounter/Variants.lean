import P4Cases.PortCounter.Samples

/-! The two programs are interchangeable: they send the same frames, read out the same
counts, and the check of two snapshots is exact for both. -/
namespace P4Cases.PortCounter
open Wire P4 Layer2

/-- The frames that could cross from the port with the number `port`. -/
def arrivedAt (port : ℤ) (arrivals : List (Port × List Byte)) : List (List Byte) :=
  arrived (BitVec.ofInt 9 port) arrivals

/-- A counter read from a run that started with all counters at zero. -/
theorem Crosses.count_eq {κ : Type} [DecidableEq κ] {key : Port → κ}
    {sw : V1Switch ErrorCode Headers (List κ)} (hc : Crosses key sw) (qdepth : Port → BitVec 19)
    (hinj : Function.Injective key) (arrivals : List (Port × List Byte)) {port : ℤ}
    (hp : port = 1 ∨ port = 2) :
    (run sw qdepth zeroCounters arrivals).1 (key (BitVec.ofInt 9 port)) =
      tally (arrivedAt port arrivals) := by
  have hport : BitVec.ofInt 9 port = (1 : Port) ∨ BitVec.ofInt 9 port = (2 : Port) := by
    rcases hp with rfl | rfl
    · exact Or.inl rfl
    · exact Or.inr rfl
  rw [hc.run_count qdepth zeroCounters arrivals hport fun p h => hinj h]
  show Count.mk (0 + _) (0 + _) = _
  rw [Nat.zero_add, Nat.zero_add]
  rfl

theorem setWidth_injective : Function.Injective (BitVec.setWidth 32 : Port → BitVec 32) := by
  intro p q h
  have hn := congrArg BitVec.toNat h
  have hp := p.isLt
  have hq := q.isLt
  rw [BitVec.toNat_setWidth, BitVec.toNat_setWidth] at hn
  exact BitVec.eq_of_toNat_eq (by omega)

/-- A later reading counts what arrived before and what arrived since. -/
theorem tally_append (port : ℤ) (arrivals later : List (Port × List Byte)) :
    tally (arrivedAt port (arrivals ++ later)) =
      ⟨(tally (arrivedAt port arrivals)).packets + (tally (arrivedAt port later)).packets,
        (tally (arrivedAt port arrivals)).bytes + (tally (arrivedAt port later)).bytes⟩ := by
  simp only [tally, arrivedAt, arrived, List.filter_append, List.map_append, List.length_append,
    List.sum_append]

section
variable {indirectReply : IndirectReply} (hindirect : AnswersIndirect indirectReply)
  {codec : Codec} {tableId fieldId : ℕ} {directReply : DirectReply}
  (hdirect : AnswersDirect codec tableId fieldId directReply)
  (countTable : Table.Installed countEntries) (qdepth : Port → BitVec 19)
  (arrivals : List (Port × List Byte))

include hindirect in
theorem readIndirect_run {port : ℤ} (hp : port = 1 ∨ port = 2) :
    readIndirect indirectReply (run indirect qdepth zeroCounters arrivals).1 port =
      .ok (tally (arrivedAt port arrivals)).sample := by
  have hk : BitVec.ofInt 32 port = (BitVec.ofInt 9 port).setWidth 32 := by
    rcases hp with rfl | rfl <;> rfl
  rw [readIndirect_eq hindirect _ hp, hk,
    indirect_crosses.count_eq qdepth setWidth_injective arrivals hp]

include hdirect in
theorem readDirect_run {port : ℤ} (hp : port = 1 ∨ port = 2) :
    readDirect codec tableId fieldId directReply
        (run (direct countTable.table) qdepth zeroCounters arrivals).1 port =
      .ok (tally (arrivedAt port arrivals)).sample := by
  have hc := (direct_crosses countTable).count_eq qdepth Function.injective_id arrivals hp
  rw [readDirect_eq hdirect _ hp]
  exact congrArg (fun value => Except.ok (Count.sample value)) hc

end

/-- The snapshot of the counts of all frames that arrived. -/
def snapshotAfter (arrivals : List (Port × List Byte)) : Snapshot :=
  snapshotOf (tally (arrivedAt 1 arrivals)).sample (tally (arrivedAt 2 arrivals)).sample

theorem dump_eq {readCounter : ℤ → Except String Sample} {arrivals : List (Port × List Byte)}
    (h : ∀ port, port = 1 ∨ port = 2 →
      readCounter port = .ok (tally (arrivedAt port arrivals)).sample) :
    dump readCounter = .ok (snapshotAfter arrivals) := by
  unfold dump
  rw [h 1 (Or.inl rfl), h 2 (Or.inr rfl)]
  rfl

/-- Whatever arrives, the two variants send the same copies, their samples are the
number and the length of the frames that arrived and could cross, and two snapshots,
of either variant, are accepted for exactly the frames that crossed in between. The target is
assumed to answer a read of a counter with that counter. -/
theorem variants_interchangeable {indirectReply : IndirectReply}
    (hindirect : AnswersIndirect indirectReply) {codec : Codec} {tableId fieldId : ℕ}
    {directReply : DirectReply} (hdirect : AnswersDirect codec tableId fieldId directReply)
    (countTable : Table.Installed countEntries) (qdepth : Port → BitVec 19)
    (arrivals : List (Port × List Byte)) :
    ((run indirect qdepth zeroCounters arrivals).2 = arrivals.flatMap crossed ∧
      (run (direct countTable.table) qdepth zeroCounters arrivals).2 =
        arrivals.flatMap crossed) ∧
    (∀ port, port = 1 ∨ port = 2 →
      readIndirect indirectReply (run indirect qdepth zeroCounters arrivals).1 port =
        .ok (tally (arrivedAt port arrivals)).sample ∧
      readDirect codec tableId fieldId directReply
          (run (direct countTable.table) qdepth zeroCounters arrivals).1 port =
        .ok (tally (arrivedAt port arrivals)).sample) ∧
    ∀ later, ∃ before after,
      (dump (readIndirect indirectReply (run indirect qdepth zeroCounters arrivals).1) =
          .ok before ∧
        dump (readDirect codec tableId fieldId directReply
          (run (direct countTable.table) qdepth zeroCounters arrivals).1) = .ok before) ∧
      (dump (readIndirect indirectReply (run indirect qdepth zeroCounters (arrivals ++ later)).1) =
          .ok after ∧
        dump (readDirect codec tableId fieldId directReply
          (run (direct countTable.table) qdepth zeroCounters (arrivals ++ later)).1) =
          .ok after) ∧
      ∀ frames, checkCounters before after frames = .ok () ↔
        ∀ port, port = 1 ∨ port = 2 →
          tally ((frames port).getD []) = tally (arrivedAt port later) := by
  refine ⟨⟨?_, ?_⟩, ?_, ?_⟩
  · exact indirect_crosses.run_sent qdepth zeroCounters arrivals
  · exact (direct_crosses countTable).run_sent qdepth zeroCounters arrivals
  · intro port hp
    exact ⟨readIndirect_run hindirect qdepth arrivals hp,
      readDirect_run hdirect countTable qdepth arrivals hp⟩
  · intro later
    refine ⟨snapshotAfter arrivals, snapshotAfter (arrivals ++ later), ⟨?_, ?_⟩, ⟨?_, ?_⟩, ?_⟩
    · exact dump_eq fun port hp => readIndirect_run hindirect qdepth arrivals hp
    · exact dump_eq fun port hp =>
        readDirect_run hdirect countTable qdepth arrivals hp
    · exact dump_eq fun port hp => readIndirect_run hindirect qdepth _ hp
    · exact dump_eq fun port hp => readDirect_run hdirect countTable qdepth _ hp
    · intro frames
      have hcheck := checkCounters_ok (fun port => tally (arrivedAt port arrivals))
        (fun port => tally (arrivedAt port (arrivals ++ later))) frames
      refine hcheck.trans (forall_congr' fun port => imp_congr_right fun _ => ?_)
      rw [tally_append]
      simp only [tally, Count.mk.injEq]
      omega

/-- Minimal big-endian byte strings. -/
def minimalCodec : Codec where
  encodeUint value _ := beBytes (Nat.log 256 value + 1) value
  decodeUint bytes := .ok (beNat bytes)
  decode_encode value _ _ _ := by
    rw [beNat_beBytes_of_lt (Nat.lt_pow_succ_log_self (by omega) value)]

/-- A target that repeats the entry it was asked for, with the counter of its port. -/
def echo (counters : Counters Port) (key : TableEntry) : List (Option DirectCounterEntry) :=
  match key.exactMatch with
  | some (_, bytes) =>
      let value := counters (BitVec.ofNat 9 (beNat bytes))
      [some ⟨some key, some ⟨value.packets, value.bytes⟩⟩]
  | none => []

theorem echo_answers (tableId fieldId : ℕ) : AnswersDirect minimalCodec tableId fieldId echo := by
  rintro counters port key (rfl | rfl) hkey
  · obtain rfl := Option.some.inj hkey
    exact ⟨_, minimalCodec.decode_encode 1 9 (by decide) (by decide), rfl⟩
  · obtain rfl := Option.some.inj hkey
    exact ⟨_, minimalCodec.decode_encode 2 9 (by decide) (by decide), rfl⟩

theorem variants_interchangeable_one :
    readDirect minimalCodec 123 1 echo
      (run (direct countEntries) (fun _ => 0) zeroCounters [(1, List.replicate 14 0)]).1 1 =
        .ok ⟨1, 14⟩ :=
  ((@variants_interchangeable
    (fun counters port => [some ⟨port, (counters (BitVec.ofInt 32 port)).packets,
      (counters (BitVec.ofInt 32 port)).bytes⟩]) (fun _ _ _ => rfl) minimalCodec 123 1 echo
    (echo_answers 123 1) ⟨countEntries, .refl _⟩ (fun _ => 0)
    [(1, List.replicate 14 0)]).2.1 1 (Or.inl rfl)).2

end P4Cases.PortCounter
