import P4Cases.Telemetry.Packets

/-! The test's record and option codec writes and reads what the switch does. -/
namespace P4Cases.Telemetry
open Wire P4

/-- A record as the test's tuple. -/
def IntHeader.trace (r : IntHeader) : Trace :=
  ((r.switchId.toNat : ℤ), (r.queueDepth.toNat : ℤ), (r.outputPort.toNat : ℤ))

def Area.traces : Area → Option (List Trace)
  | .trace _ records => some (records.valid.map IntHeader.trace)
  | _ => none

/-- The 32 bits of a record. -/
theorem IntHeader.beNat_encode (r : IntHeader) : beNat (Header.encode r) =
    r.switchId.toNat * 2 ^ 19 + r.queueDepth.toNat * 2 ^ 6 + r.outputPort.toNat := by
  have hs := r.switchId.isLt
  have hd := r.queueDepth.isLt
  have hp := r.outputPort.isLt
  rw [IntHeader.encode_eq, beNat_beBytes, Nat.mod_eq_of_lt]
  omega

theorem traceOf_encode (r : IntHeader) : traceOf (beNat (Header.encode r)) = r.trace := by
  have hs := r.switchId.isLt
  have hd := r.queueDepth.isLt
  have hp := r.outputPort.isLt
  have h₁ : ∀ n : ℕ, n &&& 8191 = n % 2 ^ 13 := fun n => Nat.and_two_pow_sub_one_eq_mod n 13
  have h₂ : ∀ n : ℕ, n &&& 63 = n % 2 ^ 6 := fun n => Nat.and_two_pow_sub_one_eq_mod n 6
  rw [IntHeader.beNat_encode, traceOf, IntHeader.trace, h₁, h₂, Nat.shiftRight_eq_div_pow,
    Nat.shiftRight_eq_div_pow]
  refine Prod.ext ?_ (Prod.ext ?_ ?_)
  · dsimp only
    omega
  · dsimp only
    omega
  · dsimp only
    omega

/-- Fields that do not overlap are summed by a bitwise or. -/
theorem packed_eq {s d p : ℕ} (hd : d < 8192) (hp : p < 64) :
    s <<< 19 ||| d <<< 6 ||| p = s * 2 ^ 19 + d * 2 ^ 6 + p := by
  have hdp : d <<< 6 ||| p = d * 2 ^ 6 + p := by
    rw [Nat.shiftLeft_eq, Nat.mul_comm, Nat.two_pow_add_eq_or_of_lt hp]
  rw [Nat.or_assoc, hdp, Nat.shiftLeft_eq, Nat.mul_comm s,
    ← Nat.two_pow_add_eq_or_of_lt (by omega)]
  omega

/-- The codec of one record writes a record of the switch, or raises. -/
theorem traceBytes_ok {trace : Trace} {bytes : List Byte} : traceBytes trace = .ok bytes ↔
    ∃ r : IntHeader, r.trace = trace ∧ bytes = Header.encode r := by
  obtain ⟨swid, depth, port⟩ := trace
  unfold traceBytes
  dsimp only
  rw [raiseIf_bind_ok, not_not]
  constructor
  · intro h
    obtain ⟨⟨⟨hs₀, hs⟩, ⟨hd₀, hd⟩, hp₀, hp⟩, hb⟩ := h
    obtain ⟨swid, rfl⟩ := Int.eq_ofNat_of_zero_le hs₀
    obtain ⟨depth, rfl⟩ := Int.eq_ofNat_of_zero_le hd₀
    obtain ⟨port, rfl⟩ := Int.eq_ofNat_of_zero_le hp₀
    have hswid : (BitVec.ofNat 13 swid).toNat = swid := by
      rw [BitVec.toNat_ofNat]
      omega
    have hdepth : (BitVec.ofNat 13 depth).toNat = depth := by
      rw [BitVec.toNat_ofNat]
      omega
    have hport : (BitVec.ofNat 6 port).toNat = port := by
      rw [BitVec.toNat_ofNat]
      omega
    refine ⟨IntHeader.mk (BitVec.ofNat 13 swid) (BitVec.ofNat 13 depth) (BitVec.ofNat 6 port),
      ?_, ?_⟩
    · unfold IntHeader.trace
      dsimp only
      rw [hswid, hdepth, hport]
    · cases hb
      rw [IntHeader.encode_eq]
      dsimp only
      rw [hswid, hdepth, hport, Int.toNat_natCast, Int.toNat_natCast, Int.toNat_natCast,
        packed_eq (by omega) (by omega)]
  · intro h
    obtain ⟨r, hr, rfl⟩ := h
    cases hr
    have hs := r.switchId.isLt
    have hd := r.queueDepth.isLt
    have hp := r.outputPort.isLt
    refine ⟨by omega, ?_⟩
    rw [Int.toNat_natCast, Int.toNat_natCast, Int.toNat_natCast, packed_eq hd hp,
      IntHeader.encode_eq]
    rfl

theorem mapM_traceBytes_ok {traces : List Trace} {bodies : List (List Byte)} :
    traces.mapM traceBytes = .ok bodies ↔ ∃ records : List IntHeader,
      records.map IntHeader.trace = traces ∧ bodies = records.map Header.encode := by
  induction traces generalizing bodies with
  | nil =>
    rw [List.mapM_nil]
    constructor
    · intro h
      cases h
      exact ⟨[], rfl, rfl⟩
    · intro h
      obtain ⟨records, hr, rfl⟩ := h
      obtain rfl := List.map_eq_nil_iff.mp hr
      rfl
  | cons trace traces ih =>
    rw [List.mapM_cons, py_bind_ok]
    constructor
    · intro h
      obtain ⟨bytes, hb, h⟩ := h
      obtain ⟨r, rfl, rfl⟩ := traceBytes_ok.mp hb
      obtain ⟨rest, hr, h⟩ := py_bind_ok.mp h
      obtain ⟨records, rfl, rfl⟩ := ih.mp hr
      cases h
      exact ⟨r :: records, rfl, rfl⟩
    · intro h
      obtain ⟨records, hr, rfl⟩ := h
      obtain ⟨r, records, rfl, rfl, rfl⟩ := List.map_eq_cons_iff.mp hr
      refine ⟨_, traceBytes_ok.mpr ⟨r, rfl, rfl⟩, ?_⟩
      exact py_bind_ok.mpr ⟨_, ih.mpr ⟨records, rfl, rfl⟩, rfl⟩

/-- The copy flag as a bit. -/
def copyBit (copied : Bool) : BitVec 1 := if copied then 1 else 0

/-- The option of a stack, as its fields lie in the options area. -/
theorem Area.trace_bytes (copyFlag : BitVec 1) (records : IntStack) :
    (Area.trace copyFlag records).bytes =
      (beBytes 1 (copyFlag.toNat * 128 + 31) ++ (beBytes 1 (4 + 4 * records.valid.length) ++
        beBytes 2 records.valid.length)) ++ records.valid.flatMap Header.encode := by
  have hle := records.length_le
  unfold maxIntHeaders at hle
  have hlen : (BitVec.ofNat 8 (4 + 4 * records.valid.length)).toNat =
      4 + 4 * records.valid.length := by
    rw [BitVec.toNat_ofNat]
    omega
  have hnum : (BitVec.ofNat 16 records.valid.length).toNat = records.valid.length := by
    rw [BitVec.toNat_ofNat]
    omega
  rw [Area.bytes, Ipv4Option.encode_eq, IntCount.encode_eq]
  dsimp only [traceOption, traceCount]
  rw [hlen, hnum]
  simp only [List.append_assoc]
  rfl

theorem traceBytes_option (copied : Bool) (records : IntStack) :
    beBytes 1 (if copied then 0x9F else 0x1F) ++
      beBytes 1 (4 + (records.valid.flatMap Header.encode).length) ++
        beBytes 2 records.valid.length ++ records.valid.flatMap Header.encode =
      (Area.trace (copyBit copied) records).bytes := by
  rw [Area.trace_bytes, records_length]
  simp only [List.append_assoc]
  cases copied <;> rfl

/-- The option codec succeeds on the records a stack can hold, and writes their option. -/
theorem intOption_ok {traces : List Trace} {copied : Bool} {bytes : List Byte} :
    intOption traces copied = .ok bytes ↔ ∃ records : IntStack,
      records.valid.map IntHeader.trace = traces ∧
        bytes = (Area.trace (copyBit copied) records).bytes := by
  unfold intOption
  rw [raiseIf_bind_ok, py_bind_ok]
  constructor
  · intro h
    obtain ⟨hn, bodies, hb, h⟩ := h
    obtain ⟨records, rfl, rfl⟩ := mapM_traceBytes_ok.mp hb
    rw [List.length_map, Nat.not_lt] at hn
    refine ⟨⟨records, hn⟩, rfl, ?_⟩
    cases h
    rw [← traceBytes_option, List.length_map]
    rfl
  · intro h
    obtain ⟨records, rfl, rfl⟩ := h
    rw [List.length_map, Nat.not_lt]
    refine ⟨records.length_le, _, mapM_traceBytes_ok.mpr ⟨records.valid, rfl, rfl⟩, ?_⟩
    rw [← traceBytes_option]
    rfl

/-! Reading. -/

theorem map_traceOf {pre : List Byte} {k : ℕ} (hk : pre.length = k) (records : List IntHeader) :
    ((List.range' k records.length 4).map fun offset =>
      traceOf (fieldAt (pre ++ records.flatMap Header.encode) offset (offset + 4))) =
      records.map IntHeader.trace := by
  induction records generalizing pre k with
  | nil => rfl
  | cons r records ih =>
    have hl : (Header.encode r).length = 4 := Header.encode_length r
    have hwhole : slice (Header.encode r) 0 4 = Header.encode r := by
      rw [slice, List.drop_zero, Nat.sub_zero, ← hl, List.take_length]
    have hhead : fieldAt (pre ++ (Header.encode r ++ records.flatMap Header.encode)) k (k + 4) =
        beNat (Header.encode r) := by
      rw [fieldAt, slice_append_right _ _ hk.le, hk, Nat.sub_self, Nat.add_sub_cancel_left,
        slice_append_left _ hl.ge, hwhole]
    have hpre : (pre ++ Header.encode r).length = k + 4 := by
      rw [List.length_append, hl, hk]
    have htail := ih hpre
    rw [List.append_assoc] at htail
    rw [List.length_cons, List.range'_succ, List.map_cons, List.map_cons, List.flatMap_cons, htail,
      hhead, traceOf_encode]

theorem parseTraces_bytes {area : Area} (hok : area.Ok) :
    parseTraces area.bytes = .ok area.traces := by
  unfold parseTraces
  cases area with
  | plain => rfl
  | options data =>
    have hn : ¬ (data ≠ [] ∧ (data.headD 0).toNat &&& 0x7F = 0x1F) := by
      intro h
      refine hok.2 (BitVec.eq_of_toNat_eq ?_)
      rw [BitVec.toNat_and]
      exact h.2
    rw [Area.bytes, if_neg hn]
    rfl
  | trace copyFlag records =>
    have hc := copyFlag.isLt
    have hle := records.length_le
    unfold maxIntHeaders at hle
    have hlen := Area.trace_length copyFlag records
    have hb := Area.trace_bytes copyFlag records
    have hfirst : (Area.trace copyFlag records).bytes ≠ [] ∧
        ((Area.trace copyFlag records).bytes.headD 0).toNat &&& 0x7F = 0x1F := by
      refine ⟨trace_bytes_ne_nil copyFlag records, ?_⟩
      have hhead : (Area.trace copyFlag records).bytes.headD 0 =
          BitVec.ofNat 8 (copyFlag.toNat * 128 + 31) := by
        rw [hb]
        simp [beBytes]
      rw [hhead, BitVec.toNat_ofNat, Nat.and_two_pow_sub_one_eq_mod _ 7]
      omega
    have hsize : byteAt (Area.trace copyFlag records).bytes 1 =
        .ok (4 + 4 * records.valid.length) := by
      rw [byteAt_eq (by omega), hb]
      simp [fieldAt, beNat_beBytes]
      omega
    have hcount : fieldAt (Area.trace copyFlag records).bytes 2 4 = records.valid.length := by
      rw [hb]
      simp [fieldAt, beNat_beBytes]
      omega
    have hsteps : (4 + 4 * records.valid.length - 4 + 3) / 4 = records.valid.length := by omega
    have hpre : (beBytes 1 (copyFlag.toNat * 128 + 31) ++
        (beBytes 1 (4 + 4 * records.valid.length) ++ beBytes 2 records.valid.length)).length =
        4 := by simp
    have hmap := map_traceOf hpre records.valid
    rw [← hb] at hmap
    rw [if_pos hfirst, raiseIf_bind_ok]
    refine ⟨by omega, ?_⟩
    rw [hsize, py_ok_bind, hcount, raiseIf_bind_ok]
    refine ⟨by unfold maxTraces; omega, ?_⟩
    rw [hsteps, hmap]
    rfl

end P4Cases.Telemetry
