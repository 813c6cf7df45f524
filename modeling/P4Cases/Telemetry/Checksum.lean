import P4Cases.Telemetry.Accepted

/-! The header checksum of the telemetry program. Of its twelve guarded calls
exactly one applies to an accepted packet, and it covers the bytes between the
fixed header and the payload. -/
namespace P4Cases.Telemetry
open Wire P4

/-- The same header with the type of service in one field. -/
def Ipv4.plain (h : Ipv4) : P4Cases.Ipv4 where
  version := h.version
  ihl := h.ihl
  diffserv := h.dscp ++ h.ecn
  totalLen := h.totalLen
  identification := h.identification
  flags := h.flags
  fragOffset := h.fragOffset
  ttl := h.ttl
  protocol := h.protocol
  hdrChecksum := h.hdrChecksum
  srcAddr := h.srcAddr
  dstAddr := h.dstAddr

theorem Ipv4.encode_plain (h : Ipv4) : Header.encode h = Header.encode h.plain := by
  change packBits (toBits h.version ++ (toBits h.ihl ++ (toBits h.dscp ++ (toBits h.ecn ++ _)))) =
    packBits (toBits h.version ++ (toBits h.ihl ++ (toBits (h.dscp ++ h.ecn) ++ _)))
  rw [toBits_append, List.append_assoc]
  rfl

theorem ipv4Fields_plain (h : Ipv4) : ipv4Fields h = P4Cases.ipv4Fields h.plain := by
  unfold ipv4Fields P4Cases.ipv4Fields
  change _ = toBits h.version ++ (toBits h.ihl ++ (toBits (h.dscp ++ h.ecn) ++ _))
  rw [toBits_append, List.append_assoc]
  rfl

/-- The checksum of a header and of what follows it. -/
def headerChecksum (ip : Ipv4) (area : Area) : BitVec 16 := ipv4Checksum ip.plain area.bytes

theorem csum16_fields (ip : Ipv4) (area : Area) :
    csum16 (packBits (ipv4Fields ip ++ bytesBits area.bytes)) = headerChecksum ip area := by
  rw [ipv4Fields_plain, packBits_ipv4Fields, headerChecksum, ipv4Checksum]

theorem traceFields_eq (r : IntHeader) : traceFields r = bytesBits (Header.encode r) := by
  rw [Header.bytesBits_encode]
  change _ = toBits r.switchId ++ (toBits r.queueDepth ++ (toBits r.outputPort ++ []))
  rw [List.append_nil]
  rfl

theorem flatMap_traceFields (unset : IntHeader) (records : List IntHeader) :
    ((List.range records.length).flatMap fun i => traceFields (records.getD i unset)) =
      bytesBits (records.flatMap Header.encode) := by
  induction records with
  | nil => rfl
  | cons r records ih =>
    rw [List.length_cons, List.range_succ_eq_map, List.flatMap_cons, List.flatMap_map,
      List.flatMap_cons, bytesBits_append, ← traceFields_eq, ← ih]
    rfl

/-- `INT_FIELDS_n` are the bits of the option when it holds `n` records. -/
theorem intFields_eq (unset : IntHeader) (copyFlag : BitVec 1) (records : IntStack) :
    intFields unset (traceOption copyFlag records.valid) (traceCount records.valid) records
      records.valid.length = bytesBits (Area.trace copyFlag records).bytes := by
  rw [Area.bytes, bytesBits_append, bytesBits_append, Header.bytesBits_encode,
    Header.bytesBits_encode, ← flatMap_traceFields unset]
  unfold intFields
  change _ = (toBits _ ++ (toBits _ ++ (toBits _ ++ (toBits _ ++ [])))) ++ ((toBits _ ++ []) ++ _)
  simp only [List.append_assoc, List.append_nil]
  rfl

/-- The guards on the record count exclude each other. -/
theorem intData_trace (unset : IntHeader) (eth : Ethernet) (ip : Ipv4) (copyFlag : BitVec 1)
    (records : IntStack) {n : ℕ} (hn : n ≤ maxIntHeaders) :
    intData unset (parsedHeaders eth ip (.trace copyFlag records)) n =
      (decide (n = records.valid.length), intFields unset (traceOption copyFlag records.valid)
        (traceCount records.valid) records n) := by
  have hle := records.length_le
  have hiff : (traceCount records.valid).numSwitches = BitVec.ofNat 16 n ↔
      n = records.valid.length := by
    unfold maxIntHeaders at hle hn
    rw [traceCount, ← BitVec.toNat_inj, BitVec.toNat_ofNat, BitVec.toNat_ofNat]
    omega
  unfold parsedHeaders intData
  simp only [hiff]

/-! Both controls, on the headers of an accepted packet. -/

section
variable (unset : IntHeader) (eth : Ethernet) {ip : Ipv4} {area : Area}

theorem ihl_eq_five (hi : 5 ≤ ip.ihl.toNat) (ho : area.bytes.length = 4 * (ip.ihl.toNat - 5)) :
    ip.ihl = 5 ↔ area.bytes = [] := by
  have h5 : ip.ihl = 5 ↔ ip.ihl.toNat = 5 := (BitVec.toNat_inj (y := (5 : BitVec 4))).symm
  rw [h5, ← List.length_eq_zero_iff, ho]
  omega

theorem trace_bytes_ne_nil (copyFlag : BitVec 1) (records : IntStack) :
    (Area.trace copyFlag records).bytes ≠ [] := by
  apply List.ne_nil_of_length_pos
  rw [Area.trace_length]
  omega

theorem myVerifyChecksum_parsed (hi : 5 ≤ ip.ihl.toNat)
    (ho : area.bytes.length = 4 * (ip.ihl.toNat - 5)) (hok : area.Ok) :
    myVerifyChecksum unset (parsedHeaders eth ip area) =
      decide (ip.hdrChecksum ≠ headerChecksum ip area) := by
  have h5 := ihl_eq_five hi ho
  have hsum := csum16_fields ip area
  cases area with
  | plain =>
    have hany : ((List.range (maxIntHeaders + 1)).any fun n =>
        verifyChecksum (intData unset (parsedHeaders eth ip .plain) n).1
          (ipv4Fields ip ++ (intData unset (parsedHeaders eth ip .plain) n).2)
          ip.hdrChecksum) = false := rfl
    rw [Area.bytes, bytesBits, List.append_nil] at hsum
    change (verifyChecksum (decide (ip.ihl = 5)) (ipv4Fields ip) ip.hdrChecksum ||
      (verifyChecksum false _ _ || _)) = _
    rw [hany, decide_eq_true (h5.mpr rfl), verifyChecksum, verifyChecksum, hsum]
    simp
  | options data =>
    have hany : ((List.range (maxIntHeaders + 1)).any fun n =>
        verifyChecksum (intData unset (parsedHeaders eth ip (.options data)) n).1
          (ipv4Fields ip ++ (intData unset (parsedHeaders eth ip (.options data)) n).2)
          ip.hdrChecksum) = false := rfl
    change (verifyChecksum (decide (ip.ihl = 5)) (ipv4Fields ip) ip.hdrChecksum ||
      (verifyChecksum true (ipv4Fields ip ++ bytesBits data) ip.hdrChecksum || _)) = _
    rw [hany, decide_eq_false fun h => hok.1 (h5.mp h), verifyChecksum, verifyChecksum]
    rw [Area.bytes] at hsum
    rw [hsum]
    simp
  | trace copyFlag records =>
    have hany : ((List.range (maxIntHeaders + 1)).any fun n =>
        verifyChecksum (intData unset (parsedHeaders eth ip (.trace copyFlag records)) n).1
          (ipv4Fields ip ++ (intData unset (parsedHeaders eth ip (.trace copyFlag records)) n).2)
          ip.hdrChecksum) =
        decide (ip.hdrChecksum ≠ headerChecksum ip (.trace copyFlag records)) := by
      rw [Bool.eq_iff_iff, List.any_eq_true, decide_eq_true_iff]
      constructor
      · intro h
        obtain ⟨n, hn, hv⟩ := h
        rw [List.mem_range, Nat.lt_succ_iff] at hn
        rw [intData_trace unset eth ip copyFlag records hn, verifyChecksum, Bool.and_eq_true,
          decide_eq_true_iff, decide_eq_true_iff] at hv
        obtain ⟨rfl, hv⟩ := hv
        rwa [intFields_eq, hsum] at hv
      · intro h
        refine ⟨records.valid.length, List.mem_range.mpr (Nat.lt_succ_of_le records.length_le), ?_⟩
        rw [intData_trace unset eth ip copyFlag records records.length_le, verifyChecksum,
          Bool.and_eq_true, decide_eq_true_iff, decide_eq_true_iff, intFields_eq, hsum]
        exact ⟨rfl, h⟩
    change (verifyChecksum (decide (ip.ihl = 5)) (ipv4Fields ip) ip.hdrChecksum ||
      (verifyChecksum false _ _ || _)) = _
    rw [hany, decide_eq_false fun h => trace_bytes_ne_nil copyFlag records (h5.mp h),
      verifyChecksum, verifyChecksum]
    simp

/-- Updates under guards of which only the `k`-th holds. -/
theorem foldl_updateChecksum {cond : ℕ → Bool} {data : ℕ → List Bool} {k : ℕ} {l : List ℕ}
    (hc : ∀ n ∈ l, cond n = decide (n = k)) (stored : BitVec 16) :
    l.foldl (fun stored n => updateChecksum (cond n) (data n) stored) stored =
      if k ∈ l then csum16 (packBits (data k)) else stored := by
  induction l generalizing stored with
  | nil => rfl
  | cons n l ih =>
    rw [List.foldl_cons, ih fun m hm => hc m (List.mem_cons_of_mem n hm), updateChecksum,
      hc n List.mem_cons_self]
    by_cases hk : n = k
    · subst hk
      by_cases hl : n ∈ l <;> simp [hl]
    · have hk' : k ≠ n := fun h => hk h.symm
      simp [hk, hk']

theorem updatedChecksum_parsed (hi : 5 ≤ ip.ihl.toNat)
    (ho : area.bytes.length = 4 * (ip.ihl.toNat - 5)) (hok : area.Ok) :
    updatedChecksum unset (parsedHeaders eth ip area) ip = headerChecksum ip area := by
  have h5 := ihl_eq_five hi ho
  have hsum := csum16_fields ip area
  cases area with
  | plain =>
    rw [Area.bytes, bytesBits, List.append_nil] at hsum
    change updateChecksum (decide (ip.ihl = 5)) (ipv4Fields ip) ip.hdrChecksum = _
    rw [decide_eq_true (h5.mpr rfl), updateChecksum, if_pos rfl, hsum]
  | options data =>
    change updateChecksum true (ipv4Fields ip ++ bytesBits data)
      (updateChecksum (decide (ip.ihl = 5)) (ipv4Fields ip) ip.hdrChecksum) = _
    rw [updateChecksum, if_pos rfl]
    exact hsum
  | trace copyFlag records =>
    unfold updatedChecksum
    rw [foldl_updateChecksum (k := records.valid.length)]
    · rw [if_pos (List.mem_range.mpr (Nat.lt_succ_of_le records.length_le)),
        intData_trace unset eth ip copyFlag records records.length_le, intFields_eq, hsum]
    · intro n hn
      rw [List.mem_range, Nat.lt_succ_iff] at hn
      rw [intData_trace unset eth ip copyFlag records hn]

theorem myComputeChecksum_parsed (hi : 5 ≤ ip.ihl.toNat)
    (ho : area.bytes.length = 4 * (ip.ihl.toNat - 5)) (hok : area.Ok) :
    myComputeChecksum unset (parsedHeaders eth ip area) =
      parsedHeaders eth { ip with hdrChecksum := headerChecksum ip area } area := by
  rw [← updatedChecksum_parsed unset eth hi ho hok]
  cases area <;> rfl

theorem myDeparser_parsed (eth : Ethernet) (ip : Ipv4) (area : Area) :
    myDeparser (parsedHeaders eth ip area) =
      Header.encode eth ++ (Header.encode ip ++ area.bytes) := by
  cases area with
  | plain => rfl
  | options data => rfl
  | trace copyFlag records => simp [myDeparser, parsedHeaders, Area.bytes]

end
end P4Cases.Telemetry
