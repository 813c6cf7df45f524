import Mathlib.Data.Set.List
import P4Cases.Telemetry.Agreement
import P4Cases.Telemetry.Oracle

/-! The test's option codec and its frame parser undo each other, and both place the
fields of a record where the switch does. -/
namespace P4Cases.Telemetry
open Wire P4

/-- Fields that fit into a record. -/
def Trace.InRange (trace : Trace) : Prop :=
  (0 ≤ trace.1 ∧ trace.1 < 8192) ∧ (0 ≤ trace.2.1 ∧ trace.2.1 < 8192) ∧
    0 ≤ trace.2.2 ∧ trace.2.2 < 64

section
variable {traces : List Trace} {copied : Bool} {frame : List Byte}

theorem inRange_iff {trace : Trace} : trace.InRange ↔ ∃ r : IntHeader, r.trace = trace := by
  obtain ⟨swid, depth, port⟩ := trace
  constructor
  · intro h
    have hbytes : traceBytes (swid, depth, port) =
        .ok (beBytes 4 (swid.toNat <<< 19 ||| depth.toNat <<< 6 ||| port.toNat)) :=
      raiseIf_bind_ok.mpr ⟨not_not.mpr h, rfl⟩
    obtain ⟨r, hr, -⟩ := traceBytes_ok.mp hbytes
    exact ⟨r, hr⟩
  · intro h
    obtain ⟨r, hr⟩ := h
    cases hr
    have hs := r.switchId.isLt
    have hd := r.queueDepth.isLt
    have hp := r.outputPort.isLt
    unfold Trace.InRange
    dsimp only
    omega

/-- The codec writes an option exactly for what an option can hold. -/
theorem intOption_isOk : (∃ bytes, intOption traces copied = .ok bytes) ↔
    traces.length ≤ maxTraces ∧ ∀ trace ∈ traces, trace.InRange := by
  constructor
  · intro h
    obtain ⟨bytes, h⟩ := h
    obtain ⟨records, rfl, -⟩ := intOption_ok.mp h
    rw [List.length_map]
    refine ⟨records.length_le, ?_⟩
    intro trace ht
    obtain ⟨r, -, hr⟩ := List.mem_map.mp ht
    exact inRange_iff.mpr ⟨r, hr⟩
  · intro h
    obtain ⟨hl, hrange⟩ := h
    obtain ⟨records, rfl⟩ : traces ∈ Set.range (List.map IntHeader.trace) := by
      rw [Set.range_list_map]
      exact fun trace ht => inRange_iff.mp (hrange trace ht)
    rw [List.length_map] at hl
    exact ⟨_, intOption_ok.mpr ⟨⟨records, hl⟩, rfl, rfl⟩⟩

theorem carrier_ihl (records : IntStack) :
    (BitVec.ofNat 4 (6 + records.valid.length)).toNat = 6 + records.valid.length := by
  have hle := records.length_le
  unfold maxIntHeaders at hle
  rw [BitVec.toNat_ofNat]
  omega

theorem carrier_totalLen (records : IntStack) :
    (BitVec.ofNat 16 (24 + 4 * records.valid.length)).toNat = 24 + 4 * records.valid.length := by
  have hle := records.length_le
  unfold maxIntHeaders at hle
  rw [BitVec.toNat_ofNat]
  omega

/-- A packet that carries a given option and nothing else. -/
def carrier (copyFlag : BitVec 1) (records : IntStack) : Datagram where
  eth := { dstAddr := 0, srcAddr := 0, etherType := typeIpv4 }
  ip := Ipv4.checksummed
    { version := 4, ihl := BitVec.ofNat 4 (6 + records.valid.length), dscp := 0, ecn := 0
      totalLen := BitVec.ofNat 16 (24 + 4 * records.valid.length), identification := 0, flags := 0
      fragOffset := 0, ttl := 64, protocol := 17, hdrChecksum := 0, srcAddr := 0, dstAddr := 0 }
    (.trace copyFlag records)
  area := .trace copyFlag records
  payload := []
  isIpv4 := rfl
  lengths := by
    have hi := carrier_ihl records
    have ht := carrier_totalLen records
    unfold Ipv4.checksummed
    refine ⟨rfl, ?_, ?_, ?_⟩
    · dsimp only
      omega
    · dsimp only
      omega
    · dsimp only [List.length_nil]
      omega
  options := by
    have hi := carrier_ihl records
    unfold Ipv4.checksummed
    dsimp only
    rw [Area.trace_length]
    omega
  ok := trivial
  checksum := rfl

theorem carrier_exact (copyFlag : BitVec 1) (records : IntStack) :
    (carrier copyFlag records).Exact := by
  have hi := carrier_ihl records
  have ht := carrier_totalLen records
  unfold Datagram.Exact carrier Ipv4.checksummed
  dsimp only [List.length_nil]
  omega

/-- A frame whose options are a written option is parsed into what was written, by the test
and by the switch. -/
theorem parse_intOption {bytes : List Byte} (h : intOption traces copied = .ok bytes)
    (hok : HeaderOk frame) (hopts : optionsArea frame = bytes) :
    (∃ f, parseFrame frame = .ok f ∧ f.traces = some traces) ∧
      ∀ unset lpm intDefault port, ∃ hdr payload,
        (router unset lpm intDefault).parse port frame = (.ok (), ⟨payload, hdr⟩) ∧
          hdr.intHeaders.valid.map IntHeader.trace = traces := by
  obtain ⟨records, rfl, rfl⟩ := intOption_ok.mp h
  obtain ⟨eth, ip, opts, payload, hc⟩ := hok.exists_cut
  rw [hc.optionsArea_eq] at hopts
  subst hopts
  obtain ⟨ht, hl, -, -⟩ := hc.headerOk_iff.mp hok
  constructor
  · refine ⟨_, parseFrame_ok.mpr ⟨hok, some (records.valid.map IntHeader.trace), ?_, rfl⟩, rfl⟩
    rw [hc.optionsArea_eq]
    have hok : (Area.trace (copyBit copied) records).Ok := trivial
    exact parseTraces_bytes hok
  · intro unset lpm intDefault port
    have hacc : Accepted frame eth ip (.trace (copyBit copied) records) payload :=
      ⟨hc.bytes, ht, hl, hc.options, trivial⟩
    exact ⟨_, _, parse_ok.mpr (Or.inr ⟨_, _, _, hacc, rfl⟩), rfl⟩

/-- The records a frame is parsed into are written as the options of that frame. -/
theorem intOption_parse {f : ParsedFrame} (h : parseFrame frame = .ok f)
    (ht : f.traces = some traces) : ∃ first, byteAt (optionsArea frame) 0 = .ok first ∧
      intOption traces (first &&& 128 ≠ 0) = .ok (optionsArea frame) := by
  obtain ⟨-, traces', hp, rfl⟩ := parseFrame_ok.mp h
  obtain ⟨area, -, hbytes, htraces⟩ := parseTraces_ok.mp hp
  obtain ⟨copyFlag, records, rfl⟩ := exists_trace (htraces.trans ht)
  obtain ⟨first, hfirst, hcopied⟩ := @byteAt_copied copyFlag records
  rw [← hbytes]
  refine ⟨first, hfirst, intOption_ok.mpr ⟨records, ?_, ?_⟩⟩
  · exact Option.some.inj (htraces.trans ht)
  · rw [hcopied]

/-- Records that an option can hold are written, and a frame with those options is parsed
into the same records by the test and by the switch; the options of every frame with
records are what the codec writes for them; and everything else is refused. -/
theorem optionCodec_bijective :
    (∀ (traces : List Trace) (copied : Bool), traces.length ≤ maxTraces →
      (∀ trace ∈ traces, trace.InRange) → ∃ bytes, intOption traces copied = .ok bytes ∧
        (∃ frame, HeaderOk frame ∧ optionsArea frame = bytes) ∧
        ∀ frame, HeaderOk frame → optionsArea frame = bytes →
          (∃ f, parseFrame frame = .ok f ∧ f.traces = some traces) ∧
          ∀ unset lpm intDefault port, ∃ hdr payload,
            (router unset lpm intDefault).parse port frame = (.ok (), ⟨payload, hdr⟩) ∧
              hdr.intHeaders.valid.map IntHeader.trace = traces) ∧
    (∀ (frame : List Byte) (f : ParsedFrame) (traces : List Trace), parseFrame frame = .ok f →
      f.traces = some traces → ∃ first, byteAt (optionsArea frame) 0 = .ok first ∧
        intOption traces (first &&& 128 ≠ 0) = .ok (optionsArea frame)) ∧
    ∀ (traces : List Trace) (copied : Bool),
      ¬ (traces.length ≤ maxTraces ∧ ∀ trace ∈ traces, trace.InRange) →
        ∃ e, intOption traces copied = .error e := by
  refine ⟨?_, fun frame f traces => intOption_parse, ?_⟩
  · intro traces copied hl hrange
    obtain ⟨bytes, hb⟩ := intOption_isOk.mpr ⟨hl, hrange⟩
    refine ⟨bytes, hb, ?_, fun frame => parse_intOption hb⟩
    obtain ⟨records, -, rfl⟩ := intOption_ok.mp hb
    have hok := (parseFrame_ok.mp (parseFrame_bytes (carrier_exact (copyBit copied) records))).1
    exact ⟨_, hok, (carrier (copyBit copied) records).cut.optionsArea_eq⟩
  · intro traces copied hbad
    cases h : intOption traces copied with
    | ok bytes => exact absurd (intOption_isOk.mp ⟨bytes, h⟩) hbad
    | error e => exact ⟨e, rfl⟩

end
end P4Cases.Telemetry
