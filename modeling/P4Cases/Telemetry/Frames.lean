import P4Cases.Telemetry.Codec

/-! What the test's frame parser accepts, against what the switch accepts. -/
namespace P4Cases.Telemetry
open Wire P4

/-- `ihl` in `parse_frame`, in bytes. -/
def headerLen (frame : List Byte) : ℕ := (fieldAt frame 14 15 &&& 15) * 4

/-- The options of `parse_frame`. -/
def optionsArea (frame : List Byte) : List Byte := slice frame 34 (14 + headerLen frame)

/-- What `parse_frame` checks before it looks at the options. -/
structure HeaderOk (frame : List Byte) : Prop where
  complete : 34 ≤ frame.length
  isIpv4 : slice frame 12 14 = [0x08, 0x00]
  version : fieldAt frame 14 15 >>> 4 = 4
  twenty_le : 20 ≤ headerLen frame
  header_le : headerLen frame ≤ fieldAt frame 16 18
  exact : frame.length = 14 + fieldAt frame 16 18
  sum_zero : checksum (slice frame 14 (14 + headerLen frame)) = 0

theorem parseFrame_ok {frame : List Byte} {f : ParsedFrame} : parseFrame frame = .ok f ↔
    HeaderOk frame ∧ ∃ traces, parseTraces (optionsArea frame) = .ok traces ∧
      f = { ihl := headerLen frame, total := fieldAt frame 16 18, options := optionsArea frame
            traces := traces, payload := frame.drop (14 + headerLen frame)
            ttl := fieldAt frame 22 23 } := by
  unfold parseFrame
  rw [raiseIf_bind_ok, not_or, not_lt, not_not]
  constructor
  · intro h
    obtain ⟨⟨hl, ht⟩, h⟩ := h
    have hb : byteAt frame 14 = .ok (fieldAt frame 14 15) := byteAt_eq (by omega)
    have hb' : byteAt frame 22 = .ok (fieldAt frame 22 23) := byteAt_eq (by omega)
    rw [hb, py_ok_bind, raiseIf_bind_ok, not_not] at h
    obtain ⟨hv, h⟩ := h
    dsimp only at h
    rw [raiseIf_bind_ok, raiseIf_bind_ok, not_not, hb'] at h
    obtain ⟨hlen, hsum, h⟩ := h
    obtain ⟨traces, hp, h⟩ := py_bind_ok.mp h
    cases h
    unfold headerLen optionsArea
    exact ⟨⟨hl, ht, hv, by unfold headerLen; omega, by unfold headerLen; omega, by omega, hsum⟩,
      traces, hp, rfl⟩
  · intro h
    obtain ⟨⟨hl, ht, hv, h₂₀, hh, he, hsum⟩, traces, hp, rfl⟩ := h
    unfold headerLen at h₂₀ hh hsum
    unfold optionsArea headerLen at hp
    have hb : byteAt frame 14 = .ok (fieldAt frame 14 15) := byteAt_eq (by omega)
    have hb' : byteAt frame 22 = .ok (fieldAt frame 22 23) := byteAt_eq (by omega)
    refine ⟨⟨hl, ht⟩, ?_⟩
    rw [hb, py_ok_bind, raiseIf_bind_ok, not_not]
    refine ⟨hv, ?_⟩
    dsimp only
    rw [raiseIf_bind_ok, raiseIf_bind_ok, not_not, hb']
    refine ⟨by omega, hsum, py_bind_ok.mpr ⟨traces, hp, rfl⟩⟩

/-! The parts of a frame. -/

/-- A frame cut behind the fixed header and behind its options. -/
structure Cut (frame : List Byte) (eth : Ethernet) (ip : Ipv4) (opts payload : List Byte) :
    Prop where
  bytes : frame = Header.encode eth ++ (Header.encode ip ++ (opts ++ payload))
  five_le_ihl : 5 ≤ ip.ihl.toNat
  options : opts.length = 4 * (ip.ihl.toNat - 5)

namespace Cut
variable {frame : List Byte} {eth : Ethernet} {ip : Ipv4} {opts payload : List Byte}
  (h : Cut frame eth ip opts payload)
include h

theorem bytes_plain :
    frame = Header.encode eth ++ (Header.encode ip.plain ++ (opts ++ payload)) := by
  rw [← Ipv4.encode_plain]
  exact h.bytes

theorem length_eq : frame.length = 14 + 4 * ip.ihl.toNat + payload.length := by
  have hi := h.five_le_ihl
  have ho := h.options
  rw [h.bytes]
  simp
  omega

theorem isIpv4_iff : slice frame 12 14 = [0x08, 0x00] ↔ eth.etherType = typeIpv4 := by
  have hs : slice frame 12 14 = beBytes 2 eth.etherType.toNat := by
    rw [h.bytes, Ethernet.encode_eq]
    simp
  have ht : ([0x08, 0x00] : List Byte) = beBytes 2 typeIpv4.toNat := by decide
  rw [hs, ht, beBytes_inj eth.etherType.isLt typeIpv4.isLt, BitVec.toNat_inj]

theorem version_iff : fieldAt frame 14 15 >>> 4 = 4 ↔ ip.version = 4 := by
  have hi := ip.ihl.isLt
  have hv : ip.version = 4 ↔ ip.version.toNat = 4 :=
    (BitVec.toNat_inj (y := (4 : BitVec 4))).symm
  have hb : fieldAt frame 14 15 = ip.version.toNat * 16 + ip.ihl.toNat := by
    rw [h.bytes_plain]
    exact versionByte_encode eth ip.plain _
  rw [hb, Nat.shiftRight_eq_div_pow, hv]
  omega

theorem headerLen_eq : headerLen frame = 4 * ip.ihl.toNat := by
  rw [h.bytes_plain]
  exact headerLen_encode eth ip.plain _

theorem totalLen_eq : fieldAt frame 16 18 = ip.totalLen.toNat := by
  rw [h.bytes_plain]
  exact Raw.totalLen_encode eth ip.plain _

theorem ttl_eq : fieldAt frame 22 23 = ip.ttl.toNat := by
  rw [h.bytes_plain]
  exact Raw.ttl_encode eth ip.plain _

theorem hdrChecksum_eq : fieldAt frame 24 26 = ip.hdrChecksum.toNat := by
  rw [h.bytes_plain]
  exact Raw.hdrChecksum_encode eth ip.plain _

theorem header_eq : slice frame 14 (14 + headerLen frame) = Header.encode ip ++ opts := by
  rw [h.headerLen_eq, h.bytes_plain, Ipv4.encode_plain]
  exact slice_ipv4 eth payload h.five_le_ihl h.options

theorem optionsArea_eq : optionsArea frame = opts := by
  have hi := h.five_le_ihl
  have ho := h.options
  have hl : (Header.encode eth ++ Header.encode ip).length = 34 := by simp
  have hb : frame = (Header.encode eth ++ Header.encode ip) ++ (opts ++ payload) := by
    rw [h.bytes, List.append_assoc]
  have hsize : 14 + 4 * ip.ihl.toNat - 34 = opts.length := by omega
  rw [optionsArea, h.headerLen_eq, hb, slice_append_right _ _ hl.le, hl, Nat.sub_self, hsize,
    slice_append_left _ (Nat.le_refl _), slice, List.drop_zero, Nat.sub_zero, List.take_length]

theorem payload_eq : frame.drop (14 + headerLen frame) = payload := by
  have hi := h.five_le_ihl
  have ho := h.options
  have hb : frame = (Header.encode eth ++ (Header.encode ip ++ opts)) ++ payload := by
    rw [h.bytes]
    simp only [List.append_assoc]
  have hl : (Header.encode eth ++ (Header.encode ip ++ opts)).length =
      14 + headerLen frame := by
    rw [h.headerLen_eq]
    simp
    omega
  rw [hb, List.drop_left' (hb ▸ hl)]

/-- The checks of `parse_frame`, on the fields of the header. -/
theorem headerOk_iff : HeaderOk frame ↔ eth.etherType = typeIpv4 ∧
    LengthsOk ip.version ip.ihl ip.totalLen frame.length ∧
    frame.length = 14 + ip.totalLen.toNat ∧ checksum (Header.encode ip ++ opts) = 0 := by
  have hi := h.five_le_ihl
  have hl := h.length_eq
  rw [← h.header_eq, ← h.isIpv4_iff]
  constructor
  · intro hok
    have hh := hok.header_le
    have he := hok.exact
    rw [h.headerLen_eq, h.totalLen_eq] at hh
    rw [h.totalLen_eq] at he
    exact ⟨hok.isIpv4, ⟨h.version_iff.mp hok.version, hi, hh, by omega⟩, he, hok.sum_zero⟩
  · intro hok
    obtain ⟨ht, hlen, he, hsum⟩ := hok
    have hh := hlen.header_le
    refine ⟨by omega, ht, h.version_iff.mpr hlen.isVersion4, ?_, ?_, ?_, hsum⟩
    · rw [h.headerLen_eq]
      omega
    · rw [h.headerLen_eq, h.totalLen_eq]
      exact hh
    · rw [h.totalLen_eq]
      exact he

end Cut

/-- A frame that passes these checks can be cut. -/
theorem HeaderOk.exists_cut {frame : List Byte} (h : HeaderOk frame) :
    ∃ eth ip opts payload, Cut frame eth ip opts payload := by
  have hl := h.complete
  obtain ⟨eth, tail, rfl⟩ : ∃ (e : Ethernet) (tail : _), frame = Header.encode e ++ tail :=
    Header.exists_encode_append (le_trans (by simp) hl)
  obtain ⟨ip, rest, rfl⟩ : ∃ (i : Ipv4) (rest : _), tail = Header.encode i ++ rest :=
    Header.exists_encode_append (by simp at hl ⊢; omega)
  have hlen : headerLen (Header.encode eth ++ (Header.encode ip ++ rest)) =
      4 * ip.ihl.toNat := by
    rw [Ipv4.encode_plain]
    exact headerLen_encode eth ip.plain _
  have htwenty := h.twenty_le
  have hle := h.header_le
  have he := h.exact
  rw [hlen] at htwenty hle
  have hrest : 4 * (ip.ihl.toNat - 5) ≤ rest.length := by
    simp at he
    omega
  refine ⟨eth, ip, rest.take (4 * (ip.ihl.toNat - 5)), rest.drop (4 * (ip.ihl.toNat - 5)),
    ⟨?_, by omega, ?_⟩⟩
  · rw [List.take_append_drop]
  · rw [List.length_take, Nat.min_eq_left hrest]

/-! The options, read backwards. -/

theorem exists_records {n : ℕ} {bytes : List Byte} (h : bytes.length = 4 * n) :
    ∃ records : List IntHeader, records.length = n ∧ bytes = records.flatMap Header.encode := by
  induction n generalizing bytes with
  | zero => exact ⟨[], rfl, List.eq_nil_of_length_eq_zero h⟩
  | succ n ih =>
    obtain ⟨r, rest, rfl⟩ : ∃ (r : IntHeader) (rest : _), bytes = Header.encode r ++ rest :=
      Header.exists_encode_append (by simp; omega)
    have hrest : rest.length = 4 * n := by
      simp at h
      omega
    obtain ⟨records, hn, rfl⟩ := ih hrest
    refine ⟨r :: records, ?_, ?_⟩
    · rw [List.length_cons, hn]
    · rw [List.flatMap_cons]

/-- The lengths that the test compares, read from an option and its count. -/
theorem option_fields {option : Ipv4Option} {count : IntCount} {rest : List Byte} :
    byteAt (Header.encode option ++ (Header.encode count ++ rest)) 1 =
        .ok option.optionLength.toNat ∧
      fieldAt (Header.encode option ++ (Header.encode count ++ rest)) 2 4 =
        count.numSwitches.toNat := by
  constructor
  · rw [byteAt_eq (by simp; omega), Ipv4Option.encode_eq]
    simp [fieldAt]
  · rw [fieldAt_encode_skip _ _ (by simp), IntCount.encode_eq]
    simp [fieldAt]

/-- The options parser of the test returns on what the switch's parser leaves behind the
fixed header, and with its records. -/
theorem parseTraces_ok {opts : List Byte} {traces : Option (List Trace)} :
    parseTraces opts = .ok traces ↔
      ∃ area : Area, area.Ok ∧ area.bytes = opts ∧ area.traces = traces := by
  constructor
  · intro h
    have harea : ∃ area : Area, area.Ok ∧ area.bytes = opts := by
      unfold parseTraces at h
      split_ifs at h with hfirst
      · obtain ⟨hne, hint⟩ := hfirst
        rw [raiseIf_bind_ok, not_lt] at h
        obtain ⟨hfour, h⟩ := h
        obtain ⟨option, tail, rfl⟩ :
            ∃ (o : Ipv4Option) (tail : _), opts = Header.encode o ++ tail :=
          Header.exists_encode_append (le_trans (by simp) hfour)
        obtain ⟨count, rest, rfl⟩ : ∃ (k : IntCount) (rest : _), tail = Header.encode k ++ rest :=
          Header.exists_encode_append (by simp at hfour ⊢; omega)
        obtain ⟨hlength, hcount⟩ := @option_fields option count rest
        rw [hlength, py_ok_bind, hcount, raiseIf_bind_ok, not_or, not_or, not_lt, not_not,
          not_not] at h
        obtain ⟨⟨hle, hlen, hsize⟩, -⟩ := h
        have hrest : rest.length = 4 * count.numSwitches.toNat := by
          simp at hsize
          omega
        obtain ⟨records, hn, rfl⟩ := exists_records hrest
        obtain ⟨b₀, b₁, ho, hbyte⟩ := optionByte option
        have hhead : b₀ &&& 0x7f = ipv4OptionInt := by
          apply BitVec.eq_of_toNat_eq
          rw [ho] at hint
          rw [BitVec.toNat_and]
          exact hint
        obtain ⟨hclass, hoption⟩ := hbyte.mp hhead
        have hlen' : option.optionLength = BitVec.ofNat 8 (4 + 4 * records.length) := by
          rw [hn, ← hlen, BitVec.ofNat_toNat, BitVec.setWidth_eq]
        have hcount' : count = traceCount records := by
          obtain ⟨num⟩ := count
          rw [traceCount, hn, BitVec.ofNat_toNat, BitVec.setWidth_eq]
        refine ⟨.trace option.copyFlag ⟨records, hn ▸ hle⟩, trivial, ?_⟩
        rw [Area.bytes, ← eq_traceOption hclass hoption hlen', ← hcount']
      · by_cases hne : opts = []
        · exact ⟨.plain, trivial, hne.symm⟩
        · refine ⟨.options opts, ⟨hne, ?_⟩, rfl⟩
          intro hint
          refine hfirst ⟨hne, ?_⟩
          rw [← BitVec.toNat_inj, BitVec.toNat_and] at hint
          exact hint
    obtain ⟨area, hok, rfl⟩ := harea
    rw [parseTraces_bytes hok] at h
    exact ⟨area, hok, rfl, Except.ok.inj h⟩
  · intro h
    obtain ⟨area, hok, rfl, rfl⟩ := h
    exact parseTraces_bytes hok

/-! The checksum, where zero has two representations. -/

theorem words_sum_ne_zero (ip : Ipv4) (hv : ip.version = 4) (opts : List Byte) :
    (words (ip.plain.front ++ (ip.plain.back ++ opts))).sum ≠ 0 := by
  have hfirst : ∃ b rest, ip.plain.front ++ (ip.plain.back ++ opts) =
      beBytes 1 (ip.version.toNat * 16 + ip.ihl.toNat) ++ (b :: rest) :=
    ⟨_, _, rfl⟩
  obtain ⟨b, rest, hb⟩ := hfirst
  have hi := ip.ihl.isLt
  have hvn : ip.version.toNat = 4 := congrArg BitVec.toNat hv
  rw [hb, hvn]
  simp only [beBytes, List.cons_append, List.nil_append, words, List.sum_cons, pow_zero,
    Nat.div_one, BitVec.toNat_ofNat]
  omega

/-- A header sums to zero when its checksum is the computed one, or when that one is zero
and the other representation of zero is stored. -/
theorem sum_zero_iff {ip : Ipv4} (hv : ip.version = 4) (area : Area) :
    checksum (Header.encode ip ++ area.bytes) = 0 ↔
      ip.hdrChecksum = headerChecksum ip area ∨
        (ip.hdrChecksum.toNat = 0xFFFF ∧ headerChecksum ip area = 0) := by
  have hs := words_sum_ne_zero ip hv area.bytes
  have hc := ip.hdrChecksum.isLt
  have hsum := words_sum_encode ip.plain ip.plain.hdrChecksum area.bytes
  have hz : (0 : BitVec 16).toNat = 0 := rfl
  have hstored : checksum (Header.encode ip ++ area.bytes) = 65535 - fold16
      ((words (ip.plain.front ++ (ip.plain.back ++ area.bytes))).sum + ip.hdrChecksum.toNat) := by
    rw [checksum_eq, csum16_toNat, Ipv4.encode_plain]
    exact congrArg (fun n => 65535 - fold16 n) hsum
  have hcomputed : (headerChecksum ip area).toNat =
      65535 - fold16 (words (ip.plain.front ++ (ip.plain.back ++ area.bytes))).sum :=
    csum16_toNat _
  generalize (words (ip.plain.front ++ (ip.plain.back ++ area.bytes))).sum = n at *
  have hmax := fold16_add_eq_max hs (show ip.hdrChecksum.toNat ≤ 65535 by omega)
  have hle := fold16_le n
  have hle' := fold16_le (n + ip.hdrChecksum.toNat)
  rw [hstored, ← BitVec.toNat_inj, ← BitVec.toNat_inj, hcomputed, hz]
  omega

/-- The computed checksum is never the second representation of zero. -/
theorem headerChecksum_ne_max {ip : Ipv4} (hv : ip.version = 4) (area : Area) :
    (headerChecksum ip area).toNat ≠ 0xFFFF := by
  have hs := words_sum_ne_zero ip hv area.bytes
  have hpos := mt fold16_eq_zero.mp hs
  rw [headerChecksum, ipv4Checksum, csum16_toNat]
  omega

end P4Cases.Telemetry
