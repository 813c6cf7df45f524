import P4Cases.Telemetry.Frames

/-! The switch and the test agree on the frames they accept, one way of storing the
checksum aside, and on what is in them. -/
namespace P4Cases.Telemetry
open Wire P4

/-- The headers and the payload of the switch, reported as the test reports a frame. -/
def Headers.reported (hdr : Headers) (payload : List Byte) : ParsedFrame where
  ihl := hdr.ipv4.elim 0 fun ip => 4 * ip.ihl.toNat
  total := hdr.ipv4.elim 0 fun ip => ip.totalLen.toNat
  options := hdr.ipv4Option.elim [] Header.encode ++ (hdr.intCount.elim [] Header.encode ++
    (hdr.intHeaders.valid.flatMap Header.encode ++ hdr.options.getD []))
  traces := hdr.intCount.map fun _ => hdr.intHeaders.valid.map IntHeader.trace
  payload := payload
  ttl := hdr.ipv4.elim 0 fun ip => ip.ttl.toNat

section
variable {unset : IntHeader} {lpm : Table (BitVec 32) LpmAction} {intDefault : IntAction}
  {port : Port} {frame payload : List Byte} {eth : Ethernet} {ip : Ipv4} {area : Area}

theorem reported_parsedHeaders (eth : Ethernet) (ip : Ipv4) (area : Area) (payload : List Byte) :
    (parsedHeaders eth ip area).reported payload =
      { ihl := 4 * ip.ihl.toNat, total := ip.totalLen.toNat, options := area.bytes
        traces := area.traces, payload := payload, ttl := ip.ttl.toNat } := by
  cases area with
  | plain => rfl
  | options data => rfl
  | trace copyFlag records =>
    unfold Headers.reported
    congr 1
    change _ ++ (_ ++ (_ ++ [])) = _
    rw [List.append_nil]
    rfl

theorem Accepted.cut (h : Accepted frame eth ip area payload) :
    Cut frame eth ip area.bytes payload :=
  ⟨h.bytes, h.lengths.five_le_ihl, h.options⟩

/-- The test's parser returns on the packets the switch's parser accepts that hold
nothing behind the stated length and sum to zero. -/
theorem parseFrame_accepted {f : ParsedFrame} : parseFrame frame = .ok f ↔
    ∃ eth ip area payload, Accepted frame eth ip area payload ∧
      frame.length = 14 + ip.totalLen.toNat ∧
      checksum (Header.encode ip ++ area.bytes) = 0 ∧
      f = (parsedHeaders eth ip area).reported payload := by
  rw [parseFrame_ok]
  constructor
  · intro h
    obtain ⟨hok, traces, hp, rfl⟩ := h
    obtain ⟨eth, ip, opts, payload, hc⟩ := hok.exists_cut
    obtain ⟨ht, hl, he, hs⟩ := hc.headerOk_iff.mp hok
    rw [hc.optionsArea_eq] at hp
    obtain ⟨area, harea, rfl, rfl⟩ := parseTraces_ok.mp hp
    refine ⟨eth, ip, area, payload, ⟨hc.bytes, ht, hl, hc.options, harea⟩, he, hs, ?_⟩
    rw [reported_parsedHeaders, hc.headerLen_eq, hc.totalLen_eq, hc.optionsArea_eq, hc.ttl_eq,
      ← hc.headerLen_eq, hc.payload_eq]
  · intro h
    obtain ⟨eth, ip, area, payload, ha, he, hs, rfl⟩ := h
    have hc := ha.cut
    refine ⟨hc.headerOk_iff.mpr ⟨ha.isIpv4, ha.lengths, he, hs⟩, area.traces, ?_, ?_⟩
    · rw [hc.optionsArea_eq]
      exact parseTraces_bytes ha.ok
    · rw [reported_parsedHeaders, hc.headerLen_eq, hc.totalLen_eq, hc.optionsArea_eq, hc.ttl_eq,
        ← hc.headerLen_eq, hc.payload_eq]

/-- What the switch accepts of the IPv4 packets: those it parses and whose checksum is the
computed one. -/
theorem accepts_ipv4 (ht : slice frame 12 14 = [0x08, 0x00]) {hdr : Headers} :
    (router unset lpm intDefault).Accepts port frame hdr payload ↔
      ∃ eth ip area, Accepted frame eth ip area payload ∧
        ip.hdrChecksum = headerChecksum ip area ∧ hdr = parsedHeaders eth ip area := by
  have hverify : ∀ {eth ip area}, Accepted frame eth ip area payload →
      (myVerifyChecksum unset (parsedHeaders eth ip area) = false ↔
        ip.hdrChecksum = headerChecksum ip area) := by
    intro eth ip area ha
    rw [myVerifyChecksum_parsed unset eth ha.lengths.five_le_ihl ha.options ha.ok,
      decide_eq_false_iff_not, not_not]
  constructor
  · intro h
    obtain ⟨hp, hv⟩ := h
    rcases parse_ok.mp hp with ⟨eth, rfl, hne, -⟩ | ⟨eth, ip, area, ha, rfl⟩
    · have hs : slice (Header.encode eth ++ payload) 12 14 = beBytes 2 eth.etherType.toNat := by
        rw [Ethernet.encode_eq]
        simp
      have ht' : ([0x08, 0x00] : List Byte) = beBytes 2 typeIpv4.toNat := by decide
      rw [hs, ht', beBytes_inj eth.etherType.isLt typeIpv4.isLt, BitVec.toNat_inj] at ht
      exact absurd ht hne
    · exact ⟨eth, ip, area, ha, (hverify ha).mp hv, rfl⟩
  · intro h
    obtain ⟨eth, ip, area, ha, hc, rfl⟩ := h
    exact ⟨parse_ok.mpr (Or.inr ⟨eth, ip, area, ha, rfl⟩), (hverify ha).mpr hc⟩

theorem Accepted.unique {eth' : Ethernet} {ip' : Ipv4} {area' : Area} {payload' : List Byte}
    (h : Accepted frame eth ip area payload) (h' : Accepted frame eth' ip' area' payload') :
    parsedHeaders eth ip area = parsedHeaders eth' ip' area' ∧ payload = payload' := by
  have hp : (router ⟨0, 0, 0⟩ [] .noAction).parse 0 frame = _ :=
    parse_ok.mpr (Or.inr ⟨eth, ip, area, h, rfl⟩)
  have hp' : (router ⟨0, 0, 0⟩ [] .noAction).parse 0 frame = _ :=
    parse_ok.mpr (Or.inr ⟨eth', ip', area', h', rfl⟩)
  have hcursor := congrArg Prod.snd (hp.symm.trans hp')
  exact ⟨congrArg Cursor.hdr hcursor, congrArg Cursor.rest hcursor⟩

/-- For an IPv4 frame that holds exactly the stated length, the switch accepts it if and
only if the test's parser returns and the stored checksum is not `0xFFFF`; and then they
find the same records, options, lengths and payload. -/
theorem accepts_iff_parseFrame (ht : slice frame 12 14 = [0x08, 0x00])
    (hl : frame.length = 14 + fieldAt frame 16 18) :
    ((∃ hdr payload, (router unset lpm intDefault).Accepts port frame hdr payload) ↔
      (∃ f, parseFrame frame = .ok f) ∧ fieldAt frame 24 26 ≠ 0xFFFF) ∧
    ∀ hdr payload f, (router unset lpm intDefault).Accepts port frame hdr payload →
      parseFrame frame = .ok f → f = hdr.reported payload := by
  refine ⟨⟨?_, ?_⟩, ?_⟩
  · intro h
    obtain ⟨hdr, payload, h⟩ := h
    obtain ⟨eth, ip, area, ha, hc, rfl⟩ := (accepts_ipv4 ht).mp h
    have hv := ha.lengths.isVersion4
    rw [ha.cut.totalLen_eq] at hl
    refine ⟨⟨_, parseFrame_accepted.mpr ⟨eth, ip, area, payload, ha, hl, ?_, rfl⟩⟩, ?_⟩
    · exact (sum_zero_iff hv area).mpr (Or.inl hc)
    · rw [ha.cut.hdrChecksum_eq, hc]
      exact headerChecksum_ne_max hv area
  · intro h
    obtain ⟨⟨f, hf⟩, hne⟩ := h
    obtain ⟨eth, ip, area, payload, ha, -, hs, -⟩ := parseFrame_accepted.mp hf
    rw [ha.cut.hdrChecksum_eq] at hne
    refine ⟨_, payload, (accepts_ipv4 ht).mpr ⟨eth, ip, area, ha, ?_, rfl⟩⟩
    exact ((sum_zero_iff ha.lengths.isVersion4 area).mp hs).resolve_right fun h => hne h.1
  · intro hdr payload f h hf
    obtain ⟨eth, ip, area, ha, -, rfl⟩ := (accepts_ipv4 ht).mp h
    obtain ⟨eth', ip', area', payload', ha', -, -, rfl⟩ := parseFrame_accepted.mp hf
    obtain ⟨hhdr, rfl⟩ := ha.unique ha'
    rw [hhdr]

/-- A header without options whose fields sum to all ones, so that its checksum is zero. -/
def onesHeader : Ipv4 where
  version := 4
  ihl := 5
  dscp := 0
  ecn := 0
  totalLen := 20
  identification := 0x61d4
  flags := 0
  fragOffset := 0
  ttl := 64
  protocol := 17
  hdrChecksum := 0xffff
  srcAddr := 0x0a000202
  dstAddr := 0x0a000304

def onesFrame : List Byte :=
  [0x00, 0x00, 0x0a, 0x00, 0x03, 0x04, 0x00, 0x00, 0x0a, 0x00, 0x02, 0x02, 0x08, 0x00, 0x45, 0x00,
    0x00, 0x14, 0x61, 0xd4, 0x00, 0x00, 0x40, 0x11, 0xff, 0xff, 0x0a, 0x00, 0x02, 0x02, 0x0a, 0x00,
    0x03, 0x04]

theorem onesFrame_accepted :
    Accepted onesFrame ⟨0x00000a000304, 0x00000a000202, typeIpv4⟩ onesHeader .plain [] where
  bytes := by decide
  isIpv4 := rfl
  lengths := ⟨rfl, by decide, by decide, by decide⟩
  options := rfl
  ok := trivial

/-- With the other zero stored, the test's parser returns and the switch drops. -/
theorem onesFrame_parsed_not_accepted : slice onesFrame 12 14 = [0x08, 0x00] ∧
    onesFrame.length = 14 + fieldAt onesFrame 16 18 ∧ (∃ f, parseFrame onesFrame = .ok f) ∧
    ∀ unset lpm intDefault port hdr payload,
      ¬ (router unset lpm intDefault).Accepts port onesFrame hdr payload := by
  have ht : slice onesFrame 12 14 = [0x08, 0x00] := by decide
  have hc : headerChecksum onesHeader .plain = 0 := by decide
  have hv : onesHeader.version = 4 := rfl
  have hs := (sum_zero_iff hv .plain).mpr (Or.inr ⟨rfl, hc⟩)
  refine ⟨ht, by decide, ⟨_, parseFrame_accepted.mpr ⟨_, _, _, _, onesFrame_accepted, ?_, hs, rfl⟩⟩,
    ?_⟩
  · decide
  · intro unset lpm intDefault port hdr payload h
    obtain ⟨eth, ip, area, ha, hsum, rfl⟩ := (accepts_ipv4 ht).mp h
    have hmax := ha.cut.hdrChecksum_eq
    rw [hsum] at hmax
    exact headerChecksum_ne_max ha.lengths.isVersion4 area (hmax.symm.trans (by decide))

/-- The same header with the checksum the switch computes. -/
def zeroFrame : List Byte := setSlice onesFrame 24 26 [0x00, 0x00]

theorem accepts_iff_parseFrame_zeroFrame :
    ((∃ hdr payload, (router ⟨0, 0, 0⟩ [] .noAction).Accepts 1 zeroFrame hdr payload) ↔
      (∃ f, parseFrame zeroFrame = .ok f) ∧ fieldAt zeroFrame 24 26 ≠ 0xFFFF) :=
  (accepts_iff_parseFrame (by decide) (by decide)).1

end
end P4Cases.Telemetry
