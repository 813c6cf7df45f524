import P4Cases.Frames.Build
import P4Cases.Telemetry.RoundTrip
import P4Cases.Telemetry.WellFormed

/-! The test frames of the telemetry network, and that a switch accepts them. -/
namespace P4Cases.Telemetry
open Wire P4

/-- The arguments of `make_frame`. -/
structure FrameArgs where
  source : List Byte
  sender : Host
  receiver : Host
  options : List Byte := []
  ttl : ℤ := 64
  flags : ℤ := 0
  payloadSize : ℤ := 48

/-- The payload of a generated packet. -/
def FrameArgs.payload (a : FrameArgs) : List Byte :=
  (ascii "p4-int:" ++ a.source ++ pattern ((a.payloadSize + 255) / 256).toNat).take
    a.payloadSize.toNat

def makeFrame (a : FrameArgs) : Py (List Byte) := do
  raiseIf (a.source.length ≠ 4 ∨ a.options.length % 4 ≠ 0 ∨ a.options.length > 40 ∨
    a.payloadSize < 16)
    (.valueError "frame requires an IPv4 source, aligned options and labelled payload")
  let destination := beBytes 4 (hostIps a.receiver).toNat
  let udp ← buildTransport 17 4321 1234 0 [] a.payload a.source destination true
  let header ← ipv4Header (beNat (a.source.drop 2)) a.flags a.ttl 17 a.source destination a.options
    udp.length
  let header := header.take 10 ++ (← packInts [(2, checksum header)]) ++ header.drop 12
  return hostMacs a.receiver ++ hostMacs a.sender ++ [0x08, 0x00] ++ header ++ udp

/-- The options a well-formed packet can have: none, what `int_option` returns, or options of
another type. -/
def OptionsOk (options : List Byte) : Prop :=
  options = [] ∨ (∃ traces copied, intOption traces copied = .ok options) ∨
    (options ≠ [] ∧ options.headD 0 ≠ 0x1F ∧ options.headD 0 ≠ 0x9F)

variable {a : FrameArgs} {frame : List Byte}

/-- Storing the checksum by hand. -/
theorem storeHeader (ip : P4Cases.Ipv4) (hz : ip.hdrChecksum = 0) (options : List Byte) :
    (Header.encode ip ++ options).take 10 ++ beBytes 2 (checksum (Header.encode ip ++ options)) ++
      (Header.encode ip ++ options).drop 12 =
        Header.encode { ip with hdrChecksum := ipv4Checksum ip options } ++ options := by
  have hlen : (Header.encode ip).length = 20 := Header.encode_length ip
  have hself : { ip with hdrChecksum := 0 } = ip := by
    rw [← hz]
  have hsum : checksum (Header.encode ip ++ options) = (ipv4Checksum ip options).toNat := by
    rw [checksum_eq, ipv4Checksum_eq, hself]
  have htake : (Header.encode ip ++ options).take 10 = (Header.encode ip).take 10 :=
    List.take_append_of_le_length (by omega)
  have hdrop : (Header.encode ip ++ options).drop 12 = (Header.encode ip).drop 12 ++ options :=
    List.drop_append_of_le_length (by omega)
  rw [hsum, htake, hdrop, P4Cases.Ipv4.encode_setChecksum ip (ipv4Checksum ip options),
    ← List.append_assoc]

theorem makeFrame_built (h : makeFrame a = .ok frame) :
    a.payload.length = a.payloadSize.toNat ∧ ∃ eth ip header,
      Built frame a.options [] a.payload 17 True eth ip header [] := by
  obtain ⟨hargs, h⟩ := raiseIf_bind_ok.mp h
  simp only [not_or, not_not, not_lt] at hargs
  obtain ⟨hsource, hopt, hlen, hsize⟩ := hargs
  dsimp only at h
  obtain ⟨udp, hudp, h⟩ := py_bind_ok.mp h
  obtain ⟨header, hheader, h⟩ := py_bind_ok.mp h
  obtain ⟨word, hword, h⟩ := py_bind_ok.mp h
  obtain ⟨-, rfl⟩ := packInts_single.mp hword
  obtain rfl := Except.ok.inj h
  obtain ⟨ip, front, rfl, rfl, hz, hbuilt⟩ :=
    built_parts hopt hlen rfl hsource (beBytes_length 4 _) hudp hheader
  have hmacs : (hostMacs a.receiver ++ hostMacs a.sender).length = 12 := by
    simp [hostMacs]
  obtain ⟨eth, heth, htype⟩ := exists_ethernet hmacs
  refine ⟨?_, eth, { ip with hdrChecksum := ipv4Checksum ip a.options }, front, ?_⟩
  · have hascii : (ascii "p4-int:").length = 7 := by decide
    rw [FrameArgs.payload, List.length_take]
    simp [hascii, hsource]
    omega
  · have hb := hbuilt eth [] htype
    have hsum : Summed 17 true ↔ True := by decide
    rw [propext hsum] at hb
    rw [Int.toNat_natCast, storeHeader ip hz, heth]
    simpa only [List.append_assoc, List.append_nil] using hb

/-- A header as the telemetry program divides it. -/
theorem exists_plain (ip : P4Cases.Ipv4) : ∃ h : Ipv4, h.plain = ip := by
  refine ⟨⟨ip.version, ip.ihl, ip.diffserv.extractLsb' 2 6, ip.diffserv.extractLsb' 0 2,
    ip.totalLen, ip.identification, ip.flags, ip.fragOffset, ip.ttl, ip.protocol, ip.hdrChecksum,
    ip.srcAddr, ip.dstAddr⟩, ?_⟩
  have hb :
      (ip.diffserv.extractLsb' 2 6 ++ ip.diffserv.extractLsb' 0 2 : BitVec 8) = ip.diffserv := by
    apply BitVec.eq_of_toNat_eq
    have hlt := ip.diffserv.isLt
    rw [append_toNat, BitVec.extractLsb'_toNat, BitVec.extractLsb'_toNat, Nat.shiftRight_eq_div_pow,
      Nat.shiftRight_eq_div_pow]
    omega
  unfold Ipv4.plain
  dsimp only
  rw [hb]

/-- Without its copy flag, only two first bytes are those of the telemetry option. -/
theorem eq_optionInt {b : Byte} (h : b &&& 0x7f = ipv4OptionInt) : b = 0x1F ∨ b = 0x9F := by
  have hm : (0x7f : Byte).toNat = 2 ^ 7 - 1 := rfl
  have hv : ipv4OptionInt.toNat = 31 := rfl
  have hlt := b.isLt
  rw [← BitVec.toNat_inj, BitVec.toNat_and, hm, hv, Nat.and_two_pow_sub_one_eq_mod] at h
  have h₁ : b = 0x1F ↔ b.toNat = 31 := (BitVec.toNat_inj (y := (0x1F : Byte))).symm
  have h₂ : b = 0x9F ↔ b.toNat = 159 := (BitVec.toNat_inj (y := (0x9F : Byte))).symm
  rw [h₁, h₂]
  omega

theorem OptionsOk.exists_area {options : List Byte} (h : OptionsOk options) :
    ∃ area : Area, area.bytes = options ∧ area.Ok := by
  rcases h with rfl | ⟨traces, copied, hoption⟩ | ⟨hne, h₁, h₂⟩
  · exact ⟨.plain, rfl, trivial⟩
  · obtain ⟨records, -, rfl⟩ := intOption_ok.mp hoption
    exact ⟨.trace (copyBit copied) records, rfl, trivial⟩
  · exact ⟨.options options, rfl, hne, fun hfirst => (eq_optionInt hfirst).elim h₁ h₂⟩

/-- The switch parses a generated frame without error and its checksum verifies. -/
theorem makeFrame_accepts (unset : IntHeader) (lpm : Table (BitVec 32) LpmAction)
    (intDefault : IntAction) (ho : OptionsOk a.options) (h : makeFrame a = .ok frame)
    (port : Port) :
    ∃ hdr payload, (router unset lpm intDefault).Accepts port frame hdr payload ∧
      hdr.ipv4.isSome = true := by
  obtain ⟨-, eth, ip, header, hb⟩ := makeFrame_built h
  obtain ⟨area, harea, hok⟩ := ho.exists_area
  obtain ⟨ip, rfl⟩ := exists_plain ip
  have hl := hb.lengths
  have hbytes := hb.bytes
  rw [← Ipv4.encode_plain, ← harea] at hbytes
  have hopt : area.bytes.length = 4 * (ip.ihl.toNat - 5) := by
    rw [harea]
    exact hb.options_length
  have hacc : Accepted frame eth ip area (header ++ (a.payload ++ [])) :=
    ⟨hbytes, hb.isIpv4, hl, hopt, hok⟩
  have hsum : ip.hdrChecksum = headerChecksum ip area := by
    rw [headerChecksum, harea]
    exact hb.hdrChecksum
  have hverify : myVerifyChecksum unset (parsedHeaders eth ip area) = false := by
    rw [myVerifyChecksum_parsed unset eth hacc.lengths.five_le_ihl hopt hok,
      decide_eq_false_iff_not, not_not]
    exact hsum
  exact ⟨parsedHeaders eth ip area, _, ⟨parse_ok.mpr (Or.inr ⟨eth, ip, area, hacc, rfl⟩), hverify⟩,
    by rw [parsedHeaders_ipv4]; rfl⟩

end P4Cases.Telemetry
