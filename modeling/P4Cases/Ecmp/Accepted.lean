import P4Cases.Ecmp.Switch

/-! The frames the ECMP parser accepts, and the headers it leaves. -/
namespace P4Cases.Ecmp
open Wire P4

@[simp] theorem Tcp.size : Header.size Tcp = 20 := rfl

/-- The transport header an accepted packet starts with, as far as it is parsed. -/
inductive Transport where
  | udp (h : Udp)
  | tcp (h : Tcp)
  | unparsed

namespace Transport

def bytes : Transport → List Byte
  | udp h => Header.encode h
  | tcp h => Header.encode h
  | unparsed => []

def udpHeader : Transport → Option Udp
  | udp h => some h
  | _ => none

def tcpHeader : Transport → Option Tcp
  | tcp h => some h
  | _ => none

def srcPort : Transport → BitVec 16
  | udp h => h.srcPort
  | tcp h => h.srcPort
  | unparsed => 0

def dstPort : Transport → BitVec 16
  | udp h => h.dstPort
  | tcp h => h.dstPort
  | unparsed => 0

/-- The header fits into the `len` transport bytes of the packet; fragments and other
protocols are not parsed. -/
def Fits (ip : Ipv4) (len : ℕ) : Transport → Prop
  | udp h => Unfragmented ip ∧ ip.protocol = 17 ∧ 8 ≤ len ∧ 8 ≤ h.length.toNat ∧
      h.length.toNat ≤ len
  | tcp h => Unfragmented ip ∧ ip.protocol = 6 ∧ 20 ≤ len ∧ 5 ≤ h.dataOffset.toNat ∧
      4 * h.dataOffset.toNat ≤ len
  | unparsed => ¬ (Unfragmented ip ∧ (ip.protocol = 6 ∨ ip.protocol = 17))

end Transport

/-- The headers after an IPv4 packet was parsed. -/
def parsedHeaders (eth : Ethernet) (ip : Ipv4) (options : Option (List Byte))
    (transport : Transport) : Headers where
  ethernet := some eth
  ipv4 := some ip
  options := options
  udp := transport.udpHeader
  tcp := transport.tcpHeader
  user :=
    { srcPort := transport.srcPort, dstPort := transport.dstPort
      transportLength := ip.totalLen - ip.ihl.setWidth 16 * 4 }

variable {eth : Ethernet} {ip : Ipv4} {options : Option (List Byte)} {bs payload : List Byte}
  {hdr : Headers} {len : BitVec 16}

theorem parseUdp_ok {h : Headers} : parseUdp len ⟨bs, h⟩ = (.ok (), ⟨payload, hdr⟩) ↔
    ∃ udp : Udp, bs = Header.encode udp ++ payload ∧ 8 ≤ len.toNat ∧ 8 ≤ udp.length.toNat ∧
      udp.length.toNat ≤ len.toNat ∧
      hdr = Headers.setPorts udp.srcPort udp.dstPort { h with udp := some udp } := by
  have hl : len ≥ 8 ↔ 8 ≤ len.toNat := by
    rw [ge_iff_le, BitVec.le_def]
    rfl
  have hu : ∀ udp : Udp, udp.length ≥ 8 ∧ udp.length ≤ len ↔
      8 ≤ udp.length.toNat ∧ udp.length.toNat ≤ len.toNat := by
    intro udp
    rw [ge_iff_le, BitVec.le_def, BitVec.le_def]
    rfl
  rw [parseUdp, Parser.verify_bind_ok, Parser.extract_bind_ok]
  simp only [Parser.verify_bind_ok, Parser.assign_ok, decide_eq_true_eq]
  constructor
  · rintro ⟨h₁, udp, rest, hb, h₂, rfl, rfl⟩
    obtain ⟨h₃, h₄⟩ := (hu udp).mp h₂
    exact ⟨udp, hb, hl.mp h₁, h₃, h₄, rfl⟩
  · rintro ⟨udp, hb, h₁, h₂, h₃, rfl⟩
    exact ⟨hl.mpr h₁, udp, payload, hb, (hu udp).mpr ⟨h₂, h₃⟩, rfl, rfl⟩

theorem parseTcp_ok {h : Headers} : parseTcp len ⟨bs, h⟩ = (.ok (), ⟨payload, hdr⟩) ↔
    ∃ tcp : Tcp, bs = Header.encode tcp ++ payload ∧ 20 ≤ len.toNat ∧ 5 ≤ tcp.dataOffset.toNat ∧
      4 * tcp.dataOffset.toNat ≤ len.toNat ∧
      hdr = Headers.setPorts tcp.srcPort tcp.dstPort { h with tcp := some tcp } := by
  have hl : len ≥ 20 ↔ 20 ≤ len.toNat := by
    rw [ge_iff_le, BitVec.le_def]
    rfl
  have ht : ∀ tcp : Tcp, tcp.dataOffset ≥ 5 ∧ tcp.dataOffset.setWidth 16 * 4 ≤ len ↔
      5 ≤ tcp.dataOffset.toNat ∧ 4 * tcp.dataOffset.toNat ≤ len.toNat := by
    intro tcp
    rw [ge_iff_le, BitVec.le_def, BitVec.le_def, headerLen_toNat]
    rfl
  rw [parseTcp, Parser.verify_bind_ok, Parser.extract_bind_ok]
  simp only [Parser.verify_bind_ok, Parser.assign_ok, decide_eq_true_eq]
  constructor
  · rintro ⟨h₁, tcp, rest, hb, h₂, rfl, rfl⟩
    obtain ⟨h₃, h₄⟩ := (ht tcp).mp h₂
    exact ⟨tcp, hb, hl.mp h₁, h₃, h₄, rfl⟩
  · rintro ⟨tcp, hb, h₁, h₂, h₃, rfl⟩
    exact ⟨hl.mpr h₁, tcp, payload, hb, (ht tcp).mpr ⟨h₂, h₃⟩, rfl, rfl⟩

/-- The headers when the fragment check is reached: ports zero, transport not parsed. -/
def beforeTransport (eth : Ethernet) (ip : Ipv4) (options : Option (List Byte)) : Headers :=
  parsedHeaders eth ip options .unparsed

theorem parseFragment_ok :
    parseFragment ip len ⟨bs, beforeTransport eth ip options⟩ = (.ok (), ⟨payload, hdr⟩) ↔
      ∃ transport : Transport, bs = transport.bytes ++ payload ∧ transport.Fits ip len.toNat ∧
        hdr = parsedHeaders eth ip options transport := by
  unfold parseFragment
  split_ifs with hf
  · unfold parseProtocol
    split_ifs with h6 h17
    · rw [parseTcp_ok]
      constructor
      · rintro ⟨tcp, hb, h₁, h₂, h₃, rfl⟩
        exact ⟨.tcp tcp, hb, ⟨hf, h6, h₁, h₂, h₃⟩, rfl⟩
      · rintro ⟨_ | tcp | _, hb, ht, rfl⟩
        · have h17 : (6 : BitVec 8) = 17 := h6 ▸ ht.2.1
          exact absurd h17 (by decide)
        · exact ⟨tcp, hb, ht.2.2.1, ht.2.2.2.1, ht.2.2.2.2, rfl⟩
        · exact absurd ⟨hf, Or.inl h6⟩ ht
    · rw [parseUdp_ok]
      constructor
      · rintro ⟨udp, hb, h₁, h₂, h₃, rfl⟩
        exact ⟨.udp udp, hb, ⟨hf, h17, h₁, h₂, h₃⟩, rfl⟩
      · rintro ⟨udp | _ | _, hb, ht, rfl⟩
        · exact ⟨udp, hb, ht.2.2.1, ht.2.2.2.1, ht.2.2.2.2, rfl⟩
        · exact absurd ht.2.1 h6
        · exact absurd ⟨hf, Or.inr h17⟩ ht
    · rw [Parser.accept_ok]
      constructor
      · rintro ⟨rfl, rfl⟩
        exact ⟨.unparsed, rfl, fun h => h.2.elim h6 h17, rfl⟩
      · rintro ⟨_ | _ | _, hb, ht, rfl⟩
        · exact absurd ht.2.1 h17
        · exact absurd ht.2.1 h6
        · exact ⟨hb, rfl⟩
  · rw [Parser.accept_ok]
    constructor
    · rintro ⟨rfl, rfl⟩
      exact ⟨.unparsed, rfl, fun h => hf h.1, rfl⟩
    · rintro ⟨_ | _ | _, hb, ht, rfl⟩
      · exact absurd ht.1 hf
      · exact absurd ht.1 hf
      · exact ⟨hb, rfl⟩

/-- The transport bytes the length fields promise. -/
def transportLen (ip : Ipv4) : ℕ := ip.totalLen.toNat - 4 * ip.ihl.toNat

theorem transportLength_toNat (h : 4 * ip.ihl.toNat ≤ ip.totalLen.toNat) :
    (ip.totalLen - ip.ihl.setWidth 16 * 4).toNat = transportLen ip := by
  rw [BitVec.toNat_sub_of_le (by rw [BitVec.le_def, headerLen_toNat]; exact h), headerLen_toNat,
    transportLen]

/-- The bytes of an accepted IPv4 packet. -/
structure Accepted (packet : List Byte) (eth : Ethernet) (ip : Ipv4) (opts : List Byte)
    (transport : Transport) (payload : List Byte) : Prop where
  bytes : packet = Header.encode eth ++ (Header.encode ip ++ (opts ++
    (transport.bytes ++ payload)))
  etherType : eth.etherType = typeIpv4
  lengths : LengthsOk ip.version ip.ihl ip.totalLen packet.length
  options : opts.length = 4 * (ip.ihl.toNat - 5)
  transport : transport.Fits ip (transportLen ip)

variable {lpm : Table (BitVec 32) LpmAction} {nhop : Table (BitVec 14) NhopAction} {port : Port}
  {packet : List Byte}

theorem parse_ok : (router lpm nhop).parse port packet = (.ok (), ⟨payload, hdr⟩) ↔
    (∃ eth : Ethernet, packet = Header.encode eth ++ payload ∧ eth.etherType ≠ typeIpv4 ∧
      hdr = { ethernet := some eth }) ∨
    ∃ eth ip opts transport, Accepted packet eth ip opts transport payload ∧
      hdr = parsedHeaders eth ip (optionsOf opts) transport := by
  change myParser (V1Switch.arrival port packet) ⟨packet, {}⟩ = _ ↔ _
  rw [myParser, Parser.assign_bind_ok, Parser.extract_bind_ok]
  constructor
  · rintro ⟨eth, rest, hp, h⟩
    split_ifs at h with ht
    · have hl : 14 ≤ packet.length := by simp [hp]
      rw [parseIpv4, Parser.extract_bind_ok] at h
      obtain ⟨ip, rest', rfl, h⟩ := h
      rw [V1Switch.arrival, verifyLengths_bind_ok hl, Parser.assign_bind_ok] at h
      obtain ⟨hok, h⟩ := h
      obtain ⟨opts, rest, rfl, ho, h⟩ :=
        (selectOptions_ok hok.five_le_ihl (beforeTransport eth ip) fun _ => by rfl).mp h
      obtain ⟨transport, rfl, hfit, rfl⟩ := parseFragment_ok.mp h
      rw [transportLength_toNat hok.header_le] at hfit
      exact Or.inr ⟨eth, ip, opts, transport, ⟨hp, ht, hok, ho, hfit⟩, rfl⟩
    · obtain ⟨rfl, rfl⟩ := Parser.accept_ok.mp h
      exact Or.inl ⟨eth, hp, ht, rfl⟩
  · rintro (⟨eth, hp, ht, rfl⟩ | ⟨eth, ip, opts, transport, ⟨hp, ht, hok, ho, hfit⟩, rfl⟩)
    · refine ⟨eth, payload, hp, ?_⟩
      rw [if_neg ht, Parser.accept_ok]
      exact ⟨rfl, rfl⟩
    · have hl : 14 ≤ packet.length := by simp [hp]
      refine ⟨eth, _, hp, ?_⟩
      rw [if_pos ht, parseIpv4, Parser.extract_bind_ok]
      refine ⟨ip, _, rfl, ?_⟩
      rw [V1Switch.arrival, verifyLengths_bind_ok hl, Parser.assign_bind_ok]
      refine ⟨hok, ?_⟩
      refine (selectOptions_ok hok.five_le_ihl (beforeTransport eth ip) fun _ => by rfl).mpr ?_
      rw [← transportLength_toNat hok.header_le] at hfit
      exact ⟨opts, _, rfl, ho, parseFragment_ok.mpr ⟨transport, rfl, hfit, rfl⟩⟩

end P4Cases.Ecmp
