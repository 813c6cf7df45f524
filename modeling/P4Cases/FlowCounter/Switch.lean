import P4Cases.Frames.Ipv4

/-! The flow counter: two ports connected to each other, and a register array
that counts the UDP packets of each slot of flows. -/
namespace P4Cases.FlowCounter
open Wire P4

inductive ErrorCode where
  | invalidIPv4Version
  | invalidIPv4Length
  | invalidUDPLength
  deriving DecidableEq, Repr

structure Headers where
  ethernet : Option Ethernet := none
  ipv4 : Option Ipv4 := none
  options : Option (List Byte) := none
  udp : Option Udp := none

abbrev Metadata := StandardMetadata ErrorCode

abbrev Slot := BitVec 10

/-- `flow_counter`. -/
abbrev Registers := Vector (BitVec 32) 1024

def parseUdp (ipv4 : Ipv4) : Parser ErrorCode Headers Unit := do
  Parser.verify (ipv4.totalLen ≥ ipv4.ihl.setWidth 16 * 4 + 8) .invalidUDPLength
  let udp : Udp ← Parser.extract fun h hdr => { hdr with udp := some h }
  Parser.verify (udp.length ≥ 8 ∧ udp.length ≤ ipv4.totalLen - ipv4.ihl.setWidth 16 * 4)
    .invalidUDPLength
  Parser.accept

/-- A fragment's payload may contain incomplete or absent UDP ports. -/
def parseProtocol (ipv4 : Ipv4) : Parser ErrorCode Headers Unit :=
  if ipv4.protocol = 17 ∧ ipv4.flags.extractLsb' 0 1 = 0 ∧ ipv4.fragOffset = 0 then parseUdp ipv4
  else Parser.accept

def parseIpv4 (sm : Metadata) : Parser ErrorCode Headers Unit := do
  let ipv4 : Ipv4 ← Parser.extract fun h hdr => { hdr with ipv4 := some h }
  verifyLengths .invalidIPv4Version .invalidIPv4Length ipv4.version ipv4.ihl ipv4.totalLen
    sm.packetLength
  if ipv4.ihl = 5 then parseProtocol ipv4
  else
    parseOptions ipv4.ihl (fun data hdr => { hdr with options := some data })
      (parseProtocol ipv4)

def myParser (sm : Metadata) : Parser ErrorCode Headers Unit := do
  let ethernet : Ethernet ← Parser.extract fun h hdr => { hdr with ethernet := some h }
  if ethernet.etherType = typeIpv4 then parseIpv4 sm else Parser.accept

/-- The fields the slot is computed from, in order. -/
def hashFields (ipv4 : Ipv4) (udp : Udp) : List Bool :=
  toBits ipv4.srcAddr ++ (toBits ipv4.dstAddr ++ (toBits udp.srcPort ++ toBits udp.dstPort))

def slotOf (ipv4 : Ipv4) (udp : Udp) : Slot :=
  BitVec.ofNat 10 (hashCrc16 0 (hashFields ipv4 udp) 1024)

/-- Read, add one, write back. -/
def increment (flowCounter : Registers) (slot : Slot) : Registers :=
  flowCounter.set slot.toNat (flowCounter[slot.toNat] + 1)

/-- The parser sets the UDP header only behind an IPv4 header. -/
def countPacket (flowCounter : Registers) (hdr : Headers) : Registers :=
  match hdr.ipv4, hdr.udp with
  | some ipv4, some udp => increment flowCounter (slotOf ipv4 udp)
  | _, _ => flowCounter

def myIngress (flowCounter : Registers) (hdr : Headers) (sm : Metadata) : Registers × Metadata :=
  if sm.parserError ≠ none ∨ sm.checksumError = 1 then (flowCounter, markToDrop sm)
  else if sm.ingressPort = 1 then (countPacket flowCounter hdr, { sm with egressSpec := 2 })
  else if sm.ingressPort = 2 then (countPacket flowCounter hdr, { sm with egressSpec := 1 })
  else (flowCounter, markToDrop sm)

def myDeparser (hdr : Headers) : List Byte :=
  hdr.ethernet.elim [] Header.encode ++ (hdr.ipv4.elim [] Header.encode ++
    (hdr.options.getD [] ++ hdr.udp.elim [] Header.encode))

def counter : V1Switch ErrorCode Headers Registers where
  initial := {}
  parser := myParser
  verifyChecksum hdr := verifyIpv4 hdr.ipv4 hdr.options
  ingress flowCounter hdr sm :=
    let out := myIngress flowCounter hdr sm
    (out.1, hdr, out.2)
  egress hdr sm := (hdr, sm)
  computeChecksum hdr := hdr
  deparser := myDeparser

/-! What the parser accepts. -/

/-- A UDP header is parsed for unfragmented UDP, and then fits. -/
def UdpOk (ip : Ipv4) : Option Udp → Prop
  | some udp => Unfragmented ip ∧ ip.protocol = 17 ∧ 4 * ip.ihl.toNat + 8 ≤ ip.totalLen.toNat ∧
      8 ≤ udp.length.toNat ∧ udp.length.toNat ≤ ip.totalLen.toNat - 4 * ip.ihl.toNat
  | none => ¬ (Unfragmented ip ∧ ip.protocol = 17)

variable {ip : Ipv4} {bs payload packet : List Byte} {hdr : Headers} {port : Port}

theorem parseUdp_ok {h : Headers} (hl : 4 * ip.ihl.toNat ≤ ip.totalLen.toNat) :
    parseUdp ip ⟨bs, h⟩ = (.ok (), ⟨payload, hdr⟩) ↔
      ∃ udp : Udp, bs = Header.encode udp ++ payload ∧
        4 * ip.ihl.toNat + 8 ≤ ip.totalLen.toNat ∧ 8 ≤ udp.length.toNat ∧
        udp.length.toNat ≤ ip.totalLen.toNat - 4 * ip.ihl.toNat ∧
        hdr = { h with udp := some udp } := by
  have hu : ∀ udp : Udp,
      udp.length ≥ 8 ∧ udp.length ≤ ip.totalLen - ip.ihl.setWidth 16 * 4 ↔
        8 ≤ udp.length.toNat ∧ udp.length.toNat ≤ ip.totalLen.toNat - 4 * ip.ihl.toNat := by
    intro udp
    rw [ge_iff_le, BitVec.le_def, BitVec.le_def, BitVec.toNat_sub_of_le, headerLen_toNat]
    · rfl
    · rw [BitVec.le_def, headerLen_toNat]
      exact hl
  have hh := headerLen_add_le ip.ihl ip.totalLen (k := 8) (by omega)
  rw [parseUdp, Parser.verify_bind_ok, Parser.extract_bind_ok]
  simp only [Parser.verify_bind_ok, Parser.accept_ok, decide_eq_true_eq]
  constructor
  · rintro ⟨h₁, udp, rest, hb, h₂, rfl, rfl⟩
    obtain ⟨h₃, h₄⟩ := (hu udp).mp h₂
    exact ⟨udp, hb, hh.mp h₁, h₃, h₄, rfl⟩
  · rintro ⟨udp, hb, h₁, h₂, h₃, rfl⟩
    exact ⟨hh.mpr h₁, udp, payload, hb, (hu udp).mpr ⟨h₂, h₃⟩, rfl, rfl⟩

theorem parseProtocol_ok {h : Headers} (hn : h.udp = none)
    (hl : 4 * ip.ihl.toNat ≤ ip.totalLen.toNat) :
    parseProtocol ip ⟨bs, h⟩ = (.ok (), ⟨payload, hdr⟩) ↔
      ∃ udp : Option Udp, bs = udp.elim [] Header.encode ++ payload ∧ UdpOk ip udp ∧
        hdr = { h with udp := udp } := by
  unfold parseProtocol
  split_ifs with hu
  · rw [parseUdp_ok hl]
    constructor
    · rintro ⟨udp, hb, h₁, h₂, h₃, rfl⟩
      exact ⟨some udp, hb, ⟨hu.2, hu.1, h₁, h₂, h₃⟩, rfl⟩
    · rintro ⟨_ | udp, hb, ho, rfl⟩
      · exact absurd ⟨hu.2, hu.1⟩ ho
      · obtain ⟨-, -, h₁, h₂, h₃⟩ := ho
        exact ⟨udp, hb, h₁, h₂, h₃, rfl⟩
  · rw [Parser.accept_ok]
    constructor
    · rintro ⟨rfl, rfl⟩
      exact ⟨none, rfl, fun h => hu ⟨h.2, h.1⟩, hn ▸ rfl⟩
    · rintro ⟨_ | udp, hb, ho, rfl⟩
      · exact ⟨hb, hn ▸ rfl⟩
      · exact absurd ⟨ho.2.1, ho.1⟩ hu

/-- The headers when `parse_protocol` is reached. -/
def beforeUdp (eth : Ethernet) (ip : Ipv4) (options : Option (List Byte)) : Headers :=
  { ethernet := some eth, ipv4 := some ip, options }

/-- The bytes of an accepted IPv4 packet. -/
structure Parsed (packet : List Byte) (eth : Ethernet) (ip : Ipv4) (opts : List Byte)
    (udp : Option Udp) (payload : List Byte) : Prop where
  bytes : packet = Header.encode eth ++ (Header.encode ip ++ (opts ++
    (udp.elim [] Header.encode ++ payload)))
  isIpv4 : eth.etherType = typeIpv4
  lengths : LengthsOk ip.version ip.ihl ip.totalLen packet.length
  options : opts.length = 4 * (ip.ihl.toNat - 5)
  udp : UdpOk ip udp

theorem parse_ok : counter.parse port packet = (.ok (), ⟨payload, hdr⟩) ↔
    (∃ eth : Ethernet, packet = Header.encode eth ++ payload ∧ eth.etherType ≠ typeIpv4 ∧
      hdr = { ethernet := some eth }) ∨
    ∃ eth ip opts udp, Parsed packet eth ip opts udp payload ∧
      hdr = { beforeUdp eth ip (optionsOf opts) with udp := udp } := by
  change myParser (V1Switch.arrival port packet) ⟨packet, {}⟩ = _ ↔ _
  rw [myParser, Parser.extract_bind_ok]
  constructor
  · rintro ⟨eth, rest, hp, h⟩
    split_ifs at h with ht
    · have hl : 14 ≤ packet.length := by simp [hp]
      rw [parseIpv4, Parser.extract_bind_ok] at h
      obtain ⟨ip, rest', rfl, h⟩ := h
      rw [V1Switch.arrival, verifyLengths_bind_ok hl] at h
      obtain ⟨hok, h⟩ := h
      obtain ⟨opts, rest, rfl, ho, h⟩ :=
        (selectOptions_ok hok.five_le_ihl (beforeUdp eth ip) fun _ => by rfl).mp h
      obtain ⟨udp, rfl, hu, rfl⟩ := (parseProtocol_ok rfl hok.header_le).mp h
      exact Or.inr ⟨eth, ip, opts, udp, ⟨hp, ht, hok, ho, hu⟩, rfl⟩
    · obtain ⟨rfl, rfl⟩ := Parser.accept_ok.mp h
      exact Or.inl ⟨eth, hp, ht, rfl⟩
  · rintro (⟨eth, hp, ht, rfl⟩ | ⟨eth, ip, opts, udp, ⟨hp, ht, hok, ho, hu⟩, rfl⟩)
    · refine ⟨eth, payload, hp, ?_⟩
      rw [if_neg ht, Parser.accept_ok]
      exact ⟨rfl, rfl⟩
    · have hl : 14 ≤ packet.length := by simp [hp]
      refine ⟨eth, _, hp, ?_⟩
      rw [if_pos ht, parseIpv4, Parser.extract_bind_ok]
      refine ⟨ip, _, rfl, ?_⟩
      rw [V1Switch.arrival, verifyLengths_bind_ok hl]
      refine ⟨hok, ?_⟩
      refine (selectOptions_ok hok.five_le_ihl (beforeUdp eth ip) fun _ => by rfl).mpr ?_
      exact ⟨opts, _, rfl, ho, (parseProtocol_ok rfl hok.header_le).mpr ⟨udp, rfl, hu, rfl⟩⟩

end P4Cases.FlowCounter
