import P4Cases.Frames.Ipv4

/-! The stateless firewall: a MAC table, then prioritised rules on addresses,
protocol and destination port, and the entries the controller installs. -/
namespace P4Cases.Firewall
open Wire P4

inductive ErrorCode where
  | invalidIPv4Version
  | invalidIPv4Length
  | ipv4Fragment
  deriving DecidableEq, Repr

/-- TCP and UDP both start with their ports. -/
structure L4Ports where
  srcPort : BitVec 16
  dstPort : BitVec 16
  deriving DecidableEq

instance : Header L4Ports where
  layout := [16, 16]
  size := 4
  sum_layout := rfl
  toFields h := (h.srcPort, h.dstPort, ())
  ofFields f := ⟨f.1, f.2.1⟩
  ofFields_toFields _ := rfl
  toFields_ofFields _ := rfl

structure Headers where
  ethernet : Option Ethernet := none
  ipv4 : Option Ipv4 := none
  options : Option (List Byte) := none
  l4 : Option L4Ports := none

abbrev Metadata := StandardMetadata ErrorCode

def parseL4 : Parser ErrorCode Headers Unit := do
  let _ : L4Ports ← Parser.extract fun h hdr => { hdr with l4 := some h }
  Parser.accept

def parseTcp (ipv4 : Ipv4) : Parser ErrorCode Headers Unit := do
  Parser.verify (ipv4.totalLen ≥ ipv4.ihl.setWidth 16 * 4 + 20) .invalidIPv4Length
  parseL4

def parseUdp (ipv4 : Ipv4) : Parser ErrorCode Headers Unit := do
  Parser.verify (ipv4.totalLen ≥ ipv4.ihl.setWidth 16 * 4 + 8) .invalidIPv4Length
  parseL4

def parseProtocol (ipv4 : Ipv4) : Parser ErrorCode Headers Unit :=
  if ipv4.protocol = 6 then parseTcp ipv4
  else if ipv4.protocol = 17 then parseUdp ipv4
  else Parser.accept

def parseIpv4 (sm : Metadata) : Parser ErrorCode Headers Unit := do
  let ipv4 : Ipv4 ← Parser.extract fun h hdr => { hdr with ipv4 := some h }
  verifyLengths .invalidIPv4Version .invalidIPv4Length ipv4.version ipv4.ihl ipv4.totalLen
    sm.packetLength
  Parser.verify (ipv4.fragOffset = 0 ∧ ipv4.flags.extractLsb' 0 1 = 0) .ipv4Fragment
  if ipv4.ihl = 5 then parseProtocol ipv4
  else
    parseOptions ipv4.ihl (fun data hdr => { hdr with options := some data })
      (parseProtocol ipv4)

def myParser (sm : Metadata) : Parser ErrorCode Headers Unit := do
  let ethernet : Ethernet ← Parser.extract fun h hdr => { hdr with ethernet := some h }
  if ethernet.etherType = typeIpv4 then parseIpv4 sm else Parser.accept

inductive DmacAction where
  | forward (egressPort : Port)
  | noAction
  deriving DecidableEq

inductive AclAction where
  | allow
  | deny
  | noAction
  deriving DecidableEq

structure AclKey where
  srcAddr : BitVec 32
  dstAddr : BitVec 32
  protocol : BitVec 8
  dstPort : BitVec 16
  deriving DecidableEq

def applyDmac (dmac : Table (BitVec 48) DmacAction) (dstAddr : BitVec 48) (sm : Metadata) :
    Metadata :=
  match (dmac.lookup dstAddr).getD .noAction with
  | .forward egressPort => { sm with egressSpec := egressPort }
  | .noAction => sm

def applyAcl (acl : Table AclKey AclAction) (key : AclKey) (sm : Metadata) : Metadata :=
  match (acl.lookup key).getD .allow with
  | .deny => markToDrop sm
  | .allow => sm
  | .noAction => sm

/-- `unset` is what reading a field of an invalid header gives. -/
def aclKey (unset : BitVec 16) (ipv4 : Ipv4) (l4 : Option L4Ports) : AclKey :=
  { srcAddr := ipv4.srcAddr, dstAddr := ipv4.dstAddr, protocol := ipv4.protocol
    dstPort := l4.elim unset L4Ports.dstPort }

def myIngress (dmac : Table (BitVec 48) DmacAction) (acl : Table AclKey AclAction)
    (unset : BitVec 16) (hdr : Headers) (sm : Metadata) : Metadata :=
  if sm.parserError ≠ none then markToDrop sm
  else
    let sm := match hdr.ethernet with
      | some ethernet => applyDmac dmac ethernet.dstAddr sm
      | none => sm
    match hdr.ipv4 with
    | some ipv4 => applyAcl acl (aclKey unset ipv4 hdr.l4) sm
    | none => sm

def myDeparser (hdr : Headers) : List Byte :=
  hdr.ethernet.elim [] Header.encode ++ (hdr.ipv4.elim [] Header.encode ++
    (hdr.options.getD [] ++ hdr.l4.elim [] Header.encode))

def firewall (dmac : Table (BitVec 48) DmacAction) (acl : Table AclKey AclAction)
    (unset : BitVec 16) : V1Switch ErrorCode Headers Unit where
  initial := {}
  parser := myParser
  verifyChecksum _ := false
  ingress _ hdr sm := ((), hdr, myIngress dmac acl unset hdr sm)
  egress hdr sm := (hdr, sm)
  computeChecksum hdr := hdr
  deparser := myDeparser

/-! The controller's entries. -/

def dmacEntries : Table (BitVec 48) DmacAction :=
  [.exact 0x000000000001 (.forward 1), .exact 0x000000000002 (.forward 2)]

/-- A rule: for each field of the key a value and the mask of the bits compared. -/
def rule (srcAddr dstAddr : BitVec 32 × BitVec 32) (protocol : BitVec 8 × BitVec 8)
    (dstPort : BitVec 16 × BitVec 16) (priority : ℕ) (action : AclAction) :
    Entry AclKey AclAction where
  hits key := Entry.ternary srcAddr.1 srcAddr.2 key.srcAddr &&
    Entry.ternary dstAddr.1 dstAddr.2 key.dstAddr &&
    Entry.ternary protocol.1 protocol.2 key.protocol &&
    Entry.ternary dstPort.1 dstPort.2 key.dstPort
  rank := priority
  action := action

def rule1 : Entry AclKey AclAction :=
  rule (0, 0) (0x0a000002, 0xffffffff) (6, 0xff) (22, 0xffff) 100 .deny

def rule2 : Entry AclKey AclAction :=
  rule (0, 0) (0x0a000002, 0xffffffff) (6, 0xff) (0, 0) 90 .allow

def rule3 : Entry AclKey AclAction :=
  rule (0x0a000001, 0xffffffff) (0, 0) (17, 0xff) (5000, 0xffff) 80 .deny

def aclEntries : Table AclKey AclAction := [rule1, rule2, rule3]

/-! What the parser accepts. -/

@[simp] theorem L4Ports.size : Header.size L4Ports = 4 := rfl

theorem L4Ports.encode_eq (h : L4Ports) :
    Header.encode h = beBytes 2 h.srcPort.toNat ++ beBytes 2 h.dstPort.toNat := by
  change packBits (toBits h.srcPort ++ (toBits h.dstPort ++ [])) = _
  simp [packBits_toBits]

/-- The ports are parsed for TCP and UDP, whose shortest headers must fit. -/
def PortsOk (ip : Ipv4) (l4 : Option L4Ports) : Prop :=
  if ip.protocol = 6 then 4 * ip.ihl.toNat + 20 ≤ ip.totalLen.toNat ∧ l4.isSome
  else if ip.protocol = 17 then 4 * ip.ihl.toNat + 8 ≤ ip.totalLen.toNat ∧ l4.isSome
  else l4 = none

theorem parseL4_ok {bs payload : List Byte} {hdr hdr' : Headers} :
    parseL4 ⟨bs, hdr⟩ = (.ok (), ⟨payload, hdr'⟩) ↔
      ∃ l4 : L4Ports, bs = Header.encode l4 ++ payload ∧ hdr' = { hdr with l4 := some l4 } := by
  rw [parseL4, Parser.extract_bind_ok]
  simp only [Parser.accept_ok]
  constructor
  · rintro ⟨l4, rest, hb, rfl, rfl⟩
    exact ⟨l4, hb, rfl⟩
  · rintro ⟨l4, hb, rfl⟩
    exact ⟨l4, payload, hb, rfl, rfl⟩

/-- The headers set when the ports are reached. -/
def Headers.ofIpv4 (eth : Ethernet) (ip : Ipv4) (options : Option (List Byte)) : Headers :=
  { ethernet := some eth, ipv4 := some ip, options }

theorem parseProtocol_ok {ip : Ipv4} {bs payload : List Byte} {hdr hdr' : Headers}
    (hn : hdr.l4 = none) :
    parseProtocol ip ⟨bs, hdr⟩ = (.ok (), ⟨payload, hdr'⟩) ↔
      ∃ l4 : Option L4Ports, bs = l4.elim [] Header.encode ++ payload ∧ PortsOk ip l4 ∧
        hdr' = { hdr with l4 := l4 } := by
  unfold parseProtocol PortsOk
  split_ifs with h6 h17
  · have hl := headerLen_add_le ip.ihl ip.totalLen (k := 20) (by omega)
    rw [parseTcp, Parser.verify_bind_ok, parseL4_ok, decide_eq_true_eq]
    constructor
    · rintro ⟨h, l4, hb, rfl⟩
      exact ⟨some l4, hb, ⟨hl.mp h, rfl⟩, rfl⟩
    · rintro ⟨l4, hb, ⟨h, hs⟩, rfl⟩
      obtain ⟨l4, rfl⟩ := Option.isSome_iff_exists.mp hs
      exact ⟨hl.mpr h, l4, hb, rfl⟩
  · have hl := headerLen_add_le ip.ihl ip.totalLen (k := 8) (by omega)
    rw [parseUdp, Parser.verify_bind_ok, parseL4_ok, decide_eq_true_eq]
    constructor
    · rintro ⟨h, l4, hb, rfl⟩
      exact ⟨some l4, hb, ⟨hl.mp h, rfl⟩, rfl⟩
    · rintro ⟨l4, hb, ⟨h, hs⟩, rfl⟩
      obtain ⟨l4, rfl⟩ := Option.isSome_iff_exists.mp hs
      exact ⟨hl.mpr h, l4, hb, rfl⟩
  · rw [Parser.accept_ok]
    constructor
    · rintro ⟨rfl, rfl⟩
      exact ⟨none, rfl, rfl, hn ▸ rfl⟩
    · rintro ⟨l4, hb, rfl, rfl⟩
      exact ⟨hb, hn ▸ rfl⟩

variable {dmac : Table (BitVec 48) DmacAction} {acl : Table AclKey AclAction}
  {unset : BitVec 16} {port : Port} {packet payload : List Byte} {hdr : Headers}

theorem parse_ok : (firewall dmac acl unset).parse port packet = (.ok (), ⟨payload, hdr⟩) ↔
    (∃ eth : Ethernet, packet = Header.encode eth ++ payload ∧ eth.etherType ≠ typeIpv4 ∧
      hdr = { ethernet := some eth }) ∨
    ∃ (eth : Ethernet) (ip : Ipv4) (opts : List Byte) (l4 : Option L4Ports),
      packet = Header.encode eth ++ (Header.encode ip ++ (opts ++
        (l4.elim [] Header.encode ++ payload))) ∧
      eth.etherType = typeIpv4 ∧ LengthsOk ip.version ip.ihl ip.totalLen packet.length ∧
      opts.length = 4 * (ip.ihl.toNat - 5) ∧ Unfragmented ip ∧ PortsOk ip l4 ∧
      hdr = { ethernet := some eth, ipv4 := some ip, options := optionsOf opts, l4 := l4 } := by
  change myParser (V1Switch.arrival port packet) ⟨packet, {}⟩ = _ ↔ _
  rw [myParser, Parser.extract_bind_ok]
  constructor
  · rintro ⟨eth, rest, hp, h⟩
    split_ifs at h with ht
    · have hl : 14 ≤ packet.length := by simp [hp]
      rw [parseIpv4, Parser.extract_bind_ok] at h
      obtain ⟨ip, rest', rfl, h⟩ := h
      rw [V1Switch.arrival, verifyLengths_bind_ok hl, Parser.verify_bind_ok, decide_eq_true_eq] at h
      obtain ⟨hok, hf, h⟩ := h
      obtain ⟨opts, rest, rfl, ho, h⟩ :=
        (selectOptions_ok hok.five_le_ihl (Headers.ofIpv4 eth ip) fun _ => by rfl).mp h
      obtain ⟨l4, rfl, hports, rfl⟩ := (parseProtocol_ok rfl).mp h
      exact Or.inr ⟨eth, ip, opts, l4, hp, ht, hok, ho, hf.symm, hports, rfl⟩
    · obtain ⟨rfl, rfl⟩ := Parser.accept_ok.mp h
      exact Or.inl ⟨eth, hp, ht, rfl⟩
  · rintro (⟨eth, hp, ht, rfl⟩ | ⟨eth, ip, opts, l4, hp, ht, hok, ho, hf, hports, rfl⟩)
    · refine ⟨eth, payload, hp, ?_⟩
      rw [if_neg ht, Parser.accept_ok]
      exact ⟨rfl, rfl⟩
    · have hl : 14 ≤ packet.length := by simp [hp]
      refine ⟨eth, _, hp, ?_⟩
      rw [if_pos ht, parseIpv4, Parser.extract_bind_ok]
      refine ⟨ip, _, rfl, ?_⟩
      rw [V1Switch.arrival, verifyLengths_bind_ok hl, Parser.verify_bind_ok, decide_eq_true_eq]
      refine ⟨hok, hf.symm, ?_⟩
      refine (selectOptions_ok hok.five_le_ihl (Headers.ofIpv4 eth ip) fun _ => by rfl).mpr ?_
      exact ⟨opts, _, rfl, ho, (parseProtocol_ok rfl).mpr ⟨l4, rfl, hports, rfl⟩⟩

end P4Cases.Firewall
