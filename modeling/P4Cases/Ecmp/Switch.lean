import P4Cases.Frames.Ipv4

/-! The ECMP router: a longest-prefix route either names a next hop or selects
one of a group by a hash of the flow, and the entries the controller installs. -/
namespace P4Cases.Ecmp
open Wire P4

inductive ErrorCode where
  | invalidIPv4Version
  | invalidIPv4Length
  | invalidTransportLength
  deriving DecidableEq, Repr

structure Tcp where
  srcPort : BitVec 16
  dstPort : BitVec 16
  seqNo : BitVec 32
  ackNo : BitVec 32
  dataOffset : BitVec 4
  reserved : BitVec 4
  flags : BitVec 8
  window : BitVec 16
  checksum : BitVec 16
  urgentPtr : BitVec 16
  deriving DecidableEq

instance : Header Tcp where
  layout := [16, 16, 32, 32, 4, 4, 8, 16, 16, 16]
  size := 20
  sum_layout := rfl
  toFields h := (h.srcPort, h.dstPort, h.seqNo, h.ackNo, h.dataOffset, h.reserved, h.flags,
    h.window, h.checksum, h.urgentPtr, ())
  ofFields f := match f with
    | (a, b, c, d, e, f, g, h, i, j, ()) => ⟨a, b, c, d, e, f, g, h, i, j⟩
  ofFields_toFields _ := rfl
  toFields_ofFields _ := rfl

structure UserMetadata where
  ecmpSelect : BitVec 14 := 0
  srcPort : BitVec 16 := 0
  dstPort : BitVec 16 := 0
  transportLength : BitVec 16 := 0
  deriving DecidableEq

structure Headers where
  ethernet : Option Ethernet := none
  ipv4 : Option Ipv4 := none
  options : Option (List Byte) := none
  udp : Option Udp := none
  tcp : Option Tcp := none
  user : UserMetadata := {}

abbrev Metadata := StandardMetadata ErrorCode

def Headers.setPorts (srcPort dstPort : BitVec 16) (hdr : Headers) : Headers :=
  { hdr with user := { hdr.user with srcPort, dstPort } }

def parseUdp (transportLength : BitVec 16) : Parser ErrorCode Headers Unit := do
  Parser.verify (transportLength ≥ 8) .invalidTransportLength
  let udp : Udp ← Parser.extract fun h hdr => { hdr with udp := some h }
  Parser.verify (udp.length ≥ 8 ∧ udp.length ≤ transportLength) .invalidTransportLength
  Parser.assign (Headers.setPorts udp.srcPort udp.dstPort)

def parseTcp (transportLength : BitVec 16) : Parser ErrorCode Headers Unit := do
  Parser.verify (transportLength ≥ 20) .invalidTransportLength
  let tcp : Tcp ← Parser.extract fun h hdr => { hdr with tcp := some h }
  Parser.verify (tcp.dataOffset ≥ 5 ∧ tcp.dataOffset.setWidth 16 * 4 ≤ transportLength)
    .invalidTransportLength
  Parser.assign (Headers.setPorts tcp.srcPort tcp.dstPort)

def parseProtocol (ipv4 : Ipv4) (transportLength : BitVec 16) : Parser ErrorCode Headers Unit :=
  if ipv4.protocol = 6 then parseTcp transportLength
  else if ipv4.protocol = 17 then parseUdp transportLength
  else Parser.accept

/-- All fragments, including the first, keep zero transport ports. -/
def parseFragment (ipv4 : Ipv4) (transportLength : BitVec 16) : Parser ErrorCode Headers Unit :=
  if ipv4.flags.extractLsb' 0 1 = 0 ∧ ipv4.fragOffset = 0 then parseProtocol ipv4 transportLength
  else Parser.accept

def parseIpv4 (sm : Metadata) : Parser ErrorCode Headers Unit := do
  let ipv4 : Ipv4 ← Parser.extract fun h hdr => { hdr with ipv4 := some h }
  verifyLengths .invalidIPv4Version .invalidIPv4Length ipv4.version ipv4.ihl ipv4.totalLen
    sm.packetLength
  let transportLength := ipv4.totalLen - ipv4.ihl.setWidth 16 * 4
  Parser.assign fun hdr => { hdr with user := { hdr.user with transportLength } }
  if ipv4.ihl = 5 then parseFragment ipv4 transportLength
  else
    parseOptions ipv4.ihl (fun data hdr => { hdr with options := some data })
      (parseFragment ipv4 transportLength)

def myParser (sm : Metadata) : Parser ErrorCode Headers Unit := do
  Parser.assign (Headers.setPorts 0 0)
  let ethernet : Ethernet ← Parser.extract fun h hdr => { hdr with ethernet := some h }
  if ethernet.etherType = typeIpv4 then parseIpv4 sm else Parser.accept

inductive LpmAction where
  | setEcmpSelect (ecmpBase ecmpCount : BitVec 14)
  | setNhop (dstAddr : BitVec 48) (port : Port)
  | drop
  | noAction
  deriving DecidableEq

inductive NhopAction where
  | setNhop (dstAddr : BitVec 48) (port : Port)
  | drop
  deriving DecidableEq

def setNhop (dstAddr : BitVec 48) (port : Port) (hdr : Headers) (sm : Metadata) :
    Headers × Metadata :=
  ({ hdr with
      ethernet := hdr.ethernet.map fun e => { e with srcAddr := e.dstAddr, dstAddr }
      ipv4 := hdr.ipv4.map fun h => { h with ttl := h.ttl - 1 } },
    { sm with egressSpec := port })

/-- The fields the flow hash reads, in order. -/
def hashFields (ipv4 : Ipv4) (user : UserMetadata) : List Bool :=
  toBits ipv4.srcAddr ++ (toBits ipv4.dstAddr ++ (toBits ipv4.protocol ++
    (toBits user.srcPort ++ toBits user.dstPort)))

def setEcmpSelect (ecmpBase ecmpCount : BitVec 14) (ipv4 : Ipv4) (hdr : Headers) : Headers :=
  let hash := hashCrc16 ecmpBase.toNat (hashFields ipv4 hdr.user) ecmpCount.toNat
  { hdr with user := { hdr.user with ecmpSelect := BitVec.ofNat 14 hash } }

def applyNhop (ecmpNhop : Table (BitVec 14) NhopAction) (hdr : Headers) (sm : Metadata) :
    Headers × Metadata :=
  match (ecmpNhop.lookup hdr.user.ecmpSelect).getD .drop with
  | .setNhop dstAddr port => setNhop dstAddr port hdr sm
  | .drop => (hdr, markToDrop sm)

def applyLpm (ipv4Lpm : Table (BitVec 32) LpmAction) (ecmpNhop : Table (BitVec 14) NhopAction)
    (ipv4 : Ipv4) (hdr : Headers) (sm : Metadata) : Headers × Metadata :=
  match (ipv4Lpm.lookup ipv4.dstAddr).getD .drop with
  | .setEcmpSelect ecmpBase ecmpCount =>
      applyNhop ecmpNhop (setEcmpSelect ecmpBase ecmpCount ipv4 hdr) sm
  | .setNhop dstAddr port => setNhop dstAddr port hdr sm
  | .drop => (hdr, markToDrop sm)
  | .noAction => (hdr, sm)

def myIngress (ipv4Lpm : Table (BitVec 32) LpmAction) (ecmpNhop : Table (BitVec 14) NhopAction)
    (hdr : Headers) (sm : Metadata) : Headers × Metadata :=
  match hdr.ipv4 with
  | none => (hdr, markToDrop sm)
  | some ipv4 =>
      if sm.parserError ≠ none ∨ sm.checksumError = 1 ∨ ipv4.ttl ≤ 1 then (hdr, markToDrop sm)
      else applyLpm ipv4Lpm ecmpNhop ipv4 hdr sm

def myComputeChecksum (hdr : Headers) : Headers :=
  { hdr with ipv4 := updateIpv4 hdr.ipv4 hdr.options }

def myDeparser (hdr : Headers) : List Byte :=
  hdr.ethernet.elim [] Header.encode ++ (hdr.ipv4.elim [] Header.encode ++
    (hdr.options.getD [] ++ (hdr.udp.elim [] Header.encode ++ hdr.tcp.elim [] Header.encode)))

def router (ipv4Lpm : Table (BitVec 32) LpmAction) (ecmpNhop : Table (BitVec 14) NhopAction) :
    V1Switch ErrorCode Headers Unit where
  initial := {}
  parser := myParser
  verifyChecksum hdr := verifyIpv4 hdr.ipv4 hdr.options
  ingress _ hdr sm := ((), myIngress ipv4Lpm ecmpNhop hdr sm)
  egress hdr sm := (hdr, sm)
  computeChecksum := myComputeChecksum
  deparser := myDeparser

/-! The controller's entries: direct routes, the group for the rest of the subnet,
and its two slots. -/

def lpmEntries : Table (BitVec 32) LpmAction :=
  [.lpm 0x0a000001 32 (.setNhop 0x000000000001 1), .lpm 0x0a000002 32 (.setNhop 0x000000000002 2),
   .lpm 0x0a000003 32 (.setNhop 0x000000000003 3), .lpm 0x0a000000 24 (.setEcmpSelect 0 2)]

def nhopEntries : Table (BitVec 14) NhopAction :=
  [.exact 0 (.setNhop 0x000000000002 2), .exact 1 (.setNhop 0x000000000003 3)]

end P4Cases.Ecmp
