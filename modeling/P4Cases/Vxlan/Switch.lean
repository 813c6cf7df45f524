import P4Cases.Frames.Checksum

/-! The VXLAN tunnel endpoint and the entry its controller installs. -/
namespace P4Cases.Vxlan
open Wire P4

def protoUdp : BitVec 8 := 17
def vxlanPort : BitVec 16 := 4789

/-- The IPv4 limit less the IP, UDP and VXLAN headers. -/
def maxInnerFrame : BitVec 32 := 65499

structure VxlanHeader where
  flags : BitVec 8
  reserved : BitVec 24
  vni : BitVec 24
  reserved2 : BitVec 8
  deriving DecidableEq

instance : Header VxlanHeader where
  layout := [8, 24, 24, 8]
  size := 8
  sum_layout := rfl
  toFields h := (h.flags, h.reserved, h.vni, h.reserved2, ())
  ofFields f := ⟨f.1, f.2.1, f.2.2.1, f.2.2.2.1⟩
  ofFields_toFields _ := rfl
  toFields_ofFields _ := rfl

structure Headers where
  outerEth : Option Ethernet := none
  outerIpv4 : Option Ipv4 := none
  outerUdp : Option Udp := none
  vxlan : Option VxlanHeader := none
  innerEth : Option Ethernet := none

/-- The program declares no parser errors of its own. -/
abbrev Metadata := StandardMetadata Empty

def myParser (_ : Metadata) : Parser Empty Headers Unit := do
  let _ : Ethernet ← Parser.extract fun h hdr => { hdr with innerEth := some h }
  Parser.accept

inductive Action where
  | encap (egressPort : Port) (outerDmac outerSmac : BitVec 48) (outerSip outerDip : BitVec 32)
      (vni : BitVec 24)
  | forwardPlain (egressPort : Port)
  | drop
  | noAction
  deriving DecidableEq

def encap (egressPort : Port) (outerDmac outerSmac : BitVec 48) (outerSip outerDip : BitVec 32)
    (vni : BitVec 24) (hdr : Headers) (sm : Metadata) : Headers × Metadata :=
  ({ hdr with
      outerEth := some { dstAddr := outerDmac, srcAddr := outerSmac, etherType := typeIpv4 }
      outerIpv4 := some
        { version := 4, ihl := 5, diffserv := 0
          totalLen := (sm.packetLength + 36).setWidth 16
          identification := 0, flags := 0, fragOffset := 0, ttl := 64, protocol := protoUdp
          hdrChecksum := 0, srcAddr := outerSip, dstAddr := outerDip }
      outerUdp := some
        { srcPort := 12345, dstPort := vxlanPort
          length := (sm.packetLength + 16).setWidth 16
          checksum := 0 }
      vxlan := some { flags := 0x08, reserved := 0, vni, reserved2 := 0 } },
    { sm with egressSpec := egressPort })

def applyAction (action : Action) (hdr : Headers) (sm : Metadata) : Headers × Metadata :=
  match action with
  | .encap egressPort outerDmac outerSmac outerSip outerDip vni =>
      encap egressPort outerDmac outerSmac outerSip outerDip vni hdr sm
  | .forwardPlain egressPort => (hdr, { sm with egressSpec := egressPort })
  | .drop => (hdr, markToDrop sm)
  | .noAction => (hdr, sm)

def myIngress (vtep : Table (BitVec 48) Action) (hdr : Headers) (sm : Metadata) :
    Headers × Metadata :=
  match sm.parserError, hdr.innerEth with
  | none, some innerEth =>
      if sm.packetLength > maxInnerFrame then (hdr, markToDrop sm)
      else applyAction ((vtep.lookup innerEth.dstAddr).getD .drop) hdr sm
  -- The inner Ethernet header is invalid only after a parser error.
  | _, _ => (hdr, markToDrop sm)

def myComputeChecksum (hdr : Headers) : Headers :=
  { hdr with outerIpv4 := updateIpv4 hdr.outerIpv4 none }

def myDeparser (hdr : Headers) : List Byte :=
  hdr.outerEth.elim [] Header.encode ++ (hdr.outerIpv4.elim [] Header.encode ++
    (hdr.outerUdp.elim [] Header.encode ++ (hdr.vxlan.elim [] Header.encode ++
      hdr.innerEth.elim [] Header.encode)))

def endpoint (vtep : Table (BitVec 48) Action) : V1Switch Empty Headers Unit where
  initial := {}
  parser := myParser
  verifyChecksum _ := false
  ingress _ hdr sm := ((), myIngress vtep hdr sm)
  egress hdr sm := (hdr, sm)
  computeChecksum := myComputeChecksum
  deparser := myDeparser

def vtepEntries : Table (BitVec 48) Action :=
  [.exact 0x000000111111 (.encap 2 0x000000000002 0x000000dead01 0xc0a80101 0xc0a80102 5000)]

@[simp] theorem VxlanHeader.size : Header.size VxlanHeader = 8 := rfl

theorem VxlanHeader.encode_eq (h : VxlanHeader) :
    Header.encode h = beBytes 1 h.flags.toNat ++ (beBytes 3 h.reserved.toNat ++
      (beBytes 3 h.vni.toNat ++ beBytes 1 h.reserved2.toNat)) := by
  change packBits (toBits h.flags ++ (toBits h.reserved ++ (toBits h.vni ++
    (toBits h.reserved2 ++ [])))) = _
  simp [packBits_toBits]

variable {vtep : Table (BitVec 48) Action} {port : Port} {packet payload : List Byte}
  {hdr : Headers}

theorem parse_ok : (endpoint vtep).parse port packet = (.ok (), ⟨payload, hdr⟩) ↔
    ∃ innerEth : Ethernet, packet = Header.encode innerEth ++ payload ∧
      hdr = { innerEth := some innerEth } := by
  change myParser (V1Switch.arrival port packet) ⟨packet, {}⟩ = _ ↔ _
  rw [myParser, Parser.extract_bind_ok]
  simp only [Parser.accept_ok]
  constructor
  · rintro ⟨innerEth, rest, hp, rfl, rfl⟩
    exact ⟨innerEth, hp, rfl⟩
  · rintro ⟨innerEth, hp, rfl⟩
    exact ⟨innerEth, payload, hp, rfl, rfl⟩

end P4Cases.Vxlan
