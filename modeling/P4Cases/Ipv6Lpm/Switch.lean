import P4Cases.Target.V1Model
import P4Cases.Frames.Headers

/-! The IPv6 longest-prefix router and the routes its controller installs. -/
namespace P4Cases.Ipv6Lpm
open Wire P4

def typeIpv6 : BitVec 16 := 0x86dd

inductive ErrorCode where
  | invalidIPv6Version
  | invalidIPv6Length
  deriving DecidableEq, Repr

structure Ipv6 where
  version : BitVec 4
  trafficClass : BitVec 8
  flowLabel : BitVec 20
  payloadLen : BitVec 16
  nextHdr : BitVec 8
  hopLimit : BitVec 8
  srcAddr : BitVec 128
  dstAddr : BitVec 128
  deriving DecidableEq

instance : Header Ipv6 where
  layout := [4, 8, 20, 16, 8, 8, 128, 128]
  size := 40
  sum_layout := rfl
  toFields h := (h.version, h.trafficClass, h.flowLabel, h.payloadLen, h.nextHdr, h.hopLimit,
    h.srcAddr, h.dstAddr, ())
  ofFields f := match f with
    | (a, b, c, d, e, f, g, h, ()) => ⟨a, b, c, d, e, f, g, h⟩
  ofFields_toFields _ := rfl
  toFields_ofFields _ := rfl

structure Headers where
  ethernet : Option Ethernet := none
  ipv6 : Option Ipv6 := none

abbrev Metadata := StandardMetadata ErrorCode

def parseIpv6 (sm : Metadata) : Parser ErrorCode Headers Unit := do
  let ipv6 : Ipv6 ← Parser.extract fun h hdr => { hdr with ipv6 := some h }
  Parser.verify (ipv6.version = 6) .invalidIPv6Version
  Parser.verify (ipv6.payloadLen.setWidth 32 ≤ sm.packetLength - 54) .invalidIPv6Length
  Parser.accept

def myParser (sm : Metadata) : Parser ErrorCode Headers Unit := do
  let ethernet : Ethernet ← Parser.extract fun h hdr => { hdr with ethernet := some h }
  if ethernet.etherType = typeIpv6 then parseIpv6 sm else Parser.accept

inductive Action where
  | ipv6Forward (dstMac : BitVec 48) (port : Port)
  | drop
  | noAction
  deriving DecidableEq

/-- The arriving destination MAC is the router's own and becomes the source. -/
def ipv6Forward (dstMac : BitVec 48) (port : Port) (hdr : Headers) (sm : Metadata) :
    Headers × Metadata :=
  ({ ethernet := hdr.ethernet.map fun e => { e with srcAddr := e.dstAddr, dstAddr := dstMac }
     ipv6 := hdr.ipv6.map fun h => { h with hopLimit := h.hopLimit - 1 } },
    { sm with egressSpec := port })

def applyAction (action : Action) (hdr : Headers) (sm : Metadata) : Headers × Metadata :=
  match action with
  | .ipv6Forward dstMac port => ipv6Forward dstMac port hdr sm
  | .drop => (hdr, markToDrop sm)
  | .noAction => (hdr, sm)

def myIngress (ipv6Lpm : Table (BitVec 128) Action) (hdr : Headers) (sm : Metadata) :
    Headers × Metadata :=
  match sm.parserError, hdr.ipv6 with
  | none, some ipv6 =>
      if ipv6.hopLimit ≤ 1 then (hdr, markToDrop sm)
      else applyAction ((ipv6Lpm.lookup ipv6.dstAddr).getD .drop) hdr sm
  | _, _ => (hdr, markToDrop sm)

def myDeparser (hdr : Headers) : List Byte :=
  hdr.ethernet.elim [] Header.encode ++ hdr.ipv6.elim [] Header.encode

def router (ipv6Lpm : Table (BitVec 128) Action) : V1Switch ErrorCode Headers Unit where
  initial := {}
  parser := myParser
  verifyChecksum _ := false
  ingress _ hdr sm := ((), myIngress ipv6Lpm hdr sm)
  egress hdr sm := (hdr, sm)
  computeChecksum hdr := hdr
  deparser := myDeparser

/-! The controller's routes. -/

structure Route where
  network : BitVec 128
  prefixLen : ℕ
  dstMac : BitVec 48
  port : Port

def routes : List Route :=
  [⟨0x20010db8000100000000000000000000, 64, 0x000000000001, 1⟩,
   ⟨0x20010db8000200000000000000000000, 64, 0x000000000002, 2⟩,
   ⟨0x20010db8000300000000000000000000, 64, 0x000000000003, 3⟩,
   ⟨0x20010db8000300000000000000000042, 128, 0x000000000002, 2⟩]

def Route.entry (r : Route) : Entry (BitVec 128) Action :=
  .lpm r.network r.prefixLen (.ipv6Forward r.dstMac r.port)

def lpmEntries : Table (BitVec 128) Action := routes.map Route.entry

/-! What the parser accepts, and what it then passes on. -/

@[simp] theorem Ipv6.size : Header.size Ipv6 = 40 := rfl

theorem Ipv6.encode_eq (h : Ipv6) :
    Header.encode h =
      beBytes 4 ((h.version.toNat * 2 ^ 8 + h.trafficClass.toNat) * 2 ^ 20 + h.flowLabel.toNat) ++
      (beBytes 2 h.payloadLen.toNat ++ (beBytes 1 h.nextHdr.toNat ++
      (beBytes 1 h.hopLimit.toNat ++ (beBytes 16 h.srcAddr.toNat ++
      beBytes 16 h.dstAddr.toNat)))) := by
  change packBits (toBits h.version ++ (toBits h.trafficClass ++ (toBits h.flowLabel ++
    (toBits h.payloadLen ++ (toBits h.nextHdr ++ (toBits h.hopLimit ++ (toBits h.srcAddr ++
    (toBits h.dstAddr ++ [])))))))) = _
  rw [packBits_merge h.version, packBits_merge (h.version ++ h.trafficClass),
    packBits_toBits (h.version ++ h.trafficClass ++ h.flowLabel) _ (by rfl),
    append_toNat, append_toNat]
  simp [packBits_toBits]

/-- A frame whose IPv6 header passes both checks. -/
def WellFormed (ethernet : Ethernet) (ipv6 : Ipv6) (payload : List Byte) : Prop :=
  ethernet.etherType = typeIpv6 ∧ ipv6.version = 6 ∧ ipv6.payloadLen.toNat ≤ payload.length

variable {lpm : Table (BitVec 128) Action} {port : Port} {packet payload : List Byte}
  {hdr : Headers}

theorem parse_ok : (router lpm).parse port packet = (.ok (), ⟨payload, hdr⟩) ↔
    (∃ ethernet : Ethernet, packet = Header.encode ethernet ++ payload ∧
      ethernet.etherType ≠ typeIpv6 ∧ hdr = { ethernet := some ethernet }) ∨
    ∃ (ethernet : Ethernet) (ipv6 : Ipv6),
      packet = Header.encode ethernet ++ (Header.encode ipv6 ++ payload) ∧
      WellFormed ethernet ipv6 payload ∧
      hdr = { ethernet := some ethernet, ipv6 := some ipv6 } := by
  change myParser (V1Switch.arrival port packet) ⟨packet, {}⟩ = _ ↔ _
  rw [myParser, Parser.extract_bind_ok]
  constructor
  · rintro ⟨ethernet, rest, hp, h⟩
    split_ifs at h with ht
    · rw [parseIpv6, Parser.extract_bind_ok] at h
      obtain ⟨ipv6, rest', hr, h⟩ := h
      rw [Parser.verify_bind_ok, Parser.verify_bind_ok, Parser.accept_ok] at h
      obtain ⟨hv, hl, rfl, rfl⟩ := h
      subst hr
      have hlen : 54 ≤ packet.length := by simp [hp]; omega
      have hle := (le_packetLength_sub 54 hlen (by omega) _).mp (of_decide_eq_true hl)
      refine Or.inr ⟨ethernet, ipv6, hp, ⟨ht, of_decide_eq_true hv, ?_⟩, rfl⟩
      simp only [hp, List.length_append, Header.encode_length, Ethernet.size, Ipv6.size] at hle
      omega
    · rw [Parser.accept_ok] at h
      obtain ⟨rfl, rfl⟩ := h
      exact Or.inl ⟨ethernet, hp, ht, rfl⟩
  · rintro (⟨ethernet, hp, ht, rfl⟩ | ⟨ethernet, ipv6, hp, ⟨ht, hv, hl⟩, rfl⟩)
    · refine ⟨ethernet, payload, hp, ?_⟩
      rw [if_neg ht, Parser.accept_ok]
      exact ⟨rfl, rfl⟩
    · refine ⟨ethernet, Header.encode ipv6 ++ payload, hp, ?_⟩
      have hlen : packet.length = 54 + payload.length := by simp [hp]; omega
      rw [if_pos ht, parseIpv6, Parser.extract_bind_ok]
      refine ⟨ipv6, payload, rfl, ?_⟩
      rw [Parser.verify_bind_ok, Parser.verify_bind_ok, Parser.accept_ok]
      refine ⟨decide_eq_true hv, decide_eq_true ?_, rfl, rfl⟩
      exact (le_packetLength_sub 54 (by omega) (by omega) _).mpr (by omega)

end P4Cases.Ipv6Lpm
