import P4Cases.Wire.Layout
import P4Cases.Wire.Slice

/-! The header types several programs declare identically, and the bytes they
are encoded as. -/
namespace P4Cases
open Wire

def typeIpv4 : BitVec 16 := 0x0800

structure Ethernet where
  dstAddr : BitVec 48
  srcAddr : BitVec 48
  etherType : BitVec 16
  deriving DecidableEq

instance : Header Ethernet where
  layout := [48, 48, 16]
  size := 14
  sum_layout := rfl
  toFields h := (h.dstAddr, h.srcAddr, h.etherType, ())
  ofFields f := ⟨f.1, f.2.1, f.2.2.1⟩
  ofFields_toFields _ := rfl
  toFields_ofFields _ := rfl

structure Ipv4 where
  version : BitVec 4
  ihl : BitVec 4
  diffserv : BitVec 8
  totalLen : BitVec 16
  identification : BitVec 16
  flags : BitVec 3
  fragOffset : BitVec 13
  ttl : BitVec 8
  protocol : BitVec 8
  hdrChecksum : BitVec 16
  srcAddr : BitVec 32
  dstAddr : BitVec 32
  deriving DecidableEq

instance : Header Ipv4 where
  layout := [4, 4, 8, 16, 16, 3, 13, 8, 8, 16, 32, 32]
  size := 20
  sum_layout := rfl
  toFields h := (h.version, h.ihl, h.diffserv, h.totalLen, h.identification, h.flags,
    h.fragOffset, h.ttl, h.protocol, h.hdrChecksum, h.srcAddr, h.dstAddr, ())
  ofFields f := match f with
    | (a, b, c, d, e, f, g, h, i, j, k, l, ()) => ⟨a, b, c, d, e, f, g, h, i, j, k, l⟩
  ofFields_toFields _ := rfl
  toFields_ofFields _ := rfl

structure Udp where
  srcPort : BitVec 16
  dstPort : BitVec 16
  length : BitVec 16
  checksum : BitVec 16
  deriving DecidableEq

instance : Header Udp where
  layout := [16, 16, 16, 16]
  size := 8
  sum_layout := rfl
  toFields h := (h.srcPort, h.dstPort, h.length, h.checksum, ())
  ofFields f := ⟨f.1, f.2.1, f.2.2.1, f.2.2.2.1⟩
  ofFields_toFields _ := rfl
  toFields_ofFields _ := rfl

@[simp] theorem Ethernet.size : Header.size Ethernet = 14 := rfl
@[simp] theorem Ipv4.size : Header.size Ipv4 = 20 := rfl
@[simp] theorem Udp.size : Header.size Udp = 8 := rfl

theorem append_toNat {w₁ w₂ : ℕ} (a : BitVec w₁) (b : BitVec w₂) :
    (a ++ b).toNat = a.toNat * 2 ^ w₂ + b.toNat := by
  rw [BitVec.toNat_append, Nat.shiftLeft_eq, Nat.mul_comm, Nat.two_pow_add_eq_or_of_lt b.isLt]

theorem Ethernet.encode_eq (h : Ethernet) :
    Header.encode h = beBytes 6 h.dstAddr.toNat ++ (beBytes 6 h.srcAddr.toNat ++
      beBytes 2 h.etherType.toNat) := by
  change packBits (toBits h.dstAddr ++ (toBits h.srcAddr ++ (toBits h.etherType ++ []))) = _
  simp [packBits_toBits]

theorem Ipv4.encode_eq (h : Ipv4) :
    Header.encode h = beBytes 1 (h.version.toNat * 16 + h.ihl.toNat) ++
      (beBytes 1 h.diffserv.toNat ++ (beBytes 2 h.totalLen.toNat ++
      (beBytes 2 h.identification.toNat ++
      (beBytes 2 (h.flags.toNat * 8192 + h.fragOffset.toNat) ++ (beBytes 1 h.ttl.toNat ++
      (beBytes 1 h.protocol.toNat ++ (beBytes 2 h.hdrChecksum.toNat ++
      (beBytes 4 h.srcAddr.toNat ++ beBytes 4 h.dstAddr.toNat)))))))) := by
  change packBits (toBits h.version ++ (toBits h.ihl ++ (toBits h.diffserv ++
    (toBits h.totalLen ++ (toBits h.identification ++ (toBits h.flags ++ (toBits h.fragOffset ++
    (toBits h.ttl ++ (toBits h.protocol ++ (toBits h.hdrChecksum ++ (toBits h.srcAddr ++
    (toBits h.dstAddr ++ [])))))))))))) = _
  rw [packBits_merge h.version, packBits_toBits (h.version ++ h.ihl) _ (by rfl),
    packBits_toBits h.diffserv _ (by rfl), packBits_toBits h.totalLen _ (by rfl),
    packBits_toBits h.identification _ (by rfl), packBits_merge h.flags,
    packBits_toBits (h.flags ++ h.fragOffset) _ (by rfl), append_toNat, append_toNat]
  simp [packBits_toBits]

theorem Udp.encode_eq (h : Udp) :
    Header.encode h = beBytes 2 h.srcPort.toNat ++ (beBytes 2 h.dstPort.toNat ++
      (beBytes 2 h.length.toNat ++ beBytes 2 h.checksum.toNat)) := by
  change packBits (toBits h.srcPort ++ (toBits h.dstPort ++ (toBits h.length ++
    (toBits h.checksum ++ [])))) = _
  simp [packBits_toBits]

end P4Cases
