import P4Cases.Target.V1Model
import P4Cases.Frames.Headers

/-! The IPv4 header checksum: the programs compute it over the other fields and
the options, the receiver over the header as a whole. -/
namespace P4Cases
open Wire P4

/-- `IPV4_FIELDS`: every field but the checksum. -/
def ipv4Fields (h : Ipv4) : List Bool :=
  toBits h.version ++ (toBits h.ihl ++ (toBits h.diffserv ++ (toBits h.totalLen ++
  (toBits h.identification ++ (toBits h.flags ++ (toBits h.fragOffset ++ (toBits h.ttl ++
  (toBits h.protocol ++ (toBits h.srcAddr ++ toBits h.dstAddr)))))))))

/-- `verify_checksum`, once for a header without options and once with them. -/
def verifyIpv4 (ipv4 : Option Ipv4) (options : Option (List Byte)) : Bool :=
  match ipv4 with
  | none => false
  | some h =>
      verifyChecksum options.isNone (ipv4Fields h) h.hdrChecksum ||
        verifyChecksum options.isSome (ipv4Fields h ++ bytesBits (options.getD [])) h.hdrChecksum

/-- `update_checksum`, likewise. -/
def updateIpv4 (ipv4 : Option Ipv4) (options : Option (List Byte)) : Option Ipv4 :=
  ipv4.map fun h =>
    let plain := updateChecksum options.isNone (ipv4Fields h) h.hdrChecksum
    let full := updateChecksum options.isSome (ipv4Fields h ++ bytesBits (options.getD [])) plain
    { h with hdrChecksum := full }

/-- The options header, valid only when there are options. -/
def optionsOf (opts : List Byte) : Option (List Byte) := if opts = [] then none else some opts

@[simp] theorem optionsOf_getD (opts : List Byte) : (optionsOf opts).getD [] = opts := by
  by_cases h : opts = [] <;> simp [optionsOf, h]

/-- The bytes of the header in front of the checksum, and behind it. -/
def Ipv4.front (h : Ipv4) : List Byte :=
  beBytes 1 (h.version.toNat * 16 + h.ihl.toNat) ++ (beBytes 1 h.diffserv.toNat ++
  (beBytes 2 h.totalLen.toNat ++ (beBytes 2 h.identification.toNat ++
  (beBytes 2 (h.flags.toNat * 8192 + h.fragOffset.toNat) ++ (beBytes 1 h.ttl.toNat ++
  beBytes 1 h.protocol.toNat)))))

def Ipv4.back (h : Ipv4) : List Byte := beBytes 4 h.srcAddr.toNat ++ beBytes 4 h.dstAddr.toNat

@[simp] theorem Ipv4.front_length (h : Ipv4) : h.front.length = 10 := by simp [front]

@[simp] theorem Ipv4.back_length (h : Ipv4) : h.back.length = 8 := by simp [back]

theorem Ipv4.encode_split (h : Ipv4) :
    Header.encode h = h.front ++ (beBytes 2 h.hdrChecksum.toNat ++ h.back) := by
  simp only [encode_eq, front, back, List.append_assoc]

/-- Overwriting bytes 10 and 11 sets the checksum. -/
theorem Ipv4.encode_setChecksum (h : Ipv4) (c : BitVec 16) :
    Header.encode { h with hdrChecksum := c } =
      (Header.encode h).take 10 ++ beBytes 2 c.toNat ++ (Header.encode h).drop 12 := by
  have ht : (Header.encode h).take 10 = h.front := by
    rw [encode_split, List.take_left' (by simp)]
  have hd : (Header.encode h).drop 12 = h.back := by
    rw [encode_split, ← List.append_assoc, List.drop_left' (by simp)]
  rw [ht, hd, List.append_assoc]
  exact encode_split _

theorem packBits_ipv4Fields (h : Ipv4) (opts : List Byte) :
    packBits (ipv4Fields h ++ bytesBits opts) = h.front ++ (h.back ++ opts) := by
  simp only [ipv4Fields, List.append_assoc]
  rw [packBits_merge h.version, packBits_toBits (h.version ++ h.ihl) _ (by rfl),
    packBits_toBits h.diffserv _ (by rfl), packBits_toBits h.totalLen _ (by rfl),
    packBits_toBits h.identification _ (by rfl), packBits_merge h.flags,
    packBits_toBits (h.flags ++ h.fragOffset) _ (by rfl), append_toNat, append_toNat]
  simp [packBits_toBits, Ipv4.front, Ipv4.back]

/-- The checksum the programs store. -/
def ipv4Checksum (h : Ipv4) (opts : List Byte) : BitVec 16 := csum16 (h.front ++ (h.back ++ opts))

/-- The checksum word adds to the sum of the rest of the header. -/
theorem words_sum_encode (h : Ipv4) (c : BitVec 16) (opts : List Byte) :
    (words (Header.encode { h with hdrChecksum := c } ++ opts)).sum =
      (words (h.front ++ (h.back ++ opts))).sum + c.toNat := by
  have hs := words_sum_insert (h.back ++ opts) (by simp : h.front.length % 2 = 0)
    (by simp : (beBytes 2 c.toNat).length % 2 = 0)
  have he : Header.encode { h with hdrChecksum := c } =
      h.front ++ (beBytes 2 c.toNat ++ h.back) := Ipv4.encode_split _
  rw [words_beBytes_two, List.sum_singleton, Nat.mod_eq_of_lt c.isLt] at hs
  rw [he, ← hs]
  simp only [List.append_assoc]

theorem ipv4Checksum_eq (h : Ipv4) (opts : List Byte) :
    ipv4Checksum h opts = csum16 (Header.encode { h with hdrChecksum := 0 } ++ opts) := by
  apply BitVec.eq_of_toNat_eq
  rw [ipv4Checksum, csum16_toNat, csum16_toNat, words_sum_encode]
  simp

/-- A header that carries its checksum sums to the one's-complement zero. -/
theorem csum16_checksummed (h : Ipv4) (opts : List Byte) :
    csum16 (Header.encode { h with hdrChecksum := ipv4Checksum h opts } ++ opts) = 0 := by
  apply BitVec.eq_of_toNat_eq
  rw [csum16_toNat, words_sum_encode, ipv4Checksum, csum16_toNat, fold16_csum]
  rfl

theorem packBits_ipv4Fields_nil (h : Ipv4) : packBits (ipv4Fields h) = h.front ++ h.back := by
  simpa [bytesBits] using packBits_ipv4Fields h []

theorem verifyIpv4_eq (h : Ipv4) (opts : List Byte) :
    verifyIpv4 (some h) (optionsOf opts) = decide (h.hdrChecksum ≠ ipv4Checksum h opts) := by
  by_cases ho : opts = []
  · simp [verifyIpv4, optionsOf, ho, verifyChecksum, ipv4Checksum, packBits_ipv4Fields_nil]
  · simp only [verifyIpv4, optionsOf, ho, verifyChecksum, ipv4Checksum, packBits_ipv4Fields,
      if_false, Option.isNone_some, Option.isSome_some, Option.getD_some, Bool.false_and,
      Bool.true_and, Bool.false_or]
    rfl

theorem updateIpv4_eq (h : Ipv4) (opts : List Byte) :
    updateIpv4 (some h) (optionsOf opts) = some { h with hdrChecksum := ipv4Checksum h opts } := by
  by_cases ho : opts = []
  · simp [updateIpv4, optionsOf, ho, updateChecksum, ipv4Checksum, packBits_ipv4Fields_nil]
  · simp [updateIpv4, optionsOf, ho, updateChecksum, ipv4Checksum, packBits_ipv4Fields]

end P4Cases
