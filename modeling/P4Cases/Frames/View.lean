import P4Cases.Frames.Headers
import P4Cases.Frames.Python

/-! Raw frames by byte offset, the way the oracles read them, and what the
fields of the parsed headers are in those terms. -/
namespace P4Cases
open Wire

def dstMac (frame : List Byte) : ℕ := fieldAt frame 0 6
def etherType (frame : List Byte) : ℕ := fieldAt frame 12 14

namespace Raw

def version (frame : List Byte) : ℕ := fieldAt frame 14 15 / 16
def ihl (frame : List Byte) : ℕ := fieldAt frame 14 15 % 16
def totalLen (frame : List Byte) : ℕ := fieldAt frame 16 18
def moreFragments (frame : List Byte) : ℕ := fieldAt frame 20 22 / 8192 % 2
def fragOffset (frame : List Byte) : ℕ := fieldAt frame 20 22 % 8192
def ttl (frame : List Byte) : ℕ := fieldAt frame 22 23
def protocol (frame : List Byte) : ℕ := fieldAt frame 23 24
def hdrChecksum (frame : List Byte) : ℕ := fieldAt frame 24 26
def srcAddr (frame : List Byte) : ℕ := fieldAt frame 26 30
def dstAddr (frame : List Byte) : ℕ := fieldAt frame 30 34

/-- A fragment of a larger packet, first, middle or last. -/
def Fragment (frame : List Byte) : Prop := moreFragments frame ≠ 0 ∨ fragOffset frame ≠ 0

/-! The 16-bit words behind the IPv4 header. -/

def srcPort (frame : List Byte) : ℕ := fieldAt frame (14 + 4 * ihl frame) (14 + 4 * ihl frame + 2)
def dstPort (frame : List Byte) : ℕ :=
  fieldAt frame (14 + 4 * ihl frame + 2) (14 + 4 * ihl frame + 4)
def udpLength (frame : List Byte) : ℕ :=
  fieldAt frame (14 + 4 * ihl frame + 4) (14 + 4 * ihl frame + 6)

end Raw

section
variable (eth : Ethernet) (ip : Ipv4) (rest : List Byte)

@[simp] theorem dstMac_encode : dstMac (Header.encode eth ++ rest) = eth.dstAddr.toNat := by
  simp [dstMac, fieldAt, Ethernet.encode_eq]

@[simp] theorem etherType_encode :
    etherType (Header.encode eth ++ rest) = eth.etherType.toNat := by
  simp [etherType, fieldAt, Ethernet.encode_eq]

theorem fieldAt_encode_skip {α : Type} [Header α] (a : α) (bs : List Byte) {i j : ℕ}
    (h : Header.size α ≤ i) :
    fieldAt (Header.encode a ++ bs) i j =
      fieldAt bs (i - Header.size α) (j - Header.size α) := by
  rw [fieldAt, slice_append_right _ _ (by simpa using h), Header.encode_length, ← fieldAt]

theorem versionByte_encode :
    fieldAt (Header.encode eth ++ (Header.encode ip ++ rest)) 14 15 =
      ip.version.toNat * 16 + ip.ihl.toNat := by
  have hv := ip.version.isLt
  have hi := ip.ihl.isLt
  rw [fieldAt_encode_skip _ _ (by simp)]
  simp [fieldAt, Ipv4.encode_eq, beNat_beBytes]
  omega

/-- `(frame[14] & 15) * 4`. -/
theorem headerLen_encode :
    (fieldAt (Header.encode eth ++ (Header.encode ip ++ rest)) 14 15 &&& 15) * 4 =
      4 * ip.ihl.toNat := by
  have hi := ip.ihl.isLt
  rw [versionByte_encode, Nat.and_two_pow_sub_one_eq_mod _ 4]
  omega

theorem fragmentWord_encode :
    fieldAt (Header.encode eth ++ (Header.encode ip ++ rest)) 20 22 =
      ip.flags.toNat * 8192 + ip.fragOffset.toNat := by
  have hv := ip.flags.isLt
  have hi := ip.fragOffset.isLt
  rw [fieldAt_encode_skip _ _ (by simp)]
  simp [fieldAt, Ipv4.encode_eq, beNat_beBytes]
  omega

namespace Raw

@[simp] theorem version_encode :
    version (Header.encode eth ++ (Header.encode ip ++ rest)) = ip.version.toNat := by
  have hi := ip.ihl.isLt
  rw [version, versionByte_encode]
  omega

@[simp] theorem ihl_encode :
    ihl (Header.encode eth ++ (Header.encode ip ++ rest)) = ip.ihl.toNat := by
  have hi := ip.ihl.isLt
  rw [ihl, versionByte_encode]
  omega

@[simp] theorem moreFragments_encode :
    moreFragments (Header.encode eth ++ (Header.encode ip ++ rest)) = ip.flags.toNat % 2 := by
  have ho := ip.fragOffset.isLt
  rw [moreFragments, fragmentWord_encode]
  omega

@[simp] theorem fragOffset_encode :
    fragOffset (Header.encode eth ++ (Header.encode ip ++ rest)) = ip.fragOffset.toNat := by
  have ho := ip.fragOffset.isLt
  rw [fragOffset, fragmentWord_encode]
  omega

@[simp] theorem totalLen_encode :
    totalLen (Header.encode eth ++ (Header.encode ip ++ rest)) = ip.totalLen.toNat := by
  rw [totalLen, fieldAt_encode_skip _ _ (by simp)]
  simp [fieldAt, Ipv4.encode_eq]

@[simp] theorem ttl_encode :
    ttl (Header.encode eth ++ (Header.encode ip ++ rest)) = ip.ttl.toNat := by
  rw [ttl, fieldAt_encode_skip _ _ (by simp)]
  simp [fieldAt, Ipv4.encode_eq]

@[simp] theorem protocol_encode :
    protocol (Header.encode eth ++ (Header.encode ip ++ rest)) = ip.protocol.toNat := by
  rw [protocol, fieldAt_encode_skip _ _ (by simp)]
  simp [fieldAt, Ipv4.encode_eq]

@[simp] theorem hdrChecksum_encode :
    hdrChecksum (Header.encode eth ++ (Header.encode ip ++ rest)) = ip.hdrChecksum.toNat := by
  rw [hdrChecksum, fieldAt_encode_skip _ _ (by simp)]
  simp [fieldAt, Ipv4.encode_eq]

@[simp] theorem srcAddr_encode :
    srcAddr (Header.encode eth ++ (Header.encode ip ++ rest)) = ip.srcAddr.toNat := by
  rw [srcAddr, fieldAt_encode_skip _ _ (by simp)]
  simp [fieldAt, Ipv4.encode_eq]

@[simp] theorem dstAddr_encode :
    dstAddr (Header.encode eth ++ (Header.encode ip ++ rest)) = ip.dstAddr.toNat := by
  rw [dstAddr, fieldAt_encode_skip _ _ (by simp)]
  simp [fieldAt, Ipv4.encode_eq]

end Raw
end
end P4Cases
