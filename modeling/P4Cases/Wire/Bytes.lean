import Mathlib.Tactic
import Mathlib.Data.List.Basic

/-! Big-endian bit strings and byte strings. A `w`-bit number is spelled most
significant bit first; a byte string is the same number in base 256. -/
namespace Wire

abbrev Byte := BitVec 8

/-- The `w` low bits of `n`, most significant bit first. -/
def natBits : ℕ → ℕ → List Bool
  | 0, _ => []
  | w + 1, n => n.testBit w :: natBits w n

/-- The number spelled by a bit string. -/
def bitsNat : List Bool → ℕ
  | [] => 0
  | b :: bs => b.toNat * 2 ^ bs.length + bitsNat bs

def toBits {w : ℕ} (v : BitVec w) : List Bool := natBits w v.toNat

def ofBits (w : ℕ) (bits : List Bool) : BitVec w := BitVec.ofNat w (bitsNat bits)

/-- The `k` low bytes of `n`, most significant byte first. -/
def beBytes : ℕ → ℕ → List Byte
  | 0, _ => []
  | k + 1, n => BitVec.ofNat 8 (n / 256 ^ k) :: beBytes k n

/-- The number spelled by a byte string. -/
def beNat : List Byte → ℕ
  | [] => 0
  | b :: bs => b.toNat * 256 ^ bs.length + beNat bs

/-- The bytes of an ASCII text. -/
def ascii (s : String) : List Byte := s.toList.map fun c => BitVec.ofNat 8 c.toNat

def bytesBits : List Byte → List Bool
  | [] => []
  | b :: bs => toBits b ++ bytesBits bs

/-- Group a bit string into bytes; a short last group is padded with zeros. -/
def packBits : List Bool → List Byte
  | b₇ :: b₆ :: b₅ :: b₄ :: b₃ :: b₂ :: b₁ :: b₀ :: rest =>
      ofBits 8 [b₇, b₆, b₅, b₄, b₃, b₂, b₁, b₀] :: packBits rest
  | [] => []
  | b :: bs => [ofBits 8 ((b :: bs) ++ List.replicate (7 - bs.length) false)]

/-! Bit strings as numbers. -/

@[simp] theorem natBits_length (w n : ℕ) : (natBits w n).length = w := by
  induction w with
  | zero => rfl
  | succ w ih => simp [natBits, ih]

@[simp] theorem toBits_length {w : ℕ} (v : BitVec w) : (toBits v).length = w :=
  natBits_length w _

theorem bitsNat_lt (bits : List Bool) : bitsNat bits < 2 ^ bits.length := by
  induction bits with
  | nil => simp [bitsNat]
  | cons b bs ih =>
    have hb : b.toNat ≤ 1 := Bool.toNat_le b
    simp only [bitsNat, List.length_cons, pow_succ]
    nlinarith

theorem testBit_toNat (n w : ℕ) : (n.testBit w).toNat = n / 2 ^ w % 2 := by
  rw [Nat.testBit_eq_decide_div_mod_eq]
  rcases Nat.mod_two_eq_zero_or_one (n / 2 ^ w) with h | h <;> simp [h]

theorem bitsNat_natBits (w n : ℕ) : bitsNat (natBits w n) = n % 2 ^ w := by
  induction w with
  | zero => simp [natBits, bitsNat, Nat.mod_one]
  | succ w ih =>
    simp only [natBits, bitsNat, natBits_length, ih, testBit_toNat]
    rw [pow_succ, Nat.mod_mul]
    ring

theorem natBits_bitsNat (bits : List Bool) : natBits bits.length (bitsNat bits) = bits := by
  have key : ∀ (bits : List Bool) (m : ℕ),
      natBits bits.length (m * 2 ^ bits.length + bitsNat bits) = bits := by
    intro bits
    induction bits with
    | nil => intro m; rfl
    | cons b bs ih =>
      intro m
      have hlt := bitsNat_lt bs
      have hn : m * 2 ^ (b :: bs).length + bitsNat (b :: bs) =
          (2 * m + b.toNat) * 2 ^ bs.length + bitsNat bs := by
        simp only [bitsNat, List.length_cons, pow_succ]
        ring
      have hbit : ((2 * m + b.toNat) * 2 ^ bs.length + bitsNat bs).testBit bs.length = b := by
        rw [Nat.testBit_eq_decide_div_mod_eq, Nat.add_comm, Nat.add_mul_div_right _ _
          (Nat.two_pow_pos _), Nat.div_eq_of_lt hlt]
        cases b <;> simp
      rw [hn, List.length_cons, natBits, hbit, ih]
  simpa using key bits 0

theorem natBits_add (a b n : ℕ) : natBits (a + b) n = natBits a (n / 2 ^ b) ++ natBits b n := by
  induction a with
  | zero => simp [natBits]
  | succ a ih =>
    rw [Nat.succ_add, natBits, natBits, ih, Nat.testBit_div_two_pow]
    rfl

theorem natBits_add_mul (w m n : ℕ) : natBits w (m * 2 ^ w + n) = natBits w n := by
  have h := natBits_bitsNat (natBits w (m * 2 ^ w + n))
  rw [bitsNat_natBits, natBits_length, Nat.mul_add_mod_self_right] at h
  have h' := natBits_bitsNat (natBits w n)
  rw [bitsNat_natBits, natBits_length] at h'
  rw [← h, h']

@[simp] theorem ofBits_toBits {w : ℕ} (v : BitVec w) : ofBits w (toBits v) = v := by
  apply BitVec.eq_of_toNat_eq
  simp [ofBits, toBits, bitsNat_natBits]

theorem toBits_ofBits {w : ℕ} {bits : List Bool} (h : bits.length = w) :
    toBits (ofBits w bits) = bits := by
  subst h
  have hlt := bitsNat_lt bits
  rw [toBits, ofBits, BitVec.toNat_ofNat, Nat.mod_eq_of_lt hlt, natBits_bitsNat]

/-- Concatenating two fields concatenates their bits. -/
theorem toBits_append {w₁ w₂ : ℕ} (a : BitVec w₁) (b : BitVec w₂) :
    toBits (a ++ b) = toBits a ++ toBits b := by
  have hb := b.isLt
  have h : (a ++ b).toNat = a.toNat * 2 ^ w₂ + b.toNat := by
    rw [BitVec.toNat_append, Nat.shiftLeft_eq, Nat.mul_comm,
      Nat.two_pow_add_eq_or_of_lt hb]
  rw [toBits, h, natBits_add, natBits_add_mul, Nat.mul_comm, Nat.mul_add_div (Nat.two_pow_pos _),
    Nat.div_eq_of_lt hb, Nat.add_zero]
  rfl

/-! Byte strings as numbers. -/

@[simp] theorem beBytes_length (k n : ℕ) : (beBytes k n).length = k := by
  induction k with
  | zero => rfl
  | succ k ih => simp [beBytes, ih]

theorem beNat_lt (bs : List Byte) : beNat bs < 256 ^ bs.length := by
  induction bs with
  | nil => simp [beNat]
  | cons b bs ih =>
    have hb : b.toNat < 256 := b.isLt
    simp only [beNat, List.length_cons, pow_succ]
    nlinarith

theorem beNat_beBytes (k n : ℕ) : beNat (beBytes k n) = n % 256 ^ k := by
  induction k with
  | zero => simp [beBytes, beNat, Nat.mod_one]
  | succ k ih =>
    simp only [beBytes, beNat, beBytes_length, ih, BitVec.toNat_ofNat, Nat.reducePow]
    rw [pow_succ, Nat.mod_mul]
    generalize n / 256 ^ k % 256 = q
    ring

theorem beBytes_mod (k n : ℕ) {j : ℕ} (h : k ≤ j) : beBytes k (n % 256 ^ j) = beBytes k n := by
  induction k with
  | zero => rfl
  | succ k ih =>
    have hb : BitVec.ofNat 8 (n % 256 ^ j / 256 ^ k) = BitVec.ofNat 8 (n / 256 ^ k) := by
      apply BitVec.eq_of_toNat_eq
      obtain ⟨d, rfl⟩ : ∃ d, j = k + (d + 1) := ⟨j - k - 1, by omega⟩
      have hdvd : (256 : ℕ) ∣ 256 ^ (d + 1) := dvd_pow_self 256 (Nat.succ_ne_zero d)
      simp only [BitVec.toNat_ofNat, Nat.reducePow]
      rw [pow_add, Nat.mod_mul_right_div_self, Nat.mod_mod_of_dvd _ hdvd]
    rw [beBytes, beBytes, hb, ih (by omega)]

theorem beBytes_beNat (bs : List Byte) : beBytes bs.length (beNat bs) = bs := by
  induction bs with
  | nil => rfl
  | cons b bs ih =>
    have hlt := beNat_lt bs
    have hb : b.toNat < 256 := b.isLt
    have hhd : BitVec.ofNat 8 ((b.toNat * 256 ^ bs.length + beNat bs) / 256 ^ bs.length) = b := by
      rw [Nat.mul_comm, Nat.mul_add_div (by positivity), Nat.div_eq_of_lt hlt, Nat.add_zero]
      simp
    have htl : beBytes bs.length (b.toNat * 256 ^ bs.length + beNat bs) = bs := by
      rw [← beBytes_mod bs.length _ le_rfl, Nat.mul_add_mod_self_right, Nat.mod_eq_of_lt hlt, ih]
    rw [List.length_cons, beBytes, beNat, hhd, htl]

theorem eq_beBytes {k : ℕ} {bs : List Byte} (h : bs.length = k) : bs = beBytes k (beNat bs) := by
  subst h
  exact (beBytes_beNat bs).symm

theorem beBytes_add (a b n : ℕ) : beBytes (a + b) n = beBytes a (n / 256 ^ b) ++ beBytes b n := by
  induction a with
  | zero => simp [beBytes]
  | succ a ih =>
    rw [Nat.succ_add, beBytes, beBytes, ih, Nat.div_div_eq_div_mul, ← pow_add, Nat.add_comm b a]
    rfl

theorem beBytes_inj {k m n : ℕ} (hm : m < 256 ^ k) (hn : n < 256 ^ k) :
    beBytes k m = beBytes k n ↔ m = n := by
  constructor
  · intro h
    have h' := congrArg beNat h
    rwa [beNat_beBytes, beNat_beBytes, Nat.mod_eq_of_lt hm, Nat.mod_eq_of_lt hn] at h'
  · rintro rfl
    rfl

theorem beNat_inj {as bs : List Byte} (hl : as.length = bs.length) :
    beNat as = beNat bs ↔ as = bs := by
  constructor
  · intro h
    rw [← beBytes_beNat as, ← beBytes_beNat bs, hl, h]
  · rintro rfl
    rfl

/-! Packing bits into bytes. -/

theorem bytesBits_length (bs : List Byte) : (bytesBits bs).length = 8 * bs.length := by
  induction bs with
  | nil => rfl
  | cons b bs ih =>
    simp only [bytesBits, List.length_append, toBits_length, ih, List.length_cons]
    ring

theorem bytesBits_append (as bs : List Byte) :
    bytesBits (as ++ bs) = bytesBits as ++ bytesBits bs := by
  induction as with
  | nil => rfl
  | cons a as ih => simp [bytesBits, ih]

/-- One whole byte is packed as that byte. -/
theorem packBits_byte (b : Byte) (bits : List Bool) :
    packBits (toBits b ++ bits) = b :: packBits bits := by
  have h := ofBits_toBits b
  simp only [toBits, natBits] at h ⊢
  simp only [List.cons_append, List.nil_append, packBits, h]

@[simp] theorem packBits_bytesBits_append (bs : List Byte) (bits : List Bool) :
    packBits (bytesBits bs ++ bits) = bs ++ packBits bits := by
  induction bs with
  | nil => rfl
  | cons b bs ih =>
    rw [bytesBits, List.append_assoc, packBits_byte, ih]
    rfl

@[simp] theorem packBits_bytesBits (bs : List Byte) : packBits (bytesBits bs) = bs := by
  simpa [packBits] using packBits_bytesBits_append bs []

theorem natBits_eq_bytesBits (k n : ℕ) : natBits (8 * k) n = bytesBits (beBytes k n) := by
  induction k with
  | zero => rfl
  | succ k ih =>
    have h8 : natBits 8 (n / 2 ^ (8 * k)) = toBits (BitVec.ofNat 8 (n / 256 ^ k)) := by
      have hp : (2 : ℕ) ^ (8 * k) = 256 ^ k := by rw [pow_mul]; norm_num
      rw [hp, toBits, BitVec.toNat_ofNat]
      have hm := natBits_add_mul 8 (n / 256 ^ k / 2 ^ 8) (n / 256 ^ k % 2 ^ 8)
      rw [Nat.mul_comm, Nat.div_add_mod] at hm
      exact hm
    rw [Nat.mul_succ, Nat.add_comm, natBits_add, h8, ih]
    rfl

/-- A field of whole bytes is packed as its big-endian bytes. -/
theorem packBits_toBits {w : ℕ} (v : BitVec w) (bits : List Bool) (h : w % 8 = 0) :
    packBits (toBits v ++ bits) = beBytes (w / 8) v.toNat ++ packBits bits := by
  have hw : w = 8 * (w / 8) := by omega
  have hv : toBits v = bytesBits (beBytes (w / 8) v.toNat) := by
    rw [← natBits_eq_bytesBits, ← hw]
    rfl
  rw [hv, packBits_bytesBits_append]

@[simp] theorem packBits_toBits_last {w : ℕ} (v : BitVec w) (h : w % 8 = 0) :
    packBits (toBits v) = beBytes (w / 8) v.toNat := by
  simpa [packBits] using packBits_toBits v [] h

/-- Two adjacent fields pack as one. -/
theorem packBits_merge {w₁ w₂ : ℕ} (a : BitVec w₁) (b : BitVec w₂) (bits : List Bool) :
    packBits (toBits a ++ (toBits b ++ bits)) = packBits (toBits (a ++ b) ++ bits) := by
  rw [toBits_append, List.append_assoc]

theorem bytesBits_packBits {bits : List Bool} (h : bits.length % 8 = 0) :
    bytesBits (packBits bits) = bits := by
  obtain ⟨k, hk⟩ : ∃ k, bits.length = 8 * k := ⟨bits.length / 8, by omega⟩
  have hb : bits = bytesBits (beBytes k (bitsNat bits)) := by
    rw [← natBits_eq_bytesBits, ← hk, natBits_bitsNat]
  rw [hb, packBits_bytesBits]

end Wire
