import P4Cases.Wire.Crc
import Mathlib.Algebra.Polynomial.Div
import Mathlib.Algebra.CharP.Two
import Mathlib.Data.ZMod.Basic
import Mathlib.Tactic

/-! CRC-16/ARC as polynomial division over the field of two elements. -/
namespace Wire
open Polynomial

def bitCoeff (b : Bool) : ZMod 2 := if b then 1 else 0

/-- The polynomial of a bit string, the first bit its leading coefficient. -/
noncomputable def bitsPoly : List Bool → (ZMod 2)[X]
  | [] => 0
  | b :: bs => C (bitCoeff b) * X ^ bs.length + bitsPoly bs

/-- The bits of a byte string, each byte least significant bit first. -/
def lsbBits (bs : List Byte) : List Bool :=
  bs.flatMap fun b => (List.range 8).map fun i => b.getLsbD i

noncomputable def messagePoly (bs : List Byte) : (ZMod 2)[X] := bitsPoly (lsbBits bs)

noncomputable def arcPoly : (ZMod 2)[X] := X ^ 16 + X ^ 15 + X ^ 2 + 1

/-- A reflected remainder: its lowest bit is the coefficient of `X ^ 15`. -/
noncomputable def registerPoly (r : BitVec 16) : (ZMod 2)[X] :=
  ∑ i ∈ Finset.range 16, C (bitCoeff (r.getLsbD i)) * X ^ (15 - i)

@[simp] theorem bitCoeff_false : bitCoeff false = 0 := rfl

@[simp] theorem bitCoeff_true : bitCoeff true = 1 := rfl

theorem bitCoeff_xor (a b : Bool) : bitCoeff (a ^^ b) = bitCoeff a + bitCoeff b := by
  revert a b
  decide

theorem bitCoeff_eq_one {b : Bool} : bitCoeff b = 1 ↔ b = true := by
  revert b
  decide

theorem bitsPoly_append (as bs : List Bool) :
    bitsPoly (as ++ bs) = bitsPoly as * X ^ bs.length + bitsPoly bs := by
  induction as with
  | nil => simp [bitsPoly]
  | cons a as ih =>
    rw [List.cons_append, bitsPoly, bitsPoly, ih, List.length_append, pow_add]
    ring

theorem messagePoly_concat (bs : List Byte) (b : Byte) :
    messagePoly (bs ++ [b]) = messagePoly bs * X ^ 8 + messagePoly [b] := by
  have hl : lsbBits (bs ++ [b]) = lsbBits bs ++ lsbBits [b] := List.flatMap_append
  rw [messagePoly, hl, bitsPoly_append]
  rfl

theorem registerPoly_xor (r s : BitVec 16) :
    registerPoly (r ^^^ s) = registerPoly r + registerPoly s := by
  rw [registerPoly, registerPoly, registerPoly, ← Finset.sum_add_distrib]
  apply Finset.sum_congr rfl
  intro i _
  rw [BitVec.getLsbD_xor, bitCoeff_xor, C_add, add_mul]

theorem registerPoly_byte (b : Byte) : registerPoly (b.setWidth 16) = messagePoly [b] * X ^ 8 := by
  simp [registerPoly, messagePoly, lsbBits, bitsPoly, Finset.sum_range_succ, List.range_succ]
  ring

theorem registerPoly_shift (r : BitVec 16) :
    registerPoly (r >>> 1) + C (bitCoeff (r.getLsbD 0)) * X ^ 16 = X * registerPoly r := by
  simp [registerPoly, Finset.sum_range_succ, BitVec.getLsbD_ushiftRight]
  ring

theorem registerPoly_feedback (b : Bool) :
    registerPoly (if b then 0xA001#16 else 0#16) = C (bitCoeff b) * (X ^ 15 + X ^ 2 + 1) := by
  cases b <;> simp [registerPoly, Finset.sum_range_succ]

/-- One shift multiplies by `X`, up to a multiple of the polynomial. -/
theorem registerPoly_crcBit (r : BitVec 16) :
    registerPoly (crcBit r) = X * registerPoly r + C (bitCoeff (r.getLsbD 0)) * arcPoly := by
  have h2 : C (bitCoeff (r.getLsbD 0)) * X ^ 16 + C (bitCoeff (r.getLsbD 0)) * X ^ 16 = 0 :=
    CharTwo.add_self_eq_zero _
  rw [crcBit, registerPoly_xor, registerPoly_feedback, ← registerPoly_shift, arcPoly]
  linear_combination -h2

theorem arcPoly_monic : arcPoly.Monic := by
  unfold arcPoly
  monicity!

theorem arcPoly_natDegree : arcPoly.natDegree = 16 := by
  unfold arcPoly
  compute_degree!

theorem registerPoly_crcBits (n : ℕ) (r : BitVec 16) :
    arcPoly ∣ registerPoly (Nat.iterate crcBit n r) - X ^ n * registerPoly r := by
  induction n generalizing r with
  | zero => simp
  | succ n ih =>
    have hstep : registerPoly (Nat.iterate crcBit (n + 1) r) - X ^ (n + 1) * registerPoly r =
        (registerPoly (Nat.iterate crcBit n (crcBit r)) - X ^ n * registerPoly (crcBit r)) +
          X ^ n * C (bitCoeff (r.getLsbD 0)) * arcPoly := by
      rw [Function.iterate_succ_apply, registerPoly_crcBit]
      ring
    rw [hstep]
    exact (ih _).add (Dvd.intro_left _ rfl)

/-- The register after a message is congruent to the message times `X ^ 16`. -/
theorem registerPoly_crc16Arc (bs : List Byte) :
    arcPoly ∣ messagePoly bs * X ^ 16 - registerPoly (crc16Arc bs) := by
  induction bs using List.reverseRecOn with
  | nil => simp [messagePoly, lsbBits, bitsPoly, crc16Arc, registerPoly]
  | append_singleton bs b ih =>
    have hlast : crc16Arc (bs ++ [b]) =
        Nat.iterate crcBit 8 (crc16Arc bs ^^^ b.setWidth 16) := crc16Arc_append bs [b]
    have hstep : messagePoly (bs ++ [b]) * X ^ 16 - registerPoly (crc16Arc (bs ++ [b])) =
        X ^ 8 * (messagePoly bs * X ^ 16 - registerPoly (crc16Arc bs)) -
          (registerPoly (Nat.iterate crcBit 8 (crc16Arc bs ^^^ b.setWidth 16)) -
            X ^ 8 * registerPoly (crc16Arc bs ^^^ b.setWidth 16)) := by
      rw [messagePoly_concat, registerPoly_xor, registerPoly_byte, hlast]
      ring
    rw [hstep]
    exact (ih.mul_left _).sub (registerPoly_crcBits 8 _)

theorem registerPoly_degree_lt (r : BitVec 16) : (registerPoly r).degree < arcPoly.degree := by
  rw [degree_eq_natDegree arcPoly_monic.ne_zero, arcPoly_natDegree, degree_lt_iff_coeff_zero]
  intro m hm
  rw [registerPoly, finsetSum_coeff]
  apply Finset.sum_eq_zero
  intro i _
  rw [coeff_C_mul_X_pow, if_neg (by omega)]

theorem registerPoly_coeff (r : BitVec 16) {i : ℕ} (hi : i < 16) :
    (registerPoly r).coeff (15 - i) = bitCoeff (r.getLsbD i) := by
  rw [registerPoly, finsetSum_coeff, Finset.sum_eq_single i]
  · simp
  · intro j hj hne
    rw [coeff_C_mul_X_pow, if_neg]
    have := Finset.mem_range.mp hj
    omega
  · intro h
    exact absurd (Finset.mem_range.mpr hi) h

/-- The checksum is the remainder of the message times `X ^ 16`, reflected. -/
theorem crc16Arc_remainder (bs : List Byte) :
    (messagePoly bs * X ^ 16) %ₘ arcPoly = registerPoly (crc16Arc bs) := by
  rw [modByMonic_eq_of_dvd_sub arcPoly_monic (registerPoly_crc16Arc bs),
    (modByMonic_eq_self_iff arcPoly_monic).mpr (registerPoly_degree_lt _)]

theorem crc16Arc_bit (bs : List Byte) {i : ℕ} (hi : i < 16) :
    (crc16Arc bs).getLsbD i = true ↔
      ((messagePoly bs * X ^ 16) %ₘ arcPoly).coeff (15 - i) = 1 := by
  rw [crc16Arc_remainder, registerPoly_coeff _ hi, bitCoeff_eq_one]

end Wire
