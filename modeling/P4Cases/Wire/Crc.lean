import P4Cases.Wire.Bytes
import Mathlib.Data.BitVec
import Mathlib.SetTheory.Cardinal.Finite

/-! CRC-16/ARC: reflected polynomial `0xA001`, zero initial value, no final
exclusive or. -/
namespace Wire

def crcBit (r : BitVec 16) : BitVec 16 :=
  (r >>> 1) ^^^ (if r.getLsbD 0 then 0xA001#16 else 0#16)

def crcByte (r : BitVec 16) (b : Byte) : BitVec 16 :=
  Nat.iterate crcBit 8 (r ^^^ b.setWidth 16)

def crc16Arc (bs : List Byte) : BitVec 16 := bs.foldl crcByte 0#16

/-! The laws of the shift: it is linear in exclusive or, and loses nothing. -/

theorem xor_xor_xor_comm (a b c d : BitVec 16) : a ^^^ b ^^^ (c ^^^ d) = a ^^^ c ^^^ (b ^^^ d) := by
  ac_rfl

theorem crcBit_xor (a b : BitVec 16) : crcBit (a ^^^ b) = crcBit a ^^^ crcBit b := by
  have hpoly : ∀ x y : Bool, (if x ^^ y then 0xA001#16 else 0#16) =
      (if x then 0xA001#16 else 0#16) ^^^ (if y then 0xA001#16 else 0#16) := by decide
  unfold crcBit
  rw [BitVec.ushiftRight_xor_distrib, BitVec.getLsbD_xor, hpoly, xor_xor_xor_comm]

/-- The top bit of a shifted remainder tells whether the polynomial was added. -/
theorem crcBit_eq_zero {r : BitVec 16} (h : crcBit r = 0#16) : r = 0#16 := by
  have htop : (crcBit r).getLsbD 15 = r.getLsbD 0 := by
    unfold crcBit
    rw [BitVec.getLsbD_xor, BitVec.getLsbD_ushiftRight]
    cases r.getLsbD 0 <;> simp
  have hlow : r.getLsbD 0 = false := by
    rw [← htop, h]
    simp
  have hshift : r >>> 1 = 0#16 := by
    rw [crcBit, hlow] at h
    simpa using h
  apply BitVec.eq_of_getLsbD_eq
  intro i hi
  cases i with
  | zero => rw [hlow, BitVec.getLsbD_zero]
  | succ i =>
    have hb := congrArg (fun v : BitVec 16 => v.getLsbD i) hshift
    rw [BitVec.getLsbD_zero]
    simpa only [BitVec.getLsbD_ushiftRight, Nat.add_comm 1, BitVec.getLsbD_zero] using hb

/-- A linear map that only takes zero to zero is injective. -/
theorem injective_of_xor {f : BitVec 16 → BitVec 16} (hx : ∀ a b, f (a ^^^ b) = f a ^^^ f b)
    (hz : ∀ r, f r = 0#16 → r = 0#16) : Function.Injective f := by
  intro a b h
  have hab : a ^^^ b = 0#16 := by
    apply hz
    rw [hx, h, BitVec.xor_self]
  exact BitVec.xor_eq_zero_iff.mp hab

theorem crcBits_xor (n : ℕ) (a b : BitVec 16) :
    Nat.iterate crcBit n (a ^^^ b) = Nat.iterate crcBit n a ^^^ Nat.iterate crcBit n b := by
  induction n generalizing a b with
  | zero => rfl
  | succ n ih => rw [Function.iterate_succ_apply, crcBit_xor, ih, ← Function.iterate_succ_apply,
      ← Function.iterate_succ_apply]

theorem crcBits_injective (n : ℕ) : Function.Injective (Nat.iterate crcBit n) :=
  (injective_of_xor crcBit_xor fun _ => crcBit_eq_zero).iterate n

theorem crcByte_xor (r s : BitVec 16) (a b : Byte) :
    crcByte (r ^^^ s) (a ^^^ b) = crcByte r a ^^^ crcByte s b := by
  rw [crcByte, BitVec.setWidth_xor, xor_xor_xor_comm, crcBits_xor]
  rfl

theorem crcByte_injective (b : Byte) : Function.Injective fun r => crcByte r b := by
  intro r s h
  exact (BitVec.xor_left_inj _).mp (crcBits_injective 8 h)

/-- The remainder after a byte string, from any remainder. -/
def crcFrom (r : BitVec 16) (bs : List Byte) : BitVec 16 := bs.foldl crcByte r

theorem crc16Arc_append (as bs : List Byte) :
    crc16Arc (as ++ bs) = crcFrom (crc16Arc as) bs := List.foldl_append

/-- Byte strings of one length, byte by byte. -/
def xorBytes (as bs : List Byte) : List Byte := List.zipWith (· ^^^ ·) as bs

theorem crcFrom_xor {as bs : List Byte} (h : as.length = bs.length) (r s : BitVec 16) :
    crcFrom (r ^^^ s) (xorBytes as bs) = crcFrom r as ^^^ crcFrom s bs := by
  induction as generalizing bs r s with
  | nil =>
    obtain rfl := List.eq_nil_of_length_eq_zero h.symm
    rfl
  | cons a as ih =>
    obtain ⟨b, bs, rfl⟩ := List.exists_cons_of_length_eq_add_one h.symm
    have hl : as.length = bs.length := by simpa using h
    have hstep := ih hl (crcByte r a) (crcByte s b)
    rw [← crcByte_xor] at hstep
    exact hstep

theorem crc16Arc_xor {as bs : List Byte} (h : as.length = bs.length) :
    crc16Arc (xorBytes as bs) = crc16Arc as ^^^ crc16Arc bs := by
  have hx := crcFrom_xor h 0#16 0#16
  rwa [BitVec.xor_self] at hx

theorem crcFrom_injective (bs : List Byte) : Function.Injective fun r => crcFrom r bs := by
  induction bs with
  | nil => exact fun _ _ h => h
  | cons b bs ih => exact fun r s h => crcByte_injective b (ih h)

/-! A window of two bytes. -/

/-- Eight shifts of a byte in the upper half only move it down. -/
theorem crcBits_upper : ∀ b : Byte, Nat.iterate crcBit 8 (b.setWidth 16 <<< 8) = b.setWidth 16 := by
  decide +kernel

theorem crcByte_crcByte (r : BitVec 16) (a b : Byte) :
    crcByte (crcByte r a) b =
      Nat.iterate crcBit 16 (r ^^^ (a.setWidth 16 ^^^ b.setWidth 16 <<< 8)) := by
  have h : Nat.iterate crcBit 16 = Nat.iterate crcBit 8 ∘ Nat.iterate crcBit 8 :=
    (Function.iterate_add crcBit 8 8)
  rw [h, Function.comp_apply, ← BitVec.xor_assoc, crcBits_xor, crcBits_upper]
  rfl

theorem halves_injective {a b c d : Byte}
    (h : a.setWidth 16 ^^^ b.setWidth 16 <<< 8 = c.setWidth 16 ^^^ d.setWidth 16 <<< 8) :
    a = c ∧ b = d := by
  constructor
  · apply BitVec.eq_of_getLsbD_eq
    intro i hi
    have hb := congrArg (fun v : BitVec 16 => v.getLsbD i) h
    have hi' : i < 16 := by omega
    simpa [hi, hi'] using hb
  · apply BitVec.eq_of_getLsbD_eq
    intro i hi
    have hb := congrArg (fun v : BitVec 16 => v.getLsbD (i + 8)) h
    have hi' : i + 8 < 16 := by omega
    simpa [hi'] using hb

/-- Two bytes in a row reach every remainder, each once, whatever stands around them. -/
theorem crcFrom_window_bijective (r : BitVec 16) (post : List Byte) :
    Function.Bijective fun w : Byte × Byte => crcFrom r (w.1 :: w.2 :: post) := by
  have hinj : Function.Injective fun w : Byte × Byte => crcFrom r (w.1 :: w.2 :: post) := by
    intro v w h
    have hcrc : crcByte (crcByte r v.1) v.2 = crcByte (crcByte r w.1) w.2 :=
      crcFrom_injective post h
    rw [crcByte_crcByte, crcByte_crcByte] at hcrc
    obtain ⟨h₁, h₂⟩ := halves_injective ((BitVec.xor_right_inj _).mp (crcBits_injective 16 hcrc))
    exact Prod.ext h₁ h₂
  have e : ∀ w, BitVec w ≃ Fin (2 ^ w) := fun w => BitVec.equivFin.toEquiv
  have : Finite (BitVec 16) := Finite.of_equiv _ (e 16).symm
  apply hinj.bijective_of_nat_card_le
  rw [Nat.card_prod, Nat.card_congr (e 16), Nat.card_congr (e 8), Nat.card_fin, Nat.card_fin]
  norm_num

end Wire
