import P4Cases.Frames.Python
import P4Cases.Wire.CrcPolynomial

/-! What slot and path selection rely on: the checksum of the `packets.py` modules is
CRC-16/ARC, linear, and never the same for two values of one port. -/
namespace P4Cases
open Wire Polynomial

/-- The 16 bits of `n`, lowest first, are the coefficients from `X ^ 15` down. -/
def Reflects (n : ℕ) (remainder : (ZMod 2)[X]) : Prop :=
  ∀ i < 16, n.testBit i = true ↔ remainder.coeff (15 - i) = 1

theorem crc16_lt (data : List Byte) : crc16 data < 2 ^ 16 := by
  rw [crc16_eq]
  exact (crc16Arc data).isLt

theorem crc16_reflects (data : List Byte) :
    Reflects (crc16 data) ((messagePoly data * X ^ 16) %ₘ arcPoly) := by
  intro i hi
  rw [crc16_eq]
  exact crc16Arc_bit data hi

theorem crc16_xor {a b : List Byte} (h : a.length = b.length) :
    crc16 (xorBytes a b) = crc16 a ^^^ crc16 b := by
  rw [crc16_eq, crc16_eq, crc16_eq, crc16Arc_xor h, BitVec.toNat_xor]

theorem crc16_window (pre post : List Byte) :
    Set.BijOn (fun w : Byte × Byte => crc16 (pre ++ w.1 :: w.2 :: post)) Set.univ
      (Set.Iio (2 ^ 16)) := by
  have hb := crcFrom_window_bijective (crc16Arc pre) post
  have hcrc : ∀ w : Byte × Byte, crc16 (pre ++ w.1 :: w.2 :: post) =
      (crcFrom (crc16Arc pre) (w.1 :: w.2 :: post)).toNat := by
    intro w
    rw [crc16_eq, crc16Arc_append]
  refine ⟨fun w _ => crc16_lt _, ?_, ?_⟩
  · intro v _ w _ h
    dsimp only at h
    rw [hcrc, hcrc] at h
    exact hb.1 (BitVec.eq_of_toNat_eq h)
  · intro n hn
    obtain ⟨w, hw⟩ := hb.2 (BitVec.ofNat 16 n)
    refine ⟨w, Set.mem_univ w, ?_⟩
    dsimp only at hw ⊢
    rw [hcrc, hw, BitVec.toNat_ofNat, Nat.mod_eq_of_lt hn]

theorem beBytes_two (n : ℕ) : beBytes 2 n = [BitVec.ofNat 8 (n / 256), BitVec.ofNat 8 n] := by
  simp [beBytes]

/-- The two bytes of a port decide the checksum, when everything else stands. -/
theorem crc16_port_inj (pre post : List Byte) {p q : BitVec 16}
    (h : crc16 (pre ++ (beBytes 2 p.toNat ++ post)) = crc16 (pre ++ (beBytes 2 q.toNat ++ post))) :
    p = q := by
  have hw := (crc16_window pre post).injOn (Set.mem_univ (BitVec.ofNat 8 (p.toNat / 256),
    BitVec.ofNat 8 p.toNat)) (Set.mem_univ (BitVec.ofNat 8 (q.toNat / 256),
    BitVec.ofNat 8 q.toNat))
  rw [beBytes_two, beBytes_two] at h
  obtain ⟨h₁, h₂⟩ := Prod.mk.inj (hw h)
  have hb : beBytes 2 p.toNat = beBytes 2 q.toNat := by
    rw [beBytes_two, beBytes_two, h₁, h₂]
  exact BitVec.eq_of_toNat_eq ((beBytes_inj p.isLt q.isLt).mp hb)

/-! Changing a port by an exclusive or. -/

theorem xorBytes_zeros (bs : List Byte) : xorBytes bs (List.replicate bs.length 0) = bs := by
  induction bs with
  | nil => rfl
  | cons b bs ih =>
    rw [List.length_cons, List.replicate_succ, xorBytes, List.zipWith_cons_cons]
    exact congrArg₂ List.cons (BitVec.xor_zero) ih

theorem crc16_zeros (n : ℕ) (bs : List Byte) : crc16 (List.replicate n 0 ++ bs) = crc16 bs := by
  induction n with
  | zero => rfl
  | succ n ih => exact ih

theorem beBytes_two_xor (v k : BitVec 16) :
    beBytes 2 (v ^^^ k).toNat = xorBytes (beBytes 2 v.toNat) (beBytes 2 k.toNat) := by
  have hhigh : BitVec.ofNat 8 ((v ^^^ k).toNat / 256) =
      BitVec.ofNat 8 (v.toNat / 256) ^^^ BitVec.ofNat 8 (k.toNat / 256) := by
    apply BitVec.eq_of_getLsbD_eq
    intro i hi
    have h256 : ∀ n : ℕ, (n / 2 ^ 8).testBit i = n.testBit (i + 8) := fun n =>
      Nat.testBit_div_two_pow n i
    simp only [BitVec.getLsbD_xor, BitVec.getLsbD_ofNat, BitVec.toNat_xor, hi, decide_true,
      Bool.true_and]
    refine (h256 _).trans ?_
    rw [Nat.testBit_xor, ← h256, ← h256]
    rfl
  have hlow :
      BitVec.ofNat 8 (v ^^^ k).toNat = BitVec.ofNat 8 v.toNat ^^^ BitVec.ofNat 8 k.toNat := by
    apply BitVec.eq_of_getLsbD_eq
    intro i hi
    simp [hi]
  rw [beBytes_two, beBytes_two, beBytes_two, hhigh, hlow]
  rfl

/-- What a change of the port changes does not depend on the rest of the tuple. -/
theorem crc16_port_xor (pre post : List Byte) (v k : BitVec 16) :
    crc16 (pre ++ (beBytes 2 (v ^^^ k).toNat ++ post)) =
      crc16 (pre ++ (beBytes 2 v.toNat ++ post)) ^^^
        crc16 (beBytes 2 k.toNat ++ List.replicate post.length 0) := by
  have hsplit : pre ++ (beBytes 2 (v ^^^ k).toNat ++ post) =
      xorBytes (pre ++ (beBytes 2 v.toNat ++ post))
        (List.replicate pre.length 0 ++ (beBytes 2 k.toNat ++ List.replicate post.length 0)) := by
    have hpre := xorBytes_zeros pre
    have hpost := xorBytes_zeros post
    rw [beBytes_two_xor]
    unfold xorBytes at hpre hpost ⊢
    rw [List.zipWith_append (by simp), List.zipWith_append (by simp), hpre, hpost]
  rw [hsplit, crc16_xor (by simp), crc16_zeros]

/-- The checksum of any byte string is the reflected remainder of its polynomial; it is
linear on strings of one length; and two bytes in a row run through all 16-bit values,
so that a port can be read back from it. -/
theorem crc16_laws :
    (∀ data : List Byte, crc16 data < 2 ^ 16 ∧
      Reflects (crc16 data) ((messagePoly data * X ^ 16) %ₘ (X ^ 16 + X ^ 15 + X ^ 2 + 1))) ∧
    (∀ a b : List Byte, a.length = b.length → crc16 (xorBytes a b) = crc16 a ^^^ crc16 b) ∧
    (∀ pre post : List Byte,
      Set.BijOn (fun w : Byte × Byte => crc16 (pre ++ w.1 :: w.2 :: post)) Set.univ
        (Set.Iio (2 ^ 16))) ∧
    ∀ (pre post : List Byte) (p q : BitVec 16), p ≠ q →
      crc16 (pre ++ (beBytes 2 p.toNat ++ post)) ≠ crc16 (pre ++ (beBytes 2 q.toNat ++ post)) := by
  refine ⟨?_, fun a b h => crc16_xor h, crc16_window, ?_⟩
  · intro data
    exact ⟨crc16_lt data, crc16_reflects data⟩
  · intro pre post p q hne h
    exact hne (crc16_port_inj pre post h)

end P4Cases
