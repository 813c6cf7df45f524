import P4Cases.Wire.Bytes

/-! One's-complement sums of 16-bit words and the checksum built on them. The
end-around carry is compared with arithmetic modulo 65535, where zero has the
two representations `0` and `65535`. -/
namespace Wire

/-- Big-endian 16-bit words; an odd last byte is padded with a zero byte. -/
def words : List Byte → List ℕ
  | a :: b :: rest => (a.toNat * 256 + b.toNat) :: words rest
  | [a] => [a.toNat * 256]
  | [] => []

/-- Addition with end-around carry. -/
def carryAdd (a b : ℕ) : ℕ := if a + b < 65536 then a + b else a + b - 65535

def onesSum (bs : List Byte) : ℕ := (words bs).foldl carryAdd 0

/-- The 16-bit checksum of a buffer: the complement of its one's-complement sum. -/
def csum16 (bs : List Byte) : BitVec 16 := BitVec.ofNat 16 (65535 - onesSum bs)

/-- The 16-bit one's-complement representative of a natural number: only zero
itself is represented by `0`. -/
def fold16 (n : ℕ) : ℕ := if n = 0 then 0 else (n - 1) % 65535 + 1

theorem fold16_le (n : ℕ) : fold16 n ≤ 65535 := by
  unfold fold16
  split <;> omega

theorem fold16_of_le {n : ℕ} (h : n ≤ 65535) : fold16 n = n := by
  unfold fold16
  split <;> omega

theorem fold16_eq_zero {n : ℕ} : fold16 n = 0 ↔ n = 0 := by
  unfold fold16
  split <;> omega

/-- Two positive numbers congruent modulo 65535 have one representative. -/
theorem fold16_add_mul {n : ℕ} (hn : n ≠ 0) (q : ℕ) : fold16 (n + 65535 * q) = fold16 n := by
  unfold fold16
  rw [if_neg (by omega), if_neg hn]
  omega

theorem fold16_add_fold16 (a b : ℕ) : fold16 (fold16 a + b) = fold16 (a + b) := by
  by_cases ha : a = 0
  · simp [ha, fold16]
  · have hq : a + b = (fold16 a + b) + 65535 * ((a - 1) / 65535) := by
      unfold fold16
      rw [if_neg ha]
      omega
    have hp : fold16 a + b ≠ 0 := by
      unfold fold16
      rw [if_neg ha]
      omega
    rw [hq, fold16_add_mul hp]

theorem carryAdd_eq_fold16 {a b : ℕ} (ha : a ≤ 65535) (hb : b ≤ 65535) :
    carryAdd a b = fold16 (a + b) := by
  unfold carryAdd fold16
  split <;> split <;> omega

theorem words_le (bs : List Byte) : ∀ w ∈ words bs, w ≤ 65535 := by
  induction bs using words.induct with
  | case1 a b rest ih =>
    have ha := a.isLt
    have hb := b.isLt
    simp only [words, List.forall_mem_cons]
    exact ⟨by omega, ih⟩
  | case2 a =>
    have ha := a.isLt
    simp only [words, List.mem_singleton, forall_eq]
    omega
  | case3 => simp [words]

theorem foldl_carryAdd {ws : List ℕ} (hw : ∀ w ∈ ws, w ≤ 65535) (a : ℕ) :
    ws.foldl carryAdd (fold16 a) = fold16 (a + ws.sum) := by
  induction ws generalizing a with
  | nil => simp
  | cons w ws ih =>
    have h : carryAdd (fold16 a) w = fold16 (a + w) := by
      rw [carryAdd_eq_fold16 (fold16_le a) (hw w (by simp)), fold16_add_fold16]
    rw [List.foldl_cons, h, ih (fun v hv => hw v (by simp [hv])), List.sum_cons, Nat.add_assoc]

/-- The end-around sum of a buffer represents the plain sum of its words. -/
theorem onesSum_eq (bs : List Byte) : onesSum bs = fold16 (words bs).sum := by
  have h := foldl_carryAdd (words_le bs) 0
  simpa [onesSum, fold16] using h

theorem csum16_toNat (bs : List Byte) : (csum16 bs).toNat = 65535 - fold16 (words bs).sum := by
  rw [csum16, BitVec.toNat_ofNat, onesSum_eq]
  omega

theorem words_append {as : List Byte} (bs : List Byte) (h : as.length % 2 = 0) :
    words (as ++ bs) = words as ++ words bs := by
  induction as using words.induct with
  | case1 a b rest ih =>
    have hr : rest.length % 2 = 0 := by
      simp only [List.length_cons] at h
      omega
    simp [words, ih hr]
  | case2 a => simp at h
  | case3 => simp [words]

theorem words_beBytes_two (n : ℕ) : words (beBytes 2 n) = [n % 65536] := by
  simp only [beBytes, words, BitVec.toNat_ofNat, Nat.reducePow, pow_one, pow_zero, Nat.div_one]
  congr 1
  omega

/-- Words may be taken out of the buffer and added separately. -/
theorem words_sum_insert {as bs : List Byte} (cs : List Byte) (ha : as.length % 2 = 0)
    (hb : bs.length % 2 = 0) :
    (words (as ++ bs ++ cs)).sum = (words (as ++ cs)).sum + (words bs).sum := by
  have hab : (as ++ bs).length % 2 = 0 := by
    rw [List.length_append]
    omega
  rw [words_append _ hab, words_append _ ha, words_append _ ha]
  simp only [List.sum_append]
  ring

/-- A stored word makes the whole buffer verify exactly when it complements the
sum of the others, up to the two representations of zero. -/
theorem fold16_add_eq_max {s c : ℕ} (hs : s ≠ 0) (hc : c ≤ 65535) :
    fold16 (s + c) = 65535 ↔ c = 65535 - fold16 s ∨ (c = 65535 ∧ fold16 s = 65535) := by
  unfold fold16
  rw [if_neg (by omega), if_neg hs]
  omega

theorem fold16_csum {s : ℕ} : fold16 (s + (65535 - fold16 s)) = 65535 := by
  by_cases hs : s = 0
  · simp [hs, fold16]
  · exact (fold16_add_eq_max hs (by omega)).mpr (Or.inl rfl)

end Wire
