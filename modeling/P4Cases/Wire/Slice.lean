import P4Cases.Wire.Bytes

/-! Slices of byte strings by offset, and slice assignment. The simp set walks a
slice along a concatenation of fixed-width big-endian fields. -/
namespace Wire

/-- The bytes at offsets `a` to `b`, the end excluded, as far as they exist. -/
def slice (bs : List Byte) (a b : ℕ) : List Byte := (bs.drop a).take (b - a)

/-- Replace the bytes at offsets `a` to `b` by `new`. -/
def setSlice (bs : List Byte) (a b : ℕ) (new : List Byte) : List Byte :=
  bs.take a ++ new ++ bs.drop b

/-- The number at offsets `a` to `b`. -/
def fieldAt (bs : List Byte) (a b : ℕ) : ℕ := beNat (slice bs a b)

theorem slice_length {bs : List Byte} {a b : ℕ} (hb : b ≤ bs.length) :
    (slice bs a b).length = b - a := by
  rw [slice, List.length_take, List.length_drop]
  omega

@[simp] theorem slice_nil (a b : ℕ) : slice [] a b = [] := by simp [slice]

@[simp] theorem slice_self (bs : List Byte) (a : ℕ) : slice bs a a = [] := by simp [slice]

theorem slice_append_right {as : List Byte} (bs : List Byte) {a : ℕ} (b : ℕ)
    (h : as.length ≤ a) : slice (as ++ bs) a b = slice bs (a - as.length) (b - as.length) := by
  rw [slice, slice, List.drop_append, List.drop_eq_nil_of_le h, List.nil_append]
  congr 1
  omega

theorem slice_append_span {as : List Byte} (bs : List Byte) {b : ℕ} (h : as.length ≤ b) :
    slice (as ++ bs) 0 b = as ++ slice bs 0 (b - as.length) := by
  simp [slice, List.take_append, List.take_of_length_le h]

theorem slice_append_left {as : List Byte} (bs : List Byte) {a b : ℕ} (h : b ≤ as.length) :
    slice (as ++ bs) a b = slice as a b := by
  by_cases ha : a ≤ as.length
  · rw [slice, slice, List.drop_append_of_le_length ha, List.take_append_of_le_length]
    rw [List.length_drop]
    omega
  · have hba : b - a = 0 := by omega
    simp [slice, hba]

theorem setSlice_length {bs new : List Byte} {a b : ℕ} (hab : a ≤ b) (hb : b ≤ bs.length)
    (hn : new.length = b - a) : (setSlice bs a b new).length = bs.length := by
  simp only [setSlice, List.length_append, List.length_take, List.length_drop]
  omega

/-- A slice assignment that keeps the length leaves every other byte in place. -/
theorem setSlice_getElem? {bs new : List Byte} {a b i : ℕ} (hab : a ≤ b) (hb : b ≤ bs.length)
    (hn : new.length = b - a) (hi : i < a ∨ b ≤ i) : (setSlice bs a b new)[i]? = bs[i]? := by
  have ht : (bs.take a).length = a := by
    rw [List.length_take]
    omega
  rcases hi with hi | hi
  · rw [setSlice, List.append_assoc, List.getElem?_append_left (by omega),
      List.getElem?_take_of_lt hi]
  · have hl : (bs.take a ++ new).length = b := by
      rw [List.length_append]
      omega
    rw [setSlice, List.getElem?_append_right (by omega), hl, List.getElem?_drop]
    congr 1
    omega

theorem slice_getElem? (bs : List Byte) (a b i : ℕ) :
    (slice bs a b)[i]? = if i < b - a then bs[a + i]? else none := by
  rw [slice, List.getElem?_take, List.getElem?_drop]

/-- A slice next to the bytes that are assigned. -/
theorem slice_setSlice {bs new : List Byte} {a b c d : ℕ} (hab : a ≤ b) (hb : b ≤ bs.length)
    (hn : new.length = b - a) (hcd : d ≤ a ∨ b ≤ c) :
    slice (setSlice bs a b new) c d = slice bs c d := by
  apply List.ext_getElem?
  intro i
  rw [slice_getElem?, slice_getElem?]
  split_ifs with hi
  · exact setSlice_getElem? hab hb hn (by omega)
  · rfl

/-- The bytes that are assigned. -/
theorem slice_setSlice_self {bs new : List Byte} {a b : ℕ} (hb : b ≤ bs.length)
    (hn : new.length = b - a) : slice (setSlice bs a b new) a b = new := by
  by_cases ha : a ≤ bs.length
  · have ht : (bs.take a).length = a := by
      rw [List.length_take]
      omega
    rw [setSlice, List.append_assoc, slice_append_right _ _ ht.le, ht, Nat.sub_self,
      slice_append_left _ hn.ge, slice, List.drop_zero]
    exact List.take_of_length_le (by omega)
  · have hnil : new = [] := List.eq_nil_of_length_eq_zero (by omega)
    have hab : b - a = 0 := by omega
    rw [slice, hab, List.take_zero, hnil]

theorem slice_take (bs : List Byte) {a b n : ℕ} (h : b ≤ n) :
    slice (bs.take n) a b = slice bs a b := by
  rw [slice, slice, List.drop_take, List.take_take]
  congr 1
  omega

theorem slice_slice (bs : List Byte) {a b c d : ℕ} (h : a + d ≤ b) :
    slice (slice bs a b) c d = slice bs (a + c) (a + d) := by
  rw [slice, slice, slice, List.drop_take, List.take_take, List.drop_drop]
  congr 1
  omega

@[simp] theorem slice_skip (k n : ℕ) (bs : List Byte) {a b : ℕ} (h : k ≤ a) :
    slice (beBytes k n ++ bs) a b = slice bs (a - k) (b - k) := by
  rw [slice_append_right _ _ (by simpa using h), beBytes_length]

@[simp] theorem slice_span (k n : ℕ) (bs : List Byte) {b : ℕ} (h : k ≤ b) :
    slice (beBytes k n ++ bs) 0 b = beBytes k n ++ slice bs 0 (b - k) := by
  rw [slice_append_span _ (by simpa using h), beBytes_length]

@[simp] theorem slice_whole (k n : ℕ) {b : ℕ} (h : k ≤ b) :
    slice (beBytes k n) 0 b = beBytes k n := by
  simp [slice, List.take_of_length_le, h]

@[simp] theorem take_skip (k n : ℕ) (bs : List Byte) {b : ℕ} (h : k ≤ b) :
    (beBytes k n ++ bs).take b = beBytes k n ++ bs.take (b - k) := by
  simp [List.take_append, List.take_of_length_le, h]

@[simp] theorem drop_skip (k n : ℕ) (bs : List Byte) {a : ℕ} (h : k ≤ a) :
    (beBytes k n ++ bs).drop a = bs.drop (a - k) := by
  simp [List.drop_append, List.drop_eq_nil_of_le, h]

theorem setSlice_append_right {as : List Byte} (bs new : List Byte) {a : ℕ} (b : ℕ)
    (ha : as.length ≤ a) (hab : a ≤ b) :
    setSlice (as ++ bs) a b new = as ++ setSlice bs (a - as.length) (b - as.length) new := by
  simp only [setSlice, List.take_append, List.drop_append, List.take_of_length_le ha,
    List.drop_eq_nil_of_le (ha.trans hab), List.nil_append, List.append_assoc]

@[simp] theorem setSlice_skip (k n : ℕ) (bs new : List Byte) {a b : ℕ} (h : k ≤ a)
    (hab : a ≤ b) :
    setSlice (beBytes k n ++ bs) a b new = beBytes k n ++ setSlice bs (a - k) (b - k) new := by
  rw [setSlice_append_right _ _ _ (by simpa using h) hab, beBytes_length]

@[simp] theorem setSlice_head (k n : ℕ) (bs new : List Byte) :
    setSlice (beBytes k n ++ bs) 0 k new = new ++ bs := by
  simp [setSlice]

/-- A field wide enough for its value reads back as that value. -/
@[simp] theorem beNat_beBytes_of_lt {k n : ℕ} (h : n < 256 ^ k) : beNat (beBytes k n) = n := by
  rw [beNat_beBytes, Nat.mod_eq_of_lt h]

@[simp] theorem beNat_beBytes_toNat {w : ℕ} (k : ℕ) (v : BitVec w) (h : w = 8 * k) :
    beNat (beBytes k v.toNat) = v.toNat := by
  apply beNat_beBytes_of_lt
  have hp : (2 : ℕ) ^ w = 256 ^ k := by
    rw [h, pow_mul]
    norm_num
  exact hp ▸ v.isLt

end Wire
