import P4Cases.Wire.Bytes

/-! Headers as sequences of fixed-width fields. A header type is given by the
widths of its fields in wire order; one codec serves every such type. -/
namespace Wire

/-- Values of consecutive fields of the given widths. -/
def Fields : List ℕ → Type
  | [] => Unit
  | w :: ws => BitVec w × Fields ws

namespace Fields

def bits : {ws : List ℕ} → Fields ws → List Bool
  | [], _ => []
  | _ :: _, fields => toBits fields.1 ++ bits fields.2

def ofBits : (ws : List ℕ) → List Bool → Fields ws
  | [], _ => ()
  | w :: ws, l => (Wire.ofBits w (l.take w), ofBits ws (l.drop w))

@[simp] theorem bits_length {ws : List ℕ} (f : Fields ws) : f.bits.length = ws.sum := by
  induction ws with
  | nil => rfl
  | cons w ws ih => simp [bits, ih]

theorem ofBits_bits {ws : List ℕ} (f : Fields ws) : ofBits ws f.bits = f := by
  induction ws with
  | nil => rfl
  | cons w ws ih =>
    have ht : (toBits f.1 ++ bits f.2).take w = toBits f.1 := by
      simp [List.take_left' (toBits_length f.1)]
    have hd : (toBits f.1 ++ bits f.2).drop w = bits f.2 := by
      simp [List.drop_left' (toBits_length f.1)]
    simp only [bits, ofBits, ht, hd, Wire.ofBits_toBits, ih]
    rfl

theorem bits_ofBits {ws : List ℕ} {l : List Bool} (h : l.length = ws.sum) :
    (ofBits ws l).bits = l := by
  induction ws generalizing l with
  | nil => exact (List.length_eq_zero_iff.mp h).symm
  | cons w ws ih =>
    rw [List.sum_cons] at h
    have ht : (l.take w).length = w := by simp; omega
    have hd : (l.drop w).length = ws.sum := by simp; omega
    simp only [bits, ofBits, toBits_ofBits ht, ih hd, List.take_append_drop]

end Fields

/-- A header type: `size` bytes, split into the fields of `layout`. -/
class Header (α : Type) where
  layout : List ℕ
  size : ℕ
  sum_layout : layout.sum = 8 * size
  toFields : α → Fields layout
  ofFields : Fields layout → α
  ofFields_toFields : ∀ a, ofFields (toFields a) = a
  toFields_ofFields : ∀ f, toFields (ofFields f) = f

namespace Header
variable {α : Type} [Header α]

def bits (a : α) : List Bool := (toFields a).bits

def encode (a : α) : List Byte := packBits (bits a)

def decode (bs : List Byte) : α := ofFields (Fields.ofBits _ (bytesBits bs))

@[simp] theorem bits_length (a : α) : (bits a).length = 8 * size α := by
  rw [bits, Fields.bits_length, sum_layout]

theorem bytesBits_encode (a : α) : bytesBits (encode a) = bits a :=
  bytesBits_packBits (by rw [bits_length]; omega)

@[simp] theorem encode_length (a : α) : (encode a).length = size α := by
  have h := bytesBits_length (encode a)
  rw [bytesBits_encode, bits_length] at h
  omega

@[simp] theorem decode_encode (a : α) : (decode (encode a) : α) = a := by
  rw [decode, bytesBits_encode, bits, Fields.ofBits_bits, ofFields_toFields]

theorem encode_decode {bs : List Byte} (h : bs.length = size α) :
    encode (decode bs : α) = bs := by
  have hl : (bytesBits bs).length = (layout α).sum := by
    rw [bytesBits_length, h, sum_layout]
  rw [encode, bits, decode, toFields_ofFields, Fields.bits_ofBits hl, packBits_bytesBits]

theorem encode_injective : Function.Injective (encode : α → List Byte) := by
  intro a b h
  rw [← decode_encode a, h, decode_encode]

/-- A long enough byte string starts with exactly one header. -/
theorem exists_encode_append {bs : List Byte} (h : size α ≤ bs.length) :
    ∃ (a : α) (rest : List Byte), bs = encode a ++ rest := by
  refine ⟨decode (bs.take (size α)), bs.drop (size α), ?_⟩
  rw [encode_decode (by simp [h]), List.take_append_drop]

theorem encode_append_inj {a b : α} {as bs : List Byte} :
    encode a ++ as = encode b ++ bs ↔ a = b ∧ as = bs := by
  constructor
  · intro h
    have hl : (encode a).length = (encode b).length := by simp
    obtain ⟨hh, ht⟩ := List.append_inj h hl
    exact ⟨encode_injective hh, ht⟩
  · rintro ⟨rfl, rfl⟩
    rfl

end Header
end Wire
