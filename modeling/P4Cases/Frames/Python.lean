import P4Cases.Wire.Slice
import P4Cases.Wire.OnesComplement
import P4Cases.Wire.Crc

/-! The helpers that the `packets.py` modules share, on byte strings, and the
exceptions they raise. -/
namespace P4Cases
open Wire

inductive PyError where
  | runtimeError (message : String)
  | valueError (message : String)
  | addressValueError
  | indexError
  | keyError
  | structError
  | overflowError
  deriving DecidableEq, Repr

abbrev Py := Except PyError

/-- `frame[i]`. -/
def byteAt (frame : List Byte) (i : ℕ) : Py ℕ :=
  match frame[i]? with
  | some b => .ok b.toNat
  | none => .error .indexError

/-- `if bad: raise error`. -/
def raiseIf (bad : Prop) [Decidable bad] (error : PyError) : Py Unit :=
  if bad then .error error else .ok ()

/-- `struct.pack("!H", n)`. -/
def packWord (n : ℕ) : Py (List Byte) :=
  if n < 65536 then .ok (beBytes 2 n) else .error .structError

/-- `n.to_bytes(size, "big")`. -/
def toBytes (size n : ℕ) : Py (List Byte) :=
  if n < 256 ^ size then .ok (beBytes size n) else .error .overflowError

theorem toBytes_ok {size n : ℕ} (h : n < 256 ^ size) : toBytes size n = .ok (beBytes size n) :=
  if_pos h

/-- `bytes(range(n))`. -/
def byteRange (n : ℕ) : List Byte := (List.range n).map (BitVec.ofNat 8)

/-- `bytes(range(256)) * n`. -/
def pattern (n : ℕ) : List Byte := (List.replicate n (byteRange 256)).flatten

@[simp] theorem pattern_length (n : ℕ) : (pattern n).length = 256 * n := by
  simp [pattern, byteRange, Nat.mul_comm]

/-- `frame.ljust(size, fill)`. -/
def ljust (size : ℕ) (frame : List Byte) (fill : Byte := 0) : List Byte :=
  frame ++ List.replicate (size - frame.length) fill

@[simp] theorem ljust_length (size : ℕ) (frame : List Byte) (fill : Byte) :
    (ljust size frame fill).length = max size frame.length := by
  rw [ljust, List.length_append, List.length_replicate]
  omega

/-- `struct.unpack` of big-endian 16-bit words. -/
def unpackWords : List Byte → List ℕ
  | a :: b :: rest => beNat [a, b] :: unpackWords rest
  | _ => []

/-- `while total >> 16: total = (total & 0xFFFF) + (total >> 16)`. -/
def foldCarries (total : ℕ) : ℕ :=
  if total >>> 16 = 0 then total else foldCarries ((total &&& 0xFFFF) + (total >>> 16))
termination_by total
decreasing_by
  rw [Nat.and_two_pow_sub_one_eq_mod total 16]
  simp only [Nat.shiftRight_eq_div_pow] at *
  omega

def checksum (data : List Byte) : ℕ :=
  let data := if data.length % 2 ≠ 0 then data ++ [0] else data
  0xFFFF - foldCarries (unpackWords data).sum

/-- `result ^= byte`, then eight shifts. -/
def crc16Byte (result : ℕ) (byte : Byte) : ℕ :=
  Nat.iterate (fun r => (r >>> 1) ^^^ (if r &&& 1 ≠ 0 then 0xA001 else 0)) 8
    (result ^^^ byte.toNat)

def crc16 (data : List Byte) : ℕ := data.foldl crc16Byte 0

def recalculateChecksum (frame : List Byte) : Py (List Byte) := do
  let b ← byteAt frame 14
  let last := 14 + max 20 ((b &&& 15) * 4)
  let result := setSlice frame 24 26 [0, 0]
  return setSlice result 24 26 (beBytes 2 (checksum (slice result 14 last)))

theorem py_bind_ok {α β : Type} {x : Py α} {f : α → Py β} {b : β} :
    (x >>= f) = .ok b ↔ ∃ a, x = .ok a ∧ f a = .ok b := by
  cases x <;> simp [bind, Except.bind]

theorem py_ok_bind {α β : Type} (a : α) (f : α → Py β) : ((.ok a : Py α) >>= f) = f a := rfl

theorem raiseIf_ok {bad : Prop} [Decidable bad] {error : PyError} :
    raiseIf bad error = .ok () ↔ ¬ bad := by
  by_cases h : bad <;> simp [raiseIf, h]

theorem raiseIf_bind_ok {β : Type} {bad : Prop} [Decidable bad] {error : PyError}
    {f : Unit → Py β} {b : β} : (raiseIf bad error >>= f) = .ok b ↔ ¬ bad ∧ f () = .ok b := by
  by_cases h : bad <;> simp [raiseIf, h, bind, Except.bind]

/-- A check that finds nothing wrong. -/
theorem raiseIf_pass {β : Type} {bad : Prop} [Decidable bad] {error : PyError} {f : Unit → Py β}
    (h : ¬ bad) : (raiseIf bad error >>= f) = f () := by
  rw [raiseIf, if_neg h, py_ok_bind]

/-- A comprehension none of whose elements raises. -/
theorem mapM_ok {α β : Type} {f : α → Py β} {g : α → β} {l : List α}
    (h : ∀ a ∈ l, f a = .ok (g a)) : l.mapM f = .ok (l.map g) := by
  induction l with
  | nil => rfl
  | cons a l ih =>
    have ht := ih fun b hb => h b (List.mem_cons_of_mem a hb)
    rw [List.mapM_cons, h a List.mem_cons_self, ht]
    rfl

/-- A comprehension, element by element. -/
theorem mapM_eq_ok {α β : Type} {f : α → Py β} {l : List α} {bs : List β} :
    l.mapM f = .ok bs ↔ List.Forall₂ (fun a b => f a = .ok b) l bs := by
  induction l generalizing bs with
  | nil =>
    rw [List.forall₂_nil_left_iff]
    exact ⟨fun h => (Except.ok.inj h).symm, fun h => h ▸ rfl⟩
  | cons a l ih =>
    rw [List.mapM_cons, py_bind_ok, List.forall₂_cons_left_iff]
    refine exists_congr fun b => ?_
    rw [py_bind_ok, ← exists_and_left]
    refine exists_congr fun bs' => ?_
    rw [ih]
    exact and_congr_right fun _ => and_congr_right fun _ =>
      ⟨fun h => (Except.ok.inj h).symm, fun h => congrArg _ h.symm⟩

/-- Every element of the second list has its partner. -/
theorem exists_of_mem_right {α β : Type} {R : α → β → Prop} {as : List α} {bs : List β}
    (h : List.Forall₂ R as bs) {b : β} (hb : b ∈ bs) : ∃ a ∈ as, R a b := by
  induction h with
  | nil => exact absurd hb List.not_mem_nil
  | @cons a b' as bs hab _ ih =>
    rcases List.mem_cons.mp hb with rfl | hb
    · exact ⟨a, List.mem_cons_self, hab⟩
    · obtain ⟨a', ha', hr⟩ := ih hb
      exact ⟨a', List.mem_cons_of_mem a ha', hr⟩

theorem exists_of_mem_left {α β : Type} {R : α → β → Prop} {as : List α} {bs : List β}
    (h : List.Forall₂ R as bs) {a : α} (ha : a ∈ as) : ∃ b ∈ bs, R a b :=
  exists_of_mem_right h.flip ha

/-- A comprehension of lists gives nothing when no element does. -/
theorem mapM_flatten_nil {α β : Type} {f : α → Py (List β)} {l : List α} :
    (∃ bs, l.mapM f = .ok bs ∧ bs.flatten = []) ↔ ∀ a ∈ l, f a = .ok [] := by
  constructor
  · intro h a ha
    obtain ⟨bs, hbs, hnil⟩ := h
    obtain ⟨b, hb, hfa⟩ := exists_of_mem_left (mapM_eq_ok.mp hbs) ha
    rw [hfa, List.flatten_eq_nil_iff.mp hnil b hb]
  · intro h
    exact ⟨l.map fun _ => [], mapM_ok h, by simp⟩

theorem forall₂_comp {α β γ : Type} {R : α → β → Prop} {S : β → γ → Prop} {U : α → γ → Prop}
    (h : ∀ a b c, R a b → S b c → U a c) {as : List α} {bs : List β} {cs : List γ}
    (hab : List.Forall₂ R as bs) (hbc : List.Forall₂ S bs cs) : List.Forall₂ U as cs := by
  induction hab generalizing cs with
  | nil =>
    obtain rfl := List.forall₂_nil_left_iff.mp hbc
    exact .nil
  | cons hr _ ih =>
    obtain ⟨c, cs', hs, hbc', rfl⟩ := List.forall₂_cons_left_iff.mp hbc
    exact .cons (h _ _ _ hr hs) (ih hbc')

theorem exists_forall₂ {α β γ : Type} {R : α → β → Prop} {S : β → γ → Prop} {as : List α}
    {cs : List γ} (h : List.Forall₂ (fun a c => ∃ b, R a b ∧ S b c) as cs) :
    ∃ bs, List.Forall₂ R as bs ∧ List.Forall₂ S bs cs := by
  induction h with
  | nil => exact ⟨[], .nil, .nil⟩
  | cons hac _ ih =>
    obtain ⟨b, hr, hs⟩ := hac
    obtain ⟨bs, hab, hbc⟩ := ih
    exact ⟨b :: bs, .cons hr hab, .cons hs hbc⟩

/-- A loop raises nothing when no turn of it does. -/
theorem forM_ok {α : Type} {f : α → Py Unit} {l : List α} :
    l.forM f = .ok () ↔ ∀ a ∈ l, f a = .ok () := by
  induction l with
  | nil => exact iff_of_true rfl (by simp)
  | cons a l ih =>
    rw [List.forall_mem_cons, ← ih, List.forM_eq_forM, List.forM_cons]
    cases f a <;> simp [bind, Except.bind]

/-- A loop each turn of which adds elements to a list. -/
theorem foldlM_extends {α β : Type} {R : α → List β → Prop} {f : List β → α → Py (List β)}
    {l : List α} (hf : ∀ built, ∀ a ∈ l, ∀ built', f built a = .ok built' →
      ∃ added, built' = built ++ added ∧ R a added)
    {built built' : List β} (h : l.foldlM f built = .ok built') :
    ∃ added, List.Forall₂ R l added ∧ built' = built ++ added.flatten := by
  induction l generalizing built with
  | nil =>
    obtain rfl : built = built' := Except.ok.inj h
    exact ⟨[], .nil, (List.append_nil _).symm⟩
  | cons a l ih =>
    rw [List.foldlM_cons] at h
    obtain ⟨built₁, h₁, h⟩ := py_bind_ok.mp h
    obtain ⟨new, rfl, hnew⟩ := hf built a List.mem_cons_self built₁ h₁
    obtain ⟨added, hadded, rfl⟩ := ih (fun built a ha => hf built a (List.mem_cons_of_mem _ ha)) h
    exact ⟨new :: added, .cons hnew hadded, List.append_assoc _ _ _⟩

/-- A loop raises nothing when no turn of it does, as long as what it needs is kept. -/
theorem foldlM_total {α β : Type} {f : β → α → Py β} (P : List α → β → Prop)
    (hf : ∀ b a l, P (a :: l) b → ∃ b', f b a = .ok b' ∧ P l b') {l : List α} {b : β}
    (hb : P l b) : ∃ b', l.foldlM f b = .ok b' ∧ P [] b' := by
  induction l generalizing b with
  | nil => exact ⟨b, rfl, hb⟩
  | cons a l ih =>
    obtain ⟨b₁, h₁, hb₁⟩ := hf b a l hb
    obtain ⟨b', h', hb'⟩ := ih hb₁
    exact ⟨b', by rw [List.foldlM_cons, h₁, py_ok_bind, h'], hb'⟩

/-- A loop whose turns check their own element only. -/
theorem foldlM_ok {α β : Type} {f : β → α → Py β} {check : α → Prop} {g : β → α → β} {l : List α}
    (hf : ∀ b a, a ∈ l → ∀ b', f b a = .ok b' ↔ check a ∧ b' = g b a) {b b' : β} :
    l.foldlM f b = .ok b' ↔ (∀ a ∈ l, check a) ∧ b' = l.foldl g b := by
  induction l generalizing b with
  | nil =>
    rw [List.foldlM_nil, List.foldl_nil]
    constructor
    · intro h
      exact ⟨by simp, (Except.ok.inj h).symm⟩
    · intro h
      rw [h.2]
      rfl
  | cons a l ih =>
    have htail := fun b => ih (b := b) fun b a ha => hf b a (List.mem_cons_of_mem _ ha)
    rw [List.foldlM_cons, List.forall_mem_cons, List.foldl_cons, py_bind_ok]
    constructor
    · intro h
      obtain ⟨b₁, h₁, h⟩ := h
      obtain ⟨hcheck, rfl⟩ := (hf b a List.mem_cons_self b₁).mp h₁
      obtain ⟨hall, rfl⟩ := (htail _).mp h
      exact ⟨⟨hcheck, hall⟩, rfl⟩
    · intro h
      obtain ⟨⟨hcheck, hall⟩, rfl⟩ := h
      exact ⟨g b a, (hf b a List.mem_cons_self _).mpr ⟨hcheck, rfl⟩, (htail _).mpr ⟨hall, rfl⟩⟩

/-- What holds after a loop when each turn can make it hold and none undoes it. -/
theorem foldl_or {α β : Type} {f : β → α → β} {P : β → Prop} {R : α → Prop}
    (hf : ∀ b a, P (f b a) ↔ P b ∨ R a) (l : List α) (b : β) :
    P (l.foldl f b) ↔ P b ∨ ∃ a ∈ l, R a := by
  induction l generalizing b with
  | nil => simp
  | cons a l ih =>
    rw [List.foldl_cons, ih, hf, List.exists_mem_cons_iff, or_assoc]

theorem byteAt_eq {frame : List Byte} {i : ℕ} (h : i < frame.length) :
    byteAt frame i = .ok (fieldAt frame i (i + 1)) := by
  have hs : slice frame i (i + 1) = [frame[i]] := by
    rw [slice, Nat.add_sub_cancel_left, List.drop_eq_getElem_cons h, List.take_succ_cons,
      List.take_zero]
  rw [byteAt, fieldAt, hs, List.getElem?_eq_getElem h]
  simp [beNat]

/-- Only a frame too short to have an IPv4 header cannot get a checksum. -/
theorem recalculateChecksum_total {frame : List Byte} (h : 14 < frame.length) :
    ∃ result, recalculateChecksum frame = .ok result := by
  rw [recalculateChecksum, byteAt_eq h]
  exact ⟨_, rfl⟩

/-! `checksum` and `crc16` compute what the switch's externs compute. -/

theorem foldCarries_eq (total : ℕ) : foldCarries total = fold16 total := by
  induction total using foldCarries.induct with
  | case1 total h =>
    rw [foldCarries, if_pos h, fold16_of_le]
    rw [Nat.shiftRight_eq_div_pow] at h
    omega
  | case2 total h ih =>
    rw [foldCarries, if_neg h, ih, Nat.and_two_pow_sub_one_eq_mod total 16]
    rw [Nat.shiftRight_eq_div_pow] at *
    have hs : total % 2 ^ 16 + total / 2 ^ 16 ≠ 0 := by omega
    rw [← fold16_add_mul hs (total / 2 ^ 16)]
    congr 1
    omega

theorem unpackWords_eq (data : List Byte) :
    unpackWords (if data.length % 2 ≠ 0 then data ++ [0] else data) = words data := by
  induction data using words.induct with
  | case1 a b rest ih =>
    have hp : (a :: b :: rest).length % 2 = rest.length % 2 := by
      simp only [List.length_cons]
      omega
    rw [hp, words, ← ih]
    split <;> simp [unpackWords, beNat]
  | case2 a => simp [unpackWords, words, beNat]
  | case3 => simp [unpackWords, words]

theorem checksum_eq (data : List Byte) : checksum data = (csum16 data).toNat := by
  rw [csum16_toNat, checksum, unpackWords_eq, foldCarries_eq]

theorem crc16_step (r : BitVec 16) :
    (r.toNat >>> 1) ^^^ (if r.toNat &&& 1 ≠ 0 then 0xA001 else 0) = (crcBit r).toNat := by
  have hb : r.getLsbD 0 = decide (r.toNat &&& 1 ≠ 0) := by
    rw [Nat.and_one_is_mod, BitVec.getLsbD, Nat.testBit_zero]
    rcases Nat.mod_two_eq_zero_or_one r.toNat with h | h <;> simp [h]
  rw [crcBit, hb, BitVec.toNat_xor, BitVec.toNat_ushiftRight]
  by_cases h : r.toNat &&& 1 = 0
  · simp [h]
  · simp only [ne_eq, h, not_false_eq_true, decide_true, if_true]
    rfl

theorem crc16_byte (r : BitVec 16) (b : Byte) :
    crc16Byte r.toNat b = (crcByte r b).toNat := by
  have hb := b.isLt
  have hx : r.toNat ^^^ b.toNat = (r ^^^ b.setWidth 16).toNat := by
    rw [BitVec.toNat_xor, BitVec.toNat_setWidth, Nat.mod_eq_of_lt (by omega)]
  rw [crc16Byte, crcByte, hx]
  exact ((Function.Semiconj.iterate_right (f := BitVec.toNat) (fun s => (crc16_step s).symm) 8)
    _).symm

theorem crc16_eq (data : List Byte) : crc16 data = (crc16Arc data).toNat := by
  have h : ∀ (data : List Byte) (r : BitVec 16),
      data.foldl crc16Byte r.toNat = (data.foldl crcByte r).toNat := by
    intro data
    induction data with
    | nil => intro r; rfl
    | cons b data ih => intro r; rw [List.foldl_cons, crc16_byte, ih, List.foldl_cons]
  exact h data 0#16

end P4Cases
