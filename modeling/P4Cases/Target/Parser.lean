import P4Cases.Wire.Layout

/-! Packet parsers. A parser state runs on the bytes not yet extracted and the
headers set so far; an error stops it and leaves both as they are. -/
namespace P4
open Wire

/-- The errors of the core library, and those a program declares itself. -/
inductive ParserError (ε : Type) where
  | packetTooShort
  | stackOutOfBounds
  | headerTooShort
  | parserInvalidArgument
  | declared (e : ε)
  deriving DecidableEq, Repr

structure Cursor (H : Type) where
  rest : List Byte
  hdr : H

def Parser (ε H α : Type) := Cursor H → Except (ParserError ε) α × Cursor H

namespace Parser
variable {ε H α β : Type}

/-- Transition to `accept`. -/
def accept : Parser ε H Unit := fun c => (.ok (), c)

def bind (p : Parser ε H α) (k : α → Parser ε H β) : Parser ε H β := fun c =>
  match p c with
  | (.ok a, c') => k a c'
  | (.error e, c') => (.error e, c')

instance : Monad (Parser ε H) where
  pure a := fun c => (.ok a, c)
  bind := bind

def fail (e : ParserError ε) : Parser ε H α := fun c => (.error e, c)

def verify (condition : Bool) (e : ε) : Parser ε H Unit :=
  if condition then accept else fail (.declared e)

/-- An assignment to headers or user metadata. -/
def assign (f : H → H) : Parser ε H Unit := fun c => (.ok (), ⟨c.rest, f c.hdr⟩)

/-- `packet.extract` of a fixed-width header, stored by `set`. -/
def extract [Header α] (set : α → H → H) : Parser ε H α := fun c =>
  if Header.size α ≤ c.rest.length then
    let a : α := Header.decode (c.rest.take (Header.size α))
    (.ok a, ⟨c.rest.drop (Header.size α), set a c.hdr⟩)
  else (.error .packetTooShort, c)

/-- `packet.extract` of a header that is one `varbit<limit>` field of `size` bits. -/
def extractVarbit (limit size : ℕ) (set : List Byte → H → H) : Parser ε H Unit := fun c =>
  if limit < size then (.error .headerTooShort, c)
  else if size % 8 ≠ 0 then (.error .parserInvalidArgument, c)
  else if size / 8 ≤ c.rest.length then
    (.ok (), ⟨c.rest.drop (size / 8), set (c.rest.take (size / 8)) c.hdr⟩)
  else (.error .packetTooShort, c)

/-- `packet.lookahead<bit<8>>()`. -/
def lookahead : Parser ε H Byte := fun c =>
  match c.rest with
  | b :: _ => (.ok b, c)
  | [] => (.error .packetTooShort, c)

/-! A run that accepts, read backwards: each statement of an accepting parser
says what the bytes in front of it were. -/

@[simp] theorem accept_ok {bs bs' : List Byte} {hdr hdr' : H} {u : Unit} :
    (accept : Parser ε H Unit) ⟨bs, hdr⟩ = (.ok u, ⟨bs', hdr'⟩) ↔ bs = bs' ∧ hdr = hdr' := by
  simp [accept]

@[simp] theorem fail_ok {e : ParserError ε} {c c' : Cursor H} {a : α} :
    (fail e : Parser ε H α) c = (.ok a, c') ↔ False := by
  simp [fail]

theorem bind_ok {p : Parser ε H α} {k : α → Parser ε H β} {c c' : Cursor H} {b : β} :
    (p >>= k) c = (.ok b, c') ↔ ∃ a c₁, p c = (.ok a, c₁) ∧ k a c₁ = (.ok b, c') := by
  change bind p k c = _ ↔ _
  unfold bind
  rcases hp : p c with ⟨_ | a, c₁⟩ <;> simp

@[simp] theorem assign_ok {f : H → H} {bs bs' : List Byte} {hdr hdr' : H} {u : Unit} :
    (assign f : Parser ε H Unit) ⟨bs, hdr⟩ = (.ok u, ⟨bs', hdr'⟩) ↔
      bs = bs' ∧ f hdr = hdr' := by
  simp [assign]

theorem assign_bind_ok {f : H → H} {k : Unit → Parser ε H β} {bs : List Byte} {hdr : H}
    {c' : Cursor H} {b : β} :
    (assign f >>= k) ⟨bs, hdr⟩ = (.ok b, c') ↔ k () ⟨bs, f hdr⟩ = (.ok b, c') := by
  rw [bind_ok]
  simp only [assign, Prod.mk.injEq]
  constructor
  · rintro ⟨⟨⟩, c₁, ⟨-, rfl⟩, h⟩
    exact h
  · exact fun h => ⟨(), _, ⟨trivial, rfl⟩, h⟩

theorem verify_ok {q : Bool} {e : ε} {c c' : Cursor H} {u : Unit} :
    verify q e c = (.ok u, c') ↔ q = true ∧ c = c' := by
  cases q <;> simp [verify, accept]

theorem verify_bind_ok {q : Bool} {e : ε} {k : Unit → Parser ε H β} {c c' : Cursor H} {b : β} :
    (verify q e >>= k) c = (.ok b, c') ↔ q = true ∧ k () c = (.ok b, c') := by
  rw [bind_ok]
  constructor
  · rintro ⟨u, c₁, h, hk⟩
    obtain ⟨hq, rfl⟩ := verify_ok.mp h
    exact ⟨hq, hk⟩
  · rintro ⟨hq, hk⟩
    exact ⟨(), c, verify_ok.mpr ⟨hq, rfl⟩, hk⟩

theorem extract_ok [Header α] {set : α → H → H} {bs : List Byte} {hdr : H} {c' : Cursor H}
    {a : α} :
    (extract set : Parser ε H α) ⟨bs, hdr⟩ = (.ok a, c') ↔
      ∃ rest, bs = Header.encode a ++ rest ∧ c' = ⟨rest, set a hdr⟩ := by
  unfold extract
  constructor
  · intro h
    split at h
    next hs =>
      simp only [Prod.mk.injEq, Except.ok.injEq] at h
      obtain ⟨rfl, rfl⟩ := h
      refine ⟨bs.drop (Header.size α), ?_, rfl⟩
      rw [Header.encode_decode (by simp [hs]), List.take_append_drop]
    next => simp at h
  · rintro ⟨rest, hr, rfl⟩
    have hl := Header.encode_length a
    rw [hr, if_pos (by simp)]
    simp [List.take_left' hl, List.drop_left' hl]

theorem extract_bind_ok [Header α] {set : α → H → H} {k : α → Parser ε H β} {bs : List Byte}
    {hdr : H} {c' : Cursor H} {b : β} :
    (extract set >>= k) ⟨bs, hdr⟩ = (.ok b, c') ↔
      ∃ a rest, bs = Header.encode a ++ rest ∧ k a ⟨rest, set a hdr⟩ = (.ok b, c') := by
  rw [bind_ok]
  constructor
  · rintro ⟨a, c₁, h, hk⟩
    obtain ⟨rest, hr, rfl⟩ := extract_ok.mp h
    exact ⟨a, rest, hr, hk⟩
  · rintro ⟨a, rest, hr, hk⟩
    exact ⟨a, _, extract_ok.mpr ⟨rest, hr, rfl⟩, hk⟩

theorem extractVarbit_bind_ok {limit size : ℕ} {set : List Byte → H → H}
    {k : Unit → Parser ε H β} {bs : List Byte} {hdr : H} {c' : Cursor H} {b : β} :
    (extractVarbit limit size set >>= k) ⟨bs, hdr⟩ = (.ok b, c') ↔
      size ≤ limit ∧ size % 8 = 0 ∧ ∃ data rest, bs = data ++ rest ∧
        data.length = size / 8 ∧ k () ⟨rest, set data hdr⟩ = (.ok b, c') := by
  rw [bind_ok]
  unfold extractVarbit
  constructor
  · rintro ⟨a, c₁, h, hk⟩
    split_ifs at h with hl hm hs
    · simp at h
    · simp at h
    · simp only [Prod.mk.injEq, true_and] at h
      subst h
      exact ⟨by omega, not_not.mp hm, bs.take (size / 8), bs.drop (size / 8),
        (List.take_append_drop _ _).symm, by simp [hs], hk⟩
    · simp at h
  · rintro ⟨hl, hm, data, rest, hr, hd, hk⟩
    refine ⟨(), ⟨rest, set data hdr⟩, ?_, hk⟩
    rw [if_neg (by omega), if_neg (by omega), hr, if_pos (by simp [hd])]
    simp [List.take_left' hd, List.drop_left' hd]

theorem lookahead_bind_ok {k : Byte → Parser ε H β} {bs : List Byte} {hdr : H}
    {c' : Cursor H} {b : β} :
    (lookahead >>= k) ⟨bs, hdr⟩ = (.ok b, c') ↔
      ∃ x xs, bs = x :: xs ∧ k x ⟨bs, hdr⟩ = (.ok b, c') := by
  rw [bind_ok]
  cases bs <;> simp [lookahead]

/-! A run read forwards. -/

theorem bind_run {p : Parser ε H α} {k : α → Parser ε H β} {c c' : Cursor H} {a : α}
    (h : p c = (.ok a, c')) : (p >>= k) c = k a c' := by
  show bind p k c = _
  rw [bind, h]

theorem bind_error {p : Parser ε H α} {k : α → Parser ε H β} {c c' : Cursor H}
    {e : ParserError ε} (h : p c = (.error e, c')) : (p >>= k) c = (.error e, c') := by
  show bind p k c = _
  rw [bind, h]

theorem extract_short [Header α] {set : α → H → H} {bs : List Byte} {hdr : H}
    (h : bs.length < Header.size α) : (extract set : Parser ε H α) ⟨bs, hdr⟩ =
      (.error .packetTooShort, ⟨bs, hdr⟩) := by
  rw [extract, if_neg (Nat.not_le.mpr h)]

end Parser
end P4
