import P4Cases.Target.V1Model

/-! Parsers as machines of named states, with the numbers in their expressions read as
integers: a result that does not fit its width stops the machine. A program is safe
when its parser and this reading of it never differ. -/
namespace P4
open Wire

/-- What can stop the integer reading: an error of the program, or a fault that the
program would not notice. -/
inductive Fault (ε : Type) where
  | error (e : ε)
  | wraps
  | invalidHeader
  | outOfFuel
  deriving DecidableEq, Repr

namespace Parser
variable {ε H α β σ : Type}

/-- The integer `v` as the value of an expression of width `w`. -/
def checked (w : ℕ) (v : ℤ) : Parser (Fault ε) H ℤ :=
  if 0 ≤ v ∧ v < 2 ^ w then pure v else fail (.declared .wraps)

/-- A header whose fields are read. -/
def valid (get : H → Option α) : Parser (Fault ε) H α := fun c =>
  match get c.hdr with
  | some a => (.ok a, c)
  | none => (.error (.declared .invalidHeader), c)

/-- User metadata that is read. -/
def read (get : H → α) : Parser (Fault ε) H α := fun c => (.ok (get c.hdr), c)

/-- A machine: each state is left for the next one, or for `accept`. -/
def run (body : σ → Parser (Fault ε) H (Option σ)) : ℕ → σ → Parser (Fault ε) H Unit
  | 0, _ => fail (.declared .outOfFuel)
  | fuel + 1, state => do
      let next ← body state
      next.elim accept (run body fuel)

def liftError : ParserError ε → ParserError (Fault ε)
  | .packetTooShort => .packetTooShort
  | .stackOutOfBounds => .stackOutOfBounds
  | .headerTooShort => .headerTooShort
  | .parserInvalidArgument => .parserInvalidArgument
  | .declared e => .declared (.error e)

def lift (p : Parser ε H α) : Parser (Fault ε) H α := fun c =>
  ((p c).1.mapError liftError, (p c).2)

theorem pure_bind (a : α) (k : α → Parser ε H β) : (pure a >>= k) = k a := rfl

theorem bind_assoc {γ : Type} (p : Parser ε H α) (k : α → Parser ε H β)
    (k' : β → Parser ε H γ) : p >>= k >>= k' = p >>= fun a => k a >>= k' := by
  funext c
  show bind (bind p k) k' c = bind p (fun a => bind (k a) k') c
  unfold bind
  rcases p c with ⟨_ | a, c₁⟩ <;> rfl

theorem run_succ (body : σ → Parser (Fault ε) H (Option σ)) (fuel : ℕ) (state : σ) :
    run body (fuel + 1) state = body state >>= fun next => next.elim accept (run body fuel) :=
  rfl

end Parser

open P4.Parser

/-- From this cursor the machine does what the parser does, and the parser stops with
no other error than its own or, where `short` allows it, a packet that ends early. -/
structure Follows {ε H α : Type} (short : Cursor H → Prop) (p : Parser (Fault ε) H α)
    (q : Parser ε H α) (c : Cursor H) : Prop where
  run_eq : p c = q.lift c
  errors : ∀ e c', q c = (.error e, c') →
    (∃ d, e = .declared d) ∨ e = .packetTooShort ∧ short c'

namespace Follows
variable {ε H α β σ : Type} {short : Cursor H → Prop} {c c' : Cursor H}
  {k : α → Parser (Fault ε) H β} {k' : α → Parser ε H β}

/-- Both sides take a step that does not fail. -/
theorem step {p : Parser (Fault ε) H α} {q : Parser ε H α} {a : α} (hp : p c = (.ok a, c'))
    (hq : q c = (.ok a, c')) (h : Follows short (k a) (k' a) c') :
    Follows short (p >>= k) (q >>= k') c where
  run_eq := by
    rw [bind_run hp, lift, bind_run hq]
    exact h.run_eq
  errors e c₁ he := by
    rw [bind_run hq] at he
    exact h.errors e c₁ he

/-- The machine alone takes a step. -/
theorem left {p : Parser (Fault ε) H α} {q : Parser ε H β} {a : α} (hp : p c = (.ok a, c'))
    (h : Follows short (k a) q c') (hc : c = c') : Follows short (p >>= k) q c where
  run_eq := by
    subst hc
    rw [bind_run hp]
    exact h.run_eq
  errors := hc ▸ h.errors

/-- Both sides stop with the same error. -/
theorem stop {p : Parser (Fault ε) H α} {q : Parser ε H α} {e : ParserError ε}
    (hp : p c = (.error (liftError e), c)) (hq : q c = (.error e, c))
    (he : (∃ d, e = .declared d) ∨ e = .packetTooShort ∧ short c) :
    Follows short (p >>= k) (q >>= k') c where
  run_eq := by
    rw [bind_error hp, lift, bind_error hq]
    rfl
  errors e' c₁ h := by
    rw [bind_error hq] at h
    obtain ⟨rfl, rfl⟩ : e = e' ∧ c = c₁ := by simpa using h
    exact he

theorem accept : Follows short (Parser.accept : Parser (Fault ε) H Unit) Parser.accept c where
  run_eq := rfl
  errors e c' h := by simp [Parser.accept] at h

theorem extract [Header α] {set : α → H → H} {bs : List Byte} {hdr : H}
    (hs : bs.length < Header.size α → short ⟨bs, hdr⟩)
    (h : ∀ a rest, bs = Header.encode a ++ rest → Follows short (k a) (k' a) ⟨rest, set a hdr⟩) :
    Follows short (Parser.extract set >>= k) (Parser.extract set >>= k') ⟨bs, hdr⟩ := by
  by_cases hl : bs.length < Header.size α
  · exact stop (extract_short hl) (extract_short hl) (Or.inr ⟨rfl, hs hl⟩)
  · obtain ⟨a, rest, hb⟩ := Header.exists_encode_append (α := α) (Nat.not_lt.mp hl)
    exact step (extract_ok.mpr ⟨rest, hb, rfl⟩) (extract_ok.mpr ⟨rest, hb, rfl⟩) (h a rest hb)

/-- The check over the integers is the check the program makes. -/
theorem verify {q q' : Bool} {e : ε} {k : Unit → Parser (Fault ε) H β} {k' : Unit → Parser ε H β}
    (hq : q = q') (h : q' = true → Follows short (k ()) (k' ()) c) :
    Follows short (Parser.verify q (.error e) >>= k) (Parser.verify q' e >>= k') c := by
  subst hq
  cases q with
  | true => exact step rfl rfl (h rfl)
  | false => exact stop rfl rfl (Or.inl ⟨e, rfl⟩)

theorem checked {w : ℕ} {v : ℤ} {k : ℤ → Parser (Fault ε) H β} {q : Parser ε H β} (h₀ : 0 ≤ v)
    (h₁ : v < 2 ^ w) (h : Follows short (k v) q c) :
    Follows short (Parser.checked w v >>= k) q c := by
  have hv : (Parser.checked w v : Parser (Fault ε) H ℤ) c = (.ok v, c) := by
    rw [Parser.checked, if_pos ⟨h₀, h₁⟩]
    rfl
  exact left hv h rfl

theorem valid {get : H → Option α} {q : Parser ε H β} {a : α} (ha : get c.hdr = some a)
    (h : Follows short (k a) q c) : Follows short (Parser.valid get >>= k) q c := by
  have hv : (Parser.valid get : Parser (Fault ε) H α) c = (.ok a, c) := by
    rw [Parser.valid, ha]
  exact left hv h rfl

theorem read {get : H → α} {q : Parser ε H β} (h : Follows short (k (get c.hdr)) q c) :
    Follows short (Parser.read get >>= k) q c :=
  left rfl h rfl

theorem assign {f : H → H} {k : Unit → Parser (Fault ε) H β} {k' : Unit → Parser ε H β}
    {bs : List Byte} {hdr : H} (h : Follows short (k ()) (k' ()) ⟨bs, f hdr⟩) :
    Follows short (Parser.assign f >>= k) (Parser.assign f >>= k') ⟨bs, hdr⟩ :=
  step rfl rfl h

theorem assign_accept {f : H → H} : Follows short
    (Parser.assign f >>= fun _ => Parser.accept : Parser (Fault ε) H Unit) (Parser.assign f) c where
  run_eq := rfl
  errors e c' h := by simp [Parser.assign] at h

theorem lookahead {k : Byte → Parser (Fault ε) H β} {k' : Byte → Parser ε H β} {x : Byte}
    {xs : List Byte} {hdr : H} (h : Follows short (k x) (k' x) ⟨x :: xs, hdr⟩) :
    Follows short (Parser.lookahead >>= k) (Parser.lookahead >>= k') ⟨x :: xs, hdr⟩ :=
  step rfl rfl h

/-- Within its limit, and within the packet, a `varbit` is extracted. -/
theorem extractVarbit {limit size : ℕ} {set : List Byte → H → H}
    {k : Unit → Parser (Fault ε) H β} {k' : Unit → Parser ε H β} {bs : List Byte} {hdr : H}
    (hlimit : size ≤ limit) (hwhole : size % 8 = 0) (hl : size / 8 ≤ bs.length)
    (h : ∀ data rest, bs = data ++ rest → data.length = size / 8 →
      Follows short (k ()) (k' ()) ⟨rest, set data hdr⟩) :
    Follows short (Parser.extractVarbit limit size set >>= k)
      (Parser.extractVarbit limit size set >>= k') ⟨bs, hdr⟩ := by
  have hrun : ∀ {δ : Type}, (Parser.extractVarbit limit size set : Parser δ H Unit) ⟨bs, hdr⟩ =
      (.ok (), ⟨bs.drop (size / 8), set (bs.take (size / 8)) hdr⟩) := by
    intro δ
    rw [Parser.extractVarbit, if_neg (by omega), if_neg (by omega), if_pos hl]
  exact step hrun hrun (h _ _ (List.take_append_drop _ _).symm (by simp [hl]))

/-- A statement of the program's own that does not fail. -/
theorem lift {p : Parser ε H α} {a : α} (hp : p c = (.ok a, c'))
    (h : Follows short (k a) (k' a) c') : Follows short (p.lift >>= k) (p >>= k') c := by
  have hl : p.lift c = (.ok a, c') := by
    rw [Parser.lift, hp]
    rfl
  exact step hl hp h

theorem not_fault {p : Parser (Fault ε) H α} {q : Parser ε H α} (h : Follows short p q c)
    {f : Fault ε} (hp : p c = (.error (.declared f), c')) : ∃ e, f = .error e := by
  rw [h.run_eq, Parser.lift] at hp
  rcases hq : q c with ⟨e | a, c₁⟩
  · rw [hq] at hp
    cases e <;> simp_all [liftError, Except.mapError]
    exact ⟨_, hp.1.symm⟩
  · rw [hq] at hp
    simp [Except.mapError] at hp

end Follows

/-- The machine is the program's parser, over the integers, for every packet: it ends
within `bound` states, without a fault, and with no error of the target but a packet that
ends where `short` allows it. -/
structure V1Switch.SafeParser {ε H S σ : Type} (sw : V1Switch ε H S)
    (body : BitVec 32 → σ → Parser (Fault ε) H (Option σ)) (start : σ) (bound : ℕ)
    (short : Cursor H → Prop) : Prop where
  run_eq : ∀ port packet fuel, bound ≤ fuel →
    Parser.run (body (packetLength packet)) fuel start ⟨packet, sw.initial⟩ =
      ((sw.parse port packet).1.mapError Parser.liftError, (sw.parse port packet).2)
  not_fault : ∀ packet fuel f c, bound ≤ fuel →
    Parser.run (body (packetLength packet)) fuel start ⟨packet, sw.initial⟩ =
      (.error (.declared f), c) → ∃ e, f = .error e
  errors : ∀ port packet e c, sw.parse port packet = (.error e, c) →
    (∃ d, e = .declared d) ∨ e = .packetTooShort ∧ short c

theorem V1Switch.SafeParser.of_follows {ε H S σ : Type} {sw : V1Switch ε H S}
    {body : BitVec 32 → σ → Parser (Fault ε) H (Option σ)} {start : σ} {bound : ℕ}
    {short : Cursor H → Prop}
    (h : ∀ port packet fuel, Follows short
      (Parser.run (body (packetLength packet)) (fuel + bound) start)
      (sw.parser (arrival port packet)) ⟨packet, sw.initial⟩) :
    sw.SafeParser body start bound short where
  run_eq port packet fuel hf := by
    obtain ⟨extra, rfl⟩ := Nat.exists_eq_add_of_le' hf
    exact (h port packet extra).run_eq
  not_fault packet fuel f c hf hr := by
    obtain ⟨extra, rfl⟩ := Nat.exists_eq_add_of_le' hf
    exact (h 0 packet extra).not_fault hr
  errors port packet e c he := (h port packet 0).errors e c he

end P4
