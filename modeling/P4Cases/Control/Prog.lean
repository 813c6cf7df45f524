import Mathlib.Logic.Function.Basic

/-! Sequential programs that ask an environment they do not control, one request
at a time, and what holds in the worlds between their requests. -/
namespace Control

/-- A result, or a request and what to do with its answer. -/
inductive Prog (Q A α : Type) where
  | pure (a : α)
  | ask (q : Q) (next : A → Prog Q A α)

namespace Prog
variable {Q A W α β : Type}

def bind : Prog Q A α → (α → Prog Q A β) → Prog Q A β
  | pure a, f => f a
  | ask q next, f => ask q fun a => (next a).bind f

instance : Monad (Prog Q A) where
  pure := pure
  bind := bind

@[simp] theorem pure_bind (a : α) (f : α → Prog Q A β) : (pure a : Prog Q A α) >>= f = f a := rfl

@[simp] theorem ask_bind (q : Q) (next : A → Prog Q A α) (f : α → Prog Q A β) :
    ask q next >>= f = ask q fun a => next a >>= f := rfl

/-- Run on a list of answers; `apply` is what a request does to the world when it
is answered. Nothing when the answers run out, else also the answers left. -/
def eval (apply : W → Q → A → W) : Prog Q A α → W → List A → Option (α × W × List A)
  | pure a, w, answers => some (a, w, answers)
  | ask _ _, _, [] => none
  | ask q next, w, a :: answers => (next a).eval apply (apply w q a) answers

/-- Whatever the answers, every request is allowed in the world it is made in, and
the result and the last world are as `post` says. -/
def Safe (apply : W → Q → A → W) (allowed : W → Q → Prop) (post : α → W → Prop) :
    Prog Q A α → W → Prop
  | pure a, w => post a w
  | ask q next, w => allowed w q ∧ ∀ a, (next a).Safe apply allowed post (apply w q a)

/-- The program makes this request, for some answers to those before it. -/
def Asks (request : Q) : Prog Q A α → Prop
  | pure _ => False
  | ask q next => q = request ∨ ∃ a, (next a).Asks request

variable {apply : W → Q → A → W} {allowed : W → Q → Prop}

theorem eval_bind (p : Prog Q A α) (f : α → Prog Q A β) (w : W) (answers : List A) :
    (p >>= f).eval apply w answers =
      (p.eval apply w answers).bind fun out => (f out.1).eval apply out.2.1 out.2.2 := by
  induction p generalizing w answers with
  | pure a => rfl
  | ask q next ih =>
    cases answers with
    | nil => rfl
    | cons a answers => exact ih a (apply w q a) answers

/-- Answers behind those a program reads stay unread. -/
theorem eval_append {p : Prog Q A α} {w w' : W} {a : α} {answers left : List A}
    (h : p.eval apply w answers = some (a, w', left)) (more : List A) :
    p.eval apply w (answers ++ more) = some (a, w', left ++ more) := by
  induction p generalizing w answers with
  | pure b =>
    cases h
    rfl
  | ask q next ih =>
    cases answers with
    | nil => cases h
    | cons b answers => exact ih b h

theorem Safe.mono {post post' : α → W → Prop} (hpost : ∀ a w, post a w → post' a w)
    {p : Prog Q A α} {w : W} (h : p.Safe apply allowed post w) :
    p.Safe apply allowed post' w := by
  induction p generalizing w with
  | pure a => exact hpost a w h
  | ask q next ih => exact ⟨h.1, fun a => ih a (h.2 a)⟩

/-- Sequencing: the first program has to end where the second is safe. -/
theorem Safe.bind {post : β → W → Prop} {p : Prog Q A α} {f : α → Prog Q A β} {w : W}
    (h : p.Safe apply allowed (fun a w' => (f a).Safe apply allowed post w') w) :
    (p >>= f).Safe apply allowed post w := by
  induction p generalizing w with
  | pure a => exact h
  | ask q next ih => exact ⟨h.1, fun a => ih a (h.2 a)⟩

/-- A request of a sequence is one of its first part or of its second. -/
theorem asks_bind {request : Q} {p : Prog Q A α} {f : α → Prog Q A β}
    (h : (p >>= f).Asks request) : p.Asks request ∨ ∃ a, (f a).Asks request := by
  induction p with
  | pure a => exact Or.inr ⟨a, h⟩
  | ask q next ih =>
    rcases h with h | ⟨a, h⟩
    · exact Or.inl (Or.inl h)
    · rcases ih a h with h | h
      · exact Or.inl (Or.inr ⟨a, h⟩)
      · exact Or.inr h

theorem Asks.bind {request : Q} {p : Prog Q A α} {f : α → Prog Q A β} (h : p.Asks request) :
    (p >>= f).Asks request := by
  induction p with
  | pure a => cases h
  | ask q next ih =>
    rcases h with h | ⟨a, h⟩
    · exact Or.inl h
    · exact Or.inr ⟨a, ih a h⟩

end Prog
end Control
