import Mathlib.Data.List.Basic
import Mathlib.Control.Basic

/-! Programs that call an environment.

A `Program` is a function of the answers its environment gives: on a list of
answers it finishes and leaves the answers it did not use, waits in the next call
it makes, or throws. A loop that retries a call is a recursion on the answers, so
any number of retries is a program without a bound on them.

`after` is what remains of a program once one more answer is known. The remaining
program of `p >>= f` is that of `p` followed by `f`, by definition, and that is how
a program is run one call at a time against another party. -/
namespace ScoutingComputer

/-- How far a program gets on a list of answers. -/
inductive Progress (C A E α : Type) where
  | done (value : α) (rest : List A)
  /-- The answers ran out, or the next one does not answer this call. -/
  | asks (call : C)
  | throws (error : E) (rest : List A)
  deriving DecidableEq, Repr

def Program (C A E α : Type) := List A → Progress C A E α

namespace Program
variable {C A E α β : Type}

def pure (value : α) : Program C A E α := fun answers => .done value answers

def bind (p : Program C A E α) (f : α → Program C A E β) : Program C A E β :=
  fun answers => match p answers with
    | .done value rest => f value rest
    | .asks call => .asks call
    | .throws error rest => .throws error rest

instance : Monad (Program C A E) where
  pure := Program.pure
  bind := Program.bind

/-- Throw, using up no answer. -/
def throwing (error : E) : Program C A E α := fun answers => .throws error answers

/-- The program that remains once the next answer is known. -/
def after (p : Program C A E α) (answer : A) : Program C A E α := fun rest => p (answer :: rest)

/-- The call a program is waiting in. -/
def call (p : Program C A E α) : Option C :=
  match p [] with
  | .asks c => some c
  | _ => none

theorem pure_def (value : α) (answers : List A) :
    (Pure.pure value : Program C A E α) answers = .done value answers := rfl

theorem bind_def (p : Program C A E α) (f : α → Program C A E β) (answers : List A) :
    (p >>= f) answers = match p answers with
      | .done value rest => f value rest
      | .asks call => .asks call
      | .throws error rest => .throws error rest := rfl

theorem bind_after (p : Program C A E α) (f : α → Program C A E β) (answer : A) :
    (p >>= f).after answer = (p.after answer >>= f) := rfl

theorem call_bind_of_call {p : Program C A E α} {c : C} (h : p.call = some c)
    (f : α → Program C A E β) : (p >>= f).call = some c := by
  unfold call at h ⊢
  rw [bind_def]
  cases hp : p [] with
  | asks c' => rw [hp] at h; exact h
  | done value rest => rw [hp] at h; cases h
  | throws error rest => rw [hp] at h; cases h

theorem call_pure (value : α) : (Pure.pure value : Program C A E α).call = none := rfl

/-- A finished composite finished both its parts, the second on what the first left. -/
theorem bind_done {p : Program C A E α} {f : α → Program C A E β} {answers rest : List A} {b : β}
    (h : (p >>= f) answers = .done b rest) :
    ∃ a middle, p answers = .done a middle ∧ f a middle = .done b rest := by
  rw [bind_def] at h
  cases hp : p answers with
  | done a middle => rw [hp] at h; exact ⟨a, middle, rfl, h⟩
  | asks c => rw [hp] at h; cases h
  | throws e r => rw [hp] at h; cases h

/-- A composite throws in its first part, or in its second on what the first left. -/
theorem bind_throws {p : Program C A E α} {f : α → Program C A E β} {answers rest : List A} {e : E}
    (h : (p >>= f) answers = .throws e rest) :
    p answers = .throws e rest ∨
      ∃ a middle, p answers = .done a middle ∧ f a middle = .throws e rest := by
  rw [bind_def] at h
  cases hp : p answers with
  | done a middle => rw [hp] at h; exact .inr ⟨a, middle, rfl, h⟩
  | asks c => rw [hp] at h; cases h
  | throws e' r => rw [hp] at h; cases h; exact .inl rfl

/-- A composite waits in its first part, or in its second on what the first left. -/
theorem bind_asks {p : Program C A E α} {f : α → Program C A E β} {answers : List A} {c : C}
    (h : (p >>= f) answers = .asks c) :
    p answers = .asks c ∨ ∃ a middle, p answers = .done a middle ∧ f a middle = .asks c := by
  rw [bind_def] at h
  cases hp : p answers with
  | done a middle => rw [hp] at h; exact .inr ⟨a, middle, rfl, h⟩
  | asks c' => rw [hp] at h; cases h; exact .inl rfl
  | throws e r => rw [hp] at h; cases h

end Program
end ScoutingComputer
