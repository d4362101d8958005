import Mathlib.Data.List.Basic

/-! A bounded line that is edited at its end.

A frame of input may select the line or leave it. While it is selected, a backspace takes
off the last element, and what is typed is put behind the rest up to the first element that
is not accepted or the limit, whichever comes first. -/
namespace ScoutingComputer

structure EditBuffer (α : Type) (limit : Nat) where
  content : List α
  bounded : content.length ≤ limit

namespace EditBuffer
variable {α : Type} {limit : Nat}

def empty : EditBuffer α limit := ⟨[], Nat.zero_le _⟩

def backspace (b : EditBuffer α limit) : EditBuffer α limit where
  content := b.content.dropLast
  bounded := by
    rw [List.length_dropLast]
    exact Nat.le_trans (Nat.sub_le ..) b.bounded

def append (b : EditBuffer α limit) (a : α) (h : b.content.length < limit) : EditBuffer α limit where
  content := b.content ++ [a]
  bounded := by
    rw [List.length_append]
    exact h

/-- What is typed, as far as it is accepted and there is room. -/
def type (accepts : α → Bool) (typed : List α) (b : EditBuffer α limit) : EditBuffer α limit where
  content := b.content ++ (typed.takeWhile accepts).take (limit - b.content.length)
  bounded := by
    have hbounded := b.bounded
    rw [List.length_append, List.length_take]
    omega

theorem content_injective {b b' : EditBuffer α limit} (h : b.content = b'.content) : b = b' := by
  cases b
  cases b'
  cases h
  rfl

@[simp] theorem type_nil (accepts : α → Bool) (b : EditBuffer α limit) : b.type accepts [] = b :=
  content_injective (by simp [type])

theorem type_cons (accepts : α → Bool) {a : α} (ha : accepts a = true) (typed : List α) (b : EditBuffer α limit)
    (h : b.content.length < limit) : b.type accepts (a :: typed) = (b.append a h).type accepts typed := by
  apply content_injective
  have hroom : limit - b.content.length = (limit - (b.content.length + 1)) + 1 := by omega
  simp only [type, append, List.takeWhile_cons_of_pos ha, List.length_append, List.length_singleton, hroom,
    List.take_succ_cons, List.append_assoc, List.singleton_append]

theorem taken_or_stops (accepts : α → Bool) (a : α) (b : EditBuffer α limit) :
    (accepts a = true ∧ b.content.length < limit) ∨ accepts a = false ∨ limit ≤ b.content.length := by
  by_cases htaken : accepts a = true ∧ b.content.length < limit
  · exact .inl htaken
  · rw [not_and_or, Bool.not_eq_true, Nat.not_lt] at htaken
    exact .inr htaken

/-- Typing stops at an element that is not accepted, and at the limit. -/
theorem type_stop (accepts : α → Bool) {a : α} (typed : List α) {b : EditBuffer α limit}
    (h : accepts a = false ∨ limit ≤ b.content.length) : b.type accepts (a :: typed) = b := by
  apply content_injective
  obtain ha | hfull := h
  · have hnone : (a :: typed).takeWhile accepts = [] := by
      rw [List.takeWhile_cons, ha]
      rfl
    simp [type, hnone]
  · have hroom : limit - b.content.length = 0 := Nat.sub_eq_zero_of_le hfull
    simp [type, hroom]

end EditBuffer

/-- What one frame brings. -/
structure EditInput (α : Type) where
  /-- The line is selected or left, if either. -/
  select : Option Bool
  backspace : Bool
  typed : List α

/-- A line and whether it is selected. -/
structure Editor (α : Type) (limit : Nat) where
  selected : Bool
  buffer : EditBuffer α limit

namespace Editor
variable {α : Type} {limit : Nat} (accepts : α → Bool)

def step (s : Editor α limit) (i : EditInput α) : Editor α limit :=
  let selected := i.select.getD s.selected
  ⟨selected, if selected then (if i.backspace then s.buffer.backspace else s.buffer).type accepts i.typed else s.buffer⟩

/-- Frames from an empty line that is not selected. -/
def run (inputs : List (EditInput α)) : Editor α limit := inputs.foldl (step accepts) ⟨false, .empty⟩

end Editor
end ScoutingComputer
