import Mathlib.Data.List.Basic

/-! A growing array and pointers into it.

The elements lie in a buffer with room for `capacity` of them. A push that finds no
room moves all elements to a new buffer; an erase moves every later element one slot
down. A pointer is a slot of one particular buffer: `deref` finds an element only while
that buffer is in use and the slot is. The lemmas say which pointers an operation keeps:
a push with room keeps all of them, an erase those before the erased slot. -/
namespace ScoutingComputer

/-- A slot of a buffer. -/
structure Pointer where
  buffer : Nat
  slot : Nat
  deriving DecidableEq, Repr

structure Buffer (α : Type) where
  /-- Which buffer is in use; one that was left is never used again. -/
  identity : Nat
  capacity : Nat
  elements : List α

namespace Buffer
variable {α : Type}

def deref (b : Buffer α) (p : Pointer) : Option α :=
  if p.buffer = b.identity then b.elements[p.slot]? else none

/-- The pointer to a slot of the buffer in use. -/
def pointer (b : Buffer α) (i : Nat) : Pointer := ⟨b.identity, i⟩

def modify (b : Buffer α) (i : Nat) (f : α → α) : Buffer α := {b with elements := b.elements.modify i f}

/-- `push_back`; `growth` is the capacity chosen for a new buffer, if it is enough. -/
def push (b : Buffer α) (growth : Nat) (a : α) : Buffer α :=
  if b.elements.length < b.capacity then {b with elements := b.elements ++ [a]}
  else ⟨b.identity + 1, max growth (b.elements.length + 1), b.elements ++ [a]⟩

def erase (b : Buffer α) (i : Nat) : Buffer α := {b with elements := b.elements.eraseIdx i}

def clear (b : Buffer α) : Buffer α := {b with elements := []}

/-- Room for `n` elements, in a new buffer if there is less. -/
def reserve (b : Buffer α) (n : Nat) : Buffer α :=
  if n ≤ b.capacity then b else ⟨b.identity + 1, n, b.elements⟩

@[simp] theorem modify_identity (b : Buffer α) (i : Nat) (f : α → α) : (b.modify i f).identity = b.identity := rfl

@[simp] theorem erase_identity (b : Buffer α) (i : Nat) : (b.erase i).identity = b.identity := rfl

theorem deref_iff {b : Buffer α} {p : Pointer} {a : α} :
    b.deref p = some a ↔ p.buffer = b.identity ∧ b.elements[p.slot]? = some a := by
  unfold deref
  by_cases h : p.buffer = b.identity <;> simp [h]

theorem deref_pointer (b : Buffer α) (i : Nat) : b.deref (b.pointer i) = b.elements[i]? := if_pos rfl

theorem modify_getElem? (b : Buffer α) (i j : Nat) (f : α → α) :
    (b.modify i f).elements[j]? = if i = j then b.elements[j]?.map f else b.elements[j]? := by
  show (b.elements.modify i f)[j]? = _
  rw [List.getElem?_modify]
  by_cases h : i = j <;> simp [h]

theorem modify_modify (b : Buffer α) (i : Nat) (f g : α → α) : (b.modify i f).modify i g = b.modify i (g ∘ f) := by
  simp only [modify, List.modify_modify_eq]

/-- Only the element in the slot matters. -/
theorem modify_const {b : Buffer α} {i : Nat} {a : α} (h : b.elements[i]? = some a) (f : α → α) :
    b.modify i f = b.modify i fun _ => f a := by
  simp only [modify, mk.injEq, true_and]
  apply List.ext_getElem?
  intro j
  rw [List.getElem?_modify, List.getElem?_modify]
  by_cases hj : i = j
  · subst hj
    rw [h]
    simp
  · simp [hj]

/-- A modified element is found where it was. -/
theorem deref_modify_self {b : Buffer α} {p : Pointer} {a : α} (h : b.deref p = some a) (f : α → α) :
    (b.modify p.slot f).deref p = some (f a) := by
  obtain ⟨hbuffer, hslot⟩ := deref_iff.mp h
  rw [deref_iff, modify_identity, modify_getElem?, if_pos rfl, hslot]
  exact ⟨hbuffer, rfl⟩

theorem deref_modify_other {b : Buffer α} {p : Pointer} {i : Nat} (h : i ≠ p.slot) (f : α → α) :
    (b.modify i f).deref p = b.deref p := by
  unfold deref
  rw [modify_identity, modify_getElem?, if_neg h]

/-- A push with room keeps every pointer that finds an element. -/
theorem deref_push {b : Buffer α} {p : Pointer} {a : α} (h : b.deref p = some a)
    (hroom : b.elements.length < b.capacity) (growth : Nat) (new : α) :
    (b.push growth new).deref p = some a := by
  obtain ⟨hbuffer, hslot⟩ := deref_iff.mp h
  unfold push
  rw [if_pos hroom, deref_iff]
  exact ⟨hbuffer, by rw [List.getElem?_append_left (List.getElem?_eq_some_iff.mp hslot).1, hslot]⟩

/-- An erase keeps the pointers to earlier slots. -/
theorem deref_erase {b : Buffer α} {p : Pointer} {i : Nat} (h : p.slot < i) :
    (b.erase i).deref p = b.deref p := by
  unfold deref
  rw [erase_identity]
  show (if _ then (b.elements.eraseIdx i)[p.slot]? else none) = _
  rw [List.getElem?_eraseIdx_of_lt h]

theorem push_elements (b : Buffer α) (growth : Nat) (a : α) :
    (b.push growth a).elements = b.elements ++ [a] := by
  unfold push
  split <;> rfl

theorem push_of_room {b : Buffer α} (hroom : b.elements.length < b.capacity) (growth : Nat) (a : α) :
    b.push growth a = {b with elements := b.elements ++ [a]} := if_pos hroom

theorem reserve_room (b : Buffer α) (n : Nat) : n ≤ (b.reserve n).capacity := by
  unfold reserve
  split
  · assumption
  · exact Nat.le_refl n

theorem reserve_elements (b : Buffer α) (n : Nat) : (b.reserve n).elements = b.elements := by
  unfold reserve
  split <;> rfl

end Buffer
end ScoutingComputer
