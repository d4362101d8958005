import Mathlib.Data.List.ReduceOption

/-! Rising edges of a signal that is not always sampled.

A detector answers when the level has become high since it last looked, and remembers the
level it saw. When it is not asked it neither answers nor remembers: what happened in
between is lost. -/
namespace ScoutingComputer.Edge

/-- The answer, and the level remembered; `none` when it is not asked. -/
def poll (last : Bool) : Option Bool → Bool × Bool
  | none => (false, last)
  | some now => (now && !last, now)

/-- The level remembered after some samples. -/
def level (last : Bool) (samples : List (Option Bool)) : Bool := samples.foldl (fun last s => (poll last s).2) last

def answers (last : Bool) : List (Option Bool) → List Bool
  | [] => []
  | s :: samples => (poll last s).1 :: answers (poll last s).2 samples

@[simp] theorem level_nil (last : Bool) : level last [] = last := rfl

theorem level_cons (last : Bool) (s : Option Bool) (samples : List (Option Bool)) :
    level last (s :: samples) = level (poll last s).2 samples := rfl

theorem level_append (last : Bool) (a b : List (Option Bool)) : level last (a ++ b) = level (level last a) b :=
  List.foldl_append

/-- The level is the last sample that was taken. -/
theorem level_eq (last : Bool) (samples : List (Option Bool)) :
    level last samples = samples.reduceOption.getLastD last := by
  induction samples generalizing last with
  | nil => rfl
  | cons s samples ih =>
    rw [level_cons, ih]
    cases s with
    | none => rfl
    | some now => exact (List.getLastD_cons ..).symm

theorem answers_append (last : Bool) (a b : List (Option Bool)) :
    answers last (a ++ b) = answers last a ++ answers (level last a) b := by
  induction a generalizing last with
  | nil => rfl
  | cons s a ih => rw [List.cons_append, answers, answers, List.cons_append, ih, level_cons]

theorem length_answers (last : Bool) (samples : List (Option Bool)) : (answers last samples).length = samples.length := by
  induction samples generalizing last with
  | nil => rfl
  | cons s samples ih => rw [answers, List.length_cons, List.length_cons, ih]

/-- **When a detector answers**: it is asked, the level is high, and the last sample taken
was low. -/
theorem answers_iff (last : Bool) (samples : List (Option Bool)) (i : Nat) :
    (answers last samples)[i]? = some true ↔
      samples[i]? = some (some true) ∧ (samples.take i).reduceOption.getLastD last = false := by
  rw [← level_eq]
  induction samples generalizing last i with
  | nil => simp [answers]
  | cons s samples ih =>
    cases i with
    | zero =>
      cases s with
      | none => simp [answers, poll]
      | some now => cases now <;> cases last <;> simp [answers, poll]
    | succ i =>
      rw [answers, List.getElem?_cons_succ, ih, List.getElem?_cons_succ, List.take_succ_cons, level_cons]

/-- **Between two answers the level was seen low.** -/
theorem low_between {last : Bool} {samples : List (Option Bool)} {i j : Nat} (hij : i < j)
    (hi : (answers last samples)[i]? = some true) (hj : (answers last samples)[j]? = some true) :
    ∃ k, i < k ∧ k < j ∧ samples[k]? = some (some false) := by
  obtain ⟨hhigh, _⟩ := (answers_iff last samples i).mp hi
  obtain ⟨_, hlow⟩ := (answers_iff last samples j).mp hj
  rw [← level_eq] at hlow
  by_contra hnone
  -- from the first answer on every sample that is taken is high
  have hstays : ∀ n, i + 1 + n ≤ j → level last (samples.take (i + 1 + n)) = true := by
    intro n
    induction n with
    | zero =>
      intro _
      rw [Nat.add_zero, List.take_add_one, hhigh, level_append]
      rfl
    | succ n ih =>
      intro hn
      have hkept := ih (by omega)
      rw [← Nat.add_assoc, List.take_add_one, level_append, hkept]
      cases hs : samples[i + 1 + n]? with
      | none => rfl
      | some s =>
        cases s with
        | none => rfl
        | some now =>
          cases now with
          | true => rfl
          | false => exact absurd ⟨i + 1 + n, by omega, by omega, hs⟩ hnone
  have hhigh' := hstays (j - (i + 1)) (by omega)
  rw [show i + 1 + (j - (i + 1)) = j by omega, hlow] at hhigh'
  cases hhigh'

end ScoutingComputer.Edge
