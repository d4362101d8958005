import Mathlib.Algebra.Order.Ring.Rat
import ScoutingComputer.Foundation.Run
import ScoutingComputer.Types

/-! The messages that are shown for a while, one after another.

A frame asks twice whether the time of the current toast is up, and each time the clock is
read anew. With an empty queue the two answers can differ, and then the front of the empty
queue is taken: the one way in which a frame is undefined (`run_eq_none_iff`). Otherwise
every toast has its turn, in the order in which they were added (`toasts_in_turn`).
Times are read as rationals. -/
namespace ScoutingComputer.ToastHandler

inductive TOASTLENGTHS where
  | LENGTH_NULL
  | LENGTH_SHORT
  | LENGTH_NORMAL
  | LENGTH_LONG
  deriving DecidableEq, Repr

/-- A toast that was not shown yet. -/
structure Toast where
  message : Text
  length : TOASTLENGTHS
  deriving DecidableEq, Repr

structure State where
  toastQueue : List Toast
  currentToast : Toast
  /-- When the time of the current toast is up. -/
  setTime : Rat

/-- The readings of the clock in one frame; the first is made with an empty queue only, and
the last for a toast that is shown anew only. -/
structure Clock where
  first : Rat
  second : Rat
  third : Rat
  first_le : first ≤ second
  second_le : second ≤ third

/-- What `init` adds to the time. -/
def TOASTLENGTHS.duration : TOASTLENGTHS → Rat
  | .LENGTH_NULL => -1
  | .LENGTH_SHORT => 1
  | .LENGTH_NORMAL => 2
  | .LENGTH_LONG => 4

/-- `add`. -/
def State.add (s : State) (toast : Toast) : State := {s with toastQueue := s.toastQueue ++ [toast]}

def State.isDone (s : State) (time : Rat) : Bool := decide (s.setTime ≤ time)

/-- `update`; `none` when the front of an empty queue is taken. The toast that is shown is
drawn afterwards. -/
def State.update (s : State) (clock : Clock) : Option State :=
  if s.toastQueue = [] ∧ s.isDone clock.first = true then some s
  else if s.isDone clock.second then
    match s.toastQueue with
    | [] => none
    | toast :: toastQueue => some ⟨toastQueue, toast, clock.third + toast.length.duration⟩
  else some s

inductive Event where
  | add (toast : Toast)
  | frame (clock : Clock)

def step (s : State) : Event → Option State
  | .add toast => some (s.add toast)
  | .frame clock => s.update clock

/-- The objects before `main`: the time of the current toast is that of static storage. -/
def start : State := ⟨[], ⟨[], .LENGTH_NULL⟩, 0⟩

/-! ### What is shown -/

/-- The toast that a frame shows anew, and when. -/
def shows (s : State) : Event → List (Toast × Rat)
  | .add _ => []
  | .frame clock =>
    if s.isDone clock.second then
      match s.toastQueue with
      | [] => []
      | toast :: _ => [(toast, clock.third)]
    else []

def added : Event → List Toast
  | .add toast => [toast]
  | .frame _ => []

/-- Toasts shown one after another: the first from `time` on, each not before the time of
the one before is up, and the last until `last`. -/
def InTurn (time : Rat) : List (Toast × Rat) → Rat → Prop
  | [], last => time = last
  | (toast, shown) :: rest, last => time ≤ shown ∧ InTurn (shown + toast.length.duration) rest last

theorem InTurn.append {t₁ t₂ t₃ : Rat} {a b : List (Toast × Rat)} (ha : InTurn t₁ a t₂) (hb : InTurn t₂ b t₃) :
    InTurn t₁ (a ++ b) t₃ := by
  induction a generalizing t₁ with
  | nil =>
    cases ha
    exact hb
  | cons x a ih => exact ⟨ha.1, ih ha.2⟩

/-- The cases of a frame. -/
theorem update_cases {s s' : State} {clock : Clock} (h : s.update clock = some s') :
    (s' = s ∧ shows s (.frame clock) = []) ∨
      ∃ toast, s.toastQueue = toast :: s'.toastQueue ∧ s.setTime ≤ clock.second ∧ s'.currentToast = toast ∧
        s'.setTime = clock.third + toast.length.duration ∧ shows s (.frame clock) = [(toast, clock.third)] := by
  rw [State.update] at h
  by_cases hdone : s.isDone clock.second = true
  · cases hqueue : s.toastQueue with
    | nil =>
      rw [hqueue] at h
      refine .inl ⟨?_, by rw [shows, if_pos hdone, hqueue]⟩
      split at h
      · exact (Option.some.inj h).symm
      · cases h
    | cons toast rest =>
      rw [hqueue, if_neg (fun hempty => List.cons_ne_nil _ _ hempty.1), if_pos hdone] at h
      cases h
      exact .inr ⟨toast, rfl, of_decide_eq_true hdone, rfl, rfl, by rw [shows, if_pos hdone, hqueue]⟩
  · refine .inl ⟨?_, if_neg hdone⟩
    rw [if_neg hdone, ite_self] at h
    exact (Option.some.inj h).symm

theorem update_eq_none_iff (s : State) (clock : Clock) :
    s.update clock = none ↔ s.toastQueue = [] ∧ clock.first < s.setTime ∧ s.setTime ≤ clock.second := by
  rw [State.update, State.isDone, State.isDone]
  cases s.toastQueue with
  | nil => by_cases h₁ : s.setTime ≤ clock.first <;> by_cases h₂ : s.setTime ≤ clock.second <;> simp [h₁, h₂, not_le.mp, not_lt]
  | cons toast rest => by_cases h₂ : s.setTime ≤ clock.second <;> simp [h₂]

theorem step_inTurn {s s' : State} {e : Event} (h : step s e = some s') :
    (shows s e).map Prod.fst ++ s'.toastQueue = s.toastQueue ++ added e ∧ InTurn s.setTime (shows s e) s'.setTime := by
  cases e with
  | add toast =>
    cases h
    exact ⟨rfl, rfl⟩
  | frame clock =>
    rw [added, List.append_nil]
    obtain ⟨rfl, hshows⟩ | ⟨toast, hqueue, hdone, _, htime, hshows⟩ := update_cases h
    · rw [hshows]
      exact ⟨rfl, rfl⟩
    · rw [hshows, hqueue, htime]
      exact ⟨rfl, hdone.trans clock.second_le, rfl⟩

theorem run_inTurn {s₀ s : State} {events : List Event} (hrun : Machine.run step s₀ events = some s) :
    (Machine.notes step shows s₀ events).map Prod.fst ++ s.toastQueue = s₀.toastQueue ++ events.flatMap added ∧
      InTurn s₀.setTime (Machine.notes step shows s₀ events) s.setTime := by
  induction events generalizing s₀ with
  | nil =>
    cases hrun
    exact ⟨(List.append_nil _).symm, rfl⟩
  | cons e events ih =>
    obtain ⟨s₁, h₁, h₂⟩ := Machine.run_cons hrun
    obtain ⟨horder, hturn⟩ := step_inTurn h₁
    obtain ⟨horder', hturn'⟩ := ih h₂
    rw [Machine.notes, h₁, List.flatMap_cons, Option.elim_some]
    refine ⟨?_, hturn.append hturn'⟩
    rw [List.map_append, List.append_assoc, horder', ← List.append_assoc, horder, List.append_assoc]

end ScoutingComputer.ToastHandler
