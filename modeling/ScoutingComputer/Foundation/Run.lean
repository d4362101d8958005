import Mathlib.Data.List.Basic

/-! Runs of a machine whose step may be undefined, and what holds along them.

A `rule` is a condition on a state and the event about to be taken there: a run
`Meets` it when every step of the run does. `invariant_run` is the one induction
behind every "in every state reached" result, `budget_run` the one behind every bound
on how many steps of a kind a run can take, and `notes_run` the one behind every account
of what happened in a run. -/
namespace ScoutingComputer.Machine
variable {σ ε : Type} (step : σ → ε → Option σ)

def run : σ → List ε → Option σ
  | s, [] => some s
  | s, e :: es => (step s e).bind fun s' => run s' es

/-- Every step of the run satisfies the rule in the state it is taken from. -/
def Meets (rule : σ → ε → Prop) : σ → List ε → Prop
  | _, [] => True
  | s, e :: es => rule s e ∧ ∀ s', step s e = some s' → Meets rule s' es

variable {step}

theorem run_cons {s s'' : σ} {e : ε} {es : List ε} (h : run step s (e :: es) = some s'') :
    ∃ s', step s e = some s' ∧ run step s' es = some s'' := by
  simp only [run, Option.bind_eq_some_iff] at h
  exact h

theorem run_append (s : σ) (a b : List ε) :
    run step s (a ++ b) = (run step s a).bind fun s' => run step s' b := by
  induction a generalizing s with
  | nil => rfl
  | cons e es ih =>
    simp only [List.cons_append, run]
    cases step s e with
    | none => rfl
    | some s' => exact ih s'

/-- A run is undefined when one of its steps is. -/
theorem run_eq_none_iff (s : σ) (es : List ε) :
    run step s es = none ↔ ∃ before e after s', es = before ++ e :: after ∧ run step s before = some s' ∧ step s' e = none := by
  constructor
  · intro h
    induction es generalizing s with
    | nil => cases h
    | cons e es ih =>
      cases hs : step s e with
      | none => exact ⟨[], e, es, s, rfl, rfl, hs⟩
      | some s₁ =>
        rw [run, hs] at h
        obtain ⟨before, e', after, s', rfl, hrun, hnone⟩ := ih s₁ h
        refine ⟨e :: before, e', after, s', rfl, ?_, hnone⟩
        rw [run, hs]
        exact hrun
  · rintro ⟨before, e, after, s', rfl, hrun, hnone⟩
    rw [run_append, hrun, Option.bind_some, run, hnone, Option.bind_none]

theorem meets_true (s : σ) (es : List ε) : Meets step (fun _ _ => True) s es := by
  induction es generalizing s with
  | nil => trivial
  | cons e es ih => exact ⟨trivial, fun s' _ => ih s'⟩

/-- A rule that the events of a run satisfy in every state. -/
theorem meets_of_forall {rule : σ → ε → Prop} {es : List ε} (h : ∀ e ∈ es, ∀ s, rule s e) (s : σ) :
    Meets step rule s es := by
  induction es generalizing s with
  | nil => trivial
  | cons e es ih =>
    exact ⟨h e (List.mem_cons_self ..) s, fun s' _ => ih (fun e he => h e (List.mem_cons_of_mem _ he)) s'⟩

theorem meets_cons {rule : σ → ε → Prop} {s s' : σ} {e : ε} {es : List ε} (hr : rule s e)
    (hs : step s e = some s') (hm : Meets step rule s' es) : Meets step rule s (e :: es) := by
  refine ⟨hr, fun s₁ h₁ => ?_⟩
  rw [hs] at h₁
  cases h₁
  exact hm

/-- A stronger rule is met wherever it holds of every state a run passes through. -/
theorem Meets.mono {rule rule' : σ → ε → Prop} (h : ∀ s e, rule s e → rule' s e) {s : σ}
    {es : List ε} (hm : Meets step rule s es) : Meets step rule' s es := by
  induction es generalizing s with
  | nil => trivial
  | cons e es ih => exact ⟨h s e hm.1, fun s' hs => ih (hm.2 s' hs)⟩

/-- What every step under the rule preserves holds in every state a run reaches. -/
theorem invariant_run {rule : σ → ε → Prop} {I : σ → Prop}
    (hstep : ∀ s e s', I s → rule s e → step s e = some s' → I s') {s s' : σ} {es : List ε}
    (hs : I s) (hm : Meets step rule s es) (hr : run step s es = some s') : I s' := by
  induction es generalizing s with
  | nil =>
    cases hr
    exact hs
  | cons e es ih =>
    obtain ⟨s₁, h₁, h₂⟩ := run_cons hr
    exact ih (hstep s e s₁ hs hm.1 h₁) (hm.2 s₁ h₁) h₂

/-- A budget that no step raises and every step of a kind lowers bounds the number of
steps of that kind in a whole run. -/
theorem budget_run {rule : σ → ε → Prop} {I : Nat → σ → Prop} {spends : ε → Bool}
    (hstep : ∀ n s e s', I n s → rule s e → step s e = some s' →
      ∃ n', I n' s' ∧ n' ≤ n ∧ (spends e = true → n' < n))
    {n : Nat} {s s' : σ} {es : List ε} (hs : I n s) (hm : Meets step rule s es)
    (hr : run step s es = some s') : ∃ n', I n' s' ∧ n' + es.countP spends ≤ n := by
  induction es generalizing s n with
  | nil =>
    cases hr
    exact ⟨n, hs, by simp⟩
  | cons e es ih =>
    obtain ⟨s₁, h₁, h₂⟩ := run_cons hr
    obtain ⟨n₁, hn₁, hle, hlt⟩ := hstep n s e s₁ hs hm.1 h₁
    obtain ⟨n₂, hn₂, hle'⟩ := ih hn₁ (hm.2 s₁ h₁) h₂
    refine ⟨n₂, hn₂, ?_⟩
    rw [List.countP_cons]
    by_cases he : spends e = true
    · have := hlt he
      simp only [he, if_true]
      omega
    · rw [if_neg he]
      omega

/-! ### What a run leaves notes of -/

/-- The notes of the steps of a run, in order. -/
def notes {ν : Type} (step : σ → ε → Option σ) (note : σ → ε → List ν) : σ → List ε → List ν
  | _, [] => []
  | s, e :: es => note s e ++ (step s e).elim [] fun s' => notes step note s' es

/-- Every note of a run is one of a step that is taken where the invariant holds. -/
theorem notes_forall {ν : Type} {note : σ → ε → List ν} {I : σ → Prop} {P : ν → Prop}
    (hstep : ∀ s e s', I s → step s e = some s' → I s') (hnote : ∀ s e, I s → ∀ n ∈ note s e, P n) {s : σ} {es : List ε}
    (hs : I s) : ∀ n ∈ notes step note s es, P n := by
  induction es generalizing s with
  | nil => exact fun _ h => absurd h List.not_mem_nil
  | cons e es ih =>
    intro n hn
    obtain hfirst | hrest := List.mem_append.mp hn
    · exact hnote s e hs n hfirst
    · cases hstep' : step s e with
      | none =>
        rw [hstep'] at hrest
        exact absurd hrest List.not_mem_nil
      | some s' =>
        rw [hstep'] at hrest
        exact ih (hstep s e s' hs hstep') n hrest

/-- An account that each step gives of its notes, a run gives of all of them. -/
theorem notes_run {ν : Type} {note : σ → ε → List ν} {rule : σ → ε → Prop} {I : σ → Prop}
    {account : σ → List ν → σ → Prop} (hrefl : ∀ s, account s [] s)
    (htrans : ∀ s₁ s₂ s₃ a b, account s₁ a s₂ → account s₂ b s₃ → account s₁ (a ++ b) s₃)
    (hstep : ∀ s e s', I s → rule s e → step s e = some s' → I s' ∧ account s (note s e) s') {s s' : σ} {es : List ε}
    (hs : I s) (hm : Meets step rule s es) (hr : run step s es = some s') :
    I s' ∧ account s (notes step note s es) s' := by
  induction es generalizing s with
  | nil =>
    cases hr
    exact ⟨hs, hrefl _⟩
  | cons e es ih =>
    obtain ⟨s₁, h₁, h₂⟩ := run_cons hr
    obtain ⟨hs₁, hfirst⟩ := hstep s e s₁ hs hm.1 h₁
    obtain ⟨hs', hrest⟩ := ih hs₁ (hm.2 s₁ h₁) h₂
    refine ⟨hs', ?_⟩
    unfold notes
    rw [h₁]
    exact htrans s s₁ s' _ _ hfirst hrest

/-! ### Loops whose body may fail -/

theorem bind_eq_ok {φ α β : Type} {x : Except φ α} {f : α → Except φ β} {b : β} (h : (x >>= f) = .ok b) :
    ∃ a, x = .ok a ∧ f a = .ok b := by
  cases x with
  | error e => cases h
  | ok a => exact ⟨a, rfl, h⟩

theorem toOption_eq_some {φ α : Type} {x : Except φ α} {a : α} (h : x.toOption = some a) : x = .ok a := by
  cases x with
  | error e => cases h
  | ok a' =>
    cases h
    rfl

/-- A loop that finishes is a run of its body. -/
theorem run_of_foldlM {φ : Type} {body : σ → ε → Except φ σ} {s s' : σ} {es : List ε}
    (h : es.foldlM body s = .ok s') : run (fun s e => (body s e).toOption) s es = some s' := by
  induction es generalizing s with
  | nil =>
    cases h
    rfl
  | cons e es ih =>
    rw [List.foldlM_cons] at h
    obtain ⟨s₁, h₁, h₂⟩ := bind_eq_ok h
    rw [run, h₁]
    exact ih h₂

end ScoutingComputer.Machine
