import ScoutingComputer.Foundation.Program

/-! The calls a program makes.

`trace` lists the calls of a program with the answers it gets, up to where it returns or
throws. `Returns` says that a program returns a value after exactly these answers. Both
compose as programs do, so what is said of the calls of a program is said of its parts.

An `Environment` answers every call. A program ends in it when it returns or throws after
finitely many calls (`Ends`); a loop that repeats its call ends by `Ends.retries`. -/
namespace ScoutingComputer.Program
variable {C A E α β : Type}

/-- The calls on these answers, each with its answer. -/
def trace (p : Program C A E α) : List A → List (C × A)
  | [] => []
  | answer :: answers => match p.call with
    | none => []
    | some call => (call, answer) :: trace (p.after answer) answers

/-- The program uses exactly these answers and returns. -/
inductive Returns : Program C A E α → List A → α → Prop where
  | pure (value : α) : Returns (Pure.pure value) [] value
  | step {p : Program C A E α} {call : C} {answer : A} {answers : List A} {value : α} (h : p.call = some call)
      (hrest : Returns (p.after answer) answers value) : Returns p (answer :: answers) value

theorem Returns.done {p : Program C A E α} {used : List A} {value : α} (h : Returns p used value) (rest : List A) :
    p (used ++ rest) = .done value rest := by
  induction h with
  | pure value => rfl
  | step _ _ ih => exact ih

theorem Returns.bind {p : Program C A E α} {f : α → Program C A E β} {used used' : List A} {a : α} {b : β}
    (hp : Returns p used a) (hf : Returns (f a) used' b) : Returns (p >>= f) (used ++ used') b := by
  induction hp with
  | pure a => exact hf
  | step h _ ih => exact .step (call_bind_of_call h f) (ih hf)

/-- A call that returns its answer in some form. -/
theorem Returns.of_call {p : Program C A E α} {call : C} {answer : A} {value : α} (h : p.call = some call)
    (hanswer : p.after answer = Pure.pure value) : Returns p [answer] value :=
  .step h (hanswer ▸ .pure value)

theorem trace_pure (value : α) (answers : List A) : trace (Pure.pure value : Program C A E α) answers = [] := by
  cases answers <;> rfl

theorem Returns.trace_bind {p : Program C A E α} {used : List A} {a : α} (h : Returns p used a)
    (f : α → Program C A E β) (rest : List A) :
    trace (p >>= f) (used ++ rest) = trace p used ++ trace (f a) rest := by
  induction h with
  | pure a => rfl
  | step h _ ih =>
    rw [List.cons_append, trace, call_bind_of_call h f, trace, h]
    simp only [bind_after, ih, List.cons_append]

theorem Returns.trace_append {p : Program C A E α} {used : List A} {a : α} (h : Returns p used a) (rest : List A) :
    trace p (used ++ rest) = trace p used := by
  have hbind := h.trace_bind Pure.pure rest
  rw [trace_pure, List.append_nil] at hbind
  rw [← hbind]
  congr 1
  funext answers
  rw [bind_def]
  cases p answers <;> rfl

/-- A composite makes the calls of its first part first. -/
theorem trace_left (p : Program C A E α) (f : α → Program C A E β) (answers : List A) :
    trace p answers <+: trace (p >>= f) answers := by
  induction answers generalizing p with
  | nil => exact List.nil_prefix
  | cons answer answers ih =>
    rw [trace]
    cases h : p.call with
    | none => exact List.nil_prefix
    | some call =>
      rw [trace, call_bind_of_call h f]
      exact List.cons_prefix_cons.mpr ⟨rfl, ih (p.after answer)⟩

theorem trace_cons {p : Program C A E α} {call : C} (h : p.call = some call) (answer : A) (answers : List A) :
    trace p (answer :: answers) = (call, answer) :: trace (p.after answer) answers := by
  rw [trace, h]

/-! ### Answers that fit -/

/-- Every call is answered by something that fits it. -/
def AnsweredBy (fits : C → A → Prop) (p : Program C A E α) (answers : List A) : Prop :=
  ∀ e ∈ trace p answers, fits e.1 e.2

section
variable {fits : C → A → Prop} {p : Program C A E α}

theorem AnsweredBy.left {f : α → Program C A E β} {answers : List A} (h : AnsweredBy fits (p >>= f) answers) :
    AnsweredBy fits p answers :=
  fun e he => h e ((trace_left p f answers).subset he)

theorem AnsweredBy.right {f : α → Program C A E β} {used rest : List A} {a : α}
    (h : AnsweredBy fits (p >>= f) (used ++ rest)) (hp : Returns p used a) : AnsweredBy fits (f a) rest := by
  intro e he
  apply h e
  rw [hp.trace_bind]
  exact List.mem_append_right _ he

theorem AnsweredBy.step {call : C} {answer : A} {answers : List A} (h : AnsweredBy fits p (answer :: answers))
    (hcall : p.call = some call) : fits call answer ∧ AnsweredBy fits (p.after answer) answers := by
  rw [AnsweredBy, trace_cons hcall] at h
  exact ⟨h _ List.mem_cons_self, fun e he => h e (List.mem_cons_of_mem _ he)⟩

/-- What holds of the call of a program in every state it can get to holds of all its calls. -/
theorem AnsweredBy.forall_trace {I : Program C A E α → Prop} {P : C → Prop}
    (hcall : ∀ p call, I p → p.call = some call → P call)
    (hafter : ∀ p call answer, I p → p.call = some call → fits call answer → I (p.after answer))
    {answers : List A} (h : AnsweredBy fits p answers) (hp : I p) : ∀ e ∈ trace p answers, P e.1 := by
  induction answers generalizing p with
  | nil => exact fun e he => absurd he List.not_mem_nil
  | cons answer answers ih =>
    cases hnext : p.call with
    | none =>
      intro e he
      rw [trace, hnext] at he
      exact absurd he List.not_mem_nil
    | some call =>
      obtain ⟨hfit, hrest⟩ := h.step hnext
      intro e he
      rw [trace_cons hnext] at he
      obtain rfl | he := List.mem_cons.mp he
      · exact hcall p call hp hnext
      · exact ih hrest (hafter p call answer hp hnext hfit) e he

end

/-! ### Environments -/

/-- The answer to each call, the calls counted from the start. -/
abbrev Environment (C A : Type) := Nat → C → A

/-- The first `n` answers a program gets, to its calls from the `k`-th on. -/
def answersFrom (env : Environment C A) (p : Program C A E α) (k : Nat) : Nat → List A
  | 0 => []
  | n + 1 => match p.call with
    | none => []
    | some call => env k call :: answersFrom env (p.after (env k call)) (k + 1) n

theorem mem_answersFrom {env : Environment C A} {p : Program C A E α} {k n : Nat} {answer : A}
    (h : answer ∈ answersFrom env p k n) : ∃ k' call, answer = env k' call := by
  induction n generalizing p k with
  | zero => exact absurd h List.not_mem_nil
  | succ n ih =>
    rw [answersFrom] at h
    split at h
    · exact absurd h List.not_mem_nil
    · rename_i call hcall
      obtain rfl | h := List.mem_cons.mp h
      · exact ⟨k, call, rfl⟩
      · exact ih h

theorem answeredBy_answersFrom {fits : C → A → Prop} {env : Environment C A} (hfits : ∀ k call, fits call (env k call))
    (p : Program C A E α) (k n : Nat) : AnsweredBy fits p (answersFrom env p k n) := by
  induction n generalizing p k with
  | zero => exact fun e he => absurd he List.not_mem_nil
  | succ n ih =>
    rw [answersFrom]
    split
    · exact fun e he => absurd he List.not_mem_nil
    · rename_i call hcall
      intro e he
      rw [trace_cons hcall] at he
      obtain rfl | he := List.mem_cons.mp he
      · exact hfits k call
      · exact ih _ _ e he

/-- The program returns or throws after finitely many calls. -/
inductive Ends (env : Environment C A) : Program C A E α → Nat → Prop where
  | pure (value : α) (k : Nat) : Ends env (Pure.pure value) k
  | throwing (error : E) (k : Nat) : Ends env (throwing error) k
  | step {p : Program C A E α} {k : Nat} {call : C} (h : p.call = some call)
      (hrest : Ends env (p.after (env k call)) (k + 1)) : Ends env p k

theorem Ends.bind {env : Environment C A} {p : Program C A E α} {f : α → Program C A E β} {k : Nat}
    (hp : Ends env p k) (hf : ∀ a k', Ends env (f a) k') : Ends env (p >>= f) k := by
  induction hp with
  | pure a k => exact hf a k
  | throwing error k => exact .throwing error k
  | step h _ ih => exact .step (call_bind_of_call h f) ih

/-- A program that may be where it was after a turn, but not after the `last`-th, ends when
every other turn leads to an end. -/
theorem Ends.retries {env : Environment C A} {p : Program C A E α} {call : C} (hcall : p.call = some call)
    {k last : Nat} (hk : k ≤ last)
    (h : ∀ k', k ≤ k' → Ends env (p.after (env k' call)) (k' + 1) ∨ (k' ≠ last ∧ p.after (env k' call) = p)) :
    Ends env p k := by
  obtain ⟨gap, rfl⟩ := Nat.exists_eq_add_of_le hk
  clear hk
  induction gap generalizing k with
  | zero =>
    obtain hends | ⟨hne, -⟩ := h k (Nat.le_refl k)
    · exact .step hcall hends
    · exact absurd rfl hne
  | succ gap ih =>
    refine .step hcall ?_
    obtain hends | ⟨-, hsame⟩ := h k (Nat.le_refl k)
    · exact hends
    · rw [hsame]
      refine ih fun k' hk' => ?_
      rw [Nat.add_right_comm]
      exact h k' (Nat.le_of_succ_le hk')

theorem Ends.not_asks {env : Environment C A} {p : Program C A E α} {k : Nat} (h : Ends env p k) :
    ∃ n, ∀ call, p (answersFrom env p k n) ≠ .asks call := by
  induction h with
  | pure value k => exact ⟨0, fun call h => by cases h⟩
  | throwing error k => exact ⟨0, fun call h => by cases h⟩
  | step h _ ih =>
    obtain ⟨n, hn⟩ := ih
    refine ⟨n + 1, fun call => ?_⟩
    rw [answersFrom, h]
    exact hn call

end ScoutingComputer.Program
