import Mathlib.Data.List.Chain

/-! A loop that erases entries of the list it goes through.

The entries are waiting, ready or invalid. The loop handles and erases a ready entry and
goes on behind the next one, which moved into its place; it erases an invalid entry and
starts again. So an entry behind a ready one is passed over, and it is met later only if
an invalid entry makes the loop start again in time. `Orderly` says in one pass over the
statuses when it is: no ready entry is left over or comes too late, and no invalid one is
left over (`drain_eq_iff`). -/
namespace ScoutingComputer.Draining

inductive Status where
  | waiting
  | ready
  | invalid
  deriving DecidableEq, Repr

variable {α : Type} (status : α → Status)

/-- The loop behind the entries `before`: the entries it handles, and those it leaves. -/
def drain (before rest : List α) : List α × List α :=
  match rest with
  | [] => ([], before)
  | e :: rest => match status e with
    | .waiting => drain (before ++ [e]) rest
    | .invalid => drain [] (before ++ rest)
    | .ready => match rest with
      | [] => ([e], before)
      | next :: rest => (e :: (drain (before ++ [next]) rest).1, (drain (before ++ [next]) rest).2)
termination_by (before.length + rest.length, rest.length)
decreasing_by
  · apply Prod.Lex.right'
    · simp only [List.length_append, List.length_cons, List.length_nil]
      omega
    · simp only [List.length_cons]
      omega
  all_goals
    apply Prod.Lex.left
    simp only [List.length_append, List.length_cons, List.length_nil]
    omega

/-- The entry behind a handled one is passed over. -/
def skip (before rest : List α) : List α × List α :=
  match rest with
  | [] => ([], before)
  | next :: rest => drain status (before ++ [next]) rest

def readies (es : List α) : List α := es.filter fun e => status e = .ready

def waitings (es : List α) : List α := es.filter fun e => status e = .waiting

/-- How far the loop is, with respect to what it should have done. -/
inductive Mode where
  /-- It has handled what it has seen. -/
  | seen
  /-- It passes over the next entry. -/
  | passing
  /-- It has passed over a ready entry, which is the last it has seen or not. -/
  | owing (last : Bool)

/-- No ready entry is left over or comes too late, and no invalid entry is left over;
`pending` says that one is behind. -/
def Orderly : Mode → Bool → List α → Prop
  | .seen, pending, [] => pending = false
  | .passing, pending, [] => pending = false
  | .owing _, _, [] => False
  | mode, pending, e :: rest => match mode, status e with
    | .seen, .waiting => Orderly .seen pending rest
    | .seen, .ready => Orderly .passing pending rest
    | .seen, .invalid => Orderly .seen false rest
    | .passing, .waiting => Orderly .seen pending rest
    | .passing, .ready => Orderly (.owing true) pending rest
    | .passing, .invalid => Orderly .seen true rest
    | .owing _, .waiting => Orderly (.owing false) pending rest
    | .owing _, .ready => False
    | .owing last, .invalid => Orderly (if last then .passing else .seen) false rest

variable {status}

theorem drain_nil (before : List α) : drain status before [] = ([], before) := by
  rw [drain]

theorem drain_waiting {e : α} (he : status e = .waiting) (before rest : List α) :
    drain status before (e :: rest) = drain status (before ++ [e]) rest := by
  rw [drain.eq_def]
  simp only [he]

theorem drain_invalid {e : α} (he : status e = .invalid) (before rest : List α) :
    drain status before (e :: rest) = drain status [] (before ++ rest) := by
  rw [drain.eq_def]
  simp only [he]

theorem drain_ready {e : α} (he : status e = .ready) (before rest : List α) :
    drain status before (e :: rest) = (e :: (skip status before rest).1, (skip status before rest).2) := by
  rw [drain.eq_def]
  simp only [he]
  cases rest <;> rfl

/-- None of these entries is ready. -/
def NoneReady (status : α → Status) (es : List α) : Prop := ∀ e ∈ es, status e ≠ .ready

def AllWaiting (status : α → Status) (es : List α) : Prop := ∀ e ∈ es, status e = .waiting

theorem AllWaiting.noneReady {es : List α} (h : AllWaiting status es) : NoneReady status es := by
  intro e he heq
  rw [h e he] at heq
  cases heq

theorem NoneReady.append {a b : List α} (ha : NoneReady status a) (hb : NoneReady status b) :
    NoneReady status (a ++ b) := by
  intro e he
  rcases List.mem_append.mp he with he | he
  · exact ha e he
  · exact hb e he

theorem noneReady_one {e : α} (h : status e ≠ .ready) : NoneReady status [e] := by
  intro e' he'
  rwa [List.mem_singleton.mp he']

theorem AllWaiting.snoc {es : List α} {e : α} (h : AllWaiting status es) (he : status e = .waiting) :
    AllWaiting status (es ++ [e]) := by
  intro e' he'
  rcases List.mem_append.mp he' with he' | he'
  · exact h e' he'
  · rwa [List.mem_singleton.mp he']

/-- An invalid entry is among these. -/
def pending (status : α → Status) (es : List α) : Bool := es.any fun e => status e = .invalid

theorem pending_snoc (before : List α) (e : α) :
    pending status (before ++ [e]) = (pending status before || decide (status e = .invalid)) := by
  simp [pending]

theorem waitings_eq_self_iff {es : List α} (h : NoneReady status es) :
    es = waitings status es ↔ pending status es = false := by
  rw [eq_comm, waitings, List.filter_eq_self, pending, List.any_eq_false]
  constructor
  · intro hall e he
    simp [of_decide_eq_true (hall e he)]
  · intro hall e he
    have hnot := h e he
    have hinvalid := hall e he
    cases hstatus : status e with
    | waiting => rfl
    | ready => exact absurd hstatus hnot
    | invalid => simp [hstatus] at hinvalid

theorem allWaiting_waitings (es : List α) : AllWaiting status (waitings status es) := by
  intro e he
  exact of_decide_eq_true (List.mem_filter.mp he).2

theorem waitings_skip {e : α} (he : status e ≠ .waiting) (before rest : List α) :
    waitings status (before ++ e :: rest) = waitings status (before ++ rest) := by
  simp [waitings, List.filter_append, he]

theorem waitings_waitings (before rest : List α) :
    waitings status (waitings status before ++ rest) = waitings status (before ++ rest) := by
  simp [waitings, List.filter_append, List.filter_filter]

theorem AllWaiting.pending {es : List α} (h : AllWaiting status es) : pending status es = false := by
  rw [Draining.pending, List.any_eq_false]
  intro e he
  simp [h e he]

theorem pending_waitings (es : List α) : pending status (waitings status es) = false :=
  (allWaiting_waitings es).pending

/-! ### The loop over entries that are not ready -/

theorem drain_waitings (before : List α) {es : List α} (h : AllWaiting status es) (rest : List α) :
    drain status before (es ++ rest) = drain status (before ++ es) rest := by
  induction es generalizing before with
  | nil => rw [List.nil_append, List.append_nil]
  | cons e es ih =>
    have hrest : AllWaiting status es := fun e' he' => h e' (List.mem_cons_of_mem e he')
    rw [List.cons_append, drain_waiting (h e List.mem_cons_self), ih _ hrest, List.append_assoc, List.singleton_append]

/-- Entries that are not ready are passed, the invalid ones by new starts. -/
theorem drain_settle {before es : List α} (hbefore : AllWaiting status before) (h : NoneReady status es)
    (rest : List α) : drain status before (es ++ rest) = drain status (before ++ waitings status es) rest := by
  induction es generalizing before with
  | nil =>
    rw [List.nil_append, waitings, List.filter_nil, List.append_nil]
  | cons e es ih =>
    have hrest : NoneReady status es := fun e' he' => h e' (List.mem_cons_of_mem e he')
    rw [List.cons_append]
    cases he : status e with
    | ready => exact absurd he (h e List.mem_cons_self)
    | waiting =>
      have hwaitings : waitings status (e :: es) = e :: waitings status es := by simp [waitings, he]
      rw [drain_waiting he, ih (hbefore.snoc he) hrest, hwaitings, List.append_assoc, List.singleton_append]
    | invalid =>
      have hwaitings : waitings status (e :: es) = waitings status es := by simp [waitings, he]
      rw [drain_invalid he, drain_waitings [] hbefore, List.nil_append, ih hbefore hrest, hwaitings]

/-- A new start passes what is behind, as far as it is not ready. -/
theorem drain_restart {es : List α} (h : NoneReady status es) (rest : List α) :
    drain status [] (es ++ rest) = drain status (waitings status es) rest := by
  have hnil : AllWaiting status ([] : List α) := fun _ he => absurd he (List.not_mem_nil)
  rw [drain_settle hnil h, List.nil_append]

/-! ### What the loop should do -/

/-- What is still to be handled is handled in order, and only what waits is left. -/
def Right (status : α → Status) (result : List α × List α) (todo all : List α) : Prop :=
  result.1 = todo ∧ result.2 = waitings status all

theorem right_cons {e : α} {result : List α × List α} {todo all : List α} :
    Right status (e :: result.1, result.2) (e :: todo) all ↔ Right status result todo all := by
  simp [Right]

theorem right_skip {e : α} (he : status e ≠ .waiting) {result : List α × List α} {todo before rest : List α} :
    Right status result todo (before ++ e :: rest) ↔ Right status result todo (before ++ rest) := by
  rw [Right, Right, waitings_skip he]

theorem right_end {before : List α} (h : NoneReady status before) :
    Right status ([], before) [] (before ++ []) ↔ pending status before = false := by
  rw [Right, List.append_nil, ← waitings_eq_self_iff h]
  simp

theorem right_waitings {result : List α × List α} {todo before rest : List α} :
    Right status result todo (waitings status before ++ rest) ↔ Right status result todo (before ++ rest) := by
  rw [Right, Right, waitings_waitings]

/-- The three modes, each with what is behind it. -/
structure Tracks (status : α → Status) (rest : List α) : Prop where
  seen : ∀ before, NoneReady status before →
    (Right status (drain status before rest) (readies status rest) (before ++ rest) ↔
      Orderly status .seen (pending status before) rest)
  passing : ∀ before, NoneReady status before →
    (Right status (skip status before rest) (readies status rest) (before ++ rest) ↔
      Orderly status .passing (pending status before) rest)
  owing : ∀ before owed behind, NoneReady status before → status owed = .ready → AllWaiting status behind →
    owed ∉ rest →
    (Right status (drain status (before ++ owed :: behind) rest) (owed :: readies status rest)
        (before ++ (behind ++ rest)) ↔
      Orderly status (.owing behind.isEmpty) (pending status before) rest)

theorem tracks_nil : Tracks status ([] : List α) where
  seen before h := by
    rw [drain_nil]
    exact right_end h
  passing before h := right_end h
  owing before owed behind _ _ _ _ := by
    rw [drain_nil]
    constructor
    · intro h
      cases h.1
    · exact False.elim

theorem tracks_waiting {e : α} {rest : List α} (he : status e = .waiting) (h : Tracks status rest) :
    Tracks status (e :: rest) := by
  have hne : status e ≠ .ready := by simp [he]
  have hreadies : readies status (e :: rest) = readies status rest := by simp [readies, he]
  have hpending : ∀ before, pending status (before ++ [e]) = pending status before := by
    intro before
    simp [pending_snoc, he]
  have hall : ∀ before, before ++ e :: rest = before ++ [e] ++ rest := by simp
  refine ⟨?_, ?_, ?_⟩
  · intro before hbefore
    rw [drain_waiting he, hreadies, hall, h.seen _ (hbefore.append (noneReady_one hne)), hpending]
    simp only [Orderly, he]
  · intro before hbefore
    show Right status (drain status (before ++ [e]) rest) _ _ ↔ _
    rw [hreadies, hall, h.seen _ (hbefore.append (noneReady_one hne)), hpending]
    simp only [Orderly, he]
  · intro before owed behind hbefore howed hbehind hmem
    have hmem' : owed ∉ rest := fun hin => hmem (List.mem_cons_of_mem e hin)
    have hlonger := h.owing before owed (behind ++ [e]) hbefore howed (hbehind.snoc he) hmem'
    rw [drain_waiting he, hreadies, List.append_assoc, List.cons_append, hall behind, hlonger]
    have hlast : (behind ++ [e]).isEmpty = false := by cases behind <;> rfl
    simp only [Orderly, he, hlast]

theorem tracks_invalid {e : α} {rest : List α} (he : status e = .invalid) (h : Tracks status rest) :
    Tracks status (e :: rest) := by
  have hready : status e ≠ .ready := by simp [he]
  have hwaiting : status e ≠ .waiting := by simp [he]
  have hreadies : readies status (e :: rest) = readies status rest := by simp [readies, he]
  refine ⟨?_, ?_, ?_⟩
  · intro before hbefore
    rw [drain_invalid he, drain_restart hbefore, hreadies, right_skip hwaiting, ← right_waitings,
      h.seen _ (allWaiting_waitings before).noneReady, pending_waitings]
    simp only [Orderly, he]
  · intro before hbefore
    have hall : before ++ e :: rest = before ++ [e] ++ rest := by simp
    show Right status (drain status (before ++ [e]) rest) _ _ ↔ _
    rw [hreadies, hall, h.seen _ (hbefore.append (noneReady_one hready)), pending_snoc]
    simp [Orderly, he]
  · intro before owed behind hbefore howed hbehind hmem
    have hstart : drain status (before ++ owed :: behind) (e :: rest) =
        (owed :: (skip status (waitings status before) (behind ++ rest)).1,
          (skip status (waitings status before) (behind ++ rest)).2) := by
      rw [drain_invalid he, List.append_assoc, drain_restart hbefore, List.cons_append, drain_ready howed]
    rw [hstart, hreadies, right_cons, ← List.append_assoc, right_skip hwaiting, List.append_assoc, ← right_waitings]
    -- The new start handles what is owed, and passes over what is behind it.
    cases behind with
    | nil =>
      rw [List.nil_append, h.passing _ (allWaiting_waitings before).noneReady, pending_waitings]
      simp only [Orderly, he, List.isEmpty_nil, if_true]
    | cons w behind =>
      have hfirst : AllWaiting status (waitings status before ++ [w]) :=
        (allWaiting_waitings before).snoc (hbehind w List.mem_cons_self)
      have hothers : AllWaiting status behind := fun w' hw' => hbehind w' (List.mem_cons_of_mem w hw')
      have hpassed : AllWaiting status (waitings status before ++ w :: behind) := by
        intro w' hw'
        rcases List.mem_append.mp hw' with hw' | hw'
        · exact allWaiting_waitings before w' hw'
        · exact hbehind w' hw'
      show Right status (drain status (waitings status before ++ [w]) (behind ++ rest)) _ _ ↔ _
      rw [drain_waitings _ hothers, List.append_assoc, List.singleton_append, ← List.append_assoc,
        h.seen _ hpassed.noneReady, hpassed.pending]
      simp only [Orderly, he, List.isEmpty_cons, Bool.false_eq_true, if_false]

theorem tracks_ready {e : α} {rest : List α} (he : status e = .ready) (h : Tracks status rest) (hmem : e ∉ rest) :
    Tracks status (e :: rest) := by
  have hwaiting : status e ≠ .waiting := by simp [he]
  have hreadies : readies status (e :: rest) = e :: readies status rest := by simp [readies, he]
  refine ⟨?_, ?_, ?_⟩
  · intro before hbefore
    rw [drain_ready he, hreadies, right_cons, right_skip hwaiting, h.passing before hbefore]
    simp only [Orderly, he]
  · intro before hbefore
    have hnone : AllWaiting status ([] : List α) := fun _ he => absurd he (List.not_mem_nil)
    have howing := h.owing before e [] hbefore he hnone hmem
    rw [List.nil_append] at howing
    show Right status (drain status (before ++ [e]) rest) _ _ ↔ _
    rw [hreadies, right_skip hwaiting, howing]
    simp only [Orderly, he]
    rfl
  · intro before owed behind _ howed _ howedmem
    rw [drain_ready he, hreadies]
    simp only [Orderly, he, iff_false]
    intro hright
    have hsame := (List.cons.inj hright.1).1
    exact howedmem (hsame ▸ List.mem_cons_self)

theorem tracks {rest : List α} (h : rest.Nodup) : Tracks status rest := by
  induction rest with
  | nil => exact tracks_nil
  | cons e rest ih =>
    obtain ⟨hmem, hrest⟩ := List.nodup_cons.mp h
    cases he : status e with
    | waiting => exact tracks_waiting he (ih hrest)
    | ready => exact tracks_ready he (ih hrest) hmem
    | invalid => exact tracks_invalid he (ih hrest)

/-- The loop handles exactly the ready entries, in order, and leaves exactly those that
wait, exactly when the statuses are orderly. -/
theorem drain_eq_iff {es : List α} (h : es.Nodup) :
    drain status [] es = (readies status es, waitings status es) ↔ Orderly status .seen false es := by
  have hnone : NoneReady status ([] : List α) := fun _ he => absurd he (List.not_mem_nil)
  have hseen := (tracks h).seen [] hnone
  rw [List.nil_append] at hseen
  have hpending : pending status ([] : List α) = false := rfl
  rw [← hpending, ← hseen, Right, Prod.ext_iff]

/-- A ready entry that was passed over is lost when no entry behind it is invalid. -/
theorem not_orderly_owing {es : List α} (h : ∀ e ∈ es, status e ≠ .invalid) (last pending : Bool) :
    ¬ Orderly status (.owing last) pending es := by
  induction es generalizing last with
  | nil => exact id
  | cons e rest ih =>
    have hrest : ∀ e' ∈ rest, status e' ≠ .invalid := fun e' he' => h e' (List.mem_cons_of_mem e he')
    cases he : status e with
    | waiting =>
      simp only [Orderly, he]
      exact ih hrest false
    | ready => simp only [Orderly, he, not_false_eq_true]
    | invalid => exact absurd he (h e List.mem_cons_self)

/-- Where no entry is invalid, no two ready entries may be neighbours. -/
theorem orderly_iff_isChain {es : List α} (h : ∀ e ∈ es, status e ≠ .invalid) :
    (Orderly status .seen false es ↔ es.IsChain fun a b => status a = .ready → status b ≠ .ready) ∧
      (Orderly status .passing false es ↔
        (∀ e ∈ es.head?, status e ≠ .ready) ∧ es.IsChain fun a b => status a = .ready → status b ≠ .ready) := by
  induction es with
  | nil => simp [Orderly]
  | cons e rest ih =>
    have hrest : ∀ e' ∈ rest, status e' ≠ .invalid := fun e' he' => h e' (List.mem_cons_of_mem e he')
    obtain ⟨hseen, hpassing⟩ := ih hrest
    rw [List.isChain_cons]
    cases he : status e with
    | waiting => simp [Orderly, he, hseen]
    | ready =>
      have howing := not_orderly_owing hrest true false
      simp [Orderly, he, hpassing, howing]
    | invalid => exact absurd he (h e List.mem_cons_self)

end ScoutingComputer.Draining
