import ScoutingComputer.Bluetooth.Policy
import ScoutingComputer.Bluetooth.Results
import ScoutingComputer.Foundation.Draining

/-! What one call of `handleRunningTransactions` does.

The loop is here once more with a log of the entries whose result it handles. On entries
of different tablets it does what `Draining.drain` does with their statuses: it handles
the entries of the log one after the other and leaves the others as they were
(`loggedPasses_eq`). So a call drains what is ready exactly when the statuses are orderly
and every ready result can be handled (`drained_iff`). -/
namespace ScoutingComputer.Bluetooth
open Socket
open Draining (Status drain readies waitings Orderly)
open Machine (bind_eq_ok)

section
variable (server : Server) (parseJson : Text → Option Json) (handlings : Nat → Handling)

/-! ### The loop with a log -/

/-- `State.runningPass`, with the entries that are handled in front. -/
def loggedPass : List Running → List Running → State → Checked (List Running × List Running × Bool × State)
  | before, [], s => .ok ([], before, false, s)
  | before, e :: rest, s => do
    let tab ← s.tablet (some e.trans)
    match tab.currTrans.data with
    | none => return ([], before ++ rest, true, s)
    | some task =>
      if task.state.ready then
        let s ← s.handleEntry server parseJson (handlings e.connection) e
        match rest with
        | [] => return ([e], before, false, s)
        | next :: rest => Prod.map (e :: ·) id <$> loggedPass (before ++ [next]) rest s
      else loggedPass (before ++ [e]) rest s

/-- What follows a pass. -/
def resume (again : List Running → State → Checked (List Running × State)) :
    List Running × List Running × Bool × State → Checked (List Running × State)
  | (log, running, true, s) => Prod.map (log ++ ·) id <$> again running s
  | (log, running, false, s) => .ok (log, {s with runningTransactions := running})

/-- `State.runningPasses` with the log of all passes. -/
def loggedPasses : Nat → List Running → State → Checked (List Running × State)
  | 0, running, s => .ok ([], {s with runningTransactions := running})
  | n + 1, running, s => loggedPass server parseJson handlings [] running s >>= resume (loggedPasses n)

/-- A call of `handleRunningTransactions`. -/
def loggedRunning (s : State) : Checked (List Running × State) :=
  loggedPasses server parseJson handlings s.runningTransactions.length s.runningTransactions s

theorem loggedPass_snd (before rest : List Running) (s : State) :
    Prod.snd <$> loggedPass server parseJson handlings before rest s =
      State.runningPass server parseJson handlings before rest s := by
  fun_induction State.runningPass server parseJson handlings before rest s with
  | case1 before s => rfl
  | case2 before e rest s ihready ihwaiting =>
    unfold loggedPass
    rw [map_bind]
    refine bind_congr fun tab => ?_
    cases tab.currTrans.data with
    | none => rfl
    | some task =>
      simp only
      split
      · rw [map_bind]
        refine bind_congr fun s' => ?_
        cases rest with
        | nil => rfl
        | cons next rest =>
          simp only [Functor.map_map]
          exact ihready s'
      · exact ihwaiting

theorem loggedPasses_snd (n : Nat) (running : List Running) (s : State) :
    Prod.snd <$> loggedPasses server parseJson handlings n running s =
      State.runningPasses server parseJson handlings n running s := by
  induction n generalizing running s with
  | zero => rfl
  | succ n ih =>
    unfold loggedPasses State.runningPasses
    rw [← loggedPass_snd, map_bind, bind_map_left]
    refine bind_congr fun result => ?_
    obtain ⟨log, running, again, s⟩ := result
    cases again with
    | false => rfl
    | true =>
      simp only [resume, Functor.map_map, if_true]
      exact ih running s

theorem loggedRunning_snd (s : State) :
    Prod.snd <$> loggedRunning server parseJson handlings s = s.handleRunningTransactions server parseJson handlings :=
  loggedPasses_snd ..

end

/-! ### What an entry refers to -/

namespace State

/-- What the loop finds out about an entry. -/
def status (s : State) (e : Running) : Status :=
  match (s.connectedTablets.deref e.trans).bind (·.currTrans.data) with
  | none => .invalid
  | some task => if task.state.ready then .ready else .waiting

end State

/-- An entry refers to the record of a connected tablet, which is that tablet's own. -/
abbrev Owned (s : State) (e : Running) (tab : BtTabObj) : Prop := Own s e.trans tab

/-- The entries refer to the records of different tablets, so that the status of none of
them changes while others are handled. -/
structure Separate (s : State) (running : List Running) : Prop where
  different : (running.map Running.trans).Nodup
  owned : ∀ e ∈ running, ∃ tab, Owned s e tab

theorem status_eq {s : State} {e : Running} {tab : BtTabObj} (h : s.connectedTablets.deref e.trans = some tab) :
    s.status e = match tab.currTrans.data with
      | none => .invalid
      | some task => if task.state.ready then .ready else .waiting := by
  unfold State.status
  rw [h]
  rfl

theorem status_ready_iff {s : State} {e : Running} {tab : BtTabObj}
    (h : s.connectedTablets.deref e.trans = some tab) :
    s.status e = .ready ↔ ∃ task, tab.currTrans.data = some task ∧ task.state.ready = true := by
  rw [status_eq h]
  cases tab.currTrans.data with
  | none => simp
  | some task => cases hready : task.state.ready <;> simp [hready]

section
variable {server : Server} {parseJson : Text → Option Json}

/-! ### One entry -/

/-- Handling an entry changes its tablet, which is then free, and the table. -/
def Frees (s s' : State) (e : Running) : Prop :=
  ∃ tab table, s' = {s with table := table}.modify e.trans.slot (fun _ => tab) ∧ tab.transactionState = false

variable (server parseJson) in
theorem handleEntry_settles {s : State} {e : Running} {tab : BtTabObj} {handling : Handling}
    (howned : Owned s e tab) (h : Settles tab handling.waited) :
    ∃ s', s.handleEntry server parseJson handling e = .ok s' ∧ Frees s s' e := by
  obtain ⟨tab', table, hhandled⟩ := h.handled server parseJson handling.inserts s.table
  have hresult : s.handleTransResult server parseJson handling e.trans = _ := handleTransResult_handled howned hhandled
  have hparent : tab'.currTrans.parent = some e.trans := hhandled.kept.2.2.2.1.trans howned.parent
  have htab' : ({s with table := table}.modify e.trans.slot fun _ => tab').tablet (some e.trans) = .ok tab' :=
    tablet_modify_self howned.deref fun _ => tab'
  refine ⟨_, ?_, {tab' with transactionState := false}, table, rfl, rfl⟩
  unfold State.handleEntry
  rw [hresult]
  simp only [bind, Except.bind, htab', hparent]
  exact congrArg Except.ok (modify_modify ..)

variable (server parseJson) in
theorem handleEntry_stops {s : State} {e : Running} {tab : BtTabObj} {handling : Handling}
    (howned : Owned s e tab) (hready : s.status e = .ready) (h : ¬ Settles tab handling.waited) :
    ∃ failure, s.handleEntry server parseJson handling e = .error failure := by
  obtain ⟨task, hdata, hready⟩ := (status_ready_iff howned.deref).mp hready
  obtain ⟨failure, hstops⟩ := handleTransResult_stops server parseJson howned hdata hready h
  exact ⟨failure, by unfold State.handleEntry; rw [hstops]; rfl⟩

/-! ### What handling an entry keeps -/

theorem Frees.other {s s' : State} {e : Running} {tab : BtTabObj} {p : Pointer} (h : Frees s s' e)
    (htab : s.connectedTablets.deref e.trans = some tab) (hne : p ≠ e.trans) :
    s'.connectedTablets.deref p = s.connectedTablets.deref p := by
  obtain ⟨tab', table, rfl, _⟩ := h
  by_cases hslot : e.trans.slot = p.slot
  · have hbuffer : p.buffer ≠ s.connectedTablets.identity := by
      intro hbuffer
      exact hne (congrArg₂ Pointer.mk (hbuffer.trans (Buffer.deref_iff.mp htab).1.symm) hslot.symm)
    unfold Buffer.deref
    rw [if_neg hbuffer]
    exact if_neg hbuffer
  · exact Buffer.deref_modify_other hslot _

theorem Frees.self {s s' : State} {e : Running} {tab : BtTabObj} (h : Frees s s' e)
    (htab : s.connectedTablets.deref e.trans = some tab) :
    ∃ tab', s'.connectedTablets.deref e.trans = some tab' ∧ tab'.transactionState = false := by
  obtain ⟨tab', table, rfl, hfree⟩ := h
  exact ⟨tab', Buffer.deref_modify_self htab _, hfree⟩

/-- The entries are separate, and these are their statuses. -/
structure Showing (status : Running → Status) (s : State) (running : List Running) : Prop where
  separate : Separate s running
  status : ∀ e ∈ running, s.status e = status e

theorem Showing.sublist {status : Running → Status} {s : State} {running running' : List Running}
    (h : Showing status s running) (hsub : running'.Sublist running) : Showing status s running' :=
  ⟨⟨(hsub.map Running.trans).nodup h.separate.different, fun e he => h.separate.owned e (hsub.subset he)⟩,
    fun e he => h.status e (hsub.subset he)⟩

theorem Showing.perm {status : Running → Status} {s : State} {running running' : List Running}
    (h : Showing status s running) (hperm : running.Perm running') : Showing status s running' :=
  ⟨⟨(hperm.map Running.trans).nodup h.separate.different, fun e he => h.separate.owned e (hperm.mem_iff.mpr he)⟩,
    fun e he => h.status e (hperm.mem_iff.mpr he)⟩

theorem Showing.owned {status : Running → Status} {s : State} {e : Running} {running : List Running}
    (h : Showing status s running) (he : e ∈ running) : (∃ tab, Owned s e tab) ∧ s.status e = status e :=
  ⟨h.separate.owned e he, h.status e he⟩

/-- The entries that are left when one of them is handled. -/
theorem Showing.tail {status : Running → Status} {s s' : State} {e : Running} {rest : List Running}
    (h : Showing status s (e :: rest)) (hfrees : Frees s s' e) :
    Showing status s' rest ∧
      ∀ e' ∈ rest, s'.connectedTablets.deref e'.trans = s.connectedTablets.deref e'.trans := by
  have hnodup := List.nodup_cons.mp (List.map_cons ▸ h.separate.different)
  obtain ⟨⟨tab, howned⟩, _⟩ := h.owned List.mem_cons_self
  have hother : ∀ e' ∈ rest, s'.connectedTablets.deref e'.trans = s.connectedTablets.deref e'.trans := by
    intro e' he'
    apply hfrees.other howned.deref
    intro heq
    exact hnodup.1 (heq ▸ List.mem_map_of_mem he')
  refine ⟨⟨⟨hnodup.2, fun e' he' => ?_⟩, fun e' he' => ?_⟩, hother⟩
  · obtain ⟨tab', howned'⟩ := h.separate.owned e' (List.mem_cons_of_mem e he')
    exact ⟨tab', (hother e' he').trans howned'.deref, howned'.parent, howned'.self⟩
  · rw [← h.status e' (List.mem_cons_of_mem e he'), State.status, State.status, hother e' he']

theorem Showing.frees {status : Running → Status} {s s' : State} {e : Running} {before rest : List Running}
    (h : Showing status s (before ++ e :: rest)) (hfrees : Frees s s' e) : Showing status s' (before ++ rest) :=
  ((h.perm List.perm_middle).tail hfrees).1

variable (server parseJson) in
/-- What handling a ready entry can do. -/
theorem handleEntry_cases {s : State} {e : Running} {tab : BtTabObj} (howned : Owned s e tab)
    (hready : s.status e = .ready) (handling : Handling) :
    (Settles tab handling.waited ∧ ∃ s', s.handleEntry server parseJson handling e = .ok s' ∧ Frees s s' e) ∨
      ¬ Settles tab handling.waited ∧ ∃ failure, s.handleEntry server parseJson handling e = .error failure := by
  by_cases h : Settles tab handling.waited
  · exact .inl ⟨h, handleEntry_settles server parseJson howned h⟩
  · exact .inr ⟨h, handleEntry_stops server parseJson howned hready h⟩

/-! ### The loop -/

variable (server parseJson) in
/-- Handling these entries one after the other. -/
def handleAll (handlings : Nat → Handling) (entries : List Running) (s : State) : Checked State :=
  entries.foldlM (fun s e => s.handleEntry server parseJson (handlings e.connection) e) s

variable (server parseJson) in
/-- Handling the first entries, and leaving the second. -/
def outcome (handlings : Nat → Handling) (drained : List Running × List Running) (s : State) :
    Checked (List Running × State) := do
  let s ← handleAll server parseJson handlings drained.1 s
  return (drained.1, {s with runningTransactions := drained.2})

variable {handlings : Nat → Handling}

theorem outcome_cons (e : Running) (drained : List Running × List Running) (s : State) :
    outcome server parseJson handlings (e :: drained.1, drained.2) s = (do
      let s ← s.handleEntry server parseJson (handlings e.connection) e
      Prod.map (e :: ·) id <$> outcome server parseJson handlings drained s) := by
  simp only [outcome, handleAll, List.foldlM_cons, bind_assoc, map_bind, map_pure]
  rfl

theorem resume_cons (again : List Running → State → Checked (List Running × State)) (e : Running)
    (result : List Running × List Running × Bool × State) :
    resume again (Prod.map (e :: ·) id result) = Prod.map (e :: ·) id <$> resume again result := by
  obtain ⟨log, running, restarts, s⟩ := result
  cases restarts with
  | false => rfl
  | true =>
    simp only [resume, Prod.map, Functor.map_map]
    rfl

section
variable {s : State} {e : Running} {tab : BtTabObj} (howned : Owned s e tab)
include howned

theorem loggedPass_waiting (hstatus : s.status e = .waiting) (before rest : List Running) :
    loggedPass server parseJson handlings before (e :: rest) s =
      loggedPass server parseJson handlings (before ++ [e]) rest s := by
  rw [status_eq howned.deref] at hstatus
  conv_lhs => unfold loggedPass
  rw [tablet_of_deref howned.deref]
  simp only [bind, Except.bind]
  cases hdata : tab.currTrans.data with
  | none =>
    rw [hdata] at hstatus
    cases hstatus
  | some task =>
    rw [hdata] at hstatus
    cases hready : task.state.ready with
    | true => simp [hready] at hstatus
    | false => simp only [Bool.false_eq_true, if_false, hready]

theorem loggedPass_invalid (hstatus : s.status e = .invalid) (before rest : List Running) :
    loggedPass server parseJson handlings before (e :: rest) s = .ok ([], before ++ rest, true, s) := by
  rw [status_eq howned.deref] at hstatus
  unfold loggedPass
  rw [tablet_of_deref howned.deref]
  simp only [bind, Except.bind]
  cases hdata : tab.currTrans.data with
  | none => rfl
  | some task =>
    rw [hdata] at hstatus
    cases hready : task.state.ready <;> simp [hready] at hstatus

theorem loggedPass_ready (hstatus : s.status e = .ready) (before rest : List Running) :
    loggedPass server parseJson handlings before (e :: rest) s = (do
      let s ← s.handleEntry server parseJson (handlings e.connection) e
      match rest with
      | [] => return ([e], before, false, s)
      | next :: rest => Prod.map (e :: ·) id <$> loggedPass server parseJson handlings (before ++ [next]) rest s) := by
  obtain ⟨task, hdata, hready⟩ := (status_ready_iff howned.deref).mp hstatus
  conv_lhs => unfold loggedPass
  rw [tablet_of_deref howned.deref]
  simp only [bind, Except.bind, hdata, hready, if_true]

end

variable {status : Running → Status}

/-- One pass and what follows it do what the loop does with the statuses, if a new start
does. -/
theorem loggedPass_resume {n : Nat} {again : List Running → State → Checked (List Running × State)}
    (hagain : ∀ running s, running.length ≤ n → Showing status s running →
      again running s = outcome server parseJson handlings (drain status [] running) s)
    {before rest : List Running} {s : State} (hlength : before.length + rest.length ≤ n + 1)
    (h : Showing status s (before ++ rest)) :
    loggedPass server parseJson handlings before rest s >>= resume again =
      outcome server parseJson handlings (drain status before rest) s := by
  fun_induction drain status before rest generalizing s with
  | case1 before => rfl
  | case2 before e rest he ih =>
    obtain ⟨⟨tab, howned⟩, hstatus⟩ := h.owned (List.mem_append_right before List.mem_cons_self)
    have hnext : before ++ e :: rest = before ++ [e] ++ rest := by simp
    rw [loggedPass_waiting howned (hstatus.trans he)]
    refine ih ?_ (hnext ▸ h)
    simpa [Nat.add_assoc, Nat.add_comm 1] using hlength
  | case3 before e rest he _ =>
    obtain ⟨⟨tab, howned⟩, hstatus⟩ := h.owned (List.mem_append_right before List.mem_cons_self)
    have hfewer : (before ++ rest).length ≤ n := by
      simp only [List.length_append, List.length_cons] at hlength ⊢
      omega
    rw [loggedPass_invalid howned (hstatus.trans he)]
    show Prod.map _ id <$> again (before ++ rest) s = _
    rw [hagain _ s hfewer (h.sublist (List.Sublist.append_left (List.sublist_cons_self e rest) before))]
    exact id_map _
  | case4 before e he =>
    obtain ⟨⟨tab, howned⟩, hstatus⟩ := h.owned (List.mem_append_right before List.mem_cons_self)
    rw [loggedPass_ready howned (hstatus.trans he), outcome_cons e ([], before)]
    simp only [bind_assoc]
    rfl
  | case5 before e he next rest ih =>
    obtain ⟨⟨tab, howned⟩, hstatus⟩ := h.owned (List.mem_append_right before List.mem_cons_self)
    rw [loggedPass_ready howned (hstatus.trans he), outcome_cons e (drain status (before ++ [next]) rest), bind_assoc]
    rcases handleEntry_cases server parseJson howned (hstatus.trans he)
      (handlings e.connection) with ⟨_, s', hok, hfrees⟩ | ⟨_, failure, hfails⟩
    · rw [hok]
      show Prod.map (e :: ·) id <$> loggedPass server parseJson handlings (before ++ [next]) rest s' >>= resume again =
        Prod.map (e :: ·) id <$> outcome server parseJson handlings (drain status (before ++ [next]) rest) s'
      have hnext : before ++ next :: rest = before ++ [next] ++ rest := by simp
      rw [← ih ?_ (hnext ▸ h.frees hfrees), bind_map_left, map_bind]
      · exact bind_congr fun result => resume_cons again e result
      · simp only [List.length_append, List.length_cons, List.length_nil] at hlength ⊢
        omega
    · rw [hfails]
      rfl

/-- With as much fuel as there are entries, the passes do what the loop does with the
statuses. -/
theorem loggedPasses_eq {n : Nat} {running : List Running} {s : State} (hlength : running.length ≤ n)
    (h : Showing status s running) :
    loggedPasses server parseJson handlings n running s =
      outcome server parseJson handlings (drain status [] running) s := by
  induction n generalizing running s with
  | zero =>
    obtain rfl := List.eq_nil_of_length_eq_zero (Nat.le_zero.mp hlength)
    rw [Draining.drain_nil]
    rfl
  | succ n ih =>
    refine loggedPass_resume (fun running s => ih) ?_ h
    simpa using hlength

/-! ### What is handled -/

variable (server parseJson) in
/-- Ready entries are handled to the end exactly when each of them settles. -/
theorem handleAll_iff {entries : List Running} {s : State} (h : Showing status s entries)
    (hready : ∀ e ∈ entries, status e = .ready) :
    (∃ s', handleAll server parseJson handlings entries s = .ok s') ↔
      ∀ e ∈ entries, ∀ tab, s.connectedTablets.deref e.trans = some tab →
        Settles tab (handlings e.connection).waited := by
  induction entries generalizing s with
  | nil => exact ⟨fun _ e he => absurd he (List.not_mem_nil), fun _ => ⟨s, rfl⟩⟩
  | cons e rest ih =>
    obtain ⟨⟨tab, howned⟩, hstatus⟩ := h.owned List.mem_cons_self
    unfold handleAll
    rw [List.foldlM_cons]
    rcases handleEntry_cases server parseJson howned
      (hstatus.trans (hready e List.mem_cons_self)) (handlings e.connection) with
      ⟨hsettles, s₁, hok, hfrees⟩ | ⟨hnot, failure, hfails⟩
    · obtain ⟨hshowing, hsame⟩ := h.tail hfrees
      have hrest := ih hshowing fun e' he' => hready e' (List.mem_cons_of_mem e he')
      rw [hok]
      refine Iff.trans hrest ?_
      rw [List.forall_mem_cons]
      constructor
      · intro hall
        refine ⟨fun tab' htab' => ?_, fun e' he' tab' htab' => hall e' he' tab' ((hsame e' he').trans htab')⟩
        rw [howned.deref] at htab'
        cases htab'
        exact hsettles
      · intro hall e' he' tab' htab'
        exact hall.2 e' he' tab' ((hsame e' he').symm.trans htab')
    · rw [hfails]
      constructor
      · rintro ⟨s', hs'⟩
        cases hs'
      · intro hall
        exact absurd (hall e List.mem_cons_self tab howned.deref) hnot

/-- The tablets of these entries are free then, and the others are as they were. -/
theorem handleAll_spec {entries : List Running} {s s' : State} (h : Showing status s entries)
    (hready : ∀ e ∈ entries, status e = .ready)
    (hs' : handleAll server parseJson handlings entries s = .ok s') :
    (∀ e ∈ entries, ∃ tab, s'.connectedTablets.deref e.trans = some tab ∧ tab.transactionState = false) ∧
      ∀ p, p ∉ entries.map Running.trans → s'.connectedTablets.deref p = s.connectedTablets.deref p := by
  induction entries generalizing s with
  | nil =>
    cases hs'
    exact ⟨fun e he => absurd he (List.not_mem_nil), fun p _ => rfl⟩
  | cons e rest ih =>
    obtain ⟨⟨tab, howned⟩, hstatus⟩ := h.owned List.mem_cons_self
    unfold handleAll at hs'
    rw [List.foldlM_cons] at hs'
    obtain ⟨s₁, hok, hs'⟩ := bind_eq_ok hs'
    have hfrees : Frees s s₁ e := by
      rcases handleEntry_cases server parseJson howned
        (hstatus.trans (hready e List.mem_cons_self)) (handlings e.connection) with
        ⟨_, s₂, hok', hfrees⟩ | ⟨_, failure, hfails⟩
      · rw [hok] at hok'
        cases hok'
        exact hfrees
      · rw [hok] at hfails
        cases hfails
    obtain ⟨hall, hothers⟩ := ih (h.tail hfrees).1 (fun e' he' => hready e' (List.mem_cons_of_mem e he')) hs'
    have hnodup := List.nodup_cons.mp (List.map_cons ▸ h.separate.different)
    constructor
    · intro e' he'
      rcases List.mem_cons.mp he' with rfl | he'
      · rw [hothers _ hnodup.1]
        exact hfrees.self howned.deref
      · exact hall e' he'
    · intro p hp
      rw [List.map_cons, List.mem_cons, not_or] at hp
      rw [hothers p hp.2, hfrees.other howned.deref hp.1]

/-! ### Calls -/

/-- What a call should do, when `log` are the entries whose result it handles. -/
structure Drains (s s' : State) (log : List Running) : Prop where
  handled : log = readies s.status s.runningTransactions
  left : s'.runningTransactions = waitings s.status s.runningTransactions
  freed : ∀ e ∈ log, ∃ tab, s'.connectedTablets.deref e.trans = some tab ∧ tab.transactionState = false
  untouched : ∀ e ∈ s'.runningTransactions, s'.connectedTablets.deref e.trans = s.connectedTablets.deref e.trans

theorem Separate.showing {s : State} {running : List Running} (h : Separate s running) :
    Showing s.status s running := ⟨h, fun _ _ => rfl⟩

/-- The entries of a sound state are separate. -/
theorem State.Sound.separate {s : State} (h : s.Sound) : Separate s s.runningTransactions := by
  refine ⟨?_, fun e he => ?_⟩
  · have hplaces : ((s.runningTransactions.map Running.trans).map Pointer.slot).Nodup := by
      rw [List.map_map]
      exact h.places
    exact hplaces.of_map
  · obtain ⟨tab, htab, hcarries⟩ := h.carried e he
    obtain ⟨task, hdata, hself, _⟩ := hcarries.data
    refine ⟨tab, htab, hcarries.parent, fun task' hdata' => ?_⟩
    rw [hdata] at hdata'
    cases hdata'
    exact hself

/-- In a sound state no entry is invalid, and only neighbours that are both ready are out
of order. -/
theorem State.Sound.orderly_iff {s : State} (h : s.Sound) :
    Orderly s.status .seen false s.runningTransactions ↔
      s.runningTransactions.IsChain fun a b => s.status a = .ready → s.status b ≠ .ready := by
  refine (Draining.orderly_iff_isChain fun e he hinvalid => ?_).1
  obtain ⟨tab, htab, hcarries⟩ := h.carried e he
  obtain ⟨task, hdata, _⟩ := hcarries.data
  rw [status_eq htab, hdata] at hinvalid
  cases hready : task.state.ready <;> simp [hready] at hinvalid

theorem loggedRunning_eq {s : State} (h : Separate s s.runningTransactions) :
    loggedRunning server parseJson handlings s =
      outcome server parseJson handlings (drain s.status [] s.runningTransactions) s :=
  loggedPasses_eq (Nat.le_refl _) h.showing

theorem ready_of_mem {s : State} {e : Running} {running : List Running} (he : e ∈ readies s.status running) :
    s.status e = .ready := of_decide_eq_true (List.mem_filter.mp he).2

/-- What is left was not handled. -/
theorem waitings_not_handled {s : State} {running : List Running} (h : Separate s running) {e : Running}
    (he : e ∈ waitings s.status running) : e.trans ∉ (readies s.status running).map Running.trans := by
  intro hmem
  obtain ⟨e', he', heq⟩ := List.mem_map.mp hmem
  have hsame : e' = e :=
    List.inj_on_of_nodup_map h.different (List.mem_of_mem_filter he') (List.mem_of_mem_filter he) heq
  have hwaiting : s.status e = .waiting := of_decide_eq_true (List.mem_filter.mp he).2
  rw [← hsame, ready_of_mem he'] at hwaiting
  cases hwaiting

end

/-- A call drains what is ready exactly when no ready or invalid entry is passed over for
good or comes too late, and each ready result can be handled. -/
theorem drained_iff (server : Server) (parseJson : Text → Option Json) (handlings : Nat → Handling) (s : State)
    (h : Separate s s.runningTransactions) :
    (∃ log s', loggedRunning server parseJson handlings s = .ok (log, s') ∧
        s.handleRunningTransactions server parseJson handlings = .ok s' ∧ Drains s s' log) ↔
      Orderly s.status .seen false s.runningTransactions ∧
        ∀ e ∈ readies s.status s.runningTransactions, ∀ tab, s.connectedTablets.deref e.trans = some tab →
          Settles tab (handlings e.connection).waited := by
  have hnodup : s.runningTransactions.Nodup := h.different.of_map
  have hshowing : Showing s.status s (readies s.status s.runningTransactions) :=
    h.showing.sublist List.filter_sublist
  rw [← Draining.drain_eq_iff hnodup, ← handleAll_iff server parseJson hshowing
    fun e he => ready_of_mem he, ← loggedRunning_snd, loggedRunning_eq h, outcome]
  constructor
  · rintro ⟨log, s', hlogged, _, hdrains⟩
    obtain ⟨s₁, hall, hs'⟩ := bind_eq_ok hlogged
    cases hs'
    refine ⟨Prod.ext hdrains.handled hdrains.left, s₁, ?_⟩
    rw [← hdrains.handled]
    exact hall
  · rintro ⟨hdrain, s₁, hall⟩
    obtain ⟨hfreed, hothers⟩ := handleAll_spec hshowing (fun e he => ready_of_mem he) hall
    rw [hdrain]
    simp only [hall]
    refine ⟨_, _, rfl, rfl, rfl, rfl, hfreed, ?_⟩
    intro e he
    exact hothers e.trans (waitings_not_handled h he)

/-- Two tablets send the code of a name. -/
def twoRequests : List Event := [joins 10 2, joins 20 2, requests 2]

/-- The transfer of one of the names ends. -/
def nameEnds (i : Nat) : List Event := [.progress i .started, .progress i (.finished readsName)]

theorem twoRequests_sound {ends : List Event} {s : State}
    (hends : ∀ e ∈ ends, ∀ s, Rule plainServer (fun _ => none) (fun _ => []) s e)
    (hrun : Machine.run (step plainServer (fun _ => none) fun _ => []) (emptyState ⟨[], 0⟩)
      (twoRequests ++ ends) = some s) : s.Sound := by
  refine run_sound ?_ hrun
  refine Machine.meets_cons (.inr (.inl rfl)) rfl (Machine.meets_cons (.inr (.inl rfl)) rfl
    (Machine.meets_cons ⟨?_, ?_⟩ rfl (Machine.meets_of_forall hends _)))
  · exact fun _ _ _ e he => absurd he (List.not_mem_nil)
  · intro s₁ hs₁
    cases hs₁
    refine ⟨fun _ _ _ e he => ?_, fun _ _ => trivial⟩
    obtain rfl := List.mem_singleton.mp he
    exact Nat.zero_lt_one

theorem nameEnds_rule (i : Nat) :
    ∀ e ∈ nameEnds i, ∀ s, Rule plainServer (fun _ => none) (fun _ => []) s e := by
  intro e he s
  rcases List.mem_pair.mp he with rfl | rfl <;> trivial

theorem drained_iff_oneName :
    ∃ s, Machine.run (step plainServer (fun _ => none) fun _ => []) (emptyState ⟨[], 0⟩)
        (twoRequests ++ nameEnds 0) = some s ∧ s.runningTransactions.map s.status = [.ready, .waiting] ∧
      ∃ log s', loggedRunning plainServer (fun _ => none) plainHandlings s = .ok (log, s') ∧
        s.handleRunningTransactions plainServer (fun _ => none) plainHandlings = .ok s' ∧ Drains s s' log := by
  refine ⟨_, rfl, rfl, ?_⟩
  refine (drained_iff plainServer (fun _ => none) plainHandlings _
    (twoRequests_sound (nameEnds_rule 0) rfl).separate).mpr ⟨?_, ?_⟩
  · exact (rfl : false = false)
  · intro e he tab htab
    obtain rfl := List.mem_singleton.mp he
    obtain rfl := Option.some.inj htab
    exact .inr (.inr ⟨_, _, ⟨_, rfl, .inl ⟨rfl, rfl⟩⟩, fun h => by cases h⟩)

/-- When both names have arrived, a call leaves the second one. -/
theorem second_name_is_left :
    ∃ s s', Machine.run (step plainServer (fun _ => none) fun _ => []) (emptyState ⟨[], 0⟩)
        (twoRequests ++ (nameEnds 0 ++ nameEnds 1)) = some s ∧
      Separate s s.runningTransactions ∧ s.runningTransactions.map s.status = [.ready, .ready] ∧
      s.handleRunningTransactions plainServer (fun _ => none) plainHandlings = .ok s' ∧
      s'.runningTransactions = [⟨⟨1, 1⟩, 1⟩] ∧ ∀ log, ¬ Drains s s' log := by
  have hrule : ∀ e ∈ nameEnds 0 ++ nameEnds 1, ∀ s, Rule plainServer (fun _ => none) (fun _ => []) s e := by
    intro e he
    exact (List.mem_append.mp he).elim (nameEnds_rule 0 e) (nameEnds_rule 1 e)
  have hcall : ((Machine.run (step plainServer (fun _ => none) fun _ => []) (emptyState ⟨[], 0⟩)
      (twoRequests ++ (nameEnds 0 ++ nameEnds 1))).bind fun s =>
        (s.handleRunningTransactions plainServer (fun _ => none) plainHandlings).toOption.map fun s' =>
          (s.runningTransactions.map s.status, s'.runningTransactions)) =
      some ([.ready, .ready], [⟨⟨1, 1⟩, 1⟩]) := by
    decide +kernel
  obtain ⟨s, hs, hcall⟩ := Option.bind_eq_some_iff.mp hcall
  obtain ⟨s', hs', hcall⟩ := Option.map_eq_some_iff.mp hcall
  obtain ⟨hstatus, hleft⟩ := Prod.mk.inj hcall
  refine ⟨s, s', hs, (twoRequests_sound hrule hs).separate, hstatus, Machine.toOption_eq_some hs', hleft,
    fun log hdrains => ?_⟩
  have hnone : waitings s.status s.runningTransactions = [] := by
    rw [waitings, List.filter_eq_nil_iff]
    intro e he hwaiting
    have hmem := List.mem_map_of_mem (f := s.status) he
    rw [hstatus, of_decide_eq_true hwaiting] at hmem
    simp at hmem
  have hsame := hdrains.left
  rw [hleft, hnone] at hsame
  cases hsame

end ScoutingComputer.Bluetooth
