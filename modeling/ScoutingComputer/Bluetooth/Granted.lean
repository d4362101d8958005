import ScoutingComputer.Bluetooth.Policy
import ScoutingComputer.Bluetooth.Results

/-! What one visit makes of a tablet that waits.

A tablet that asks to close is removed (`Visit.Leaves`). Any other request goes through,
and leaves the tablet connected, exactly when its code is read and it has not failed at
the test of `success`, and its result can be handled if it is handled at once (`Acts`).
Everything else ends the frame or removes a tablet that has not asked for it
(`visitConnection_inv`). -/
namespace ScoutingComputer.Bluetooth
open Socket
open Machine (bind_eq_ok)

/-! ### The thread of a task -/

/-- How far a thread gets with these steps: the state of its task, and `success`, which
was `left` when the task was launched. -/
inductive Reaches (transfer : OsProgram (Option (List UInt8) × Bool)) (start : TaskState) (left : Bool) :
    List Progress → TaskState → Bool → Prop where
  | rests : Reaches transfer start left [] start left
  | begins (hstart : start = .queued) : Reaches transfer start left [.started] .running true
  | ends {answers : List Answer} {data : TransferData} {success : Bool} (hstart : start = .queued)
    (hfinish : finish transfer answers = .ok (data, success)) :
    Reaches transfer start left [.started, .finished answers] (.finished data) success

section
variable {s s' : State} {i : Nat} {old : BtTabObj}

theorem progressAll_append (i : Nat) (a b : List Progress) (s : State) :
    s.progressAll i (a ++ b) = s.progressAll i a >>= State.progressAll i b := List.foldlM_append ..

theorem progressAll_cons_iff {p : Progress} {ps : List Progress} :
    s.progressAll i (p :: ps) = .ok s' ↔ ∃ s₁, s.progress i p = .ok s₁ ∧ s₁.progressAll i ps = .ok s' := by
  unfold State.progressAll
  rw [List.foldlM_cons]
  cases s.progress i p with
  | error e => simp [bind, Except.bind]
  | ok s₁ => simp [bind, Except.bind]

theorem progressAll_nil_iff : s.progressAll i [] = .ok s' ↔ s' = s := by
  simp only [State.progressAll, List.foldlM_nil, pure, Except.pure, Except.ok.injEq]
  exact eq_comm

/-- One step of the thread. -/
theorem progress_put_iff (hi : s.connectedTablets.elements[i]? = some old) (base : BtTabObj) {task : Task}
    (hself : task.self = s.connectedTablets.pointer i) (state : TaskState) (flag : Bool) (t : Table)
    (running : List Running) (p : Progress) :
    (s.put i (base.onTask task state flag) t running).progress i p = .ok s' ↔
      (p = .started ∧ state = .queued ∧ s' = s.put i (base.onTask task .running true) t running) ∨
      ∃ answers data success, p = .finished answers ∧ state = .running ∧
        finish task.transfer answers = .ok (data, success) ∧
        s' = s.put i (base.onTask task (.finished data) success) t running := by
  have hat := State.put_getElem? hi (base.onTask task state flag) t running
  have hblocked (h : (s.put i (base.onTask task state flag) t running).progress i p = .error .blocked) :
      ¬ (s.put i (base.onTask task state flag) t running).progress i p = .ok s' := by
    rw [h]
    simp
  cases p with
  | started =>
    cases state with
    | queued =>
      rw [progress_started hat rfl hself rfl, State.put_modify]
      simp only [Except.ok.injEq, eq_comm, true_and, reduceCtorEq, false_and, exists_false, or_false]
      rfl
    | deferred | running | finished =>
      refine iff_of_false (hblocked ?_) (by simp)
      unfold State.progress
      rw [hat]
      rfl
  | finished answers =>
    cases state with
    | running =>
      cases hfinish : finish task.transfer answers with
      | error e =>
        refine iff_of_false ?_ (by simp [hfinish])
        unfold State.progress
        rw [hat]
        simp only [Option.bind_some, BtTabObj.onTask, hfinish, bind, Except.bind, reduceCtorEq, not_false_eq_true]
      | ok result =>
        rw [progress_finished hat rfl hself rfl hfinish, State.put_modify]
        constructor
        · intro h
          exact .inr ⟨answers, _, _, rfl, rfl, hfinish, (Except.ok.inj h).symm⟩
        · rintro (⟨hfalse, _⟩ | ⟨answers', data, success, hsame, _, hfinish', rfl⟩)
          · cases hfalse
          · cases hsame
            cases hfinish.symm.trans hfinish'
            rfl
    | deferred | queued | finished =>
      refine iff_of_false (hblocked ?_) (by simp)
      unfold State.progress
      rw [hat]
      rfl

/-- The steps of the thread go through exactly when it gets that far. -/
theorem progressAll_reaches (hi : s.connectedTablets.elements[i]? = some old) (base : BtTabObj) {task : Task}
    (hself : task.self = s.connectedTablets.pointer i) (hstart : task.state = .deferred ∨ task.state = .queued)
    (left : Bool) (t : Table) (running : List Running) (ps : List Progress) :
    (s.put i (base.onTask task task.state left) t running).progressAll i ps = .ok s' ↔
      ∃ state success, Reaches task.transfer task.state left ps state success ∧
        s' = s.put i (base.onTask task state success) t running := by
  constructor
  · intro h
    cases ps with
    | nil => exact ⟨_, _, .rests, progressAll_nil_iff.mp h⟩
    | cons p ps =>
      obtain ⟨s₁, h₁, h₂⟩ := progressAll_cons_iff.mp h
      rcases (progress_put_iff hi base hself _ _ t running p).mp h₁ with ⟨rfl, hqueued, rfl⟩ | ⟨_, _, _, _, hrunning, _⟩
      · cases ps with
        | nil => exact ⟨_, _, .begins hqueued, progressAll_nil_iff.mp h₂⟩
        | cons p ps =>
          obtain ⟨s₂, h₂, h₃⟩ := progressAll_cons_iff.mp h₂
          rcases (progress_put_iff hi base hself _ _ t running p).mp h₂ with
            ⟨_, hfalse, _⟩ | ⟨answers, data, success, rfl, _, hfinish, rfl⟩
          · cases hfalse
          · cases ps with
            | nil => exact ⟨_, _, .ends hqueued hfinish, progressAll_nil_iff.mp h₃⟩
            | cons p ps =>
              obtain ⟨s₃, h₃, _⟩ := progressAll_cons_iff.mp h₃
              rcases (progress_put_iff hi base hself _ _ t running p).mp h₃ with ⟨_, hfalse, _⟩ | ⟨_, _, _, _, hfalse, _⟩
              · cases hfalse
              · cases hfalse
      · rcases hstart with hstart | hstart <;> cases hstart.symm.trans hrunning
  · rintro ⟨state, success, hreaches, rfl⟩
    have hone {state : TaskState} (hqueued : state = .queued) (flag : Bool) :
        (s.put i (base.onTask task state flag) t running).progress i .started =
          .ok (s.put i (base.onTask task .running true) t running) :=
      (progress_put_iff hi base hself _ _ t running _).mpr (.inl ⟨rfl, hqueued, rfl⟩)
    cases hreaches with
    | rests => rfl
    | begins hqueued =>
      rw [progressAll_cons_iff]
      exact ⟨_, hone hqueued left, rfl⟩
    | ends hqueued hfinish =>
      rw [progressAll_cons_iff]
      refine ⟨_, hone hqueued left, progressAll_cons_iff.mpr ⟨_, ?_, rfl⟩⟩
      exact (progress_put_iff hi base hself _ _ t running _).mpr (.inr ⟨_, _, _, rfl, rfl, hfinish, rfl⟩)

end

/-! ### Requests -/

/-- The code is asked for: the tablet is still readable, and writable too. -/
def Visit.readsCode (visit : Visit) : Bool := visit.readableAgain && visit.writable

/-- The code is one that the conductor closes the socket for. -/
def Visit.asksToClose (visit : Visit) : Bool :=
  match getTransactionType visit.code with
  | .done transactionType [] => transactionType = TRANS_SOCKET_ERROR ∨ transactionType = TRANS_CLOSE_SOCKET
  | _ => false

/-- The tablet asks to close, or its code cannot be received. -/
structure Visit.Leaves (visit : Visit) : Prop where
  readsCode : visit.readsCode = true
  asks : visit.asksToClose = true
  noThread : visit.beforeTest = []

section
variable (server : Server) (parseJson : Text → Option Json) (readWholeFile : String → Text)

/-- The request launches a transfer, which has not failed at the test of `success`, and
this is its state when the data is asked for. -/
structure Tested (visit : Visit) (old : BtTabObj) (t : Table) (transactionType : TransactionType)
    (transfer : OsProgram (Option (List UInt8) × Bool)) (state : TaskState) (success : Bool) : Prop where
  launches : Launches server readWholeFile visit old.info t transactionType transfer
  test : ∃ state, Reaches transfer (launch old.callType visit.async) (leftSuccess transactionType old) visit.beforeTest
    state true
  poll : Reaches transfer (launch old.callType visit.async) (leftSuccess transactionType old)
    (visit.beforeTest ++ visit.beforeReady) state success

/-- The request of a tablet goes through and leaves the tablet connected. -/
inductive Acts (visit : Visit) (old : BtTabObj) (t : Table) : Table → Prop where
  /-- A code without a case: the record of the transaction before is looked at again. -/
  | ignored {transactionType : TransactionType} (hsends : visit.Sends transactionType) (hnegative : transactionType < 0)
    (hnone : ¬ Writes transactionType) (hgranted : old.refused = false) (hdata : old.currTrans.data ≠ none)
    (htest : visit.beforeTest = []) (hpoll : visit.beforeReady = []) : Acts visit old t t
  | enters {transactionType : TransactionType} {transfer : OsProgram (Option (List UInt8) × Bool)} {state : TaskState}
    {success : Bool} (htested : Tested server readWholeFile visit old t transactionType transfer state success)
    (hwaits : state.ready = false) : Acts visit old t t
  | noRead {transactionType : TransactionType} {transfer : OsProgram (Option (List UInt8) × Bool)} {state : TaskState}
    {success : Bool} (htested : Tested server readWholeFile visit old t transactionType transfer state success)
    (hready : state.ready = true) (hno : ¬ Receives transactionType) : Acts visit old t t
  /-- A read that is handled at once. -/
  | read {transactionType : TransactionType} {transfer : OsProgram (Option (List UInt8) × Bool)} {state : TaskState}
    {flag success : Bool} {value : Option (List UInt8)} {info : TabletInfo} {t' : Table}
    (htested : Tested server readWholeFile visit old t transactionType transfer state flag)
    (hreceives : Receives transactionType)
    (hyields : state = .finished (.ok value) ∧ flag = success ∨
      state = .deferred ∧ finish transfer visit.waited = .ok (.ok value, success))
    (hvalue : value = none → transactionType = TRANS_RECV_TABLET_INFO)
    (hstored : handleTransResult server parseJson visit.inserts ⟨transactionType, false, success, .ok value⟩ old.info t =
      .ok (info, t')) : Acts visit old t t'

end

theorem Visit.Closes.asks {visit : Visit} (h : visit.Closes) (hreads : visit.readsCode = true) :
    visit.asksToClose = true := by
  obtain ⟨hread, hwrite⟩ := (Bool.and_eq_true ..).mp hreads
  rcases h with hno | hno | ⟨transactionType, hcode, hcloses⟩
  · cases hread.symm.trans hno
  · cases hwrite.symm.trans hno
  · unfold Visit.asksToClose
    rw [hcode]
    exact decide_eq_true hcloses

theorem Visit.Leaves.closes {visit : Visit} (h : visit.Leaves) : visit.Closes := by
  have hasks := h.asks
  unfold Visit.asksToClose at hasks
  split at hasks
  · rename_i transactionType hcode
    exact .inr (.inr ⟨transactionType, hcode, of_decide_eq_true hasks⟩)
  · cases hasks

theorem Visit.Sends.not_asks {visit : Visit} {transactionType : TransactionType} (h : visit.Sends transactionType) :
    visit.readsCode = true ∧ visit.asksToClose = false := by
  constructor
  · rw [Visit.readsCode, h.readable, h.writable]
    rfl
  · unfold Visit.asksToClose
    rw [h.code]
    exact decide_eq_false (not_or.mpr ⟨h.notError, h.notClose⟩)

/-! ### Requests that launch a transfer -/

section
variable {server : Server} {parseJson : Text → Option Json} {readWholeFile : String → Text} {visits : Nat → Visit}
  {s s' : State} {i : Nat} {old : BtTabObj} {transactionType : TransactionType}
  {transfer : OsProgram (Option (List UInt8) × Bool)}

/-- The state with the transfer of tablet `i` this far. -/
def State.transferring (i : Nat) (visit : Visit) (transactionType : TransactionType)
    (transfer : OsProgram (Option (List UInt8) × Bool)) (old : BtTabObj) (state : TaskState) (success : Bool)
    (s : State) : State :=
  s.put i ((launchBase (s.connectedTablets.pointer i) transactionType (leftSuccess transactionType old) old).onTask
    (launched visit (s.connectedTablets.pointer i) old transfer) state success) s.table s.runningTransactions

theorem transferring_getElem? (hi : s.connectedTablets.elements[i]? = some old) (visit : Visit)
    (transactionType : TransactionType) (transfer : OsProgram (Option (List UInt8) × Bool)) (state : TaskState)
    (success : Bool) :
    (s.transferring i visit transactionType transfer old state success).connectedTablets.elements[i]? =
      some ((launchBase (s.connectedTablets.pointer i) transactionType (leftSuccess transactionType old) old).onTask
        (launched visit (s.connectedTablets.pointer i) old transfer) state success) :=
  State.put_getElem? hi _ _ _

theorem transferring_reaches (hi : s.connectedTablets.elements[i]? = some old) (visit : Visit) (ps : List Progress) :
    (s.transferring i visit transactionType transfer old (launch old.callType visit.async)
        (leftSuccess transactionType old)).progressAll i ps = .ok s' ↔
      ∃ state success, Reaches transfer (launch old.callType visit.async) (leftSuccess transactionType old) ps state
        success ∧ s' = s.transferring i visit transactionType transfer old state success :=
  progressAll_reaches hi (launchBase (s.connectedTablets.pointer i) transactionType (leftSuccess transactionType old) old)
    rfl (launch_cases old.callType visit.async) (leftSuccess transactionType old) s.table s.runningTransactions ps

theorem requestTransaction_launches {visit : Visit} (hi : s.connectedTablets.elements[i]? = some old)
    (hreadable : visit.readable = true) (hfree : old.transactionState = false)
    (hlaunches : Launches server readWholeFile visit old.info s.table transactionType transfer) :
    s.requestTransaction server readWholeFile i visit = do
      let s ← (s.transferring i visit transactionType transfer old (launch old.callType visit.async)
        (leftSuccess transactionType old)).progressAll i visit.beforeTest
      return some s := by
  rw [requestTransaction_eq server readWholeFile hi hreadable hfree, hlaunches.request_eq]
  rfl

variable (parseJson) in
/-- A request that has not failed at the test is looked at again. -/
theorem visitConnection_tested (hi : s.connectedTablets.elements[i]? = some old)
    (hreadable : (visits i).readable = true) (hfree : old.transactionState = false) {state : TaskState} {success : Bool}
    (h : Tested server readWholeFile (visits i) old s.table transactionType transfer state success) :
    s.visitConnection server parseJson readWholeFile visits i =
      let polled := s.transferring i (visits i) transactionType transfer old state success
      if state.ready then
        polled.handleTransResult server parseJson ⟨(visits i).inserts, (visits i).waited⟩ (s.connectedTablets.pointer i)
      else
        .ok (State.modify {polled with runningTransactions := s.runningTransactions ++
          [⟨s.connectedTablets.pointer i, old.connection⟩]} i fun tab => {tab with transactionState := true}) := by
  obtain ⟨hlaunches, ⟨state₁, htest⟩, hpoll⟩ := h
  have hfirst := (transferring_reaches hi (visits i) (visits i).beforeTest).mpr ⟨state₁, true, htest, rfl⟩
  have hboth := (transferring_reaches hi (visits i) _).mpr ⟨state, success, hpoll, rfl⟩
  rw [progressAll_append, hfirst] at hboth
  have hrequest : s.requestTransaction server readWholeFile i (visits i) =
      .ok (some (s.transferring i (visits i) transactionType transfer old state₁ true)) := by
    rw [requestTransaction_launches hi hreadable hfree hlaunches, hfirst]
    rfl
  have hat := transferring_getElem? hi (visits i) transactionType transfer state success
  have hparent : (s.transferring i (visits i) transactionType transfer old state success).tablet
      (some (s.connectedTablets.pointer i)) = .ok _ := tablet_pointer hat
  rw [visitConnection_polls parseJson visits hrequest
    (transferring_getElem? hi (visits i) transactionType transfer state₁ true) rfl hboth hat rfl]
  cases hready : state.ready with
  | true => simp only [BtTabObj.onTask, TabTransaction.isReady, bind, Except.bind, hready, if_true]; rfl
  | false =>
    simp only [launchBase, BtTabObj.onTask, TabTransaction.isReady, bind, Except.bind, hready, Bool.false_eq_true,
      if_false, hparent]
    rfl

/-! ### What becomes of the tablet -/

/-- Tablet `i` is removed, and nothing else changes. -/
structure Removes (i : Nat) (s s' : State) : Prop where
  tablets : s'.connectedTablets.elements = s.connectedTablets.elements.eraseIdx i
  table : s'.table = s.table
  accepted : s'.accepted = s.accepted

/-- Tablet `i` stays connected, with the code it sent in its record. -/
structure Stays (i : Nat) (old : BtTabObj) (transactionType : TransactionType) (s s' : State) : Prop where
  tablet : ∃ tab, s'.connectedTablets.elements = s.connectedTablets.elements.set i tab ∧ Same old tab ∧
    tab.currTrans.transactionType = transactionType
  accepted : s'.accepted = s.accepted

theorem Changes.set {tab : BtTabObj} (h : Changes s i tab s') :
    s'.connectedTablets.elements = s.connectedTablets.elements.set i tab := by
  rw [h.tablets, List.set_eq_modify]
  rfl

variable (parseJson) in
/-- A request that is refused removes its tablet. -/
theorem visitConnection_removes (hdistinct : Distinct s.connectedTablets.elements s.accepted)
    (hi : s.connectedTablets.elements[i]? = some old) {s₁ : State} {tab : BtTabObj}
    (hrequest : s.requestTransaction server readWholeFile i (visits i) = .ok (some s₁))
    (hchanges : Changes s i tab s₁) (htable : s₁.table = s.table) (hsame : Same old tab)
    (hparent : tab.currTrans.parent = some (s.connectedTablets.pointer i)) (hrefused : tab.refused = true) :
    ∃ s', s.visitConnection server parseJson readWholeFile visits i = .ok s' ∧ Removes i s s' := by
  have hat := hchanges.getElem? hi
  refine ⟨_, visitConnection_refused parseJson visits hrequest hat hrefused (hchanges.pointer ▸ hparent), ?_⟩
  have hdistinct₁ : Distinct s₁.connectedTablets.elements s.accepted := by
    rw [hchanges.tablets]
    exact hdistinct.modify hi hsame
  rw [killSocket_at hdistinct₁ hat]
  refine ⟨?_, htable, hchanges.accepted⟩
  show s₁.connectedTablets.elements.eraseIdx i = _
  rw [hchanges.set, List.eraseIdx_set_eq]

section
variable (hi : s.connectedTablets.elements[i]? = some old) (hreadable : (visits i).readable = true)
  (hfree : old.transactionState = false)
include hi hreadable hfree

variable (server parseJson readWholeFile) in
/-- A request that closes the socket: no thread may go on, and the tablet is removed. -/
theorem visitConnection_closes (hdistinct : Distinct s.connectedTablets.elements s.accepted)
    (hcloses : (visits i).Closes) (hnone : (visits i).beforeTest = []) :
    ∃ s', s.visitConnection server parseJson readWholeFile visits i = .ok s' ∧ Removes i s s' := by
  obtain ⟨transactionType, hrequest⟩ := hcloses.request_eq server readWholeFile (s.connectedTablets.pointer i) s.table old
  have hrequested := requestTransaction_eq server readWholeFile hi hreadable hfree
  rw [hrequest, hnone] at hrequested
  exact visitConnection_removes parseJson hdistinct hi hrequested (changes_record s i old.socket _) rfl ⟨rfl, rfl⟩ rfl
    rfl

/-- A code without a case that is granted: the data of the transaction before is ready. -/
theorem visitConnection_ignored (hidle : ∀ task, old.currTrans.data = some task → task.state.ready = true)
    (hsends : (visits i).Sends transactionType) (hnegative : transactionType < 0) (hnone : ¬ Writes transactionType)
    (hgranted : old.refused = false) (hdata : old.currTrans.data ≠ none) (htest : (visits i).beforeTest = [])
    (hpoll : (visits i).beforeReady = []) :
    ∃ s', s.visitConnection server parseJson readWholeFile visits i = .ok s' ∧ Stays i old transactionType s s' ∧
      s'.table = s.table := by
  obtain ⟨task, hdata⟩ := Option.ne_none_iff_exists'.mp hdata
  have hrequested := requestTransaction_eq server readWholeFile hi hreadable hfree
  rw [hsends.request_ignored server readWholeFile _ _ _ hnegative hnone, htest] at hrequested
  have hchanges := changes_record s i old.socket ({old with currTrans := {old.currTrans with
    parent := some (s.connectedTablets.pointer i)
    transactionType := transactionType
    writeTransaction := true}}, false)
  have hat := hchanges.getElem? hi
  refine ⟨s.record i old.socket ({old with currTrans := {old.currTrans with
    parent := some (s.connectedTablets.pointer i)
    transactionType := transactionType
    writeTransaction := true}}, false), ?_, ⟨⟨_, hchanges.set, ⟨rfl, rfl⟩, rfl⟩, rfl⟩, rfl⟩
  rw [visitConnection_polls parseJson visits hrequested hat hgranted (hpoll ▸ rfl) hat rfl]
  have hready : TabTransaction.isReady {old.currTrans with
      parent := some (s.connectedTablets.pointer i)
      transactionType := transactionType
      writeTransaction := true} = .ok true := by
    unfold TabTransaction.isReady
    simp only [hdata, hidle task hdata]
  simp only [hready, bind, Except.bind, if_true]
  exact handleTransResult_noRead server parseJson _ ((Buffer.deref_pointer _ i).trans hat) (.inl rfl)

omit hi hreadable hfree in
theorem transferring_changes (s : State) (i : Nat) (visit : Visit) (transactionType : TransactionType)
    (transfer : OsProgram (Option (List UInt8) × Bool)) (old : BtTabObj) (state : TaskState) (success : Bool) :
    Changes s i ((launchBase (s.connectedTablets.pointer i) transactionType (leftSuccess transactionType old) old).onTask
      (launched visit (s.connectedTablets.pointer i) old transfer) state success)
      (s.transferring i visit transactionType transfer old state success) := ⟨rfl, rfl, rfl⟩

omit hreadable hfree in
/-- The record of the request is the tablet's own, and so is the task. -/
theorem transferring_own (visit : Visit) (transactionType : TransactionType)
    (transfer : OsProgram (Option (List UInt8) × Bool)) (state : TaskState) (success : Bool) :
    Own (s.transferring i visit transactionType transfer old state success) (s.connectedTablets.pointer i)
      ((launchBase (s.connectedTablets.pointer i) transactionType (leftSuccess transactionType old) old).onTask
        (launched visit (s.connectedTablets.pointer i) old transfer) state success) := by
  refine ⟨(Buffer.deref_pointer _ i).trans (transferring_getElem? hi visit transactionType transfer state success), rfl,
    fun task htask => ?_⟩
  cases htask
  rfl

variable (parseJson) in
/-- A transfer that is not ready is entered. -/
theorem visitConnection_enters {state : TaskState} {success : Bool}
    (h : Tested server readWholeFile (visits i) old s.table transactionType transfer state success)
    (hwaits : state.ready = false) :
    ∃ s', s.visitConnection server parseJson readWholeFile visits i = .ok s' ∧ Stays i old transactionType s s' ∧
      s'.table = s.table := by
  rw [visitConnection_tested parseJson hi hreadable hfree h]
  simp only [hwaits, Bool.false_eq_true, if_false]
  refine ⟨_, rfl, ⟨⟨{(launchBase (s.connectedTablets.pointer i) transactionType (leftSuccess transactionType old)
    old).onTask (launched (visits i) (s.connectedTablets.pointer i) old transfer) state success with
      transactionState := true}, ?_, ⟨rfl, rfl⟩, rfl⟩, rfl⟩, rfl⟩
  have hset := (transferring_changes s i (visits i) transactionType transfer old state success).set
  have hbusy := (changes_modify (transferring_getElem? hi (visits i) transactionType transfer state success)
    fun tab => {tab with transactionState := true}).set
  rw [hset, List.set_set] at hbusy
  exact hbusy

/-- A result that is handled at once. -/
theorem visitConnection_handled {state : TaskState} {success : Bool} {tab : BtTabObj} {t' : Table}
    (h : Tested server readWholeFile (visits i) old s.table transactionType transfer state success)
    (hready : state.ready = true)
    (hhandled : Handled server parseJson (visits i).inserts (visits i).waited
      ((launchBase (s.connectedTablets.pointer i) transactionType (leftSuccess transactionType old) old).onTask
        (launched (visits i) (s.connectedTablets.pointer i) old transfer) state success) s.table tab t') :
    ∃ s', s.visitConnection server parseJson readWholeFile visits i = .ok s' ∧ Stays i old transactionType s s' ∧
      s'.table = t' := by
  have hown := transferring_own hi (visits i) transactionType transfer state success
  have hresult : (s.transferring i (visits i) transactionType transfer old state success).handleTransResult server
    parseJson ⟨(visits i).inserts, (visits i).waited⟩ (s.connectedTablets.pointer i) = _ :=
    handleTransResult_handled hown hhandled
  rw [visitConnection_tested parseJson hi hreadable hfree h]
  simp only [hready, if_true, hresult]
  obtain ⟨hconnection, hsocket, _, _, htype⟩ := hhandled.kept
  refine ⟨_, rfl, ⟨⟨tab, ?_, ⟨hsocket, hconnection⟩, htype⟩, rfl⟩, rfl⟩
  have hset := (transferring_changes s i (visits i) transactionType transfer old state success).set
  have hafter := (changes_modify (transferring_getElem? hi (visits i) transactionType transfer state success)
    fun _ => tab).set
  rw [hset, List.set_set] at hafter
  exact hafter

/-- What becomes of a tablet whose request goes through. -/
theorem visitConnection_acts (hidle : ∀ task, old.currTrans.data = some task → task.state.ready = true) {t' : Table}
    (h : Acts server parseJson readWholeFile (visits i) old s.table t') :
    ∃ s' transactionType, s.visitConnection server parseJson readWholeFile visits i = .ok s' ∧
      (visits i).Sends transactionType ∧ Stays i old transactionType s s' ∧ s'.table = t' := by
  cases h with
  | ignored hsends hnegative hnone hgranted hdata htest hpoll =>
    obtain ⟨s', hok, hstays, htable⟩ := visitConnection_ignored hi hreadable hfree hidle hsends hnegative hnone hgranted
      hdata htest hpoll
    exact ⟨s', _, hok, hsends, hstays, htable⟩
  | enters htested hwaits =>
    obtain ⟨s', hok, hstays, htable⟩ := visitConnection_enters parseJson hi hreadable hfree htested hwaits
    exact ⟨s', _, hok, htested.launches.1, hstays, htable⟩
  | noRead htested hready hno =>
    obtain ⟨s', hok, hstays, htable⟩ := visitConnection_handled hi hreadable hfree htested hready
      (.noRead (.inr hno))
    exact ⟨s', _, hok, htested.launches.1, hstays, htable⟩
  | @read _ _ state _ _ _ _ _ htested hreceives hyields hvalue hstored =>
    have hready : state.ready = true := by
      rcases hyields with ⟨hfinished, _⟩ | ⟨hdeferred, _⟩
      · exact hfinished ▸ rfl
      · exact hdeferred ▸ rfl
    obtain ⟨s', hok, hstays, htable⟩ := visitConnection_handled hi hreadable hfree htested hready
      (.read (decide_eq_false hreceives.positive) hreceives ⟨_, rfl, hyields⟩ hstored)
    exact ⟨s', _, hok, htested.launches.1, hstays, htable⟩

/-! ### What a visit that goes through has been -/

omit hreadable hfree in
theorem progressAll_idle (hidle : ∀ task, old.currTrans.data = some task → task.state.ready = true)
    {ps : List Progress} (h : s.progressAll i ps = .ok s') : ps = [] := by
  cases ps with
  | nil => rfl
  | cons p ps =>
    obtain ⟨s₁, h₁, _⟩ := progressAll_cons_iff.mp h
    cases (progress_blocked hi hidle p).symm.trans h₁

/-- The parts of a visit that goes through: the request and the thread, and, if the
request is granted, the thread again and the look at the data. -/
theorem visitConnection_parts {r : BtTabObj × Bool}
    (hrequest : request server readWholeFile (visits i) (s.connectedTablets.pointer i) s.table old = .ok r)
    (hok : s.visitConnection server parseJson readWholeFile visits i = .ok s') :
    ∃ s₁, (s.record i old.socket r).progressAll i (visits i).beforeTest = .ok s₁ ∧
      s.requestTransaction server readWholeFile i (visits i) = .ok (some s₁) ∧
      (s₁.refused i = false → ∃ s₂, s₁.progressAll i (visits i).beforeReady = .ok s₂ ∧
        ∃ tab ready, s₂.tablet (some (s₁.connectedTablets.pointer i)) = .ok tab ∧ tab.currTrans.isReady = .ok ready) := by
  have hrequested : s.requestTransaction server readWholeFile i (visits i) = (do
      let s ← (s.record i old.socket r).progressAll i (visits i).beforeTest
      return some s) := by
    rw [requestTransaction_eq server readWholeFile hi hreadable hfree, hrequest]
    rfl
  obtain ⟨requested, hsome, hok⟩ := bind_eq_ok hok
  obtain ⟨s₁, hprogress, hs₁⟩ := bind_eq_ok (hrequested.symm.trans hsome)
  cases hs₁
  refine ⟨s₁, hprogress, hsome, fun hgranted => ?_⟩
  obtain ⟨tab, _, hok⟩ := bind_eq_ok hok
  rw [hgranted] at hok
  obtain ⟨s₂, hpoll, hok⟩ := bind_eq_ok hok
  obtain ⟨tab', htab', hok⟩ := bind_eq_ok hok
  obtain ⟨ready, hready, _⟩ := bind_eq_ok hok
  exact ⟨s₂, hpoll, tab', ready, htab', hready⟩

/-- A request that closes the socket goes through where no thread goes on. -/
theorem visitConnection_closes_inv (hidle : ∀ task, old.currTrans.data = some task → task.state.ready = true)
    (hcloses : (visits i).Closes) (hok : s.visitConnection server parseJson readWholeFile visits i = .ok s') :
    (visits i).beforeTest = [] := by
  obtain ⟨transactionType, hrequest⟩ := hcloses.request_eq server readWholeFile (s.connectedTablets.pointer i) s.table old
  obtain ⟨s₁, hprogress, _⟩ := visitConnection_parts hi hreadable hfree hrequest hok
  exact progressAll_idle ((changes_record s i old.socket _).getElem? hi) hidle hprogress

/-- A code without a case goes through where no thread goes on; it is refused by what the
transaction before has left, or its data is looked at again. -/
theorem visitConnection_ignored_inv (hdistinct : Distinct s.connectedTablets.elements s.accepted)
    (hidle : ∀ task, old.currTrans.data = some task → task.state.ready = true)
    (hsends : (visits i).Sends transactionType) (hnegative : transactionType < 0) (hnone : ¬ Writes transactionType)
    (hok : s.visitConnection server parseJson readWholeFile visits i = .ok s') :
    Removes i s s' ∨ Acts server parseJson readWholeFile (visits i) old s.table s.table := by
  have hrequest := hsends.request_ignored server readWholeFile (s.connectedTablets.pointer i) s.table old hnegative hnone
  have hchanges := changes_record s i old.socket ({old with currTrans := {old.currTrans with
    parent := some (s.connectedTablets.pointer i)
    transactionType := transactionType
    writeTransaction := true}}, false)
  have hat := hchanges.getElem? hi
  obtain ⟨s₁, hprogress, hsome, hpolls⟩ := visitConnection_parts hi hreadable hfree hrequest hok
  have htest := progressAll_idle hat hidle hprogress
  rw [htest] at hprogress
  cases progressAll_nil_iff.mp hprogress
  cases hrefused : old.refused with
  | true =>
    obtain ⟨s₂, hok', hremoves⟩ := visitConnection_removes parseJson hdistinct hi hsome hchanges rfl ⟨rfl, rfl⟩ rfl
      hrefused
    cases hok.symm.trans hok'
    exact .inl hremoves
  | false =>
    obtain ⟨s₂, hpoll, tab, ready, htab, hready⟩ := hpolls ((refused_eq hat).trans hrefused)
    have hpoll' := progressAll_idle hat hidle hpoll
    rw [hpoll'] at hpoll
    cases progressAll_nil_iff.mp hpoll
    cases (tablet_pointer hat).symm.trans htab
    refine .inr (.ignored hsends hnegative hnone hrefused (fun hdata => ?_) htest hpoll')
    have hundefined : TabTransaction.isReady {old.currTrans with
        parent := some (s.connectedTablets.pointer i)
        transactionType := transactionType
        writeTransaction := true} = .error .undefined := by
      unfold TabTransaction.isReady
      simp only [hdata]
    cases hundefined.symm.trans hready

/-- A request that launches a transfer is refused when the transfer has failed at the
test; otherwise its result is looked at. -/
theorem visitConnection_launches_inv (hdistinct : Distinct s.connectedTablets.elements s.accepted)
    (hlaunches : Launches server readWholeFile (visits i) old.info s.table transactionType transfer)
    (hok : s.visitConnection server parseJson readWholeFile visits i = .ok s') :
    Removes i s s' ∨ ∃ state success, Tested server readWholeFile (visits i) old s.table transactionType transfer state
      success := by
  obtain ⟨s₁, hprogress, hsome, hpolls⟩ := visitConnection_parts hi hreadable hfree
    (hlaunches.request_eq (s.connectedTablets.pointer i)) hok
  obtain ⟨state, flag, htest, rfl⟩ := (transferring_reaches hi (visits i) _).mp hprogress
  have hat := transferring_getElem? hi (visits i) transactionType transfer state flag
  cases flag with
  | false =>
    obtain ⟨s₂, hok', hremoves⟩ := visitConnection_removes parseJson hdistinct hi hsome
      (transferring_changes s i (visits i) transactionType transfer old state false) rfl ⟨rfl, rfl⟩ rfl rfl
    cases hok.symm.trans hok'
    exact .inl hremoves
  | true =>
    obtain ⟨s₂, hpoll, _⟩ := hpolls ((refused_eq hat).trans rfl)
    have hboth : (s.transferring i (visits i) transactionType transfer old (launch old.callType (visits i).async)
        (leftSuccess transactionType old)).progressAll i ((visits i).beforeTest ++ (visits i).beforeReady) = .ok s₂ := by
      rw [progressAll_append]
      refine Eq.trans ?_ hpoll
      exact congrArg (· >>= State.progressAll i (visits i).beforeReady) hprogress
    obtain ⟨state', success, hreaches, _⟩ := (transferring_reaches hi (visits i) _).mp hboth
    exact .inr ⟨state', success, hlaunches, ⟨state, htest⟩, hreaches⟩

/-- Where the look at the result goes through, the request does. -/
theorem acts_of_tested {state : TaskState} {success : Bool}
    (h : Tested server readWholeFile (visits i) old s.table transactionType transfer state success)
    (hok : s.visitConnection server parseJson readWholeFile visits i = .ok s') :
    ∃ t', Acts server parseJson readWholeFile (visits i) old s.table t' := by
  rw [visitConnection_tested parseJson hi hreadable hfree h] at hok
  cases hready : state.ready with
  | false => exact ⟨_, .enters h hready⟩
  | true =>
    by_cases hreceives : Receives transactionType
    · simp only [hready, if_true] at hok
      have hown := transferring_own hi (visits i) transactionType transfer state success
      have hsettles : Settles ((launchBase (s.connectedTablets.pointer i) transactionType
          (leftSuccess transactionType old) old).onTask (launched (visits i) (s.connectedTablets.pointer i) old transfer)
          state success) (visits i).waited := by
        by_contra hno
        obtain ⟨failure, hstops⟩ : ∃ failure, _ = Except.error failure :=
          @handleTransResult_stops server parseJson _ _ _ ⟨(visits i).inserts, (visits i).waited⟩ _ hown rfl hready hno
        cases hstops.symm.trans hok
      rcases hsettles with hwrite | hno | ⟨value, success', ⟨task, htask, hyields⟩, hvalue⟩
      · cases (decide_eq_false hreceives.positive).symm.trans hwrite
      · exact absurd hreceives hno
      · cases htask
        obtain ⟨⟨info, t'⟩, hstored⟩ := handleTransResult_value server parseJson hreceives hvalue (visits i).inserts
          success' old.info s.table
        exact ⟨t', .read h hreceives hyields hvalue hstored⟩
    · exact ⟨_, .noRead h hready hreceives⟩

/-- A visit that goes through has removed the tablet, which has asked for it or not, or
the request has gone through. -/
theorem visitConnection_inv (hdistinct : Distinct s.connectedTablets.elements s.accepted)
    (hidle : ∀ task, old.currTrans.data = some task → task.state.ready = true)
    (hok : s.visitConnection server parseJson readWholeFile visits i = .ok s') :
    (visits i).Leaves ∧ Removes i s s' ∨
      (∃ t', Acts server parseJson readWholeFile (visits i) old s.table t') ∨
      Removes i s s' ∧ ((visits i).readsCode = false ∨ (visits i).asksToClose = false) := by
  obtain hcloses | ⟨transactionType, hsends⟩ | ⟨e, herror⟩ := (visits i).kinds
  · have hnone := visitConnection_closes_inv hi hreadable hfree hidle hcloses hok
    obtain ⟨s₂, hok', hremoves⟩ := visitConnection_closes server parseJson readWholeFile hi hreadable hfree hdistinct
      hcloses hnone
    cases hok.symm.trans hok'
    cases hreads : (visits i).readsCode with
    | true => exact .inl ⟨⟨hreads, hcloses.asks hreads, hnone⟩, hremoves⟩
    | false => exact .inr (.inr ⟨hremoves, .inl rfl⟩)
  · have hasks := hsends.not_asks.2
    by_cases hignored : transactionType < 0 ∧ ¬ Writes transactionType
    · obtain hremoves | hacts := visitConnection_ignored_inv hi hreadable hfree hdistinct hidle hsends hignored.1
        hignored.2 hok
      · exact .inr (.inr ⟨hremoves, .inr hasks⟩)
      · exact .inr (.inl ⟨_, hacts⟩)
    · obtain ⟨transfer, hlaunches⟩ : ∃ transfer,
          Launches server readWholeFile (visits i) old.info s.table transactionType transfer := by
        by_cases hnegative : transactionType < 0
        · obtain ⟨data, hdata⟩ := writeData_of_writes server readWholeFile (by_contra fun h => hignored ⟨hnegative, h⟩)
            (visits i).selects old.info s.table
          exact ⟨_, hsends, .inr ⟨data, hnegative, hdata, rfl⟩⟩
        · exact ⟨_, hsends, .inl ⟨hnegative, rfl⟩⟩
      obtain hremoves | ⟨state, success, htested⟩ := visitConnection_launches_inv hi hreadable hfree hdistinct hlaunches
        hok
      · exact .inr (.inr ⟨hremoves, .inr hasks⟩)
      · exact .inr (.inl (acts_of_tested hi hreadable hfree htested hok))
  · have hrequested := requestTransaction_eq server readWholeFile hi hreadable hfree
    rw [request_error server readWholeFile _ _ _ (herror _ _)] at hrequested
    obtain ⟨requested, hrequest, _⟩ := bind_eq_ok hok
    cases hrequested.symm.trans hrequest

end

end

end ScoutingComputer.Bluetooth
