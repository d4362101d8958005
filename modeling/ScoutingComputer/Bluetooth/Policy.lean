import Mathlib.Data.List.InsertIdx
import ScoutingComputer.Bluetooth.Execution

/-! Whether it can be observed on what a transfer runs.

`State.observed` is what of a state does not name the execution itself: the tablets
without their call types and futures but with whether the transfer of each has run, the
database and the sockets that were closed. -/
namespace ScoutingComputer.Bluetooth
open Socket
open Machine (bind_eq_ok)

/-- The tablet without its call type and its future, and whether the transfer has run. -/
def BtTabObj.observed (tab : BtTabObj) : BtTabObj × Bool :=
  ({tab with
    callType := .CALLTYPE_DEFAULT
    currTrans := {tab.currTrans with data := none}},
   match tab.currTrans.data with
   | none => true
   | some task => match task.state with
     | .finished _ => true
     | _ => false)

/-- The tablets, the database and the calls of `closesocket`. -/
abbrev Observed := List (BtTabObj × Bool) × Table × List Nat

def State.observed (s : State) : Observed :=
  (s.connectedTablets.elements.map BtTabObj.observed, s.table, s.closed)

section
variable (server : Server) (parseJson : Text → Option Json) (readWholeFile : String → Text)

/-- The request of tablet `i` launches this transfer. -/
def Launches (visit : Visit) (info : TabletInfo) (t : Table) (transactionType : TransactionType)
    (transfer : OsProgram (Option (List UInt8) × Bool)) : Prop :=
  visit.Sends transactionType ∧
    (¬ transactionType < 0 ∧ transfer = internalRead ∨ ∃ data, transactionType < 0 ∧
      writeData server readWholeFile visit.selects transactionType info t = some data ∧ transfer = internalWrite data)

/-- The execution is one of the request: the answers are those of the whole transfer, and
a thread works on it when the policy and the choice give it one. -/
structure Execution.Fits (e : Execution) (visit : Visit) (info : TabletInfo) (t : Table)
    (answers : List Answer) : Prop where
  launched : ∀ transactionType transfer, Launches server readWholeFile visit info t transactionType transfer →
    (∃ data success, finish transfer answers = .ok (data, success)) ∧
      (launch e.callType e.async = .queued → e.schedule = [.started, .finished answers]) ∧
      (launch e.callType e.async = .deferred → e.schedule = [])
  idle : (∀ transactionType transfer, ¬ Launches server readWholeFile visit info t transactionType transfer) →
    e.schedule = []

/-- What is observed of it. -/
def State.outcome (visit : Visit) (answers : List Answer) (e : Execution) (i : Nat) (s : State) : Checked Observed :=
  (s.transact server parseJson readWholeFile visit answers e i).map observed

/-- Every execution of the request that comes to its end is observed alike. -/
def Unobservable (visit : Visit) (answers : List Answer) (i : Nat) (info : TabletInfo) (s : State) : Prop :=
  ∀ e₁ e₂ : Execution, e₁.Fits server readWholeFile visit info s.table answers →
    e₂.Fits server readWholeFile visit info s.table answers →
    s.outcome server parseJson readWholeFile visit answers e₁ i ≠ .error .blocked →
    s.outcome server parseJson readWholeFile visit answers e₂ i ≠ .error .blocked →
    s.outcome server parseJson readWholeFile visit answers e₁ i =
      s.outcome server parseJson readWholeFile visit answers e₂ i

/-- A request that launches a transfer launches a read with a known code, which succeeds
or throws. -/
def OnlyGoodReads (visit : Visit) (answers : List Answer) (info : TabletInfo) (t : Table) : Prop :=
  ∀ transactionType transfer, Launches server readWholeFile visit info t transactionType transfer →
    ∀ data success, finish transfer answers = .ok (data, success) → Receives transactionType ∧ success = true

end

section
variable {server : Server} {parseJson : Text → Option Json} {readWholeFile : String → Text} {answers : List Answer}
  {data : TransferData} {success left thread : Bool} {s : State} {i : Nat} {old : BtTabObj} {visit : Visit}
  {e : Execution} {base : BtTabObj} {task : Task}

/-! ### Requests that launch a transfer -/

/-- The tablet at its request, but for the call type and the task. -/
def launchBase (self : Pointer) (transactionType : TransactionType) (left : Bool) (old : BtTabObj) : BtTabObj :=
  {old with currTrans := ⟨some self, transactionType, none, false, left, decide (transactionType < 0)⟩}

variable {transactionType : TransactionType} {transfer : OsProgram (Option (List UInt8) × Bool)}

theorem Visit.Sends.under (h : visit.Sends transactionType) (e : Execution) (answers : List Answer) :
    (visit.under e answers).Sends transactionType :=
  ⟨h.readable, h.writable, h.code, h.notError, h.notClose⟩

theorem Launches.unique {info : TabletInfo} {t : Table} {other : TransactionType}
    {transfer' : OsProgram (Option (List UInt8) × Bool)}
    (h : Launches server readWholeFile visit info t transactionType transfer)
    (h' : Launches server readWholeFile visit info t other transfer') :
    other = transactionType ∧ transfer' = transfer := by
  obtain ⟨hsends, hlaunch⟩ := h
  obtain ⟨hsends', hlaunch'⟩ := h'
  cases hsends.unique hsends'.code
  refine ⟨rfl, ?_⟩
  obtain ⟨hpositive, rfl⟩ | ⟨data, hnegative, hdata, rfl⟩ := hlaunch
  · obtain ⟨_, rfl⟩ | ⟨_, hnegative, _⟩ := hlaunch'
    · rfl
    · exact absurd hnegative hpositive
  · obtain ⟨hpositive, _⟩ | ⟨data', _, hdata', rfl⟩ := hlaunch'
    · exact absurd hnegative hpositive
    · cases hdata.symm.trans hdata'
      rfl

/-- What `success` is at the request: set by a read, left by a write. -/
def leftSuccess (transactionType : TransactionType) (old : BtTabObj) : Bool :=
  !decide (transactionType < 0) || old.currTrans.success

/-- A request that launches a transfer sets the record, but for `success` of a write. -/
theorem Launches.request_eq {t : Table} (h : Launches server readWholeFile visit old.info t transactionType transfer)
    (self : Pointer) :
    request server readWholeFile visit self t old =
      .ok ((launchBase self transactionType (leftSuccess transactionType old) old).onTask
        (launched visit self old transfer) (launch old.callType visit.async) (leftSuccess transactionType old), false) := by
  obtain ⟨hsends, hlaunch⟩ := h
  obtain ⟨hpositive, rfl⟩ | ⟨bytes, hnegative, hdata, rfl⟩ := hlaunch
  · rw [hsends.request_reads server readWholeFile _ _ _ hpositive]
    unfold launchBase leftSuccess
    rw [decide_eq_false hpositive]
    rfl
  · have hwrites : Writes transactionType := by
      by_contra hnone
      rw [writeData_eq_none server readWholeFile hnone] at hdata
      cases hdata
    rw [hsends.request_writes server readWholeFile self t old hwrites hdata]
    unfold launchBase leftSuccess
    rw [decide_eq_true hnegative]
    rfl

theorem Launches.under {info : TabletInfo} {t : Table}
    (h : Launches server readWholeFile visit info t transactionType transfer) (e : Execution) (answers : List Answer) :
    Launches server readWholeFile (visit.under e answers) info t transactionType transfer :=
  ⟨h.1.under e answers, h.2⟩

theorem started_of_launches (hi : s.connectedTablets.elements[i]? = some old) (hfree : old.transactionState = false)
    (hlaunches : Launches server readWholeFile visit old.info s.table transactionType transfer)
    (hfinish : finish transfer answers = .ok (data, success))
    (hfits : e.Fits server readWholeFile visit old.info s.table answers) (thread : Bool)
    (hthread : launch e.callType e.async = if thread then .queued else .deferred) :
    Started server readWholeFile visit answers e i s old
      {launchBase (s.connectedTablets.pointer i) transactionType (leftSuccess transactionType old) old with
        callType := e.callType}
      (launched (visit.under e answers) (s.connectedTablets.pointer i) {old with callType := e.callType} transfer)
      data success (leftSuccess transactionType old) thread := by
  obtain ⟨_, hqueued, hdeferred⟩ := hfits.launched transactionType transfer hlaunches
  have hcalled : Launches server readWholeFile (visit.under e answers) {old with callType := e.callType}.info s.table
    transactionType transfer := hlaunches.under e answers
  refine ⟨hi, hfree, hcalled.request_eq (s.connectedTablets.pointer i), rfl, rfl, rfl, hfree, rfl, hfinish, ?_⟩
  show Stage answers data success _ thread e.schedule (launch e.callType e.async) _
  cases thread with
  | true =>
    rw [hthread, hqueued hthread]
    exact .queued
  | false =>
    rw [hthread, hdeferred hthread]
    exact .deferred

/-! ### What is observed -/

theorem observed_put {tab tab' : BtTabObj} (h : tab.observed = tab'.observed) (t : Table) (running : List Running) :
    (s.put i tab t running).observed = (s.put i tab' t running).observed := by
  have htablets : (s.connectedTablets.elements.modify i fun _ => tab).map BtTabObj.observed =
      (s.connectedTablets.elements.modify i fun _ => tab').map BtTabObj.observed := by
    apply List.ext_getElem?
    intro j
    simp only [List.getElem?_map, List.getElem?_modify]
    cases s.connectedTablets.elements[j]? with
    | none => rfl
    | some other =>
      by_cases hij : i = j
      · simp only [hij, if_true, Option.map_some, Option.map_eq_map, h]
      · simp only [hij, if_false, Option.map_some, Option.map_eq_map]
  exact congrArg (·, t, s.closed) htablets

theorem observed_killSocket {s s' : State} (h : s.observed = s'.observed) (deleteSock : Nat) :
    (s.killSocket deleteSock).1.observed = (s'.killSocket deleteSock).1.observed := by
  obtain ⟨htablets, hrest⟩ := Prod.mk.inj h
  obtain ⟨htable, hclosed⟩ := Prod.mk.inj hrest
  have hfind : ∀ tablets : List BtTabObj, tablets.findIdx? (·.socket = deleteSock) =
      (tablets.map BtTabObj.observed).findIdx? (·.1.socket = deleteSock) := by
    intro tablets
    rw [List.findIdx?_map]
    rfl
  unfold State.killSocket
  rw [hfind, hfind, htablets]
  cases (s'.connectedTablets.elements.map BtTabObj.observed).findIdx? (·.1.socket = deleteSock) with
  | none => exact h
  | some j =>
    show ((s.connectedTablets.elements.eraseIdx j).map BtTabObj.observed, s.table, s.closed ++ [deleteSock]) = _
    rw [← List.eraseIdx_map, htablets, htable, hclosed, List.eraseIdx_map]
    rfl

theorem killSocket_closed {tab : BtTabObj} (hi : s.connectedTablets.elements[i]? = some tab) :
    (s.killSocket tab.socket).1.closed = s.closed ++ [tab.socket] := by
  obtain ⟨_, _, _, _, hkill⟩ := killSocket_erases hi
  rw [hkill]
  rfl

/-! ### Reads that succeed -/

theorem settled_reads {inserts : Nat → Bool} {info : TabletInfo} {t : Table} {r : (BtTabObj → BtTabObj) × Table}
    (hreceives : Receives transactionType)
    (h : settled server parseJson inserts transactionType data success info t = .ok r) :
    ∃ info', r.1 = fun tab => {tab.taken success with info := info'} := by
  unfold settled at h
  rw [if_pos hreceives] at h
  split at h
  · cases h
    exact ⟨_, rfl⟩
  · cases h

theorem Stage.flag_true {ps : List Progress} {state : TaskState} {flag : Bool}
    (h : Stage answers data true true thread ps state flag) : flag = true := by
  cases h with
  | deferred => rfl
  | queued => rfl
  | running => rfl
  | finished => rfl

theorem outcome_reads (h : Started server readWholeFile visit answers e i s old base task data true true thread)
    (hreceives : Receives base.currTrans.transactionType) {tab : BtTabObj}
    (htab : (base.taken true).observed = (tab.taken true).observed) :
    s.outcome server parseJson readWholeFile visit answers e i =
      (settled server parseJson visit.inserts base.currTrans.transactionType data true base.info s.table).map
        fun r => (s.put i (r.1 tab) r.2 s.runningTransactions).observed := by
  obtain ⟨state, flag, hstage, hrequest⟩ := h.tested
  cases hstage.flag_true
  obtain ⟨state', flag', _, hgranted⟩ := h.granted parseJson hstage hrequest
  unfold State.outcome
  rw [hgranted]
  cases hsettled : settled server parseJson visit.inserts base.currTrans.transactionType data true base.info
      s.table with
  | error e => rfl
  | ok r =>
    obtain ⟨info, hinfo⟩ := settled_reads hreceives hsettled
    apply congrArg Except.ok
    apply observed_put
    rw [hinfo]
    exact congrArg (fun o : BtTabObj × Bool => ({o.1 with info := info}, o.2)) htab

/-! ### Requests that launch nothing -/

/-- The state that such a request makes, for a tablet with the call type of another. -/
def State.asked (i : Nat) (callType : SocketCallType) (old : BtTabObj) (record : TabTransaction) (closes : Bool)
    (s : State) : State :=
  State.put i {old with callType := callType, currTrans := record} s.table s.runningTransactions
    {s with closed := if closes then s.closed ++ [old.socket] else s.closed}

theorem observed_asked (callType : SocketCallType) (record : TabTransaction) (closes : Bool) :
    (s.asked i callType old record closes).observed = (s.asked i old.callType old record closes).observed := by
  apply observed_put
  rfl

theorem asked_getElem? (hi : s.connectedTablets.elements[i]? = some old) (callType : SocketCallType)
    (record : TabTransaction) (closes : Bool) :
    (s.asked i callType old record closes).connectedTablets.elements[i]? =
      some {old with callType := callType, currTrans := record} := by
  show (Buffer.modify _ _ _).elements[i]? = _
  rw [Buffer.modify_getElem?, if_pos rfl, hi]
  rfl

theorem handleTransResult_write {handling : Handling} {tab : BtTabObj} (hi : s.connectedTablets.elements[i]? = some tab)
    (hwrite : tab.currTrans.writeTransaction = true) :
    s.handleTransResult server parseJson handling (s.connectedTablets.pointer i) = .ok s := by
  unfold State.handleTransResult
  rw [tablet_pointer hi]
  simp only [bind, Except.bind, hwrite, if_true]
  rfl

theorem visit_unlaunched (hi : s.connectedTablets.elements[i]? = some old) (hfree : old.transactionState = false)
    (hbefore : e.beforeTest = []) {record : TabTransaction} {closes : Bool}
    (hrequest : request server readWholeFile (visit.under e answers) (s.connectedTablets.pointer i) s.table
      {old with callType := e.callType} = .ok ({old with callType := e.callType, currTrans := record}, closes)) :
    (s.call i e.callType).requestTransaction server readWholeFile i (visit.under e answers) =
      .ok (some (s.asked i e.callType old record closes)) := by
  have hcalled := State.call_getElem? hi e.callType
  have hempty : (visit.under e answers).beforeTest = [] := hbefore
  have hrecord : (s.call i e.callType).record i old.socket
      ({old with callType := e.callType, currTrans := record}, closes) = s.asked i e.callType old record closes := by
    simp only [State.record, State.call, State.asked, State.put, State.modify, Buffer.modify_modify]
    rfl
  rw [requestTransaction_eq server readWholeFile hcalled rfl hfree]
  show (request server readWholeFile (visit.under e answers) (s.connectedTablets.pointer i) s.table _ >>= _) = _
  rw [hrequest]
  simp only [bind, Except.bind, hempty]
  rw [hrecord]
  rfl

/-- A request without a transfer is refused, or asks for data that was there before. -/
theorem outcome_unlaunched (hi : s.connectedTablets.elements[i]? = some old) (hfree : old.transactionState = false)
    (hschedule : e.schedule = []) {record : TabTransaction} {closes : Bool}
    (hrequest : request server readWholeFile (visit.under e answers) (s.connectedTablets.pointer i) s.table
      {old with callType := e.callType} = .ok ({old with callType := e.callType, currTrans := record}, closes))
    (hparent : record.parent = some (s.connectedTablets.pointer i))
    (hwrite : (record.batmanTrans || !record.success) = false → record.writeTransaction = true) :
    s.outcome server parseJson readWholeFile visit answers e i =
      if (record.batmanTrans || !record.success) = true then
        .ok ((s.asked i old.callType old record closes).killSocket old.socket).1.observed
      else record.isReady.bind fun ready =>
        if ready then .ok (s.asked i old.callType old record closes).observed else .error .blocked := by
  obtain ⟨hbefore, hlater⟩ := List.append_eq_nil_iff.mp hschedule
  obtain ⟨htest, hready⟩ := List.append_eq_nil_iff.mp hbefore
  have hvisit := visit_unlaunched hi hfree htest hrequest
  have hat := asked_getElem? hi e.callType record closes
  unfold State.outcome
  by_cases hrefused : (record.batmanTrans || !record.success) = true
  · rw [if_pos hrefused]
    have hkill : (s.call i e.callType).visitConnection server parseJson readWholeFile
        (fun _ => visit.under e answers) i = .ok ((s.asked i e.callType old record closes).killSocket old.socket).1 :=
      (visitConnection_refused parseJson (fun _ => visit.under e answers) hvisit hat hrefused hparent).trans rfl
    rw [transact_visited e hkill fun s' hs' => by cases hs'; exact killSocket_running _ _]
    exact congrArg Except.ok (observed_killSocket (observed_asked e.callType record closes) old.socket)
  · rw [if_neg hrefused]
    have hgranted : (record.batmanTrans || !record.success) = false := eq_false_of_ne_true hrefused
    have hnothing : (s.asked i e.callType old record closes).progressAll i (visit.under e answers).beforeReady =
        .ok (s.asked i e.callType old record closes) := by
      show State.progressAll i e.beforeReady _ = _
      rw [hready]
      rfl
    have hpolls := visitConnection_polls parseJson (fun _ => visit.under e answers) hvisit hat hgranted hnothing hat rfl
    unfold TabTransaction.isReady at hpolls ⊢
    cases hdata : record.data with
    | none =>
      simp only [hdata] at hpolls ⊢
      rw [transact_visited e hpolls fun s' hs' => by cases hs']
      rfl
    | some task =>
      simp only [hdata] at hpolls ⊢
      cases hstate : task.state.ready with
      | true =>
        simp only [hstate, bind, Except.bind, if_true, handleTransResult_write hat (hwrite hgranted)] at hpolls
        rw [transact_visited e hpolls fun s' hs' => by cases hs'; rfl]
        exact congrArg Except.ok (observed_asked e.callType record closes)
      | false =>
        have hself : (s.asked i e.callType old record closes).tablet record.parent = .ok _ :=
          hparent ▸ tablet_pointer hat
        simp only [hstate, bind, Except.bind, Bool.false_eq_true, if_false, hself] at hpolls
        rw [transact_entered e hpolls rfl, hlater]
        have hslot : record.parent.elim 0 (·.slot) = i := by
          rw [hparent]
          rfl
        have hbusy := (changes_modify hat fun tab => {tab with transactionState := true}).getElem? hat
        have hentry : ∀ running, State.tablet (State.modify {s.asked i e.callType old record closes with
            runningTransactions := running} i fun tab => {tab with transactionState := true})
            (some ((s.asked i e.callType old record closes).connectedTablets.pointer i)) = .ok _ :=
          fun running => tablet_pointer hbusy
        unfold State.handleLater TabTransaction.isReady
        simp only [hslot, State.progressAll, List.foldlM_nil, Pure.pure, Except.pure, bind, Except.bind, hentry, hdata,
          hstate, Bool.false_eq_true, if_false]
        rfl

theorem outcome_error (hi : s.connectedTablets.elements[i]? = some old) (hfree : old.transactionState = false)
    {failure : Failure} (hread : ∀ self old, readTransactionData visit self old = .error failure) :
    s.outcome server parseJson readWholeFile visit answers e i = .error failure := by
  have hrequest : (s.call i e.callType).requestTransaction server readWholeFile i (visit.under e answers) =
      .error failure := by
    have herror : ∀ self old, readTransactionData (visit.under e answers) self old = .error failure := hread
    rw [requestTransaction_eq server readWholeFile (State.call_getElem? hi e.callType) rfl hfree,
      request_error server readWholeFile _ _ _ (herror _ _)]
    rfl
  have hvisit : (s.call i e.callType).visitConnection server parseJson readWholeFile
      (fun _ => visit.under e answers) i = .error failure := by
    unfold State.visitConnection
    rw [hrequest]
    rfl
  unfold State.outcome
  rw [transact_visited e hvisit fun s' hs' => by cases hs']
  rfl

/-- A request that launches nothing is observed alike under all executions. -/
theorem unlaunched_alike (hi : s.connectedTablets.elements[i]? = some old) (hfree : old.transactionState = false)
    (hnone : ∀ transactionType transfer,
      ¬ Launches server readWholeFile visit old.info s.table transactionType transfer)
    {e₁ e₂ : Execution} (h₁ : e₁.schedule = []) (h₂ : e₂.schedule = []) :
    s.outcome server parseJson readWholeFile visit answers e₁ i =
      s.outcome server parseJson readWholeFile visit answers e₂ i := by
  obtain hcloses | ⟨transactionType, hsends⟩ | ⟨failure, herror⟩ := visit.kinds
  · obtain ⟨transactionType, htype, hread⟩ := hcloses.read
    have hrequest : ∀ e : Execution, request server readWholeFile (visit.under e answers) (s.connectedTablets.pointer i)
        s.table {old with callType := e.callType} = .ok ({old with
          callType := e.callType
          currTrans := {old.currTrans with
            parent := some (s.connectedTablets.pointer i)
            transactionType := transactionType
            success := false
            batmanTrans := true
            writeTransaction := false}}, true) := by
      intro e
      obtain ⟨_, _, hread⟩ := hread (s.connectedTablets.pointer i) {old with callType := e.callType}
      exact request_closes server readWholeFile _ s.table _ htype hread
    rw [outcome_unlaunched hi hfree h₁ (hrequest e₁) rfl (fun h => by cases h),
      outcome_unlaunched hi hfree h₂ (hrequest e₂) rfl (fun h => by cases h)]
  · have hnegative : transactionType < 0 := by
      by_contra hpositive
      exact hnone transactionType _ ⟨hsends, .inl ⟨hpositive, rfl⟩⟩
    have hwrites : ¬ Writes transactionType := by
      intro hwrites
      obtain ⟨data, hdata⟩ := writeData_of_writes server readWholeFile hwrites visit.selects old.info s.table
      exact hnone transactionType _ ⟨hsends, .inr ⟨data, hnegative, hdata, rfl⟩⟩
    have hrequest : ∀ e : Execution, request server readWholeFile (visit.under e answers) (s.connectedTablets.pointer i)
        s.table {old with callType := e.callType} = _ := fun e =>
      (hsends.under e answers).request_ignored server readWholeFile _ _ _ hnegative hwrites
    rw [outcome_unlaunched hi hfree h₁ (hrequest e₁) rfl fun _ => rfl,
      outcome_unlaunched hi hfree h₂ (hrequest e₂) rfl fun _ => rfl]
  · rw [outcome_error hi hfree herror, outcome_error hi hfree herror]

/-! ### Which transactions show their execution -/

/-- Reads that succeed or throw are observed alike under all executions. -/
theorem reads_alike (hi : s.connectedTablets.elements[i]? = some old) (hfree : old.transactionState = false)
    (hlaunches : Launches server readWholeFile visit old.info s.table transactionType transfer)
    (hreceives : Receives transactionType) (hfinish : finish transfer answers = .ok (data, true))
    (hfits : e.Fits server readWholeFile visit old.info s.table answers) :
    s.outcome server parseJson readWholeFile visit answers e i =
      (settled server parseJson visit.inserts transactionType data true old.info s.table).map fun r =>
        (s.put i (r.1 (launchBase (s.connectedTablets.pointer i) transactionType true old)) r.2
          s.runningTransactions).observed := by
  have hleft : leftSuccess transactionType old = true := by
    unfold leftSuccess
    rw [decide_eq_false hreceives.positive]
    rfl
  have hthread : ∃ thread : Bool, launch e.callType e.async = if thread then .queued else .deferred := by
    obtain hdeferred | hqueued := launch_cases e.callType e.async
    · exact ⟨false, hdeferred⟩
    · exact ⟨true, hqueued⟩
  obtain ⟨thread, hthread⟩ := hthread
  have hstarted := started_of_launches hi hfree hlaunches hfinish hfits thread hthread
  rw [hleft] at hstarted
  exact outcome_reads hstarted hreceives rfl

/-- A transfer that runs when it is asked for. -/
def Execution.whenAsked : Execution := ⟨.CALLTYPE_DEFERRED, false, [], [], []⟩

/-- A thread that takes the first `n` of its steps before the test, and the others after
the frame. -/
def Execution.onThread (answers : List Answer) (n : Nat) : Execution :=
  ⟨.CALLTYPE_ASYNCHRONOUS, true, [.started, .finished answers].take n, [], [.started, .finished answers].drop n⟩

theorem whenAsked_fits {info : TabletInfo} {t : Table}
    (hlaunches : Launches server readWholeFile visit info t transactionType transfer)
    (hfinish : finish transfer answers = .ok (data, success)) :
    Execution.whenAsked.Fits server readWholeFile visit info t answers := by
  refine ⟨fun other transfer' hother => ⟨⟨data, success, ?_⟩, fun hqueued => ?_, fun _ => rfl⟩, fun _ => rfl⟩
  · rw [(hlaunches.unique hother).2]
    exact hfinish
  · cases hqueued

theorem onThread_fits {info : TabletInfo} {t : Table}
    (hlaunches : Launches server readWholeFile visit info t transactionType transfer)
    (hfinish : finish transfer answers = .ok (data, success)) (n : Nat) :
    (Execution.onThread answers n).Fits server readWholeFile visit info t answers := by
  refine ⟨fun other transfer' hother => ⟨⟨data, success, ?_⟩, fun _ => ?_, fun hdeferred => ?_⟩, fun hnone => ?_⟩
  · rw [(hlaunches.unique hother).2]
    exact hfinish
  · show List.take n _ ++ [] ++ List.drop n _ = _
    rw [List.append_nil, List.take_append_drop]
  · cases hdeferred
  · exact absurd hlaunches (hnone _ _)

variable (parseJson) in
/-- A tablet that is removed has its socket closed. -/
theorem Started.removed (h : Started server readWholeFile visit answers e i s old base task data success left thread)
    {state : TaskState}
    (hrequest : (s.call i e.callType).requestTransaction server readWholeFile i (visit.under e answers) =
      .ok (some (s.put i (base.onTask task state false) s.table s.runningTransactions))) :
    ∃ o, s.outcome server parseJson readWholeFile visit answers e i = .ok o ∧ o.2.2 = s.closed ++ [base.socket] := by
  unfold State.outcome
  rw [h.refused parseJson hrequest]
  have hclosed := killSocket_closed (State.put_getElem? h.connected (base.onTask task state false) s.table
    s.runningTransactions)
  exact ⟨_, rfl, hclosed⟩

theorem settled_ne_blocked {inserts : Nat → Bool} {info : TabletInfo} {t : Table} :
    settled server parseJson inserts transactionType data success info t ≠ .error .blocked := by
  intro h
  unfold settled at h
  split at h
  · split at h
    · cases h
    · cases h
  · cases h

variable (parseJson) in
/-- One that is not removed keeps it open, and unless its value is asked for the record
says whether a thread has run it. -/
theorem Started.kept (h : Started server readWholeFile visit answers e i s old base task data success left thread)
    {state : TaskState} (hstage : Stage answers data success left thread (e.beforeReady ++ e.later) state true)
    (hrequest : (s.call i e.callType).requestTransaction server readWholeFile i (visit.under e answers) =
      .ok (some (s.put i (base.onTask task state true) s.table s.runningTransactions))) :
    s.outcome server parseJson readWholeFile visit answers e i ≠ .error .blocked ∧
      (∀ o, s.outcome server parseJson readWholeFile visit answers e i = .ok o → o.2.2 = s.closed) ∧
      (¬ Receives base.currTrans.transactionType → ∃ o,
        s.outcome server parseJson readWholeFile visit answers e i = .ok o ∧ o.1[i]?.map (·.2) = some thread) := by
  obtain ⟨state', flag', hstage', hgranted⟩ := h.granted parseJson hstage hrequest
  unfold State.outcome
  rw [hgranted]
  refine ⟨fun hblocked => ?_, fun o ho => ?_, fun hnot => ?_⟩
  · cases hsettled : settled server parseJson visit.inserts base.currTrans.transactionType data success base.info
        s.table with
    | error failure =>
      rw [hsettled] at hblocked
      cases hblocked
      exact settled_ne_blocked hsettled
    | ok r =>
      rw [hsettled] at hblocked
      cases hblocked
  · cases hsettled : settled server parseJson visit.inserts base.currTrans.transactionType data success base.info
        s.table with
    | error failure =>
      rw [hsettled] at ho
      cases ho
    | ok r =>
      rw [hsettled] at ho
      cases ho
      rfl
  · have hat := State.put_getElem? h.connected (base.onTask task state' flag') s.table s.runningTransactions
    unfold settled
    rw [if_neg hnot]
    refine ⟨_, rfl, ?_⟩
    show ((State.put i (base.onTask task state' flag') s.table s.runningTransactions s).connectedTablets.elements.map
      BtTabObj.observed)[i]?.map (·.2) = some thread
    rw [List.getElem?_map, hat]
    cases hstage' with
    | deferred => rfl
    | finished => rfl

/-- A transfer that is not a read that succeeds shows on what it was run. -/
theorem bad_observable (hi : s.connectedTablets.elements[i]? = some old) (hfree : old.transactionState = false)
    (hlaunches : Launches server readWholeFile visit old.info s.table transactionType transfer)
    (hfinish : finish transfer answers = .ok (data, success)) (hbad : ¬ (Receives transactionType ∧ success = true)) :
    ¬ Unobservable server parseJson readWholeFile visit answers i old.info s := by
  intro hsame
  have haskedFits := whenAsked_fits hlaunches hfinish
  have hthreadFits := onThread_fits hlaunches hfinish
  have hasked := started_of_launches hi hfree hlaunches hfinish haskedFits false rfl
  have hthread := fun n => started_of_launches hi hfree hlaunches hfinish (hthreadFits n) true rfl
  have hdiffer : ∀ o : Observed, o.2.2 = s.closed → o.2.2 ≠ s.closed ++ [old.socket] := by
    intro o hopen hclosed
    rw [hopen] at hclosed
    exact List.cons_ne_nil _ _ (List.self_eq_append_right.mp hclosed)
  obtain ⟨state, flag, hstage, hrequest⟩ := hasked.tested
  cases hstage
  cases hleft : leftSuccess transactionType old with
  | true =>
    rw [hleft] at hasked hthread hrequest
    obtain ⟨hends, hopen, hrun⟩ := hasked.kept parseJson .deferred hrequest
    by_cases hreceives : Receives transactionType
    · -- the thread has failed when the frame tests the request
      cases eq_false_of_ne_true fun hsuccess => hbad ⟨hreceives, hsuccess⟩
      obtain ⟨state', flag', hstage', hrequest'⟩ := (hthread 2).tested
      have hfailed : Stage answers data false true true [] state' flag' := hstage'
      cases hfailed
      obtain ⟨o, ho, hclosed⟩ := (hthread 2).removed parseJson hrequest'
      have halike := hsame _ _ haskedFits (hthreadFits 2) hends fun h => by cases ho.symm.trans h
      exact hdiffer o (hopen o (halike.trans ho)) hclosed
    · -- the value of the transfer is not asked for
      obtain ⟨state', flag', hstage', hrequest'⟩ := (hthread 0).tested
      have hwaits : Stage answers data success true true [.started, .finished answers] state' flag' := hstage'
      cases hwaits
      obtain ⟨hends', _, hrun'⟩ := (hthread 0).kept parseJson .queued hrequest'
      obtain ⟨o, ho, hnot⟩ := hrun hreceives
      obtain ⟨o', ho', hdone⟩ := hrun' hreceives
      have halike := hsame _ _ haskedFits (hthreadFits 0) hends hends'
      cases ho.symm.trans (halike.trans ho')
      cases hnot.symm.trans hdone
  | false =>
    -- the frame tests what an earlier transaction has left, unless the thread has begun
    rw [hleft] at hasked hthread hrequest
    obtain ⟨o, ho, hclosed⟩ := hasked.removed parseJson hrequest
    obtain ⟨state', flag', hstage', hrequest'⟩ := (hthread 1).tested
    have hbegun : Stage answers data success false true [.finished answers] state' flag' := hstage'
    cases hbegun
    obtain ⟨hends', hopen', _⟩ := (hthread 1).kept parseJson .running hrequest'
    have halike := hsame _ _ haskedFits (hthreadFits 1) (fun h => by cases ho.symm.trans h) hends'
    exact hdiffer o (hopen' o (halike.symm.trans ho)) hclosed

end

/-- **The launch policy cannot be observed** exactly when the request launches no transfer
or a read with a known code that succeeds or throws. -/
theorem launch_policy_iff (server : Server) (parseJson : Text → Option Json) (readWholeFile : String → Text)
    (visit : Visit) (answers : List Answer) (s : State) (i : Nat) (old : BtTabObj)
    (hi : s.connectedTablets.elements[i]? = some old) (hfree : old.transactionState = false) :
    Unobservable server parseJson readWholeFile visit answers i old.info s ↔
      OnlyGoodReads server readWholeFile visit answers old.info s.table := by
  constructor
  · intro hsame transactionType transfer hlaunches data success hfinish
    by_contra hbad
    exact bad_observable hi hfree hlaunches hfinish hbad hsame
  · intro hgood e₁ e₂ h₁ h₂ _ _
    by_cases hlaunches : ∃ transactionType transfer,
        Launches server readWholeFile visit old.info s.table transactionType transfer
    · obtain ⟨transactionType, transfer, hlaunches⟩ := hlaunches
      obtain ⟨⟨data, success, hfinish⟩, _⟩ := h₁.launched transactionType transfer hlaunches
      obtain ⟨hreceives, rfl⟩ := hgood transactionType transfer hlaunches data success hfinish
      rw [reads_alike hi hfree hlaunches hreceives hfinish h₁, reads_alike hi hfree hlaunches hreceives hfinish h₂]
    · push Not at hlaunches
      exact unlaunched_alike hi hfree hlaunches (h₁.idle hlaunches) (h₂.idle hlaunches)

/-- A tablet sends a code. -/
def asks (code : UInt8) : Visit :=
  { readable := true
    readableAgain := true
    writable := true
    code := [.getTime 0, .malloc true, .recv (.bytes [code]) 0 0]
    async := true
    selects := fun _ => true
    beforeTest := []
    beforeReady := []
    waited := []
    inserts := fun _ => true }

/-- The transfer of a name of one byte. -/
def readsName : List Answer :=
  [.malloc true, .send (.count 3), .getTime 0, .malloc true, .recv (.bytes [1, 0, 0, 0]) 0 0, .malloc true,
    .send (.count 3), .getTime 0, .malloc true, .recv (.bytes [65]) 0 0]

theorem asks_sends {code : UInt8} {transactionType : TransactionType} (hcode : code.toInt8 = transactionType)
    (herror : transactionType ≠ TRANS_SOCKET_ERROR) (hclose : transactionType ≠ TRANS_CLOSE_SOCKET) :
    (asks code).Sends transactionType :=
  ⟨rfl, rfl, hcode ▸ rfl, herror, hclose⟩

theorem launch_policy_iff_name :
    ∃ s old, Machine.run (step plainServer (fun _ => none) fun _ => []) (emptyState ⟨[], 0⟩) [joins 10 1] = some s ∧
      s.connectedTablets.elements[0]? = some old ∧
      Unobservable plainServer (fun _ => none) (fun _ => []) (asks 2) readsName 0 old.info s := by
  refine ⟨_, _, rfl, rfl, (launch_policy_iff plainServer (fun _ => none) (fun _ => []) (asks 2) readsName _ 0 _
    rfl rfl).mpr ?_⟩
  intro transactionType transfer hlaunches data success hfinish
  obtain ⟨rfl, rfl⟩ := Launches.unique ⟨asks_sends rfl (by decide) (by decide), .inl ⟨by decide, rfl⟩⟩ hlaunches
  have hname : finish internalRead readsName = .ok (.ok (some [65]), true) := by decide +kernel
  obtain ⟨_, hsuccess⟩ := Prod.mk.inj (Except.ok.inj (hname.symm.trans hfinish))
  exact ⟨.inr (.inl rfl), hsuccess.symm⟩

/-- The hash of the files is asked for: a thread sends it, and a deferred task does not. -/
theorem deferred_write_never_runs :
    ∃ s old, Machine.run (step plainServer (fun _ => none) fun _ => []) (emptyState ⟨[], 0⟩) [joins 10 1] = some s ∧
      s.connectedTablets.elements[0]? = some old ∧
      ¬ Unobservable plainServer (fun _ => none) (fun _ => []) (asks 255) [.send (.count 4), .malloc false] 0
        old.info s := by
  have hfails : ∀ bytes, finish (internalWrite bytes) [.send (.count 4), .malloc false] = .ok (.ok none, false) :=
    fun _ => rfl
  refine ⟨_, _, rfl, rfl, bad_observable rfl rfl ⟨asks_sends rfl (by decide) (by decide), .inr ⟨_, by decide, rfl, rfl⟩⟩
    (hfails _) ?_⟩
  rintro ⟨_, hsuccess⟩
  cases hsuccess

end ScoutingComputer.Bluetooth
