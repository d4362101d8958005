import ScoutingComputer.Bluetooth.FailedRead
import ScoutingComputer.Bluetooth.Request

/-! One transaction, from the request to its handling.

A transfer that is deferred runs when its value is asked for; one that is given to a
thread goes on in steps of its own, before the frame tests the request, before the frame
asks for the data, or later. `State.transact` is the transaction under such an
`Execution`. `Started.refused` and `Started.granted` say how one ends that has launched a
transfer, wherever the steps of the thread fall. -/
namespace ScoutingComputer.Bluetooth
open Socket
open Machine (bind_eq_ok)

/-- How a transaction is executed. -/
structure Execution where
  callType : SocketCallType
  /-- The choice of `std::async` when the policy leaves one. -/
  async : Bool
  /-- What the thread of the task does before the test, before the data is asked for, and
  after that. -/
  beforeTest : List Progress
  beforeReady : List Progress
  later : List Progress

def Execution.schedule (e : Execution) : List Progress := e.beforeTest ++ e.beforeReady ++ e.later

/-- The request under this execution; a transfer that is waited for gets the answers. -/
def Visit.under (visit : Visit) (e : Execution) (answers : List Answer) : Visit :=
  {visit with
    readable := true
    async := e.async
    beforeTest := e.beforeTest
    beforeReady := e.beforeReady
    waited := answers}

section
variable (server : Server) (parseJson : Text → Option Json) (readWholeFile : String → Text)

namespace State

/-- Tablet `i` has this call type. -/
def call (i : Nat) (callType : SocketCallType) (s : State) : State :=
  s.modify i fun tab => {tab with callType := callType}

/-- The frame that handles a running transaction once it is ready. -/
def handleLater (visit : Visit) (answers : List Answer) (later : List Progress) (i : Nat) (entry : Running)
    (s : State) : Checked State := do
  let s ← s.progressAll i later
  let tab ← s.tablet (some entry.trans)
  let ready ← tab.currTrans.isReady
  if ready then s.handleEntry server parseJson ⟨visit.inserts, answers⟩ entry
  else .error .blocked

/-- The transaction that tablet `i` requests: the visit of the frame, and the handling of
its entry if it becomes a running transaction. -/
def transact (visit : Visit) (answers : List Answer) (e : Execution) (i : Nat) (s : State) : Checked State := do
  let visited ← (s.call i e.callType).visitConnection server parseJson readWholeFile (fun _ => visit.under e answers) i
  match visited.runningTransactions.drop s.runningTransactions.length with
  | [] => return visited
  | entry :: _ =>
    let handled ← visited.handleLater server parseJson visit answers e.later i entry
    return {handled with runningTransactions := s.runningTransactions}

end State

end

/-! ### A state with one tablet replaced -/

namespace State
variable {s : State} {i : Nat} {old : BtTabObj}

/-- The state with tablet `i`, the table and the running transactions replaced. -/
def put (i : Nat) (tab : BtTabObj) (t : Table) (running : List Running) (s : State) : State :=
  {s with
    connectedTablets := s.connectedTablets.modify i fun _ => tab
    table := t
    runningTransactions := running}

theorem put_modify (tab : BtTabObj) (t : Table) (running : List Running) (f : BtTabObj → BtTabObj) :
    (s.put i tab t running).modify i f = s.put i (f tab) t running := by
  simp only [put, State.modify, Buffer.modify_modify]
  rfl

theorem put_getElem? (hi : s.connectedTablets.elements[i]? = some old) (tab : BtTabObj) (t : Table)
    (running : List Running) : (s.put i tab t running).connectedTablets.elements[i]? = some tab := by
  show (Buffer.modify _ _ _).elements[i]? = _
  rw [Buffer.modify_getElem?, if_pos rfl, hi]
  rfl

theorem put_tablet (hi : s.connectedTablets.elements[i]? = some old) (tab : BtTabObj) (t : Table)
    (running : List Running) : (s.put i tab t running).tablet (some (s.connectedTablets.pointer i)) = .ok tab :=
  tablet_pointer (put_getElem? hi tab t running)

theorem call_record (callType : SocketCallType) (socket : Nat) (tab : BtTabObj) :
    (s.call i callType).record i socket (tab, false) = s.put i tab s.table s.runningTransactions := by
  simp only [record, call, put, State.modify, Buffer.modify_modify]
  rfl

theorem call_getElem? (hi : s.connectedTablets.elements[i]? = some old) (callType : SocketCallType) :
    (s.call i callType).connectedTablets.elements[i]? = some {old with callType := callType} :=
  (changes_modify hi fun tab => {tab with callType := callType}).getElem? hi

end State

/-! ### The thread of a task -/

/-- Whether a thread was given the task, what it still has to do, the state of the task
and `success`, which was `left` at the request. -/
inductive Stage (answers : List Answer) (data : TransferData) (success left : Bool) :
    Bool → List Progress → TaskState → Bool → Prop where
  | deferred : Stage answers data success left false [] .deferred left
  | queued : Stage answers data success left true [.started, .finished answers] .queued left
  | running : Stage answers data success left true [.finished answers] .running true
  | finished : Stage answers data success left true [] (.finished data) success

section
variable {answers : List Answer} {data : TransferData} {success left thread : Bool} {s : State} {i : Nat}
  {old : BtTabObj}

theorem Stage.progressAll (hi : s.connectedTablets.elements[i]? = some old) (base : BtTabObj) {task : Task}
    (hself : task.self = s.connectedTablets.pointer i) (hfinish : finish task.transfer answers = .ok (data, success))
    (t : Table) (running : List Running) {ps rest : List Progress} {state : TaskState} {flag : Bool}
    (h : Stage answers data success left thread (ps ++ rest) state flag) :
    ∃ state' flag', Stage answers data success left thread rest state' flag' ∧
      (s.put i (base.onTask task state flag) t running).progressAll i ps =
        .ok (s.put i (base.onTask task state' flag') t running) := by
  induction ps generalizing state flag with
  | nil => exact ⟨state, flag, h, rfl⟩
  | cons p ps ih =>
    have hat := State.put_getElem? hi (base.onTask task state flag) t running
    rw [List.cons_append] at h
    generalize hall : p :: (ps ++ rest) = all at h
    cases h with
    | deferred => cases hall
    | finished => cases hall
    | queued =>
      obtain ⟨rfl, hrest⟩ := List.cons.inj hall
      have hrunning : Stage answers data success left true (ps ++ rest) .running true := hrest ▸ .running
      obtain ⟨state', flag', hstage, hps⟩ := ih hrunning
      refine ⟨state', flag', hstage, ?_⟩
      have hfirst := progress_started hat rfl hself rfl
      rw [State.put_modify] at hfirst
      unfold State.progressAll
      rw [List.foldlM_cons, hfirst]
      exact hps
    | running =>
      obtain ⟨rfl, hrest⟩ := List.cons.inj hall
      have hfinished : Stage answers data success left true (ps ++ rest) (.finished data) success := hrest ▸ .finished
      obtain ⟨state', flag', hstage, hps⟩ := ih hfinished
      refine ⟨state', flag', hstage, ?_⟩
      have hfirst := progress_finished hat rfl hself rfl hfinish
      rw [State.put_modify] at hfirst
      unfold State.progressAll
      rw [List.foldlM_cons, hfirst]
      exact hps

/-- At its end a task is ready. -/
theorem Stage.ready {state : TaskState} {flag : Bool} (h : Stage answers data success left thread [] state flag) :
    state.ready = true := by
  cases h with
  | deferred => rfl
  | finished => rfl

theorem Stage.waits {state : TaskState} {flag : Bool} {p : Progress} {ps : List Progress}
    (h : Stage answers data success left thread (p :: ps) state flag) : state.ready = false := by
  cases h with
  | queued => rfl
  | running => rfl

end

/-! ### Handling -/

section
variable (server : Server) (parseJson : Text → Option Json) (readWholeFile : String → Text)

/-- What `handleTransResult` makes of a tablet and of the table. -/
def settled (inserts : Nat → Bool) (transactionType : TransactionType) (data : TransferData) (success : Bool)
    (info : TabletInfo) (t : Table) : Checked ((BtTabObj → BtTabObj) × Table) :=
  if Receives transactionType then
    match handleTransResult server parseJson inserts ⟨transactionType, false, success, data⟩ info t with
    | .ok (info, t) => .ok (fun tab => {tab.taken success with info := info}, t)
    | .error e => .error (.threw e)
  else .ok (id, t)

variable {server parseJson readWholeFile}

theorem Receives.positive {transactionType : TransactionType} (h : Receives transactionType) :
    ¬ transactionType < 0 := by
  obtain rfl | rfl | rfl := h <;> decide

/-- Handling leaves the pointer to the tablet and whether it is busy. -/
theorem settled_spec {inserts : Nat → Bool} {transactionType : TransactionType} {data : TransferData} {success : Bool}
    {info : TabletInfo} {t : Table} {r : (BtTabObj → BtTabObj) × Table}
    (h : settled server parseJson inserts transactionType data success info t = .ok r) (tab : BtTabObj) :
    (r.1 tab).currTrans.parent = tab.currTrans.parent ∧
      ∀ busy, {r.1 tab with transactionState := busy} = r.1 {tab with transactionState := busy} := by
  unfold settled at h
  split at h
  · split at h
    · cases h
      exact ⟨rfl, fun _ => rfl⟩
    · cases h
  · cases h
    exact ⟨rfl, fun _ => rfl⟩

variable {answers : List Answer} {data : TransferData} {success left thread : Bool} {s : State} {i : Nat}
  {old : BtTabObj}

theorem handleTransResult_put (hi : s.connectedTablets.elements[i]? = some old) {tab : BtTabObj} {task : Task}
    {inserts : Nat → Bool} (hparent : tab.currTrans.parent = some (s.connectedTablets.pointer i))
    (hwrite : tab.currTrans.writeTransaction = decide (tab.currTrans.transactionType < 0))
    (hdata : tab.currTrans.data = some task) (hself : task.self = s.connectedTablets.pointer i)
    (hfinish : finish task.transfer answers = .ok (data, success))
    (hstage : Stage answers data success left thread [] task.state tab.currTrans.success) (running : List Running) :
    (s.put i tab s.table running).handleTransResult server parseJson ⟨inserts, answers⟩ (s.connectedTablets.pointer i) =
      (settled server parseJson inserts tab.currTrans.transactionType data success tab.info s.table).map
        fun r => s.put i (r.1 tab) r.2 running := by
  unfold settled
  by_cases hreceives : Receives tab.currTrans.transactionType
  · have hderef : (s.put i tab s.table running).connectedTablets.deref (s.connectedTablets.pointer i) = some tab :=
      (Buffer.deref_pointer _ i).trans (State.put_getElem? hi tab s.table running)
    rw [decide_eq_false hreceives.positive] at hwrite
    have hget : (s.put i tab s.table running).getData (s.connectedTablets.pointer i) answers =
        .ok (data, (s.put i tab s.table running).modify (s.connectedTablets.pointer i).slot
          fun _ => tab.taken success) := by
      apply getData_taken hderef hdata hself
      generalize hstate : task.state = state at hstage
      generalize hflag : tab.currTrans.success = flag at hstage
      cases hstage with
      | deferred => exact .inr ⟨rfl, hfinish⟩
      | finished => exact .inl ⟨rfl, rfl⟩
    rw [handleTransResult_taken hderef hparent hwrite hreceives hget, if_pos hreceives]
    show (match handleTransResult server parseJson inserts _ _ s.table with | .ok (info, t) => _ | .error e => _) = _
    cases handleTransResult server parseJson inserts ⟨tab.currTrans.transactionType, false, success, data⟩ tab.info
        s.table with
    | error e => rfl
    | ok result => exact congrArg Except.ok (State.put_modify tab result.2 running _)
  · rw [if_neg hreceives]
    unfold Receives at hreceives
    unfold State.handleTransResult
    rw [State.put_tablet hi]
    simp only [bind, Except.bind, if_neg hreceives, ite_self]
    rfl

/-! ### One execution -/

variable (server readWholeFile) in
/-- The execution launches a transfer: `base` is the tablet at its request but for the
task. -/
structure Started (visit : Visit) (answers : List Answer) (e : Execution) (i : Nat) (s : State) (old base : BtTabObj)
    (task : Task) (data : TransferData) (success left thread : Bool) : Prop where
  connected : s.connectedTablets.elements[i]? = some old
  free : old.transactionState = false
  requested : request server readWholeFile (visit.under e answers) (s.connectedTablets.pointer i) s.table
    {old with callType := e.callType} = .ok (base.onTask task task.state left, false)
  parent : base.currTrans.parent = some (s.connectedTablets.pointer i)
  batman : base.currTrans.batmanTrans = false
  write : base.currTrans.writeTransaction = decide (base.currTrans.transactionType < 0)
  idle : base.transactionState = false
  self : task.self = s.connectedTablets.pointer i
  finishes : finish task.transfer answers = .ok (data, success)
  stage : Stage answers data success left thread e.schedule task.state left

variable {visit : Visit} {e : Execution} {base : BtTabObj} {task : Task}

theorem killSocket_running (s : State) (deleteSock : Nat) :
    (s.killSocket deleteSock).1.runningTransactions = s.runningTransactions := by
  obtain ⟨i, _, _, _, _, hkill⟩ | ⟨_, hkill⟩ := killSocket_cases s deleteSock
  · rw [hkill]
    rfl
  · rw [hkill]

/-- A visit that adds no running transaction is the whole transaction. -/
theorem transact_visited (e : Execution) {result : Checked State}
    (hvisit : (s.call i e.callType).visitConnection server parseJson readWholeFile
      (fun _ => visit.under e answers) i = result)
    (hrunning : ∀ s', result = .ok s' → s'.runningTransactions = s.runningTransactions) :
    s.transact server parseJson readWholeFile visit answers e i = result := by
  unfold State.transact
  rw [hvisit]
  cases result with
  | error e => rfl
  | ok s' =>
    simp only [bind, Except.bind, hrunning s' rfl, List.drop_length]
    rfl

theorem transact_entered (e : Execution) {s' : State} {entry : Running}
    (hvisit : (s.call i e.callType).visitConnection server parseJson readWholeFile
      (fun _ => visit.under e answers) i = .ok s')
    (hrunning : s'.runningTransactions = s.runningTransactions ++ [entry]) :
    s.transact server parseJson readWholeFile visit answers e i =
      (s'.handleLater server parseJson visit answers e.later i entry).map fun handled =>
        {handled with runningTransactions := s.runningTransactions} := by
  unfold State.transact
  rw [hvisit]
  simp only [bind, Except.bind, hrunning, List.drop_left]
  rfl

/-- The request, up to the test of `success`. -/
theorem Started.tested (h : Started server readWholeFile visit answers e i s old base task data success left thread) :
    ∃ state flag, Stage answers data success left thread (e.beforeReady ++ e.later) state flag ∧
      (s.call i e.callType).requestTransaction server readWholeFile i
        (visit.under e answers) = .ok (some (s.put i (base.onTask task state flag) s.table s.runningTransactions)) := by
  have hcalled := State.call_getElem? h.connected e.callType
  have hstage := h.stage
  unfold Execution.schedule at hstage
  rw [List.append_assoc] at hstage
  obtain ⟨state, flag, hstage', hprogress⟩ := hstage.progressAll h.connected base h.self h.finishes s.table
    s.runningTransactions
  refine ⟨state, flag, hstage', ?_⟩
  rw [requestTransaction_eq server readWholeFile hcalled rfl h.free]
  show (request server readWholeFile (visit.under e answers) (s.connectedTablets.pointer i) s.table _ >>= _) = _
  rw [h.requested]
  simp only [bind, Except.bind, State.call_record]
  have hbefore : (visit.under e answers).beforeTest = e.beforeTest := rfl
  rw [hbefore, hprogress]
  rfl

variable (parseJson) in
/-- A transaction that has failed at the test of `success` is one of a tablet that is
removed. -/
theorem Started.refused (h : Started server readWholeFile visit answers e i s old base task data success left thread)
    {state : TaskState}
    (hrequest : (s.call i e.callType).requestTransaction server readWholeFile i
      (visit.under e answers) = .ok (some (s.put i (base.onTask task state false) s.table s.runningTransactions))) :
    s.transact server parseJson readWholeFile visit answers e i =
      .ok ((s.put i (base.onTask task state false) s.table s.runningTransactions).killSocket base.socket).1 := by
  have hat := State.put_getElem? h.connected (base.onTask task state false) s.table s.runningTransactions
  have hrefused : (base.onTask task state false).refused = true := by
    show (base.currTrans.batmanTrans || !false) = true
    rw [Bool.not_false, Bool.or_true]
  have hvisit : (s.call i e.callType).visitConnection server parseJson readWholeFile
      (fun _ => visit.under e answers) i = .ok _ :=
    visitConnection_refused parseJson (fun _ => visit.under e answers) hrequest hat hrefused h.parent
  apply transact_visited e hvisit
  intro s' hs'
  cases hs'
  exact killSocket_running _ _

theorem Started.handled (h : Started server readWholeFile visit answers e i s old base task data success left thread)
    {state : TaskState} {flag : Bool} (hstage : Stage answers data success left thread [] state flag) (tab : BtTabObj)
    (htrans : tab.currTrans = base.currTrans) (hinfo : tab.info = base.info) (running : List Running) :
    (s.put i (tab.onTask task state flag) s.table running).handleTransResult server parseJson ⟨visit.inserts, answers⟩
        (s.connectedTablets.pointer i) =
      (settled server parseJson visit.inserts base.currTrans.transactionType data success base.info s.table).map
        fun r => s.put i (r.1 (tab.onTask task state flag)) r.2 running := by
  have hparent : (tab.onTask task state flag).currTrans.parent = some (s.connectedTablets.pointer i) :=
    (congrArg TabTransaction.parent htrans).trans h.parent
  have hwrite : (tab.onTask task state flag).currTrans.writeTransaction =
      decide ((tab.onTask task state flag).currTrans.transactionType < 0) := by
    show tab.currTrans.writeTransaction = decide (tab.currTrans.transactionType < 0)
    rw [htrans, h.write]
  have htask : (tab.onTask task state flag).currTrans.data = some {task with state := state} := rfl
  rw [← htrans, ← hinfo]
  exact handleTransResult_put h.connected hparent hwrite htask h.self h.finishes hstage running

variable (parseJson) in
/-- The frame that handles a transaction that was not ready. -/
theorem Started.later (h : Started server readWholeFile visit answers e i s old base task data success left thread)
    {later : List Progress} {state : TaskState} {flag : Bool}
    (hstage : Stage answers data success left thread later state flag) (running : List Running) :
    ∃ state' flag', Stage answers data success left thread [] state' flag' ∧
      (s.put i (BtTabObj.onTask {base with transactionState := true} task state flag) s.table running).handleLater
          server parseJson visit answers later i ⟨s.connectedTablets.pointer i, base.connection⟩ =
        (settled server parseJson visit.inserts base.currTrans.transactionType data success base.info s.table).map
          fun r => s.put i (r.1 (base.onTask task state' flag')) r.2 running := by
  rw [← List.append_nil later] at hstage
  obtain ⟨state', flag', hstage', hlater⟩ := hstage.progressAll h.connected {base with transactionState := true} h.self
    h.finishes s.table running
  refine ⟨state', flag', hstage', ?_⟩
  have hready : (BtTabObj.onTask {base with transactionState := true} task state' flag').currTrans.isReady = .ok true :=
    congrArg Except.ok hstage'.ready
  have hidle : {base with transactionState := false} = base := by rw [← h.idle]
  unfold State.handleLater State.handleEntry
  simp only [hlater, bind, Except.bind, State.put_tablet h.connected, hready, if_true,
    h.handled hstage' {base with transactionState := true} rfl rfl]
  cases hsettled : settled server parseJson visit.inserts base.currTrans.transactionType data success base.info
      s.table with
  | error e => rfl
  | ok r =>
    obtain ⟨hparent, hbusy⟩ := settled_spec hsettled
      (BtTabObj.onTask {base with transactionState := true} task state' flag')
    have hparent' : (r.1 (BtTabObj.onTask {base with transactionState := true} task state' flag')).currTrans.parent =
        some (s.connectedTablets.pointer i) := hparent.trans h.parent
    have hfree : {BtTabObj.onTask {base with transactionState := true} task state' flag' with
          transactionState := false} = base.onTask task state' flag' :=
      congrArg (BtTabObj.onTask · task state' flag') hidle
    simp only [Except.map, State.put_tablet h.connected, hparent']
    show Except.ok (State.modify _ i _) = _
    rw [State.put_modify, hbusy, hfree]

variable (parseJson) in
/-- A transaction that has not failed at the test is handled, at once or later. -/
theorem Started.granted (h : Started server readWholeFile visit answers e i s old base task data success left thread)
    {state : TaskState} (hstage : Stage answers data success left thread (e.beforeReady ++ e.later) state true)
    (hrequest : (s.call i e.callType).requestTransaction server readWholeFile i
      (visit.under e answers) = .ok (some (s.put i (base.onTask task state true) s.table s.runningTransactions))) :
    ∃ state' flag', Stage answers data success left thread [] state' flag' ∧
      s.transact server parseJson readWholeFile visit answers e i =
        (settled server parseJson visit.inserts base.currTrans.transactionType data success base.info s.table).map
          fun r => s.put i (r.1 (base.onTask task state' flag')) r.2 s.runningTransactions := by
  have hat := State.put_getElem? h.connected (base.onTask task state true) s.table s.runningTransactions
  have hgranted : (base.onTask task state true).refused = false := by
    show (base.currTrans.batmanTrans || !true) = false
    rw [h.batman]
    rfl
  obtain ⟨state₂, flag₂, hstage₂, hready⟩ := hstage.progressAll h.connected base h.self h.finishes s.table
    s.runningTransactions
  have hat₂ := State.put_getElem? h.connected (base.onTask task state₂ flag₂) s.table s.runningTransactions
  have hvisit : (s.call i e.callType).visitConnection server parseJson readWholeFile
      (fun _ => visit.under e answers) i = (do
        let ready ← (Except.ok state₂.ready : Checked Bool)
        if ready then
          (s.put i (base.onTask task state₂ flag₂) s.table s.runningTransactions).handleTransResult server parseJson
            ⟨visit.inserts, answers⟩ (s.connectedTablets.pointer i)
        else do
          let _ ← (s.put i (base.onTask task state₂ flag₂) s.table s.runningTransactions).tablet base.currTrans.parent
          return State.modify _ _ _) :=
    visitConnection_polls parseJson (fun _ => visit.under e answers) hrequest hat hgranted hready hat₂ rfl
  have hrunning : ∀ {f : (BtTabObj → BtTabObj) × Table → BtTabObj} {s' : State},
      ((settled server parseJson visit.inserts base.currTrans.transactionType data success base.info s.table).map
        fun r => s.put i (f r) r.2 s.runningTransactions) = .ok s' →
      s'.runningTransactions = s.runningTransactions := by
    intro f s' hs'
    cases hsettled : settled server parseJson visit.inserts base.currTrans.transactionType data success base.info
        s.table with
    | error e =>
      rw [hsettled] at hs'
      cases hs'
    | ok r =>
      rw [hsettled] at hs'
      cases hs'
      rfl
  cases hlater : e.later with
  | nil =>
    rw [hlater] at hstage₂
    simp only [bind, Except.bind, hstage₂.ready, if_true, h.handled hstage₂ base rfl rfl] at hvisit
    exact ⟨state₂, flag₂, hstage₂, transact_visited e hvisit fun _ hs' => hrunning hs'⟩
  | cons p ps =>
    have hstage₃ := hstage₂
    rw [hlater] at hstage₃
    have hparent : (s.put i (base.onTask task state₂ flag₂) s.table s.runningTransactions).tablet
        base.currTrans.parent = .ok (base.onTask task state₂ flag₂) := by
      rw [h.parent]
      exact State.put_tablet h.connected ..
    simp only [bind, Except.bind, hstage₃.waits, Bool.false_eq_true, if_false, hparent] at hvisit
    have hentered : (s.call i e.callType).visitConnection server parseJson readWholeFile
        (fun _ => visit.under e answers) i = .ok (s.put i (BtTabObj.onTask {base with transactionState := true} task
          state₂ flag₂) s.table (s.runningTransactions ++ [⟨s.connectedTablets.pointer i, base.connection⟩])) := by
      rw [hvisit]
      show Except.ok (State.modify _ (base.currTrans.parent.elim 0 (·.slot)) _) = _
      rw [h.parent]
      exact congrArg Except.ok (State.put_modify ..)
    obtain ⟨state₃, flag₃, hstage₄, hhandled⟩ := h.later parseJson hstage₂ (s.runningTransactions ++
      [⟨s.connectedTablets.pointer i, base.connection⟩])
    refine ⟨state₃, flag₃, hstage₄, ?_⟩
    rw [transact_entered e hentered rfl, hhandled]
    cases settled server parseJson visit.inserts base.currTrans.transactionType data success base.info s.table with
    | error e => rfl
    | ok r => rfl

end

end ScoutingComputer.Bluetooth
