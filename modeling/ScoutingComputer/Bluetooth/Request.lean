import ScoutingComputer.Bluetooth.Operations

/-! A request: what a code makes of the record of the tablet that sent it.

One record serves every transaction of a tablet. A request sets some of its fields and
takes the others over from the transaction before: a read sets them all, a write leaves
`success`, and a code without a case leaves the data too. `Visit.kinds` says which kinds
of requests there are, and one lemma for each kind says what it makes of the record. -/
namespace ScoutingComputer.Bluetooth
open Socket
open Machine (bind_eq_ok)

/-- The request closes the socket: the tablet is not ready after all, its code cannot be
read, or it is the code that asks for it. -/
def Visit.Closes (visit : Visit) : Prop :=
  visit.readableAgain = false ∨ visit.writable = false ∨ ∃ transactionType,
    getTransactionType visit.code = .done transactionType [] ∧
      (transactionType = TRANS_SOCKET_ERROR ∨ transactionType = TRANS_CLOSE_SOCKET)

/-- The tablet is ready and sends a code for a transaction. -/
structure Visit.Sends (visit : Visit) (transactionType : TransactionType) : Prop where
  readable : visit.readableAgain = true
  writable : visit.writable = true
  code : getTransactionType visit.code = .done transactionType []
  notError : transactionType ≠ TRANS_SOCKET_ERROR
  notClose : transactionType ≠ TRANS_CLOSE_SOCKET

/-- The codes that `handleWriteTransactions` has a case for. -/
def Writes (transactionType : TransactionType) : Prop :=
  transactionType = TRANS_SEND_LOCAL_DB ∨ transactionType = TRANS_SEND_LOCAL_DB_HASH ∨
    transactionType = TRANS_SEND_TAB_UNRECVD_MATCHES

instance (transactionType : TransactionType) : Decidable (Writes transactionType) := by
  unfold Writes
  infer_instance

theorem Visit.Sends.unique {visit : Visit} {transactionType other : TransactionType} (h : visit.Sends transactionType)
    (hother : getTransactionType visit.code = .done other []) : other = transactionType :=
  (ScoutingComputer.Progress.done.inj (hother.symm.trans h.code)).1

theorem Visit.Sends.not_closes {visit : Visit} {transactionType : TransactionType}
    (h : visit.Sends transactionType) : ¬ visit.Closes := by
  rintro (hread | hwrite | ⟨other, hother, hcloses⟩)
  · rw [h.readable] at hread
    cases hread
  · rw [h.writable] at hwrite
    cases hwrite
  · rw [h.unique hother] at hcloses
    exact hcloses.elim h.notError h.notClose

theorem Writes.negative {transactionType : TransactionType} (h : Writes transactionType) : transactionType < 0 := by
  obtain rfl | rfl | rfl := h <;> decide

theorem launch_cases (callType : SocketCallType) (async : Bool) :
    launch callType async = .deferred ∨ launch callType async = .queued := by
  cases callType with
  | CALLTYPE_DEFAULT =>
    cases async with
    | true => exact .inr rfl
    | false => exact .inl rfl
  | CALLTYPE_DEFERRED => exact .inl rfl
  | CALLTYPE_ASYNCHRONOUS => exact .inr rfl

section
variable (server : Server) (readWholeFile : String → Text)

theorem writeData_of_writes {transactionType : TransactionType} (h : Writes transactionType) (selects : Nat → Bool)
    (parent : TabletInfo) (t : Table) :
    ∃ data, writeData server readWholeFile selects transactionType parent t = some data := by
  obtain rfl | rfl | rfl := h
  · exact ⟨_, rfl⟩
  · exact ⟨_, rfl⟩
  · exact ⟨_, rfl⟩

theorem writeData_eq_none {transactionType : TransactionType} (h : ¬ Writes transactionType) (selects : Nat → Bool)
    (parent : TabletInfo) (t : Table) : writeData server readWholeFile selects transactionType parent t = none := by
  unfold Writes at h
  push Not at h
  unfold writeData
  rw [if_neg h.1, if_neg h.2.1, if_neg h.2.2]

/-! ### The kinds of requests -/

/-- `readTransactionData` and `initReadyTransaction` on the record of the tablet. -/
def request (visit : Visit) (self : Pointer) (t : Table) (old : BtTabObj) : Checked (BtTabObj × Bool) := do
  let tab ← readTransactionData visit self old
  return initReadyTransaction server readWholeFile visit self t tab

variable {visit : Visit} {transactionType : TransactionType} (self : Pointer) (t : Table) (old : BtTabObj)

/-- The task that a request launches. -/
def launched (visit : Visit) (self : Pointer) (old : BtTabObj)
    (transfer : OsProgram (Option (List UInt8) × Bool)) : Task :=
  ⟨self, old.connection, transfer, launch old.callType visit.async⟩

theorem Visit.Closes.read (h : visit.Closes) :
    ∃ transactionType, (transactionType = TRANS_SOCKET_ERROR ∨ transactionType = TRANS_CLOSE_SOCKET) ∧
      ∀ self old, ∃ success writeTransaction, readTransactionData visit self old = .ok {old with currTrans :=
        {old.currTrans with
          parent := some self
          transactionType := transactionType
          success := success
          writeTransaction := writeTransaction}} := by
  by_cases hready : (!visit.readableAgain || !visit.writable) = true
  · exact ⟨TRANS_CLOSE_SOCKET, .inr rfl, fun self old => ⟨false, false, if_pos hready⟩⟩
  · have hopen := hready
    rw [Bool.or_eq_true, Bool.not_eq_true', Bool.not_eq_true', not_or] at hopen
    obtain hread | hwrite | ⟨transactionType, hcode, hcloses⟩ := h
    · exact absurd hread hopen.1
    · exact absurd hwrite hopen.2
    · refine ⟨transactionType, hcloses, fun self old => ?_⟩
      unfold readTransactionData
      rw [if_neg hready, hcode]
      obtain rfl | rfl := hcloses
      · exact ⟨_, _, rfl⟩
      · exact ⟨_, _, rfl⟩

/-- A request that closes the socket sets every field but the data. -/
theorem request_closes {success writeTransaction : Bool}
    (htype : transactionType = TRANS_SOCKET_ERROR ∨ transactionType = TRANS_CLOSE_SOCKET)
    (h : readTransactionData visit self old = .ok {old with currTrans := {old.currTrans with
      parent := some self
      transactionType := transactionType
      success := success
      writeTransaction := writeTransaction}}) :
    request server readWholeFile visit self t old = .ok ({old with currTrans := {old.currTrans with
      parent := some self
      transactionType := transactionType
      success := false
      batmanTrans := true
      writeTransaction := false}}, true) := by
  unfold request initReadyTransaction
  rw [h]
  simp only [bind, Except.bind, if_pos htype]
  rfl

theorem Visit.Closes.request_eq (h : visit.Closes) :
    ∃ transactionType, request server readWholeFile visit self t old = .ok ({old with currTrans := {old.currTrans with
      parent := some self
      transactionType := transactionType
      success := false
      batmanTrans := true
      writeTransaction := false}}, true) := by
  obtain ⟨transactionType, htype, hread⟩ := h.read
  obtain ⟨_, _, hread⟩ := hread self old
  exact ⟨transactionType, request_closes server readWholeFile self t old htype hread⟩

theorem readTransactionData_sends (h : visit.Sends transactionType) :
    readTransactionData visit self old = .ok {old with currTrans := {old.currTrans with
      parent := some self
      transactionType := transactionType
      writeTransaction := decide (transactionType < 0)}} := by
  unfold readTransactionData
  rw [if_neg (by rw [h.readable, h.writable]; decide), h.code]
  simp only [if_neg h.notError]

/-- A request for a write keeps `success`. -/
theorem Visit.Sends.request_writes (h : visit.Sends transactionType) (hwrites : Writes transactionType)
    {data : List UInt8} (hdata : writeData server readWholeFile visit.selects transactionType old.info t = some data) :
    request server readWholeFile visit self t old = .ok ({old with currTrans := {old.currTrans with
      parent := some self
      transactionType := transactionType
      batmanTrans := false
      writeTransaction := true
      data := some (launched visit self old (internalWrite data))}}, false) := by
  unfold request initReadyTransaction
  rw [readTransactionData_sends self old h]
  simp only [bind, Except.bind, decide_eq_true hwrites.negative, if_true, h.notError, h.notClose, or_self, if_false,
    hdata]
  rfl

/-- A negative code without a case keeps `success`, `batmanTrans` and the data. -/
theorem Visit.Sends.request_ignored (h : visit.Sends transactionType) (hnegative : transactionType < 0)
    (hnone : ¬ Writes transactionType) :
    request server readWholeFile visit self t old = .ok ({old with currTrans := {old.currTrans with
      parent := some self
      transactionType := transactionType
      writeTransaction := true}}, false) := by
  unfold request initReadyTransaction
  rw [readTransactionData_sends self old h]
  simp only [bind, Except.bind, decide_eq_true hnegative, if_true, h.notError, h.notClose, or_self, if_false,
    writeData_eq_none server readWholeFile hnone]
  rfl

/-- A request for a read sets every field. -/
theorem Visit.Sends.request_reads (h : visit.Sends transactionType) (hnegative : ¬ transactionType < 0) :
    request server readWholeFile visit self t old = .ok ({old with currTrans :=
      { parent := some self
        transactionType := transactionType
        data := some (launched visit self old internalRead)
        batmanTrans := false
        success := true
        writeTransaction := false }}, false) := by
  unfold request initReadyTransaction
  rw [readTransactionData_sends self old h]
  simp only [bind, Except.bind, decide_eq_false hnegative, Bool.false_eq_true, h.notError, h.notClose, or_self,
    if_false]
  rfl

theorem request_error {e : Failure} (h : readTransactionData visit self old = .error e) :
    request server readWholeFile visit self t old = .error e := by
  unfold request
  rw [h]
  rfl

/-- Every request that goes on is of one kind. -/
theorem Visit.kinds (visit : Visit) :
    visit.Closes ∨ (∃ transactionType, visit.Sends transactionType) ∨
      ∃ e, ∀ self old, readTransactionData visit self old = .error e := by
  by_cases hcloses : visit.Closes
  · exact .inl hcloses
  · right
    have hready : visit.readableAgain = true ∧ visit.writable = true := by
      refine ⟨eq_true_of_ne_false fun hread => hcloses (.inl hread), ?_⟩
      exact eq_true_of_ne_false fun hwrite => hcloses (.inr (.inl hwrite))
    cases hcode : getTransactionType visit.code with
    | done transactionType rest =>
      cases rest with
      | nil =>
        refine .inl ⟨transactionType, hready.1, hready.2, hcode, fun herror => ?_, fun hclose => ?_⟩
        · exact hcloses (.inr (.inr ⟨_, hcode, .inl herror⟩))
        · exact hcloses (.inr (.inr ⟨_, hcode, .inr hclose⟩))
      | cons answer rest =>
        refine .inr ⟨.blocked, fun self old => ?_⟩
        simp only [readTransactionData, hready, hcode]
        rfl
    | asks call =>
      refine .inr ⟨.blocked, fun self old => ?_⟩
      simp only [readTransactionData, hready, hcode]
      rfl
    | throws e rest =>
      refine .inr ⟨.threw e, fun self old => ?_⟩
      simp only [readTransactionData, hready, hcode]
      rfl

/-! ### Requests in the frame -/

variable {server readWholeFile} in
theorem requestTransaction_free {s s' : State} {i : Nat}
    (h : s.requestTransaction server readWholeFile i visit = .ok (some s')) :
    ∃ old, s.connectedTablets.elements[i]? = some old ∧ visit.readable = true ∧ old.transactionState = false := by
  unfold State.requestTransaction at h
  split at h
  · cases h
  · rename_i old hi
    split at h
    · cases h
    · rename_i hfree
      rw [Bool.not_eq_true, Bool.or_eq_false_iff, Bool.not_eq_false'] at hfree
      exact ⟨old, hi, hfree⟩

/-- The state with what a request makes of tablet `i`. -/
def State.record (i : Nat) (socket : Nat) (r : BtTabObj × Bool) (s : State) : State :=
  {s.modify i fun _ => r.1 with closed := if r.2 then s.closed ++ [socket] else s.closed}

theorem changes_record (s : State) (i socket : Nat) (r : BtTabObj × Bool) :
    Changes s i r.1 (s.record i socket r) := ⟨rfl, rfl, rfl⟩

theorem requestTransaction_eq {s : State} {i : Nat} {old : BtTabObj} (hi : s.connectedTablets.elements[i]? = some old)
    (hreadable : visit.readable = true) (hfree : old.transactionState = false) :
    s.requestTransaction server readWholeFile i visit = do
      let r ← request server readWholeFile visit (s.connectedTablets.pointer i) s.table old
      let s ← (s.record i old.socket r).progressAll i visit.beforeTest
      return some s := by
  unfold State.requestTransaction request
  rw [hi]
  simp only [hreadable, hfree, Bool.not_true, Bool.or_self, Bool.false_eq_true, if_false]
  cases hread : readTransactionData visit (s.connectedTablets.pointer i) old with
  | error e => rfl
  | ok tab =>
    obtain ⟨_, _, _, rfl⟩ := readTransactionData_spec hread
    rfl

end

/-- The thread of the task that was launched changes its state and `success`. -/
theorem progressAll_launched {s s' : State} {i : Nat} {ps : List Progress} {tab : BtTabObj} {task : Task}
    (hi : s.connectedTablets.elements[i]? = some tab) (hdata : tab.currTrans.data = some task)
    (hself : task.self = s.connectedTablets.pointer i) (h : s.progressAll i ps = .ok s') :
    ∃ state success, Changes s i {tab with currTrans := {tab.currTrans with
      data := some {task with state := state}
      success := success}} s' := by
  unfold State.progressAll at h
  induction ps generalizing s tab task with
  | nil =>
    cases h
    refine ⟨task.state, tab.currTrans.success, ?_⟩
    have hsame : {tab with currTrans := {tab.currTrans with data := some {task with state := task.state}}} = tab := by
      rw [show ({task with state := task.state} : Task) = task from rfl, ← hdata]
    exact hsame.symm ▸ .same_state hi rfl rfl rfl
  | cons p ps ih =>
    rw [List.foldlM_cons] at h
    obtain ⟨s₁, h₁, h₂⟩ := bind_eq_ok h
    obtain ⟨task', state, success, htask, _, hfirst, _⟩ := progress_changes hi h₁ fun task' htask _ => by
      rw [hdata] at htask
      cases htask
      exact hself
    rw [hdata] at htask
    cases htask
    obtain ⟨state', success', hrest⟩ := ih (hfirst.getElem? hi) rfl (hself.trans hfirst.pointer.symm) h₂
    exact ⟨state', success', hfirst.trans hrest⟩

/-- A write of `success` through a pointer to the tablet itself. -/
theorem writeSuccess_self {s : State} {i : Nat} {tab : BtTabObj} {task : Task}
    (hi : s.connectedTablets.elements[i]? = some tab) (hself : task.self = s.connectedTablets.pointer i)
    (f : TabTransaction → TabTransaction) (success : Bool) :
    (s.modifyTrans i f).writeSuccess task success =
      .ok (s.modify i fun _ => {tab with currTrans := {f tab.currTrans with success := success}}) := by
  have hfirst := changes_modify hi fun tab : BtTabObj => {tab with currTrans := f tab.currTrans}
  have htablet : (s.modifyTrans i f).tablet (some task.self) = .ok {tab with currTrans := f tab.currTrans} := by
    rw [hself, ← hfirst.pointer]
    exact tablet_pointer (hfirst.getElem? hi)
  have hslot : task.self.slot = i := by
    rw [hself]
    rfl
  have hconst := Buffer.modify_const hi fun tab : BtTabObj =>
    {tab with currTrans := {f tab.currTrans with success := success}}
  unfold State.writeSuccess
  simp only [htablet, bind, Except.bind, hslot]
  simp only [State.modifyTrans, State.modify, Buffer.modify_modify, Function.comp_def, ← hconst]
  rfl

theorem progress_started {s : State} {i : Nat} {tab : BtTabObj} {task : Task}
    (hi : s.connectedTablets.elements[i]? = some tab) (hdata : tab.currTrans.data = some task)
    (hself : task.self = s.connectedTablets.pointer i) (hqueued : task.state = .queued) :
    s.progress i .started = .ok (s.modify i fun _ => tab.onTask task .running true) := by
  unfold State.progress
  simp only [hi, Option.bind_some, hdata, hqueued]
  exact writeSuccess_self hi hself _ true

theorem progress_finished {s : State} {i : Nat} {tab : BtTabObj} {task : Task} {answers : List Answer}
    {data : TransferData} {success : Bool} (hi : s.connectedTablets.elements[i]? = some tab)
    (hdata : tab.currTrans.data = some task) (hself : task.self = s.connectedTablets.pointer i)
    (hrunning : task.state = .running) (hfinish : finish task.transfer answers = .ok (data, success)) :
    s.progress i (.finished answers) = .ok (s.modify i fun _ => tab.onTask task (.finished data) success) := by
  unfold State.progress
  simp only [hi, Option.bind_some, hdata, hrunning, hfinish, bind, Except.bind]
  exact writeSuccess_self hi hself _ success

/-- No thread goes on in a record whose task is ready, or without data. -/
theorem progress_blocked {s : State} {i : Nat} {tab : BtTabObj} (hi : s.connectedTablets.elements[i]? = some tab)
    (hready : ∀ task, tab.currTrans.data = some task → task.state.ready = true) (p : Progress) :
    s.progress i p = .error .blocked := by
  unfold State.progress
  rw [hi, Option.bind_some]
  cases hdata : tab.currTrans.data with
  | none => rfl
  | some task =>
    obtain hstate | ⟨data, hstate⟩ := TaskState.ready_cases (hready task hdata)
    · cases p <;> simp only [hstate]
    · cases p <;> simp only [hstate]

theorem progressAll_ready {s s' : State} {i : Nat} {ps : List Progress} {tab : BtTabObj}
    (hi : s.connectedTablets.elements[i]? = some tab)
    (hready : ∀ task, tab.currTrans.data = some task → task.state.ready = true)
    (h : s.progressAll i ps = .ok s') : s' = s := by
  cases ps with
  | nil =>
    cases h
    rfl
  | cons p ps =>
    obtain ⟨s₁, h₁, _⟩ := bind_eq_ok h
    cases (progress_blocked hi hready p).symm.trans h₁

/-! ### One iteration -/

section
variable {server : Server} {parseJson : Text → Option Json} {readWholeFile : String → Text} {visits : Nat → Visit}
  {s s₁ s₂ : State} {i : Nat} {tab tab' : BtTabObj} {task : Task}

/-- The record is one of a transaction that is refused. -/
def BtTabObj.refused (tab : BtTabObj) : Bool := tab.currTrans.batmanTrans || !tab.currTrans.success

theorem refused_eq (hi : s.connectedTablets.elements[i]? = some tab) : s.refused i = tab.refused := by
  unfold State.refused
  rw [hi]
  rfl

variable (parseJson visits) in
theorem visitConnection_refused (hrequest : s.requestTransaction server readWholeFile i (visits i) = .ok (some s₁))
    (hi : s₁.connectedTablets.elements[i]? = some tab) (hrefused : tab.refused = true)
    (hparent : tab.currTrans.parent = some (s₁.connectedTablets.pointer i)) :
    s.visitConnection server parseJson readWholeFile visits i = .ok (s₁.killSocket tab.socket).1 := by
  unfold State.visitConnection
  simp only [hrequest, bind, Except.bind, tablet_pointer hi, refused_eq hi, hrefused, if_true, hparent]
  rfl

variable (parseJson visits) in
theorem visitConnection_polls (hrequest : s.requestTransaction server readWholeFile i (visits i) = .ok (some s₁))
    (hi : s₁.connectedTablets.elements[i]? = some tab) (hgranted : tab.refused = false)
    (hprogress : s₁.progressAll i (visits i).beforeReady = .ok s₂)
    (hi' : s₂.connectedTablets.elements[i]? = some tab')
    (hpointer : s₂.connectedTablets.pointer i = s₁.connectedTablets.pointer i) :
    s.visitConnection server parseJson readWholeFile visits i = do
      let ready ← tab'.currTrans.isReady
      if ready then
        s₂.handleTransResult server parseJson ⟨(visits i).inserts, (visits i).waited⟩ (s₁.connectedTablets.pointer i)
      else do
        let _ ← s₂.tablet tab'.currTrans.parent
        return State.modify {s₂ with runningTransactions := s₂.runningTransactions ++
          [⟨s₁.connectedTablets.pointer i, tab'.connection⟩]} (tab'.currTrans.parent.elim 0 (·.slot))
          fun tab => {tab with transactionState := true} := by
  have htablet : s₂.tablet (some (s₁.connectedTablets.pointer i)) = .ok tab' := hpointer ▸ tablet_pointer hi'
  unfold State.visitConnection
  simp only [hrequest, bind, Except.bind, tablet_pointer hi, refused_eq hi, hgranted, Bool.false_eq_true, if_false,
    hprogress, htablet]

end

/-! ### Rules on the requests of a run -/

/-- A rule on every iteration of the loop over the connections. -/
def FrameRule (server : Server) (parseJson : Text → Option Json) (readWholeFile : String → Text)
    (rule : (Nat → Visit) → State → Nat → Prop) (s : State) : Event → Prop
  | .handleReadyConnections visits =>
    Machine.Meets (fun s i => (s.visitConnection server parseJson readWholeFile visits i).toOption)
      (rule visits) s (List.range s.connectedTablets.elements.length)
  | _ => True

end ScoutingComputer.Bluetooth
