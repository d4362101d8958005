import ScoutingComputer.Bluetooth.FailedRead

/-! What handling the result of one tablet comes to.

A record whose task is ready has data, which was kept or which its deferred transfer gives
now. Handling it goes through exactly when the record is not one of a read, or the data is
a value, which is empty only for a name (`Settles`); `Handled` says what tablet and what
table are left. -/
namespace ScoutingComputer.Bluetooth
open Socket

/-- The data of a record whose task is ready: what was kept, or what the deferred transfer
gives on these answers. -/
def Yields (tab : BtTabObj) (waited : List Answer) (data : TransferData) (success : Bool) : Prop :=
  ∃ task, tab.currTrans.data = some task ∧
    (task.state = .finished data ∧ tab.currTrans.success = success ∨
      task.state = .deferred ∧ finish task.transfer waited = .ok (data, success))

/-- The result of a record can be handled: it is not a read's, or it is a value, and not
the empty one except for a name. -/
def Settles (tab : BtTabObj) (waited : List Answer) : Prop :=
  tab.currTrans.writeTransaction = true ∨ ¬ Receives tab.currTrans.transactionType ∨
    ∃ value success, Yields tab waited (.ok value) success ∧
      (value = none → tab.currTrans.transactionType = TRANS_RECV_TABLET_INFO)

/-- The record at `p` is the tablet's own, and so is its task. -/
structure Own (s : State) (p : Pointer) (tab : BtTabObj) : Prop where
  deref : s.connectedTablets.deref p = some tab
  parent : tab.currTrans.parent = some p
  self : ∀ task, tab.currTrans.data = some task → task.self = p

section
variable (server : Server) (parseJson : Text → Option Json)

/-- Handling the result of `tab` with the table `t` leaves `tab'` and `t'`. -/
inductive Handled (inserts : Nat → Bool) (waited : List Answer) (tab : BtTabObj) (t : Table) :
    BtTabObj → Table → Prop where
  | noRead (h : tab.currTrans.writeTransaction = true ∨ ¬ Receives tab.currTrans.transactionType) :
    Handled inserts waited tab t tab t
  | read {value : Option (List UInt8)} {success : Bool} {info : TabletInfo} {t' : Table}
    (hread : tab.currTrans.writeTransaction = false) (hreceives : Receives tab.currTrans.transactionType)
    (hyields : Yields tab waited (.ok value) success)
    (hstored : handleTransResult server parseJson inserts
      ⟨tab.currTrans.transactionType, false, success, .ok value⟩ tab.info t = .ok (info, t')) :
    Handled inserts waited tab t {tab.taken success with info := info} t'

variable {server parseJson} {inserts : Nat → Bool} {waited : List Answer} {tab tab' : BtTabObj} {t t' : Table}
  {s : State} {p : Pointer}

/-- What handling a result leaves of the tablet. -/
theorem Handled.kept (h : Handled server parseJson inserts waited tab t tab' t') :
    tab'.connection = tab.connection ∧ tab'.socket = tab.socket ∧ tab'.transactionState = tab.transactionState ∧
      tab'.currTrans.parent = tab.currTrans.parent ∧
      tab'.currTrans.transactionType = tab.currTrans.transactionType := by
  cases h with
  | noRead => exact ⟨rfl, rfl, rfl, rfl, rfl⟩
  | read => exact ⟨rfl, rfl, rfl, rfl, rfl⟩

variable (server parseJson) in
/-- What the conductor does with a value of a read. -/
theorem handleTransResult_value {transactionType : TransactionType} (hreceives : Receives transactionType)
    {value : Option (List UInt8)} (hvalue : value = none → transactionType = TRANS_RECV_TABLET_INFO)
    (inserts : Nat → Bool) (success : Bool) (parent : TabletInfo) (t : Table) :
    ∃ result, handleTransResult server parseJson inserts ⟨transactionType, false, success, .ok value⟩ parent t =
      .ok result := by
  cases value with
  | none =>
    rw [hvalue rfl, handleTransResult_name]
    exact ⟨_, rfl⟩
  | some bytes =>
    rcases hreceives with rfl | rfl | rfl <;> cases success <;> exact ⟨_, rfl⟩

variable (server parseJson inserts t) in
theorem Settles.handled (h : Settles tab waited) : ∃ tab' t', Handled server parseJson inserts waited tab t tab' t' := by
  by_cases hread : tab.currTrans.writeTransaction = true ∨ ¬ Receives tab.currTrans.transactionType
  · exact ⟨tab, t, .noRead hread⟩
  · obtain ⟨hread, hreceives⟩ := not_or.mp hread
    rw [not_not] at hreceives
    rcases h with hwrite | hno | ⟨value, success, hyields, hvalue⟩
    · exact absurd hwrite hread
    · exact absurd hreceives hno
    · obtain ⟨⟨info, t'⟩, hstored⟩ := handleTransResult_value server parseJson hreceives hvalue inserts success
        tab.info t
      exact ⟨_, t', .read (Bool.eq_false_iff.mpr hread) hreceives hyields hstored⟩

theorem getData_yields {data : TransferData} {success : Bool} (hown : Own s p tab)
    (h : Yields tab waited data success) :
    s.getData p waited = .ok (data, s.modify p.slot fun _ => tab.taken success) := by
  obtain ⟨task, hdata, hstate⟩ := h
  exact getData_taken hown.deref hdata (hown.self task hdata) hstate

theorem modify_same (h : s.connectedTablets.deref p = some tab) : s.modify p.slot (fun _ => tab) = s := by
  have hconst := Buffer.modify_const (Buffer.deref_iff.mp h).2 id
  unfold State.modify
  rw [id_eq] at hconst
  rw [← hconst, Buffer.modify, List.modify_id]

variable (server parseJson) in
theorem handleTransResult_noRead (handling : Handling) (htab : s.connectedTablets.deref p = some tab)
    (h : tab.currTrans.writeTransaction = true ∨ ¬ Receives tab.currTrans.transactionType) :
    s.handleTransResult server parseJson handling p = .ok s := by
  unfold State.handleTransResult
  rw [tablet_of_deref htab]
  simp only [bind, Except.bind]
  by_cases hwrite : tab.currTrans.writeTransaction = true
  · rw [if_pos hwrite]
    rfl
  · have hno : ¬ (tab.currTrans.transactionType = TRANS_RECV_MATCH ∨
        tab.currTrans.transactionType = TRANS_RECV_TABLET_INFO ∨
        tab.currTrans.transactionType = TRANS_RECV_TAB_MATCH_LIST) := h.resolve_left hwrite
    rw [if_neg hwrite, if_neg hno]
    rfl

/-- The record and the table are what changes. -/
theorem handleTransResult_handled (hown : Own s p tab)
    (h : Handled server parseJson inserts waited tab s.table tab' t') :
    s.handleTransResult server parseJson ⟨inserts, waited⟩ p =
      .ok ({s with table := t'}.modify p.slot fun _ => tab') := by
  cases h with
  | noRead hread =>
    have hsame : {s with table := s.table}.modify p.slot (fun _ => tab) = s := modify_same hown.deref
    rw [handleTransResult_noRead server parseJson _ hown.deref hread, hsame]
  | read hread hreceives hyields hstored =>
    rw [handleTransResult_taken hown.deref hown.parent hread hreceives (getData_yields hown hyields), hstored]

/-- What is ready yields something, or waits for answers that do not come. -/
theorem yields_cases {task : Task} (hdata : tab.currTrans.data = some task) (hready : task.state.ready = true)
    (waited : List Answer) :
    (∃ data success, Yields tab waited data success) ∨
      task.state = .deferred ∧ ∃ failure, finish task.transfer waited = .error failure := by
  rcases TaskState.ready_cases hready with hdeferred | ⟨data, hfinished⟩
  · cases hfinish : finish task.transfer waited with
    | error failure => exact .inr ⟨hdeferred, failure, rfl⟩
    | ok result => exact .inl ⟨result.1, result.2, task, hdata, .inr ⟨hdeferred, hfinish⟩⟩
  · exact .inl ⟨data, _, task, hdata, .inl ⟨hfinished, rfl⟩⟩

variable (server parseJson) in
/-- Every other result ends the frame. -/
theorem handleTransResult_stops {handling : Handling} {task : Task} (hown : Own s p tab)
    (hdata : tab.currTrans.data = some task) (hready : task.state.ready = true)
    (h : ¬ Settles tab handling.waited) :
    ∃ failure, s.handleTransResult server parseJson handling p = .error failure := by
  obtain ⟨hread, hreceives, hno⟩ : tab.currTrans.writeTransaction = false ∧
      Receives tab.currTrans.transactionType ∧ ¬ ∃ value success, Yields tab handling.waited (.ok value) success ∧
        (value = none → tab.currTrans.transactionType = TRANS_RECV_TABLET_INFO) := by
    simpa only [Settles, not_or, not_not, Bool.not_eq_true] using h
  rcases yields_cases hdata hready handling.waited with ⟨data, success, hyields⟩ | ⟨hdeferred, failure, hfinish⟩
  · rw [handleTransResult_taken hown.deref hown.parent hread hreceives (getData_yields hown hyields)]
    cases data with
    | error error => exact ⟨_, by rw [handleTransResult_error hreceives]⟩
    | ok value =>
      have hnone : value = none ∧ tab.currTrans.transactionType ≠ TRANS_RECV_TABLET_INFO := by
        constructor
        · by_contra hsome
          exact hno ⟨value, success, hyields, fun h => absurd h hsome⟩
        · intro hname
          exact hno ⟨value, success, hyields, fun _ => hname⟩
      rw [hnone.1]
      exact ⟨_, by rw [handleTransResult_empty hreceives hnone.2]⟩
  · have hget : s.getData p handling.waited = .error failure := by
      unfold State.getData
      rw [tablet_of_deref hown.deref]
      simp only [bind, Except.bind, hdata, hdeferred, hfinish]
    refine ⟨failure, ?_⟩
    unfold Receives at hreceives
    unfold State.handleTransResult
    rw [tablet_of_deref hown.deref]
    simp only [bind, Except.bind, hread, Bool.false_eq_true, if_false, if_pos hreceives, hget]

end

end ScoutingComputer.Bluetooth
