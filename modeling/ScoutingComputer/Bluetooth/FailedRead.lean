import ScoutingComputer.Bluetooth.Identity
import ScoutingComputer.Socket.Failure

/-! What a frame does with a read that failed.

A failed read leaves no data: an empty optional, or the exception of an unknown error
code. Of the three branches that handle a read only the one of the tablet's name tests
the optional, and none catches the exception. So a frame survives exactly the failed
reads of a name that end without an unknown code (`Tolerated`); it then changes nothing
but the record of the tablet. -/
namespace ScoutingComputer.Bluetooth
open Socket
open Machine (bind_eq_ok)

/-- The codes of the transactions that are read. -/
def Receives (transactionType : TransactionType) : Prop :=
  transactionType = TRANS_RECV_MATCH ∨ transactionType = TRANS_RECV_TABLET_INFO ∨
    transactionType = TRANS_RECV_TAB_MATCH_LIST

instance (transactionType : TransactionType) : Decidable (Receives transactionType) := by
  unfold Receives
  infer_instance

/-- A read on these answers leaves no bytes. -/
structure Fails (answers : List Answer) (data : TransferData) (success : Bool) : Prop where
  finish : finish internalRead answers = .ok (data, success)
  empty : ∀ bytes, data ≠ .ok (some bytes)

/-- The tablet at `p` has a read that failed, or that fails when it is waited for. -/
structure FailedRead (p : Pointer) (tab : BtTabObj) (waited answers : List Answer) : Prop where
  parent : tab.currTrans.parent = some p
  read : tab.currTrans.writeTransaction = false
  receives : Receives tab.currTrans.transactionType
  task : ∃ task data success, tab.currTrans.data = some task ∧ task.self = p ∧ task.transfer = internalRead ∧
    Fails answers data success ∧
    (task.state = .finished data ∧ tab.currTrans.success = success ∨ task.state = .deferred ∧ waited = answers)

/-- The failed reads a frame survives. -/
def Tolerated (transactionType : TransactionType) (answers : List Answer) : Prop :=
  transactionType = TRANS_RECV_TABLET_INFO ∧ ¬ ReportsUnknown answers

theorem fails_cases {answers : List Answer} {data : TransferData} {success : Bool} (h : Fails answers data success) :
    (∃ e, data = .error e ∧ ReportsUnknown answers) ∨ data = .ok none ∧ ¬ ReportsUnknown answers := by
  have hfinish := h.finish
  unfold Bluetooth.finish at hfinish
  split at hfinish
  · rename_i value success' hdone
    cases hfinish
    cases value with
    | none => exact .inr ⟨rfl, not_reportsUnknown_of_done hdone⟩
    | some bytes => exact absurd rfl (h.empty bytes)
  · rename_i e hthrows
    cases hfinish
    exact .inl ⟨e, rfl, reportsUnknown_of_throws hthrows⟩
  · cases hfinish

/-! ### The conductor -/

section
variable {server : Server} {parseJson : Text → Option Json} {readWholeFile : String → Text}

/-- The branch of the tablet's name tests the optional. -/
theorem handleTransResult_name (inserts : Nat → Bool) (success : Bool) (parent : TabletInfo) (t : Table) :
    handleTransResult server parseJson inserts ⟨TRANS_RECV_TABLET_INFO, false, success, .ok none⟩ parent t =
      .ok (parent, t) := rfl

/-- The exception in the future is thrown again by each of the branches. -/
theorem handleTransResult_error {transactionType : TransactionType} (hreceives : Receives transactionType)
    (inserts : Nat → Bool) (success : Bool) (e : Exception) (parent : TabletInfo) (t : Table) :
    handleTransResult server parseJson inserts ⟨transactionType, false, success, .error e⟩ parent t =
      .error e := by
  rcases hreceives with rfl | rfl | rfl <;> rfl

/-- The other two branches unwrap the optional. -/
theorem handleTransResult_empty {transactionType : TransactionType} (hreceives : Receives transactionType)
    (hname : transactionType ≠ TRANS_RECV_TABLET_INFO) (inserts : Nat → Bool) (success : Bool)
    (parent : TabletInfo) (t : Table) :
    handleTransResult server parseJson inserts ⟨transactionType, false, success, .ok none⟩ parent t =
      .error .badOptionalAccess := by
  rcases hreceives with rfl | rfl | rfl
  · rfl
  · exact absurd rfl hname
  · rfl

/-! ### The result of one tablet -/

theorem tablet_of_deref {s : State} {p : Pointer} {tab : BtTabObj} (h : s.connectedTablets.deref p = some tab) :
    s.tablet (some p) = .ok tab := by
  simp only [State.tablet, Option.bind_some, h]

theorem tablet_modify_self {s : State} {p : Pointer} {tab : BtTabObj} (h : s.connectedTablets.deref p = some tab)
    (f : BtTabObj → BtTabObj) : (s.modify p.slot f).tablet (some p) = .ok (f tab) :=
  tablet_of_deref (Buffer.deref_modify_self h f)

theorem modify_modify (s : State) (i : Nat) (f g : BtTabObj → BtTabObj) :
    (s.modify i f).modify i g = s.modify i (g ∘ f) := by
  simp only [State.modify, Buffer.modify_modify]

/-- The record of a tablet after its data was taken. -/
def BtTabObj.taken (tab : BtTabObj) (success : Bool) : BtTabObj :=
  {tab with currTrans := {tab.currTrans with
    data := none
    success := success}}

/-- The value of a task that has finished, or that runs when it is asked for. -/
theorem getData_taken {s : State} {p : Pointer} {tab : BtTabObj} {task : Task} {waited : List Answer}
    {data : TransferData} {success : Bool} (htab : s.connectedTablets.deref p = some tab)
    (hdata : tab.currTrans.data = some task) (hself : task.self = p)
    (hstate : task.state = .finished data ∧ tab.currTrans.success = success ∨
      task.state = .deferred ∧ finish task.transfer waited = .ok (data, success)) :
    s.getData p waited = .ok (data, s.modify p.slot fun _ => tab.taken success) := by
  have hi := (Buffer.deref_iff.mp htab).2
  have htaken : s.modifyTrans p.slot (fun trans => {trans with data := none}) =
      s.modify p.slot fun _ => tab.taken tab.currTrans.success := by
    unfold State.modifyTrans State.modify
    rw [Buffer.modify_const hi]
    rfl
  unfold State.getData
  rw [tablet_of_deref htab, htaken]
  simp only [bind, Except.bind, hdata]
  rcases hstate with ⟨hfinished, hsuccess⟩ | ⟨hdeferred, hfinish⟩
  · rw [hfinished, ← hsuccess]
    rfl
  · rw [hdeferred]
    simp only [hfinish]
    unfold State.writeSuccess State.modifyTrans
    rw [hself, tablet_modify_self htab]
    simp only [bind, Except.bind, modify_modify]
    rfl

/-- Handling a read comes down to the conductor's branch. -/
theorem handleTransResult_taken {s : State} {p : Pointer} {tab : BtTabObj} {handling : Handling}
    {data : TransferData} {success : Bool} (htab : s.connectedTablets.deref p = some tab)
    (hparent : tab.currTrans.parent = some p) (hread : tab.currTrans.writeTransaction = false)
    (hreceives : Receives tab.currTrans.transactionType)
    (hget : s.getData p handling.waited = .ok (data, s.modify p.slot fun _ => tab.taken success)) :
    s.handleTransResult server parseJson handling p =
      match handleTransResult server parseJson handling.inserts
          ⟨tab.currTrans.transactionType, false, success, data⟩ tab.info s.table with
      | .ok (info, t) => .ok ({s with table := t}.modify p.slot fun _ => {tab.taken success with info := info})
      | .error e => .error (.threw e) := by
  unfold Receives at hreceives
  unfold State.handleTransResult
  rw [tablet_of_deref htab]
  simp only [bind, Except.bind, hparent, hread, Bool.false_eq_true, if_false,
    if_pos hreceives, hget, tablet_modify_self htab]
  show (match handleTransResult server parseJson handling.inserts
      ⟨tab.currTrans.transactionType, false, success, data⟩ tab.info s.table with
    | .ok (info, t) => _
    | .error e => _) = _
  cases handleTransResult server parseJson handling.inserts
      ⟨tab.currTrans.transactionType, false, success, data⟩ tab.info s.table with
  | error e => rfl
  | ok result =>
    have hmodify := modify_modify {s with table := result.2} p.slot (fun _ => tab.taken success)
      fun tab => {tab with info := result.1}
    exact congrArg Except.ok hmodify

theorem getData_failed {s : State} {p : Pointer} {tab : BtTabObj} {waited answers : List Answer}
    (htab : s.connectedTablets.deref p = some tab) (hread : FailedRead p tab waited answers) :
    ∃ data success, Fails answers data success ∧
      s.getData p waited = .ok (data, s.modify p.slot fun _ => tab.taken success) := by
  obtain ⟨task, data, success, hdata, hself, htransfer, hfails, hstate⟩ := hread.task
  refine ⟨data, success, hfails, getData_taken htab hdata hself (hstate.imp_right ?_)⟩
  rintro ⟨hdeferred, rfl⟩
  rw [htransfer]
  exact ⟨hdeferred, hfails.finish⟩

variable (server parseJson) in
/-- A tolerated read changes the record of its tablet alone. -/
theorem handleTransResult_tolerated {s : State} {p : Pointer} {tab : BtTabObj} {handling : Handling}
    {answers : List Answer} (htab : s.connectedTablets.deref p = some tab)
    (hread : FailedRead p tab handling.waited answers)
    (htolerated : Tolerated tab.currTrans.transactionType answers) :
    ∃ success, s.handleTransResult server parseJson handling p = .ok (s.modify p.slot fun _ => tab.taken success) := by
  obtain ⟨data, success, hfails, hget⟩ := getData_failed htab hread
  obtain ⟨e, _, hunknown⟩ | ⟨rfl, _⟩ := fails_cases hfails
  · exact absurd hunknown htolerated.2
  · refine ⟨success, ?_⟩
    rw [handleTransResult_taken htab hread.parent hread.read hread.receives hget, htolerated.1, handleTransResult_name]
    rfl

variable (server parseJson) in
/-- Every other failed read throws out of the conductor. -/
theorem handleTransResult_throws {s : State} {p : Pointer} {tab : BtTabObj} {handling : Handling}
    {answers : List Answer} (htab : s.connectedTablets.deref p = some tab)
    (hread : FailedRead p tab handling.waited answers)
    (htolerated : ¬ Tolerated tab.currTrans.transactionType answers) :
    ∃ e, s.handleTransResult server parseJson handling p = .error (.threw e) := by
  obtain ⟨data, success, hfails, hget⟩ := getData_failed htab hread
  rw [handleTransResult_taken htab hread.parent hread.read hread.receives hget]
  obtain ⟨e, rfl, _⟩ | ⟨rfl, hknown⟩ := fails_cases hfails
  · exact ⟨e, by rw [handleTransResult_error hread.receives]⟩
  · have hname : tab.currTrans.transactionType ≠ TRANS_RECV_TABLET_INFO := fun hname => htolerated ⟨hname, hknown⟩
    exact ⟨.badOptionalAccess, by rw [handleTransResult_empty hread.receives hname]⟩

/-! ### The loop over the running transactions -/

/-- The task of an entry is not ready. -/
def Waiting (s : State) (e : Running) : Prop :=
  ∃ tab task, s.connectedTablets.deref e.trans = some tab ∧ tab.currTrans.data = some task ∧
    task.state.ready = false

theorem FailedRead.ready {p : Pointer} {tab : BtTabObj} {waited answers : List Answer}
    (h : FailedRead p tab waited answers) : ∃ task, tab.currTrans.data = some task ∧ task.state.ready = true := by
  obtain ⟨task, data, success, hdata, _, _, _, hstate⟩ := h.task
  refine ⟨task, hdata, ?_⟩
  rcases hstate with ⟨hfinished, _⟩ | ⟨hdeferred, _⟩
  · rw [hfinished]
    rfl
  · rw [hdeferred]
    rfl

variable (server parseJson) in
theorem handleEntry_tolerated {s : State} {e : Running} {tab : BtTabObj} {handling : Handling}
    {answers : List Answer} (htab : s.connectedTablets.deref e.trans = some tab)
    (hread : FailedRead e.trans tab handling.waited answers)
    (htolerated : Tolerated tab.currTrans.transactionType answers) :
    ∃ success, s.handleEntry server parseJson handling e =
      .ok (s.modify e.trans.slot fun _ => {tab.taken success with transactionState := false}) := by
  obtain ⟨success, hresult⟩ := handleTransResult_tolerated server parseJson htab hread htolerated
  refine ⟨success, ?_⟩
  have hparent : (tab.taken success).currTrans.parent = some e.trans := hread.parent
  unfold State.handleEntry
  rw [hresult]
  simp only [bind, Except.bind, tablet_modify_self htab, hparent]
  exact congrArg Except.ok (modify_modify ..)

variable (server parseJson) in
theorem handleEntry_throws {s : State} {e : Running} {tab : BtTabObj} {handling : Handling}
    {answers : List Answer} (htab : s.connectedTablets.deref e.trans = some tab)
    (hread : FailedRead e.trans tab handling.waited answers)
    (htolerated : ¬ Tolerated tab.currTrans.transactionType answers) :
    ∃ error, s.handleEntry server parseJson handling e = .error (.threw error) := by
  obtain ⟨error, hresult⟩ := handleTransResult_throws server parseJson htab hread htolerated
  exact ⟨error, by unfold State.handleEntry; rw [hresult]; rfl⟩

variable (server parseJson) in
/-- Entries that wait are passed. -/
theorem runningPass_waiting (handlings : Nat → Handling) {s : State} (before front rest : List Running)
    (h : ∀ e ∈ front, Waiting s e) :
    State.runningPass server parseJson handlings before (front ++ rest) s =
      State.runningPass server parseJson handlings (before ++ front) rest s := by
  induction front generalizing before with
  | nil => rw [List.append_nil, List.nil_append]
  | cons e front ih =>
    obtain ⟨tab, task, htab, hdata, hready⟩ := h e (List.mem_cons_self ..)
    have hnext := ih (before ++ [e]) fun e' he' => h e' (List.mem_cons_of_mem e he')
    rw [List.append_assoc, List.singleton_append] at hnext
    rw [← hnext, List.cons_append]
    conv_lhs => unfold State.runningPass
    rw [tablet_of_deref htab]
    simp only [bind, Except.bind, hdata, hready, Bool.false_eq_true, if_false]

/-- An entry that is ready is handled; the one behind it is passed over. -/
theorem runningPass_ready {handlings : Nat → Handling} {s : State} {e : Running} {tab : BtTabObj} {task : Task}
    (htab : s.connectedTablets.deref e.trans = some tab) (hdata : tab.currTrans.data = some task)
    (hready : task.state.ready = true) (before rest : List Running) :
    State.runningPass server parseJson handlings before (e :: rest) s = (do
      let s ← s.handleEntry server parseJson (handlings e.connection) e
      State.runningPass server parseJson handlings (before ++ rest.take 1) (rest.drop 1) s) := by
  conv_lhs => unfold State.runningPass
  rw [tablet_of_deref htab]
  simp only [bind, Except.bind, hdata, hready, if_true]
  cases State.handleEntry server parseJson (handlings e.connection) e s with
  | error error => rfl
  | ok s' =>
    cases rest with
    | nil =>
      simp only [List.take_nil, List.drop_nil, List.append_nil]
      rfl
    | cons next rest => rfl

theorem Waiting.ne {s : State} {e : Running} {p : Pointer} {tab : BtTabObj} {waited answers : List Answer}
    (h : Waiting s e) (htab : s.connectedTablets.deref p = some tab) (hread : FailedRead p tab waited answers) :
    e.trans ≠ p := by
  intro heq
  obtain ⟨tab', task', htab', hdata', hwaiting⟩ := h
  obtain ⟨task, hdata, hready⟩ := hread.ready
  rw [heq, htab] at htab'
  cases htab'
  rw [hdata] at hdata'
  cases hdata'
  rw [hready] at hwaiting
  cases hwaiting

/-- A change of another tablet. -/
theorem Waiting.modify {s : State} {e : Running} {p : Pointer} {tab : BtTabObj} (h : Waiting s e)
    (htab : s.connectedTablets.deref p = some tab) (hne : e.trans ≠ p) (f : BtTabObj → BtTabObj) :
    Waiting (s.modify p.slot f) e := by
  obtain ⟨tab', task, htab', hdata, hready⟩ := h
  have hslot : p.slot ≠ e.trans.slot := by
    intro hslot
    have hbuffer : p.buffer = e.trans.buffer :=
      (Buffer.deref_iff.mp htab).1.trans (Buffer.deref_iff.mp htab').1.symm
    exact hne (congrArg₂ Pointer.mk hbuffer.symm hslot.symm)
  exact ⟨tab', task, (Buffer.deref_modify_other hslot f).trans htab', hdata, hready⟩

/-! ### What a request leaves alone -/

/-- At most records of transactions change. -/
structure Keeps (s s' : State) : Prop where
  identity : s'.connectedTablets.identity = s.connectedTablets.identity
  tablets : s'.connectedTablets.elements.map (fun tab => (tab.info, tab.transactionState)) =
    s.connectedTablets.elements.map fun tab => (tab.info, tab.transactionState)
  running : s'.runningTransactions = s.runningTransactions
  table : s'.table = s.table

theorem Keeps.refl (s : State) : Keeps s s := ⟨rfl, rfl, rfl, rfl⟩

theorem Keeps.trans {s₁ s₂ s₃ : State} (h : Keeps s₁ s₂) (h' : Keeps s₂ s₃) : Keeps s₁ s₃ :=
  ⟨h'.identity.trans h.identity, h'.tablets.trans h.tablets, h'.running.trans h.running, h'.table.trans h.table⟩

theorem Keeps.symm {s s' : State} (h : Keeps s s') : Keeps s' s :=
  ⟨h.identity.symm, h.tablets.symm, h.running.symm, h.table.symm⟩

theorem Keeps.pointer {s s' : State} (h : Keeps s s') (i : Nat) :
    s'.connectedTablets.pointer i = s.connectedTablets.pointer i := congrArg (Pointer.mk · i) h.identity

theorem Keeps.getElem? {s s' : State} {i : Nat} {old : BtTabObj} (h : Keeps s s')
    (hi : s.connectedTablets.elements[i]? = some old) :
    ∃ tab, s'.connectedTablets.elements[i]? = some tab ∧ tab.info = old.info ∧
      tab.transactionState = old.transactionState := by
  have hmap := congrArg (·[i]?) h.tablets
  simp only [List.getElem?_map, hi, Option.map_some, Option.map_eq_some_iff] at hmap
  obtain ⟨tab, htab, heq⟩ := hmap
  obtain ⟨hinfo, hflag⟩ := Prod.mk.inj heq
  exact ⟨tab, htab, hinfo, hflag⟩

theorem keeps_modify {s : State} {i : Nat} {f : BtTabObj → BtTabObj}
    (h : ∀ tab, s.connectedTablets.elements[i]? = some tab →
      (f tab).info = tab.info ∧ (f tab).transactionState = tab.transactionState) : Keeps s (s.modify i f) :=
  ⟨rfl, map_modify fun tab hi => Prod.ext (h tab hi).1 (h tab hi).2, rfl, rfl⟩

theorem keeps_modifyTrans (s : State) (i : Nat) (f : TabTransaction → TabTransaction) : Keeps s (s.modifyTrans i f) :=
  keeps_modify fun _ _ => ⟨rfl, rfl⟩

theorem keeps_records : KeptByRecords Keeps := ⟨Keeps.refl, Keeps.trans, keeps_modifyTrans⟩

variable (server readWholeFile) in
theorem initReadyTransaction_keeps (visit : Visit) (self : Pointer) (t : Table) (tab : BtTabObj) :
    (initReadyTransaction server readWholeFile visit self t tab).1.info = tab.info ∧
      (initReadyTransaction server readWholeFile visit self t tab).1.transactionState = tab.transactionState := by
  unfold initReadyTransaction
  simp only
  split
  · exact ⟨rfl, rfl⟩
  · split
    · split <;> exact ⟨rfl, rfl⟩
    · exact ⟨rfl, rfl⟩

/-- Only a tablet that is not busy makes a request. -/
theorem requestTransaction_keeps {i : Nat} {visit : Visit} {s s' : State}
    (h : s.requestTransaction server readWholeFile i visit = .ok (some s')) :
    Keeps s s' ∧ ∀ old, s.connectedTablets.elements[i]? = some old → old.transactionState = false := by
  unfold State.requestTransaction at h
  cases hi : s.connectedTablets.elements[i]? with
  | none =>
    rw [hi] at h
    cases h
  | some old =>
    rw [hi] at h
    simp only at h
    split at h
    · cases h
    · rename_i hfree
      obtain ⟨tab, hread, h⟩ := bind_eq_ok h
      obtain ⟨s₁, hprogress, h⟩ := bind_eq_ok h
      cases h
      have hkept : tab.info = old.info ∧ tab.transactionState = old.transactionState := by
        obtain ⟨_, _, _, rfl⟩ := readTransactionData_spec hread
        exact ⟨rfl, rfl⟩
      have hrequest := initReadyTransaction_keeps server readWholeFile visit
        (s.connectedTablets.pointer i) s.table tab
      generalize initReadyTransaction server readWholeFile visit (s.connectedTablets.pointer i) s.table tab =
        request at hprogress hrequest
      have hfirst : Keeps s (s.modify i fun _ => request.1) := by
        apply keeps_modify
        intro tab' htab'
        rw [hi] at htab'
        cases htab'
        exact ⟨hrequest.1.trans hkept.1, hrequest.2.trans hkept.2⟩
      have hclosed : Keeps s {s.modify i fun _ => request.1 with
          closed := if request.2 then s.closed ++ [tab.socket] else s.closed} :=
        ⟨hfirst.identity, hfirst.tablets, rfl, rfl⟩
      refine ⟨hclosed.trans (keeps_records.progressAll hprogress), fun old' hold => ?_⟩
      cases hold
      rw [Bool.not_eq_true, Bool.or_eq_false_iff] at hfree
      exact hfree.2

/-! ### Frames -/

/-- Everything is as it was, and the tablet at `p`, which was `old`, is free. -/
structure Unharmed (p : Pointer) (old : BtTabObj) (s s' : State) : Prop where
  table : s'.table = s.table
  tablet : ∃ tab, s'.connectedTablets.deref p = some tab ∧ tab.info = old.info ∧ tab.transactionState = false
  noEntry : ∀ e ∈ s'.runningTransactions, e.trans ≠ p

theorem unharmed_modify {s : State} {p : Pointer} {old tab : BtTabObj} {running : List Running}
    (hold : s.connectedTablets.deref p = some old) (hinfo : tab.info = old.info)
    (hflag : tab.transactionState = false) (hno : ∀ e ∈ running, e.trans ≠ p) :
    Unharmed p old s {s.modify p.slot fun _ => tab with runningTransactions := running} :=
  ⟨rfl, ⟨tab, Buffer.deref_modify_self hold _, hinfo, hflag⟩, hno⟩

/-- One iteration of the loop over the running transactions. -/
theorem iteration_iff {handling : Handling} {s : State} {e : Running} {others : List Running} {tab : BtTabObj}
    {answers : List Answer} (htab : s.connectedTablets.deref e.trans = some tab)
    (hread : FailedRead e.trans tab handling.waited answers) (hothers : ∀ e' ∈ others, e'.trans ≠ e.trans) :
    (∃ s', s.handleEntry server parseJson handling e = .ok s' ∧
        Unharmed e.trans tab s {s' with runningTransactions := others}) ↔
      Tolerated tab.currTrans.transactionType answers := by
  constructor
  · intro h
    obtain ⟨s', hentry, _⟩ := h
    by_contra htolerated
    obtain ⟨error, hthrows⟩ := handleEntry_throws server parseJson htab hread htolerated
    rw [hthrows] at hentry
    cases hentry
  · intro htolerated
    obtain ⟨success, hentry⟩ := handleEntry_tolerated server parseJson htab hread htolerated
    exact ⟨_, hentry, unharmed_modify htab rfl rfl hothers⟩

/-- The frame in which the read is the one transaction that has finished. -/
theorem frame_iff {handlings : Nat → Handling} {s : State} {e : Running} {before after : List Running} {tab : BtTabObj}
    {answers : List Answer} (hrunning : s.runningTransactions = before ++ e :: after)
    (htab : s.connectedTablets.deref e.trans = some tab)
    (hread : FailedRead e.trans tab (handlings e.connection).waited answers)
    (hothers : ∀ e' ∈ before ++ after, Waiting s e') :
    (∃ s', s.handleRunningTransactions server parseJson handlings = .ok s' ∧ Unharmed e.trans tab s s') ↔
      Tolerated tab.currTrans.transactionType answers := by
  obtain ⟨task, hdata, hready⟩ := hread.ready
  have hlength : s.runningTransactions.length = (before ++ after).length + 1 := by
    rw [hrunning]
    simp only [List.length_append, List.length_cons]
    omega
  have hreach : State.runningPass server parseJson handlings [] s.runningTransactions s = (do
      let s ← s.handleEntry server parseJson (handlings e.connection) e
      State.runningPass server parseJson handlings (before ++ after.take 1) (after.drop 1) s) := by
    rw [hrunning, runningPass_waiting server parseJson handlings [] before (e :: after)
      fun e' he' => hothers e' (List.mem_append_left _ he')]
    exact runningPass_ready htab hdata hready before after
  unfold State.handleRunningTransactions
  rw [hlength]
  unfold State.runningPasses
  constructor
  · intro h
    obtain ⟨s', hframe, _⟩ := h
    by_contra htolerated
    obtain ⟨error, hthrows⟩ := handleEntry_throws server parseJson htab hread htolerated
    rw [hreach, hthrows] at hframe
    cases hframe
  · intro htolerated
    obtain ⟨success, hentry⟩ := handleEntry_tolerated server parseJson htab hread htolerated
    have hleft : ∀ e' ∈ before ++ after, e'.trans ≠ e.trans := fun e' he' => (hothers e' he').ne htab hread
    generalize hfreed : s.modify e.trans.slot (fun _ => {tab.taken success with transactionState := false}) = freed
      at hentry
    -- the entries that are left still wait, so the pass ends
    have hpass : State.runningPass server parseJson handlings [] s.runningTransactions s =
        .ok (before ++ after, false, freed) := by
      have hrest := runningPass_waiting server parseJson handlings
        (s := freed) (before ++ after.take 1) (after.drop 1) [] fun e' he' => by
          have hmem : e' ∈ before ++ after := List.mem_append_right _ (List.mem_of_mem_drop he')
          rw [← hfreed]
          exact (hothers e' hmem).modify htab (hleft e' hmem) _
      rw [List.append_nil, List.append_assoc, List.take_append_drop] at hrest
      rw [hreach, hentry]
      exact hrest
    refine ⟨{freed with runningTransactions := before ++ after}, ?_, ?_⟩
    · rw [hpass]
      rfl
    · rw [← hfreed]
      exact unharmed_modify htab rfl rfl hleft

/-- The frame that requests the read and finds it ready at once. -/
theorem atOnce_iff {visits : Nat → Visit} {s s₁ s₂ : State} {i : Nat} {old tab : BtTabObj} {answers : List Answer}
    (hold : s.connectedTablets.elements[i]? = some old)
    (hno : ∀ e ∈ s.runningTransactions, e.trans ≠ s.connectedTablets.pointer i)
    (hrequest : s.requestTransaction server readWholeFile i (visits i) = .ok (some s₁))
    (hrefused : s₁.refused i = false) (hprogress : s₁.progressAll i (visits i).beforeReady = .ok s₂)
    (htab : s₂.connectedTablets.elements[i]? = some tab)
    (hread : FailedRead (s.connectedTablets.pointer i) tab (visits i).waited answers) :
    (∃ s', State.visitConnection server parseJson readWholeFile visits s i = .ok s' ∧
        Unharmed (s.connectedTablets.pointer i) old s s') ↔
      Tolerated tab.currTrans.transactionType answers := by
  obtain ⟨hkeeps₁, hfree⟩ := requestTransaction_keeps hrequest
  have hkeeps := hkeeps₁.trans (keeps_records.progressAll hprogress)
  have hpointer₁ : s₁.connectedTablets.pointer i = s.connectedTablets.pointer i := by
    unfold Buffer.pointer
    rw [hkeeps₁.identity]
  have hpointer : s₂.connectedTablets.pointer i = s.connectedTablets.pointer i := by
    unfold Buffer.pointer
    rw [hkeeps.identity]
  obtain ⟨tab₁, htab₁, _⟩ := hkeeps₁.getElem? hold
  obtain ⟨tab', htab', hinfo, hflag⟩ := hkeeps.getElem? hold
  rw [htab] at htab'
  cases htab'
  have hderef : s₂.connectedTablets.deref (s.connectedTablets.pointer i) = some tab := by
    rw [← hpointer, Buffer.deref_pointer]
    exact htab
  obtain ⟨task, hdata, hready⟩ := hread.ready
  have hvisit : State.visitConnection server parseJson readWholeFile visits s i =
      s₂.handleTransResult server parseJson ⟨(visits i).inserts, (visits i).waited⟩ (s.connectedTablets.pointer i) := by
    unfold State.visitConnection
    rw [hrequest]
    simp only [bind, Except.bind, tablet_pointer htab₁, hrefused, Bool.false_eq_true, if_false, hprogress]
    rw [hpointer₁, tablet_of_deref hderef]
    simp only [TabTransaction.isReady, hdata, hready, if_true]
  rw [hvisit]
  have hread' : FailedRead (s.connectedTablets.pointer i) tab
      (Handling.mk (visits i).inserts (visits i).waited).waited answers := hread
  constructor
  · intro h
    obtain ⟨s', hresult, _⟩ := h
    by_contra htolerated
    obtain ⟨error, hthrows⟩ := handleTransResult_throws server parseJson hderef hread' htolerated
    rw [hthrows] at hresult
    cases hresult
  · intro htolerated
    obtain ⟨success, hresult⟩ := handleTransResult_tolerated server parseJson hderef hread' htolerated
    refine ⟨_, hresult, hkeeps.table, ⟨tab.taken success, Buffer.deref_modify_self hderef _, hinfo, ?_⟩, ?_⟩
    · exact hflag.trans (hfree old hold)
    · intro e he
      exact hno e (hkeeps.running ▸ he)

end

/-! ### Reads that fail -/

/-- The peer closes before the number of bytes. -/
def peerCloses : List Answer :=
  [.malloc true, .send (.count 3), .getTime 0, .malloc true, .recv (.bytes []) 0 0, .malloc true, .send (.count 3)]

/-- The receive of the number of bytes reports a code. -/
def receiveReports (code : Int) : List Answer :=
  [.malloc true, .send (.count 3), .getTime 0, .malloc true, .recv (.error code) 0 0]

/-- A tablet joins and sends a code; the thread of its transfer meets the answers. -/
def readEnds (code : UInt8) (answers : List Answer) : List Event :=
  [joins 10 1, requests code, .progress 0 .started, .progress 0 (.finished answers)]

/-- An outcome with an error, computed without the state. -/
theorem eq_error_of_map {α : Type} {x : Checked α} {e : Failure} (h : x.map (fun _ => ()) = .error e) :
    x = .error e := by
  cases x with
  | error e' =>
    cases h
    rfl
  | ok a => cases h

/-- Every `INSERT` is executed. -/
def plainHandlings : Nat → Handling := fun _ => ⟨fun _ => true, []⟩

/-- **A frame survives a failed read exactly when it is tolerated**: the frame in which
it is the one transaction that has finished, the iteration that handles it in any frame,
and the frame that requests it and finds it ready at once. -/
theorem failed_read_iff (server : Server) (parseJson : Text → Option Json) (readWholeFile : String → Text)
    (tab : BtTabObj) (answers : List Answer) :
    (∀ (handlings : Nat → Handling) (s : State) (e : Running) (before after : List Running),
      s.runningTransactions = before ++ e :: after → s.connectedTablets.deref e.trans = some tab →
      FailedRead e.trans tab (handlings e.connection).waited answers →
      (∀ e' ∈ before ++ after, Waiting s e') →
      ((∃ s', s.handleRunningTransactions server parseJson handlings = .ok s' ∧ Unharmed e.trans tab s s') ↔
        Tolerated tab.currTrans.transactionType answers)) ∧
    (∀ (handling : Handling) (s : State) (e : Running) (others : List Running),
      s.connectedTablets.deref e.trans = some tab → FailedRead e.trans tab handling.waited answers →
      (∀ e' ∈ others, e'.trans ≠ e.trans) →
      ((∃ s', s.handleEntry server parseJson handling e = .ok s' ∧
          Unharmed e.trans tab s {s' with runningTransactions := others}) ↔
        Tolerated tab.currTrans.transactionType answers)) ∧
    ∀ (visits : Nat → Visit) (s s₁ s₂ : State) (i : Nat) (old : BtTabObj),
      s.connectedTablets.elements[i]? = some old →
      (∀ e ∈ s.runningTransactions, e.trans ≠ s.connectedTablets.pointer i) →
      s.requestTransaction server readWholeFile i (visits i) = .ok (some s₁) → s₁.refused i = false →
      s₁.progressAll i (visits i).beforeReady = .ok s₂ → s₂.connectedTablets.elements[i]? = some tab →
      FailedRead (s.connectedTablets.pointer i) tab (visits i).waited answers →
      ((∃ s', State.visitConnection server parseJson readWholeFile visits s i = .ok s' ∧
          Unharmed (s.connectedTablets.pointer i) old s s') ↔
        Tolerated tab.currTrans.transactionType answers) := by
  refine ⟨?_, ?_, ?_⟩
  · intro handlings s e before after hrunning htab hread hothers
    exact frame_iff hrunning htab hread hothers
  · intro handling s e others htab hread hothers
    exact iteration_iff htab hread hothers
  · intro visits s s₁ s₂ i old hold hno hrequest hrefused hprogress htab hread
    exact atOnce_iff hold hno hrequest hrefused hprogress htab hread

theorem failed_read_iff_name :
    ∃ s tab, Machine.run (step plainServer (fun _ => none) fun _ => []) (emptyState ⟨[], 0⟩)
        (readEnds 2 peerCloses) = some s ∧ s.connectedTablets.deref ⟨1, 0⟩ = some tab ∧
      FailedRead ⟨1, 0⟩ tab [] peerCloses ∧
      ∃ s', s.handleRunningTransactions plainServer (fun _ => none) plainHandlings = .ok s' ∧
        Unharmed ⟨1, 0⟩ tab s s' := by
  refine ⟨_, _, rfl, rfl, ?_⟩
  refine and_iff_left_of_imp ?_ |>.mpr ?_
  · intro hread
    exact ((failed_read_iff plainServer (fun _ => none) (fun _ => []) _ peerCloses).1 plainHandlings
      _ ⟨⟨1, 0⟩, 0⟩ [] [] rfl rfl hread (fun _ h => absurd h (List.not_mem_nil))).mpr
      ⟨rfl, not_reportsUnknown_of_done rfl⟩
  · exact ⟨rfl, rfl, .inr (.inl rfl), _, .ok none, false, rfl, rfl, rfl, ⟨rfl, fun _ h => by cases h⟩, .inl ⟨rfl, rfl⟩⟩

/-- The peer closes while a match is read, and a receive reports a code that the table
does not have while a name is read: the frames throw. -/
theorem failed_read_takes_the_server_down :
    (∃ s tab, Machine.run (step plainServer (fun _ => none) fun _ => []) (emptyState ⟨[], 0⟩)
        (readEnds 1 peerCloses) = some s ∧ s.connectedTablets.deref ⟨1, 0⟩ = some tab ∧
      FailedRead ⟨1, 0⟩ tab [] peerCloses ∧
      s.handleRunningTransactions plainServer (fun _ => none) plainHandlings = .error (.threw .badOptionalAccess)) ∧
    ∃ s tab, Machine.run (step plainServer (fun _ => none) fun _ => []) (emptyState ⟨[], 0⟩)
        (readEnds 2 (receiveReports 11033)) = some s ∧ s.connectedTablets.deref ⟨1, 0⟩ = some tab ∧
      FailedRead ⟨1, 0⟩ tab [] (receiveReports 11033) ∧
      s.handleRunningTransactions plainServer (fun _ => none) plainHandlings = .error (.threw .outOfRange) := by
  constructor
  · refine ⟨_, _, rfl, rfl, ?_, eq_error_of_map (by decide +kernel)⟩
    exact ⟨rfl, rfl, .inl rfl, _, .ok none, false, rfl, rfl, rfl, ⟨rfl, fun _ h => by cases h⟩, .inl ⟨rfl, rfl⟩⟩
  · refine ⟨_, _, rfl, rfl, ?_, eq_error_of_map (by decide +kernel)⟩
    exact ⟨rfl, rfl, .inr (.inl rfl), _, .error .outOfRange, true, rfl, rfl, rfl, ⟨rfl, fun _ h => by cases h⟩,
      .inl ⟨rfl, rfl⟩⟩

end ScoutingComputer.Bluetooth
