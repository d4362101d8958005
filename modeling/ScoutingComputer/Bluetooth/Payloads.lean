import ScoutingComputer.Bluetooth.FailedRead
import ScoutingComputer.Bluetooth.Request

/-! The payloads of reads: where one is received, where it waits, and where it is
processed.

The bytes of a read lie in the future of the record from the end of the transfer until
the result is handled. What happens to them is written down in notes beside the model:
one when a transfer returns bytes, one when `handleTransResult` uses them. `Accounts`
says of a step and its notes that no payload is lost or made. -/
namespace ScoutingComputer.Bluetooth
open Socket
open Program (bind_done)
open Machine (bind_eq_ok)

structure Payload where
  connection : Nat
  transactionType : TransactionType
  bytes : List UInt8
  deriving DecidableEq, Repr

inductive Note where
  | received (payload : Payload)
  | processed (payload : Payload)

def Note.received? : Note → Option Payload
  | received payload => some payload
  | processed _ => none

def Note.processed? : Note → Option Payload
  | received _ => none
  | processed payload => some payload

namespace BtTabObj

/-- The record is one of a read with a known code. -/
def Reads (tab : BtTabObj) : Prop :=
  tab.currTrans.writeTransaction = false ∧ Receives tab.currTrans.transactionType

instance (tab : BtTabObj) : Decidable tab.Reads := by
  unfold Reads
  infer_instance

/-- The payload of a read that left this data. -/
def payloads (tab : BtTabObj) (data : TransferData) : List Payload :=
  if tab.Reads then
    match data with
    | .ok (some bytes) => [⟨tab.connection, tab.currTrans.transactionType, bytes⟩]
    | _ => []
  else []

/-- The payload in the future of the record. -/
def pending (tab : BtTabObj) : List Payload :=
  match tab.currTrans.data with
  | some ⟨_, _, _, .finished data⟩ => tab.payloads data
  | _ => []

/-- The payload of a transfer that succeeds on these answers. -/
def received (tab : BtTabObj) (transfer : OsProgram (Option (List UInt8) × Bool)) (answers : List Answer) :
    List Payload :=
  match finish transfer answers with
  | .ok (data, true) => tab.payloads data
  | _ => []

/-- The payload that `handleTransResult` uses: the branches of a match and of a name ask
for `success`, that of a match list does not. -/
def processed (tab : BtTabObj) (data : TransferData) (success : Bool) : List Payload :=
  if success ∨ tab.currTrans.transactionType = TRANS_RECV_TAB_MATCH_LIST then tab.payloads data else []

end BtTabObj

namespace State

/-- The payloads that wait to be picked up. -/
def pending (s : State) : List Payload := s.connectedTablets.elements.flatMap BtTabObj.pending

def progressNotes (i : Nat) (s : State) : Progress → List Note
  | .started => []
  | .finished answers =>
    (s.connectedTablets.elements[i]?.elim [] fun tab =>
      tab.currTrans.data.elim [] fun task => tab.received task.transfer answers).map .received

/-- What `data.get()` receives: a transfer that has not finished runs to its end. -/
def takes (p : Pointer) (waited : List Answer) (s : State) : List Payload :=
  match s.connectedTablets.deref p with
  | none => []
  | some tab =>
    match tab.currTrans.data with
    | none => []
    | some ⟨_, _, _, .finished _⟩ => []
    | some task => tab.received task.transfer waited

/-- The notes of `handleTransResult` of the record at `p`. -/
def handleNotes (h : Handling) (p : Pointer) (s : State) : List Note :=
  match s.connectedTablets.deref p, s.getData p h.waited with
  | some tab, .ok (data, s') =>
    (s.takes p h.waited).map .received ++
      ((s'.connectedTablets.deref p).elim [] fun after =>
        tab.processed data after.currTrans.success).map .processed
  | _, _ => []

end State

/-! ### Accounts -/

/-- Each payload that waited or was received has been processed or waits. -/
def Accounts (s : State) (notes : List Note) (s' : State) : Prop :=
  ∀ payload, (notes.filterMap Note.received?).count payload + s.pending.count payload =
    (notes.filterMap Note.processed?).count payload + s'.pending.count payload

/-- The same of one tablet. -/
def AccountsTab (tab : BtTabObj) (notes : List Note) (tab' : BtTabObj) : Prop :=
  ∀ payload, (notes.filterMap Note.received?).count payload + tab.pending.count payload =
    (notes.filterMap Note.processed?).count payload + tab'.pending.count payload

theorem accounts_of_pending {s s' : State} (h : s'.pending = s.pending) : Accounts s [] s' := by
  intro payload
  rw [h]
  rfl

theorem accounts_refl (s : State) : Accounts s [] s := accounts_of_pending rfl

theorem accounts_trans (s₁ s₂ s₃ : State) (a b : List Note) (h₁ : Accounts s₁ a s₂) (h₂ : Accounts s₂ b s₃) :
    Accounts s₁ (a ++ b) s₃ := by
  intro payload
  have hfirst := h₁ payload
  have hsecond := h₂ payload
  rw [List.filterMap_append, List.filterMap_append, List.count_append, List.count_append]
  omega

theorem accountsTab_trans {tab₁ tab₂ tab₃ : BtTabObj} {a b : List Note} (h₁ : AccountsTab tab₁ a tab₂)
    (h₂ : AccountsTab tab₂ b tab₃) : AccountsTab tab₁ (a ++ b) tab₃ := by
  intro payload
  have hfirst := h₁ payload
  have hsecond := h₂ payload
  rw [List.filterMap_append, List.filterMap_append, List.count_append, List.count_append]
  omega

theorem accountsTab_of {tab tab' : BtTabObj} {took used : List Payload}
    (h : took ++ tab.pending = used ++ tab'.pending) :
    AccountsTab tab (took.map .received ++ used.map .processed) tab' := by
  intro payload
  have hcount := congrArg (List.count payload) h
  rw [List.count_append, List.count_append] at hcount
  have hreceived : (took.map Note.received ++ used.map Note.processed).filterMap Note.received? = took := by
    simp [List.filterMap_map, Function.comp_def, Note.received?]
  have hprocessed : (took.map Note.received ++ used.map Note.processed).filterMap Note.processed? = used := by
    simp [List.filterMap_map, Function.comp_def, Note.processed?]
  rw [hreceived, hprocessed]
  exact hcount

/-- A tablet that waits for the same, before and after. -/
theorem accountsTab_same {tab tab' : BtTabObj} (h : tab.pending = tab'.pending) : AccountsTab tab [] tab' := by
  intro payload
  rw [h]
  rfl

/-- A payload that arrives and stays. -/
theorem accountsTab_received {tab tab' : BtTabObj} {took : List Payload} (h : tab.pending = [])
    (h' : tab'.pending = took) : AccountsTab tab (took.map .received) tab' := by
  have haccounts : AccountsTab tab (took.map .received ++ [].map .processed) tab' := by
    apply accountsTab_of
    rw [h, h', List.append_nil, List.nil_append]
  rwa [List.map_nil, List.append_nil] at haccounts

theorem count_flatMap_modify {tabs : List BtTabObj} {i : Nat} {old : BtTabObj} (hi : tabs[i]? = some old)
    (tab : BtTabObj) (payload : Payload) :
    ((tabs.modify i fun _ => tab).flatMap BtTabObj.pending).count payload + old.pending.count payload =
      (tabs.flatMap BtTabObj.pending).count payload + tab.pending.count payload := by
  induction tabs generalizing i with
  | nil => cases hi
  | cons first rest ih =>
    cases i with
    | zero =>
      cases hi
      simp only [List.modify_zero_cons, List.flatMap_cons, List.count_append]
      omega
    | succ i =>
      have hrest := ih hi
      simp only [List.modify_succ_cons, List.flatMap_cons, List.count_append]
      omega

/-- What one tablet accounts for, the state does when nothing else changes. -/
theorem Changes.accounts {s s' : State} {i : Nat} {old tab : BtTabObj} {notes : List Note} (h : Changes s i tab s')
    (hi : s.connectedTablets.elements[i]? = some old) (htab : AccountsTab old notes tab) : Accounts s notes s' := by
  intro payload
  have hcount := count_flatMap_modify hi tab payload
  have hown := htab payload
  have hpending : s'.pending = (s.connectedTablets.elements.modify i fun _ => tab).flatMap BtTabObj.pending := by
    unfold State.pending
    rw [h.tablets]
    rfl
  rw [hpending]
  unfold State.pending
  omega

/-! ### Transfers -/

/-- A read that returns bytes has succeeded. -/
theorem internalRead_success {answers rest : List Answer} {result : Option (List UInt8) × Bool}
    (h : internalRead answers = .done result rest) (hsome : result.1.isSome) : result.2 = true := by
  obtain ⟨acked, rest₁, _, h₁⟩ := bind_done h
  split at h₁
  · obtain ⟨size, rest₂, _, h₂⟩ := bind_done h₁
    split at h₂
    · obtain ⟨_, rest₃, _, h₃⟩ := bind_done h₂
      cases h₃
      cases hsome
    · obtain ⟨acked, rest₃, _, h₃⟩ := bind_done h₂
      split at h₃
      · obtain ⟨message, rest₄, _, h₄⟩ := bind_done h₃
        split at h₄
        · obtain ⟨_, rest₅, _, h₅⟩ := bind_done h₄
          cases h₅
          cases hsome
        · split at h₄
          · cases h₄
          · cases h₄
            rfl
      · cases h₃
        cases hsome
  · cases h₁
    cases hsome

theorem finish_done {transfer : OsProgram (Option (List UInt8) × Bool)} {answers : List Answer}
    {value : Option (List UInt8)} {success : Bool} (h : finish transfer answers = .ok (.ok value, success)) :
    transfer answers = .done (value, success) [] := by
  unfold finish at h
  split at h
  · rename_i value' success' hdone
    cases h
    exact hdone
  · cases h
  · cases h

/-- What is known of the record of every tablet. -/
structure Fit (tab : BtTabObj) : Prop where
  transfer : tab.Reads → ∀ task, tab.currTrans.data = some task → task.transfer = internalRead
  success : tab.pending ≠ [] → tab.currTrans.success = true

variable {tab : BtTabObj} {task : Task} {data : TransferData} {success : Bool} {answers : List Answer}

theorem BtTabObj.payloads_of_not_reads (h : ¬ tab.Reads) (data : TransferData) : tab.payloads data = [] := if_neg h

theorem BtTabObj.pending_of_not_reads (h : ¬ tab.Reads) : tab.pending = [] := by
  unfold BtTabObj.pending
  split
  · exact payloads_of_not_reads h _
  · rfl

theorem BtTabObj.pending_of_data (hdata : tab.currTrans.data = some task)
    (hstate : ∀ data, task.state ≠ .finished data) : tab.pending = [] := by
  unfold BtTabObj.pending
  split
  · rename_i data htask
    rw [hdata] at htask
    cases htask
    exact absurd rfl (hstate data)
  · rfl

theorem BtTabObj.pending_of_none (hdata : tab.currTrans.data = none) : tab.pending = [] := by
  unfold BtTabObj.pending
  rw [hdata]

theorem BtTabObj.pending_of_finished (hdata : tab.currTrans.data = some task) (hstate : task.state = .finished data) :
    tab.pending = tab.payloads data := by
  unfold BtTabObj.pending
  rw [hdata]
  cases task with
  | mk self connection transfer state =>
    cases hstate
    rfl

theorem Fit.success_of_finish (h : Fit tab) (hdata : tab.currTrans.data = some task)
    (hfinish : finish task.transfer answers = .ok (data, success)) (hsome : tab.payloads data ≠ []) :
    success = true := by
  unfold BtTabObj.payloads at hsome
  split at hsome
  · rename_i hreads
    rw [h.transfer hreads task hdata] at hfinish
    split at hsome
    · exact internalRead_success (finish_done hfinish) rfl
    · exact absurd rfl hsome
  · exact absurd rfl hsome

theorem Fit.received (h : Fit tab) (hdata : tab.currTrans.data = some task)
    (hfinish : finish task.transfer answers = .ok (data, success)) :
    tab.received task.transfer answers = tab.payloads data := by
  have hsuccess := h.success_of_finish hdata hfinish
  unfold BtTabObj.received
  rw [hfinish]
  cases success with
  | true => rfl
  | false =>
    symm
    by_contra hsome
    cases hsuccess hsome

theorem processed_eq (h : tab.payloads data ≠ [] → success = true) :
    tab.processed data success = tab.payloads data := by
  unfold BtTabObj.processed
  split
  · rfl
  · rename_i hnot
    symm
    by_contra hsome
    exact hnot (.inl (h hsome))

/-! ### A task that goes on -/

/-- A thread that ends leaves a note of the payload that it returns. -/
theorem progress_accounts {s s' : State} {i : Nat} {p : Progress} (hi : s.connectedTablets.elements[i]? = some tab)
    (hself : ∀ task, tab.currTrans.data = some task → task.state.ready = false →
      task.self = s.connectedTablets.pointer i) (hfit : Fit tab) (h : s.progress i p = .ok s') :
    ∃ task state success, Changes s i (tab.onTask task state success) s' ∧ Fit (tab.onTask task state success) ∧
      AccountsTab tab (s.progressNotes i p) (tab.onTask task state success) := by
  obtain ⟨task, state, success, hdata, hready, hchanges, hcase⟩ := progress_changes hi h hself
  have hempty : tab.pending = [] := by
    apply BtTabObj.pending_of_data hdata
    intro data hstate
    rw [hstate] at hready
    cases hready
  have htransfer : (tab.onTask task state success).Reads → ∀ task',
      (tab.onTask task state success).currTrans.data = some task' → task'.transfer = internalRead := by
    intro hreads task' htask'
    cases htask'
    exact hfit.transfer hreads task hdata
  refine ⟨task, state, success, hchanges, ⟨htransfer, fun hpending => ?_⟩, ?_⟩
  · obtain ⟨_, rfl⟩ | ⟨answers, data, _, rfl, hfinish⟩ := hcase
    · exact absurd rfl hpending
    · exact hfit.success_of_finish hdata hfinish hpending
  · obtain ⟨rfl, rfl⟩ | ⟨answers, data, rfl, rfl, hfinish⟩ := hcase
    · exact accountsTab_same hempty
    · have hnotes : s.progressNotes i (.finished answers) = (tab.payloads data).map .received := by
        simp only [State.progressNotes, hi, hdata, Option.elim, hfit.received hdata hfinish]
      rw [hnotes]
      exact accountsTab_received hempty rfl

/-! ### A result that is handled -/

section
variable {server : Server} {parseJson : Text → Option Json} {handling : Handling} {p : Pointer} {s s' : State}

/-- What `handleTransResult` makes of the bytes of a payload. -/
def usePayload (server : Server) (parseJson : Text → Option Json) (inserts : Nat → Bool) (payload : Payload)
    (parent : TabletInfo) (t : Table) : TabletInfo × Table :=
  if payload.transactionType = TRANS_RECV_MATCH then
    (parent, addMatchDatapoints server inserts 0 (parseMatch (jsonData parseJson (ofBytes payload.bytes))) t)
  else if payload.transactionType = TRANS_RECV_TABLET_INFO then
    ({parent with tabScoutingName := ofBytes payload.bytes}, t)
  else ({parent with tabletMatches := parent.tabletMatches ++ parseMatchIdentifiers (ofBytes payload.bytes)}, t)

/-- A processed payload is stored: the match in the table, the name or the list in the
tablet. -/
theorem handleTransResult_uses (inserts : Nat → Bool) (parent : TabletInfo) (t : Table) {payload : Payload}
    (h : payload ∈ tab.processed data success) :
    handleTransResult server parseJson inserts ⟨tab.currTrans.transactionType, false, success, data⟩ parent t =
      .ok (usePayload server parseJson inserts payload parent t) := by
  unfold BtTabObj.processed BtTabObj.payloads at h
  split at h
  · rename_i huses
    split at h
    · rename_i hreads
      split at h
      · rename_i bytes
        cases List.mem_singleton.mp h
        unfold usePayload
        obtain hmatch | hname | hlist := hreads.2
        · rw [hmatch] at huses ⊢
          cases success with
          | true => rfl
          | false => exact absurd huses (by decide)
        · rw [hname] at huses ⊢
          cases success with
          | true => rfl
          | false => exact absurd huses (by decide)
        · rw [hlist]
          rfl
      · cases h
    · cases h
  · cases h

/-- The result of a read is that of its task, and leaves the record without data. -/
theorem handleTransResult_read (htab : s.connectedTablets.deref p = some tab) (hreads : tab.Reads)
    (hparent : tab.currTrans.parent = some p) (hdata : tab.currTrans.data = some task) (hself : task.self = p)
    (hready : task.state.ready = true) (h : s.handleTransResult server parseJson handling p = .ok s') :
    ∃ data success info t, s.getData p handling.waited = .ok (data, s.modify p.slot fun _ => tab.taken success) ∧
      (task.state = .finished data ∧ tab.currTrans.success = success ∨
        task.state = .deferred ∧ finish task.transfer handling.waited = .ok (data, success)) ∧
      handleTransResult server parseJson handling.inserts ⟨tab.currTrans.transactionType, false, success, data⟩
        tab.info s.table = .ok (info, t) ∧
      s' = {s with table := t}.modify p.slot fun _ => {tab.taken success with info := info} := by
  have hstate : ∃ data success, task.state = .finished data ∧ tab.currTrans.success = success ∨
      task.state = .deferred ∧ finish task.transfer handling.waited = .ok (data, success) := by
    obtain hstate | ⟨data, hstate⟩ := TaskState.ready_cases hready
    · cases hfinish : finish task.transfer handling.waited with
      | ok result => exact ⟨result.1, result.2, .inr ⟨hstate, rfl⟩⟩
      | error e =>
        have hreceives := hreads.2
        unfold Receives at hreceives
        simp only [State.handleTransResult, State.getData, tablet_of_deref htab, bind, Except.bind, hreads.1,
          Bool.false_eq_true, if_false, if_pos hreceives, hdata, hstate, hfinish] at h
        cases h
    · exact ⟨data, _, .inl ⟨hstate, rfl⟩⟩
  obtain ⟨data, success, hstate⟩ := hstate
  have hget := getData_taken htab hdata hself hstate
  rw [handleTransResult_taken htab hparent hreads.1 hreads.2 hget] at h
  cases hresult : handleTransResult server parseJson handling.inserts
      ⟨tab.currTrans.transactionType, false, success, data⟩ tab.info s.table with
  | error e =>
    rw [hresult] at h
    cases h
  | ok result =>
    rw [hresult] at h
    cases h
    exact ⟨data, success, result.1, result.2, hget, hstate, hresult, rfl⟩

theorem handleTransResult_other (htab : s.connectedTablets.deref p = some tab) (hreads : ¬ tab.Reads)
    (h : s.handleTransResult server parseJson handling p = .ok s') : s' = s := by
  unfold State.handleTransResult at h
  rw [tablet_of_deref htab] at h
  simp only [bind, Except.bind] at h
  split at h
  · cases h
    rfl
  · rename_i hread
    have hreceives : ¬ Receives tab.currTrans.transactionType := fun hreceives =>
      hreads ⟨eq_false_of_ne_true hread, hreceives⟩
    unfold Receives at hreceives
    rw [if_neg hreceives] at h
    cases h
    rfl

theorem handleNotes_other (htab : s.connectedTablets.deref p = some tab) (hreads : ¬ tab.Reads) :
    s.handleNotes handling p = [] := by
  have htakes : s.takes p handling.waited = [] := by
    unfold State.takes BtTabObj.received
    simp only [htab, tab.payloads_of_not_reads hreads]
    split
    · rfl
    · rfl
    · split <;> rfl
  have hprocessed : ∀ data success, tab.processed data success = [] := by
    intro data success
    unfold BtTabObj.processed
    rw [tab.payloads_of_not_reads hreads, ite_self]
  unfold State.handleNotes
  rw [htab, htakes]
  cases s.getData p handling.waited with
  | error e => rfl
  | ok result =>
    simp only [hprocessed]
    cases result.2.connectedTablets.deref p <;> rfl

theorem takes_finished {waited : List Answer} (htab : s.connectedTablets.deref p = some tab)
    (hdata : tab.currTrans.data = some task) (hstate : task.state = .finished data) : s.takes p waited = [] := by
  obtain ⟨self, connection, transfer, state⟩ := task
  cases hstate
  unfold State.takes
  rw [htab]
  simp only [hdata]

theorem takes_deferred {waited : List Answer} (htab : s.connectedTablets.deref p = some tab)
    (hdata : tab.currTrans.data = some task) (hstate : task.state = .deferred) :
    s.takes p waited = tab.received task.transfer waited := by
  obtain ⟨self, connection, transfer, state⟩ := task
  cases hstate
  unfold State.takes
  rw [htab]
  simp only [hdata]

/-- Once a read is handled nothing waits in its record, and its payload is processed. -/
theorem handle_accounts (htab : s.connectedTablets.deref p = some tab) (hparent : tab.currTrans.parent = some p)
    (hdata : tab.currTrans.data = some task) (hself : tab.Reads → task.self = p) (hready : task.state.ready = true)
    (hfit : Fit tab) (h : s.handleTransResult server parseJson handling p = .ok s') :
    ∃ tab', Changes s p.slot tab' s' ∧ tab'.currTrans.parent = some p ∧ Fit tab' ∧ tab'.pending = [] ∧
      AccountsTab tab (s.handleNotes handling p) tab' := by
  have hi := (Buffer.deref_iff.mp htab).2
  by_cases hreads : tab.Reads
  · obtain ⟨data, success, info, t, hget, hstate, _, rfl⟩ :=
      handleTransResult_read htab hreads hparent hdata (hself hreads) hready h
    have hempty : ({tab.taken success with info := info} : BtTabObj).pending = [] := BtTabObj.pending_of_none rfl
    refine ⟨_, ⟨rfl, rfl, rfl⟩, hparent, ⟨fun _ task' htask' => ?_, fun hpending => absurd hempty hpending⟩, hempty, ?_⟩
    · cases htask'
    · have hsuccess : tab.payloads data ≠ [] → success = true := by
        intro hsome
        obtain ⟨hfinished, rfl⟩ | ⟨_, hfinish⟩ := hstate
        · apply hfit.success
          rwa [BtTabObj.pending_of_finished hdata hfinished]
        · exact hfit.success_of_finish hdata hfinish hsome
      have hwaits : s.takes p handling.waited ++ tab.pending = tab.payloads data := by
        obtain ⟨hfinished, _⟩ | ⟨hdeferred, hfinish⟩ := hstate
        · rw [BtTabObj.pending_of_finished hdata hfinished, takes_finished htab hdata hfinished, List.nil_append]
        · rw [takes_deferred htab hdata hdeferred, hfit.received hdata hfinish,
            BtTabObj.pending_of_data hdata (by rw [hdeferred]; intro data hstate; cases hstate), List.append_nil]
      have hnotes : s.handleNotes handling p =
          (s.takes p handling.waited).map .received ++ (tab.payloads data).map .processed := by
        have hafter : (s.modify p.slot fun _ => tab.taken success).connectedTablets.deref p =
            some (tab.taken success) := Buffer.deref_modify_self htab _
        simp only [State.handleNotes, htab, hget, hafter, Option.elim, ← processed_eq hsuccess]
        rfl
      rw [hnotes]
      apply accountsTab_of
      rw [hwaits, hempty, List.append_nil]
  · cases handleTransResult_other htab hreads h
    have hempty := BtTabObj.pending_of_not_reads hreads
    rw [handleNotes_other htab hreads]
    exact ⟨tab, .same_state hi rfl rfl rfl, hparent, hfit, hempty, accountsTab_same rfl⟩

/-- A payload that is processed is stored, in the table or in the tablet, and nothing
else of the tablet but its record changes. -/
theorem handleTransResult_stores {payload : Payload} (htab : s.connectedTablets.deref p = some tab)
    (hparent : tab.currTrans.parent = some p) (hdata : tab.currTrans.data = some task) (hself : task.self = p)
    (hready : task.state.ready = true) (hprocessed : .processed payload ∈ s.handleNotes handling p)
    (h : s.handleTransResult server parseJson handling p = .ok s') :
    ∃ success, s' = {s with table := (usePayload server parseJson handling.inserts payload tab.info s.table).2}.modify
      p.slot fun _ => {tab.taken success with
        info := (usePayload server parseJson handling.inserts payload tab.info s.table).1} := by
  have hreads : tab.Reads := by
    by_contra hreads
    rw [handleNotes_other htab hreads] at hprocessed
    cases hprocessed
  obtain ⟨data, success, info, t, hget, _, hresult, rfl⟩ :=
    handleTransResult_read htab hreads hparent hdata hself hready h
  have hafter : (s.modify p.slot fun _ => tab.taken success).connectedTablets.deref p = some (tab.taken success) :=
    Buffer.deref_modify_self htab _
  have hmem : payload ∈ tab.processed data success := by
    unfold State.handleNotes at hprocessed
    simp only [htab, hget, hafter, Option.elim, List.mem_append, List.mem_map] at hprocessed
    obtain ⟨_, _, hnote⟩ | ⟨payload', hmem, hnote⟩ := hprocessed
    · cases hnote
    · cases hnote
      exact hmem
  have hpair := Except.ok.inj ((handleTransResult_uses handling.inserts tab.info s.table hmem).symm.trans hresult)
  exact ⟨success, by rw [hpair]⟩

end

end ScoutingComputer.Bluetooth
