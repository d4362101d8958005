import ScoutingComputer.Bluetooth.Sound
import ScoutingComputer.Foundation.Run

/-! What the operations on one tablet change.

A request, a transfer that goes on and a result that is handled all work on the record
of one tablet. Each lemma says that nothing but that tablet changes, and what of it
stays. -/
namespace ScoutingComputer.Bluetooth
open Socket
open Machine (bind_eq_ok)

/-- Of tablets, connections and running transactions only tablet `i` changes. -/
structure Changes (s : State) (i : Nat) (tab : BtTabObj) (s' : State) : Prop where
  tablets : s'.connectedTablets = s.connectedTablets.modify i fun _ => tab
  running : s'.runningTransactions = s.runningTransactions
  accepted : s'.accepted = s.accepted

theorem changes_modify {s : State} {i : Nat} {tab : BtTabObj} (hi : s.connectedTablets.elements[i]? = some tab)
    (f : BtTabObj → BtTabObj) : Changes s i (f tab) (s.modify i f) :=
  ⟨Buffer.modify_const hi f, rfl, rfl⟩

theorem Changes.getElem? {s s' : State} {i : Nat} {old tab : BtTabObj} (h : Changes s i tab s')
    (hi : s.connectedTablets.elements[i]? = some old) : s'.connectedTablets.elements[i]? = some tab := by
  rw [h.tablets, Buffer.modify_getElem?, if_pos rfl, hi]
  rfl

theorem Changes.pointer {s s' : State} {i : Nat} {tab : BtTabObj} (h : Changes s i tab s') :
    s'.connectedTablets.pointer i = s.connectedTablets.pointer i := by
  rw [h.tablets]
  rfl

theorem Changes.trans {s₁ s₂ s₃ : State} {i : Nat} {tab₂ tab₃ : BtTabObj} (h : Changes s₁ i tab₂ s₂)
    (h' : Changes s₂ i tab₃ s₃) : Changes s₁ i tab₃ s₃ := by
  refine ⟨?_, h'.running.trans h.running, h'.accepted.trans h.accepted⟩
  rw [h'.tablets, h.tablets, Buffer.modify_modify]
  rfl

theorem Changes.same_state {s s' : State} {i : Nat} {tab : BtTabObj} (hi : s.connectedTablets.elements[i]? = some tab)
    (htablets : s'.connectedTablets = s.connectedTablets) (hrunning : s'.runningTransactions = s.runningTransactions)
    (haccepted : s'.accepted = s.accepted) : Changes s i tab s' := by
  refine ⟨?_, hrunning, haccepted⟩
  have hid := Buffer.modify_const hi id
  simp only [Buffer.modify, List.modify_id, id_eq] at hid ⊢
  rw [htablets]
  exact hid

theorem tablet_eq_ok {s : State} {p : Option Pointer} {tab : BtTabObj} (h : s.tablet p = .ok tab) :
    ∃ q, p = some q ∧ s.connectedTablets.deref q = some tab := by
  unfold State.tablet at h
  cases p with
  | none => cases h
  | some q =>
    rw [Option.bind_some] at h
    cases hq : s.connectedTablets.deref q with
    | none =>
      rw [hq] at h
      cases h
    | some tab' =>
      rw [hq] at h
      cases h
      exact ⟨q, rfl, hq⟩

/-- The tablet at a place, found through a pointer to it. -/
theorem tablet_pointer {s : State} {i : Nat} {tab : BtTabObj} (hi : s.connectedTablets.elements[i]? = some tab) :
    s.tablet (some (s.connectedTablets.pointer i)) = .ok tab := by
  simp only [State.tablet, Option.bind_some, Buffer.deref_pointer, hi]

/-! ### Joining and leaving -/

/-- The tablet that joins, with its socket and the number of its connection. -/
def Accept.joining (a : Accept) (peer connection : Nat) : BtTabObj where
  connection := connection
  socket := peer
  callType := .CALLTYPE_DEFAULT
  currTrans := .new
  info := ⟨a.addrStr, []⟩
  transactionState := false
  killButton := a.killButton

/-- Nobody asks, or a tablet with a socket of its own joins behind the others. -/
theorem acceptConn_cases {s s' : State} {a : Accept} (h : s.acceptConn a = .ok s') :
    (a.peer = none ∧ s' = s) ∨
    ∃ peer, a.peer = some peer ∧ (∀ tab ∈ s.connectedTablets.elements, tab.socket ≠ peer) ∧
      s' = {s with
        connectedTablets := s.connectedTablets.push a.growth (a.joining peer s.accepted)
        accepted := s.accepted + 1} := by
  unfold State.acceptConn at h
  cases hpeer : a.peer with
  | none =>
    rw [hpeer] at h
    cases h
    exact .inl ⟨rfl, rfl⟩
  | some peer =>
    simp only [hpeer] at h
    split at h
    · cases h
    · rename_i hnew
      cases h
      refine .inr ⟨peer, rfl, fun tab htab heq => ?_, rfl⟩
      exact hnew (List.any_eq_true.mpr ⟨tab, htab, decide_eq_true heq⟩)

/-- The state without tablet `i`, whose socket is closed. -/
def State.without (i : Nat) (socket : Nat) (s : State) : State :=
  {s with connectedTablets := s.connectedTablets.erase i, closed := s.closed ++ [socket]}

/-- The first tablet with the socket leaves, or there is none. -/
theorem killSocket_cases (s : State) (deleteSock : Nat) :
    (∃ i tab, s.connectedTablets.elements.findIdx? (·.socket = deleteSock) = some i ∧
      s.connectedTablets.elements[i]? = some tab ∧ tab.socket = deleteSock ∧
      (s.killSocket deleteSock).1 = s.without i deleteSock) ∨
    (∀ tab ∈ s.connectedTablets.elements, tab.socket ≠ deleteSock) ∧ (s.killSocket deleteSock).1 = s := by
  unfold State.killSocket
  cases hfind : s.connectedTablets.elements.findIdx? (·.socket = deleteSock) with
  | some i =>
    obtain ⟨hlt, hsocket, _⟩ := List.findIdx?_eq_some_iff_getElem.mp hfind
    exact .inl ⟨i, _, rfl, List.getElem?_eq_getElem hlt, of_decide_eq_true hsocket, rfl⟩
  | none =>
    refine .inr ⟨fun tab htab => ?_, rfl⟩
    exact of_decide_eq_false (List.findIdx?_eq_none_iff.mp hfind tab htab)

/-- The tablet with a socket of the list leaves. -/
theorem killSocket_erases {s : State} {i : Nat} {tab : BtTabObj} (hi : s.connectedTablets.elements[i]? = some tab) :
    ∃ j tab', s.connectedTablets.elements[j]? = some tab' ∧ tab'.socket = tab.socket ∧
      (s.killSocket tab.socket).1 = s.without j tab.socket := by
  obtain ⟨j, tab', _, hj, hsocket, hkill⟩ | ⟨hno, _⟩ := killSocket_cases s tab.socket
  · exact ⟨j, tab', hj, hsocket, hkill⟩
  · exact absurd rfl (hno tab (List.mem_of_getElem? hi))

/-- With distinct sockets it is that tablet. -/
theorem killSocket_at {s : State} {i accepted : Nat} {tab : BtTabObj} (h : Distinct s.connectedTablets.elements accepted)
    (hi : s.connectedTablets.elements[i]? = some tab) : (s.killSocket tab.socket).1 = s.without i tab.socket := by
  obtain ⟨j, tab', hj, hsocket, hkill⟩ := killSocket_erases hi
  have hplace : i = j := place_unique h.sockets hi hj hsocket.symm
  rw [hkill, hplace]

/-! ### Tasks -/

/-- The record of tablet `i` between its request and the end of its transaction. The task
is the one launched for it, or an old one that is ready and will not be asked for. -/
structure Requested (place : Pointer) (old tab : BtTabObj) : Prop where
  same : Same old tab
  notBusy : tab.transactionState = false
  parent : tab.currTrans.parent = some place
  data : ∀ task, tab.currTrans.data = some task → (task.self = place ∧ task.connection = old.connection) ∨
    (task.state.ready = true ∧ (tab.currTrans.writeTransaction = true ∨ tab.currTrans.batmanTrans = true))

/-- A task that is not ready is the one that was launched. -/
theorem Requested.launched {place : Pointer} {old tab : BtTabObj} {task : Task} (h : Requested place old tab)
    (hdata : tab.currTrans.data = some task) (hready : task.state.ready = false) :
    task.self = place ∧ task.connection = old.connection := by
  obtain hlaunched | ⟨hold, _⟩ := h.data task hdata
  · exact hlaunched
  · rw [hready] at hold
    cases hold

/-- So is that of a read which is not an error. -/
theorem Requested.self_of_read {place : Pointer} {old tab : BtTabObj} {task : Task} (h : Requested place old tab)
    (hread : tab.currTrans.writeTransaction = false) (hbatman : tab.currTrans.batmanTrans = false)
    (hdata : tab.currTrans.data = some task) : task.self = place := by
  obtain ⟨hself, _⟩ | ⟨_, hwrite | hbat⟩ := h.data task hdata
  · exact hself
  · rw [hread] at hwrite
    cases hwrite
  · rw [hbatman] at hbat
    cases hbat

/-- The tablet, with the task of its record in a state and `success` set. -/
def BtTabObj.onTask (tab : BtTabObj) (task : Task) (state : TaskState) (success : Bool) : BtTabObj :=
  {tab with currTrans := {tab.currTrans with
    data := some {task with state := state}
    success := success}}

theorem progress_connected {s s' : State} {i : Nat} {p : Progress} (h : s.progress i p = .ok s') :
    ∃ tab, s.connectedTablets.elements[i]? = some tab := by
  unfold State.progress at h
  cases hi : s.connectedTablets.elements[i]? with
  | none =>
    rw [hi] at h
    cases h
  | some tab => exact ⟨tab, rfl⟩

/-- The thread of a task that was launched for tablet `i` changes only that tablet: it
begins with the task, or ends it. -/
theorem progress_changes {s s' : State} {i : Nat} {p : Progress} {tab : BtTabObj}
    (hi : s.connectedTablets.elements[i]? = some tab) (h : s.progress i p = .ok s')
    (hself : ∀ task, tab.currTrans.data = some task → task.state.ready = false →
      task.self = s.connectedTablets.pointer i) :
    ∃ task state success, tab.currTrans.data = some task ∧ task.state.ready = false ∧
      Changes s i (tab.onTask task state success) s' ∧
      (p = .started ∧ state = .running ∨ ∃ answers data, p = .finished answers ∧ state = .finished data ∧
        finish task.transfer answers = .ok (data, success)) := by
  unfold State.progress at h
  rw [hi, Option.bind_some] at h
  cases hdata : tab.currTrans.data with
  | none =>
    rw [hdata] at h
    cases h
  | some task =>
    rw [hdata] at h
    -- the write of `success` goes to the same slot
    have hwrite : ∀ (state : TaskState) (success : Bool), task.self = s.connectedTablets.pointer i →
        ((s.modifyTrans i fun trans => {trans with data := some {task with state := state}}).writeSuccess
          task success) = .ok s' →
        Changes s i (tab.onTask task state success) s' := by
      intro state success hself h
      obtain ⟨_, _, h⟩ := bind_eq_ok h
      cases h
      have hfirst := changes_modify hi fun tab : BtTabObj => {tab with currTrans :=
        {tab.currTrans with data := some {task with state := state}}}
      have hslot : task.self.slot = i := by
        rw [hself]
        rfl
      rw [hslot]
      exact hfirst.trans (changes_modify (hfirst.getElem? hi) fun tab : BtTabObj => {tab with currTrans :=
        {tab.currTrans with success := success}})
    simp only at h
    split at h
    · rename_i hstate
      have hready : task.state.ready = false := by rw [hstate]; rfl
      exact ⟨task, .running, true, rfl, hready, hwrite _ _ (hself task hdata hready) h, .inl ⟨rfl, rfl⟩⟩
    · rename_i answers hstate
      have hready : task.state.ready = false := by rw [hstate]; rfl
      obtain ⟨⟨data, success⟩, hfinish, h⟩ := bind_eq_ok h
      exact ⟨task, .finished data, success, rfl, hready, hwrite _ _ (hself task hdata hready) h,
        .inr ⟨answers, data, rfl, rfl, hfinish⟩⟩
    · cases h

theorem progress_requested {s s' : State} {i : Nat} {p : Progress} {old tab : BtTabObj}
    (hi : s.connectedTablets.elements[i]? = some tab) (hreq : Requested (s.connectedTablets.pointer i) old tab)
    (h : s.progress i p = .ok s') :
    ∃ tab', Changes s i tab' s' ∧ Requested (s.connectedTablets.pointer i) old tab' ∧
      tab'.currTrans.batmanTrans = tab.currTrans.batmanTrans := by
  obtain ⟨task, state, success, hdata, hready, hchanges, _⟩ :=
    progress_changes hi h fun task hdata hready => (hreq.launched hdata hready).1
  have hlaunched := hreq.launched hdata hready
  refine ⟨_, hchanges, ⟨hreq.same, hreq.notBusy, hreq.parent, fun task' htask' => ?_⟩, rfl⟩
  cases htask'
  exact .inl hlaunched

theorem progressAll_requested {s s' : State} {i : Nat} {ps : List Progress} {old tab : BtTabObj}
    (hi : s.connectedTablets.elements[i]? = some tab) (hreq : Requested (s.connectedTablets.pointer i) old tab)
    (h : s.progressAll i ps = .ok s') :
    ∃ tab', Changes s i tab' s' ∧ Requested (s.connectedTablets.pointer i) old tab' ∧
      tab'.currTrans.batmanTrans = tab.currTrans.batmanTrans := by
  unfold State.progressAll at h
  induction ps generalizing s tab with
  | nil =>
    cases h
    exact ⟨tab, .same_state hi rfl rfl rfl, hreq, rfl⟩
  | cons p ps ih =>
    rw [List.foldlM_cons] at h
    obtain ⟨s₁, h₁, h₂⟩ := bind_eq_ok h
    obtain ⟨tab₁, hchanges₁, hreq₁, hbatman₁⟩ := progress_requested hi hreq h₁
    rw [← hchanges₁.pointer] at hreq₁ ⊢
    obtain ⟨tab₂, hchanges₂, hreq₂, hbatman₂⟩ := ih (hchanges₁.getElem? hi) hreq₁ h₂
    exact ⟨tab₂, hchanges₁.trans hchanges₂, hreq₂, hbatman₂.trans hbatman₁⟩

/-! ### What changes of records keep -/

/-- What a change of one tablet keeps of it, it keeps of all of them. -/
theorem map_modify {α : Type} {g : BtTabObj → α} {s : State} {i : Nat} {f : BtTabObj → BtTabObj}
    (h : ∀ tab, s.connectedTablets.elements[i]? = some tab → g (f tab) = g tab) :
    (s.modify i f).connectedTablets.elements.map g = s.connectedTablets.elements.map g := by
  apply List.ext_getElem?
  intro j
  simp only [State.modify, List.getElem?_map, Buffer.modify_getElem?]
  by_cases hij : i = j
  · subst hij
    rw [if_pos rfl, Option.map_map]
    cases hi : s.connectedTablets.elements[i]? with
    | none => rfl
    | some tab => exact congrArg some (h tab hi)
  · rw [if_neg hij]

/-- A relation that holds of the state before and after, whatever is done to records. -/
structure KeptByRecords (R : State → State → Prop) : Prop where
  refl : ∀ s, R s s
  trans : ∀ {s₁ s₂ s₃}, R s₁ s₂ → R s₂ s₃ → R s₁ s₃
  record : ∀ (s : State) (i : Nat) (f : TabTransaction → TabTransaction), R s (s.modifyTrans i f)

namespace KeptByRecords
variable {R : State → State → Prop} {s s' : State}

theorem writeSuccess (hR : KeptByRecords R) {task : Task} {success : Bool} (h : s.writeSuccess task success = .ok s') :
    R s s' := by
  obtain ⟨_, _, h⟩ := bind_eq_ok h
  cases h
  exact hR.record ..

theorem progress (hR : KeptByRecords R) {i : Nat} {p : Progress} (h : s.progress i p = .ok s') : R s s' := by
  unfold State.progress at h
  split at h
  · cases h
  · split at h
    · exact hR.trans (hR.record ..) (hR.writeSuccess h)
    · obtain ⟨_, _, h⟩ := bind_eq_ok h
      exact hR.trans (hR.record ..) (hR.writeSuccess h)
    · cases h

theorem progressAll (hR : KeptByRecords R) {i : Nat} {ps : List Progress} (h : s.progressAll i ps = .ok s') :
    R s s' := by
  unfold State.progressAll at h
  induction ps generalizing s with
  | nil =>
    cases h
    exact hR.refl _
  | cons p ps ih =>
    rw [List.foldlM_cons] at h
    obtain ⟨s₁, h₁, h₂⟩ := bind_eq_ok h
    exact hR.trans (hR.progress h₁) (ih h₂)

theorem getData (hR : KeptByRecords R) {p : Pointer} {waited : List Answer} {data : TransferData}
    (h : s.getData p waited = .ok (data, s')) : R s s' := by
  obtain ⟨tab, _, h⟩ := bind_eq_ok h
  split at h
  · cases h
  · split at h
    · cases h
      exact hR.record ..
    · obtain ⟨_, _, h⟩ := bind_eq_ok h
      obtain ⟨_, hwrite, h⟩ := bind_eq_ok h
      cases h
      exact hR.trans (hR.record ..) (hR.writeSuccess hwrite)

theorem awaitRunning (hR : KeptByRecords R) {waited : Nat → List Answer} {e : Running}
    (h : s.awaitRunning waited e = .ok s') : R s s' := by
  obtain ⟨⟨data, s₁⟩, hdata, h⟩ := bind_eq_ok h
  cases data with
  | ok value =>
    cases h
    exact hR.getData hdata
  | error e => cases h

theorem awaitAll (hR : KeptByRecords R) {waited : Nat → List Answer} {running : List Running}
    (h : running.foldlM (State.awaitRunning waited) s = .ok s') : R s s' := by
  induction running generalizing s with
  | nil =>
    cases h
    exact hR.refl _
  | cons e running ih =>
    rw [List.foldlM_cons] at h
    obtain ⟨s₁, h₁, h₂⟩ := bind_eq_ok h
    exact hR.trans (hR.awaitRunning h₁) (ih h₂)

end KeptByRecords

/-- So is everything that is done to a tablet that stays, to the running transactions and
to the table. -/
structure KeptByWork (R : State → State → Prop) : Prop extends KeptByRecords R where
  info : ∀ (s : State) (i : Nat) (info : TabletInfo), R s (s.modify i fun tab => {tab with info := info})
  flag : ∀ (s : State) (i : Nat) (busy : Bool), R s (s.modify i fun tab => {tab with transactionState := busy})
  table : ∀ (s : State) (t : Table), R s {s with table := t}
  running : ∀ (s : State) (running : List Running), R s {s with runningTransactions := running}

namespace KeptByWork
variable {R : State → State → Prop} {s s' : State}
variable {server : Server} {parseJson : Text → Option Json} {readWholeFile : String → Text}

theorem handleTransResult (hR : KeptByWork R) {handling : Handling} {p : Pointer}
    (h : s.handleTransResult server parseJson handling p = .ok s') : R s s' := by
  obtain ⟨tab, _, h⟩ := bind_eq_ok h
  simp only at h
  split at h
  · cases h
    exact hR.refl _
  · split at h
    · obtain ⟨⟨data, s₁⟩, hdata, h⟩ := bind_eq_ok h
      obtain ⟨_, _, h⟩ := bind_eq_ok h
      obtain ⟨_, _, h⟩ := bind_eq_ok h
      split at h
      · cases h
        exact hR.trans (hR.trans (hR.getData hdata) (hR.table ..)) (hR.info ..)
      · cases h
    · cases h
      exact hR.refl _

theorem handleEntry (hR : KeptByWork R) {handling : Handling} {e : Running}
    (h : s.handleEntry server parseJson handling e = .ok s') : R s s' := by
  obtain ⟨s₁, hresult, h⟩ := bind_eq_ok h
  obtain ⟨_, _, h⟩ := bind_eq_ok h
  obtain ⟨_, _, h⟩ := bind_eq_ok h
  cases h
  exact hR.trans (hR.handleTransResult hresult) (hR.flag ..)

theorem runningPass (hR : KeptByWork R) {handlings : Nat → Handling} (n : Nat) (before rest : List Running)
    (hn : rest.length ≤ n) {running : List Running} {again : Bool}
    (h : State.runningPass server parseJson handlings before rest s = .ok (running, again, s')) : R s s' := by
  induction n generalizing before rest s with
  | zero =>
    cases List.length_eq_zero_iff.mp (Nat.le_zero.mp hn)
    cases h
    exact hR.refl _
  | succ n ih =>
    cases rest with
    | nil =>
      cases h
      exact hR.refl _
    | cons e rest =>
      rw [List.length_cons] at hn
      unfold State.runningPass at h
      obtain ⟨tab, _, h⟩ := bind_eq_ok h
      split at h
      · cases h
        exact hR.refl _
      · split at h
        · obtain ⟨s₁, hentry, h⟩ := bind_eq_ok h
          have hfirst := hR.handleEntry hentry
          cases rest with
          | nil =>
            cases h
            exact hfirst
          | cons next rest =>
            rw [List.length_cons] at hn
            exact hR.trans hfirst (ih (before ++ [next]) rest (by omega) h)
        · exact ih (before ++ [e]) rest (by omega) h

theorem runningPasses (hR : KeptByWork R) {handlings : Nat → Handling} (n : Nat) {running : List Running}
    (h : State.runningPasses server parseJson handlings n running s = .ok s') : R s s' := by
  induction n generalizing running s with
  | zero =>
    cases h
    exact hR.running ..
  | succ n ih =>
    obtain ⟨⟨running', again, s₁⟩, hpass, h⟩ := bind_eq_ok h
    have hfirst := hR.runningPass _ [] running le_rfl hpass
    cases again with
    | true => exact hR.trans hfirst (ih h)
    | false =>
      cases h
      exact hR.trans hfirst (hR.running ..)

/-- An iteration of the loop over the connections, when the request and a removal keep it. -/
theorem visitConnection (hR : KeptByWork R) {visits : Nat → Visit} {i : Nat}
    (hrequest : ∀ s₁, s.requestTransaction server readWholeFile i (visits i) = .ok (some s₁) → R s s₁)
    (hkill : ∀ (s₁ : State) (deleteSock : Nat), R s₁ (s₁.killSocket deleteSock).1)
    (h : s.visitConnection server parseJson readWholeFile visits i = .ok s') : R s s' := by
  obtain ⟨request, hrequested, h⟩ := bind_eq_ok h
  cases request with
  | none =>
    cases h
    exact hR.refl _
  | some s₁ =>
    have hfirst := hrequest s₁ hrequested
    obtain ⟨tab, _, h⟩ := bind_eq_ok h
    split at h
    · obtain ⟨parent, _, h⟩ := bind_eq_ok h
      cases h
      exact hR.trans hfirst (hkill ..)
    · obtain ⟨s₂, hprogress, h⟩ := bind_eq_ok h
      have hsecond := hR.trans hfirst (hR.progressAll hprogress)
      obtain ⟨tab', _, h⟩ := bind_eq_ok h
      obtain ⟨ready, _, h⟩ := bind_eq_ok h
      cases ready with
      | true =>
        rw [if_pos rfl] at h
        exact hR.trans hsecond (hR.handleTransResult h)
      | false =>
        simp only [Bool.false_eq_true, if_false] at h
        obtain ⟨_, _, h⟩ := bind_eq_ok h
        cases h
        exact hR.trans hsecond (hR.trans (hR.running ..) (hR.flag ..))

end KeptByWork

theorem isReady_eq_ok {record : TabTransaction} {ready : Bool} (h : record.isReady = .ok ready) :
    ∃ task, record.data = some task ∧ task.state.ready = ready := by
  unfold TabTransaction.isReady at h
  split at h
  · cases h
  · rename_i task hdata
    cases h
    exact ⟨task, hdata, rfl⟩

/-! ### Requests -/

theorem readTransactionData_spec {visit : Visit} {self : Pointer} {old tab : BtTabObj}
    (h : readTransactionData visit self old = .ok tab) :
    ∃ transactionType success writeTransaction, tab = {old with currTrans := {old.currTrans with
      parent := some self
      transactionType := transactionType
      success := success
      writeTransaction := writeTransaction}} := by
  unfold readTransactionData at h
  split at h
  · cases h
    exact ⟨_, _, _, rfl⟩
  · split at h
    · simp only at h
      split at h
      · cases h
        exact ⟨_, _, _, rfl⟩
      · cases h
        exact ⟨_, _, _, rfl⟩
    · cases h
    · cases h

theorem initReadyTransaction_requested (server : Server) (readWholeFile : String → Text) (visit : Visit)
    (self : Pointer) (t : Table) {old tab : BtTabObj} (hidle : Idle old)
    (h : readTransactionData visit self old = .ok tab) :
    Requested self old (initReadyTransaction server readWholeFile visit self t tab).1 := by
  obtain ⟨transactionType, success, writeTransaction, rfl⟩ := readTransactionData_spec h
  unfold initReadyTransaction
  simp only
  split
  · exact ⟨⟨rfl, rfl⟩, hidle.1, rfl, fun task hdata => .inr ⟨hidle.2 task hdata, .inr rfl⟩⟩
  · split
    · rename_i hwrite
      split
      · refine ⟨⟨rfl, rfl⟩, hidle.1, rfl, fun task hdata => .inl ?_⟩
        cases hdata
        exact ⟨rfl, rfl⟩
      · exact ⟨⟨rfl, rfl⟩, hidle.1, rfl, fun task hdata => .inr ⟨hidle.2 task hdata, .inl hwrite⟩⟩
    · refine ⟨⟨rfl, rfl⟩, hidle.1, rfl, fun task hdata => .inl ?_⟩
      cases hdata
      exact ⟨rfl, rfl⟩

section
variable {server : Server} {parseJson : Text → Option Json} {readWholeFile : String → Text}

theorem requestTransaction_spec {s s' : State} {i : Nat} {visit : Visit}
    (hidle : ∀ tab, s.connectedTablets.elements[i]? = some tab → tab.transactionState = false → Idle tab)
    (h : s.requestTransaction server readWholeFile i visit = .ok (some s')) :
    ∃ old tab, s.connectedTablets.elements[i]? = some old ∧ Idle old ∧ Changes s i tab s' ∧
      Requested (s.connectedTablets.pointer i) old tab := by
  unfold State.requestTransaction at h
  split at h
  · cases h
  · rename_i old hi
    split at h
    · cases h
    · rename_i hfree
      have hold : old.transactionState = false := by
        rw [Bool.not_eq_true, Bool.or_eq_false_iff] at hfree
        exact hfree.2
      obtain ⟨tab, hread, h⟩ := bind_eq_ok h
      obtain ⟨s₁, hprogress, h⟩ := bind_eq_ok h
      cases h
      have hreq := initReadyTransaction_requested server readWholeFile visit (s.connectedTablets.pointer i) s.table
        (hidle old hi hold) hread
      generalize initReadyTransaction server readWholeFile visit (s.connectedTablets.pointer i) s.table tab =
        result at hprogress hreq
      have hfirst : Changes s i result.1 {s.modify i fun _ => result.1 with
          closed := if result.2 then s.closed ++ [tab.socket] else s.closed} := ⟨rfl, rfl, rfl⟩
      obtain ⟨tab', hchanges, hreq', _⟩ := progressAll_requested (hfirst.getElem? hi) hreq hprogress
      exact ⟨old, tab', hi, hidle old hi hold, hfirst.trans hchanges, hreq'⟩

/-! ### Results -/

theorem getData_changes {s s' : State} {i : Nat} {waited : List Answer} {data : TransferData} {tab : BtTabObj}
    (hi : s.connectedTablets.elements[i]? = some tab)
    (hself : ∀ task, tab.currTrans.data = some task → task.self = s.connectedTablets.pointer i)
    (h : s.getData (s.connectedTablets.pointer i) waited = .ok (data, s')) :
    ∃ success, Changes s i {tab with currTrans := {tab.currTrans with data := none, success := success}} s' := by
  obtain ⟨tab', htab', h⟩ := bind_eq_ok h
  rw [tablet_pointer hi] at htab'
  cases htab'
  have htaken := changes_modify hi fun tab : BtTabObj => {tab with currTrans := {tab.currTrans with data := none}}
  cases hdata : tab.currTrans.data with
  | none =>
    simp only [hdata] at h
    cases h
  | some task =>
    simp only [hdata] at h
    split at h
    · cases h
      exact ⟨_, htaken⟩
    · obtain ⟨⟨value, success⟩, _, h⟩ := bind_eq_ok h
      obtain ⟨s₁, hwrite, h⟩ := bind_eq_ok h
      cases h
      obtain ⟨_, _, hwrite⟩ := bind_eq_ok hwrite
      cases hwrite
      have hslot : task.self.slot = i := by
        rw [hself task hdata]
        rfl
      rw [hslot]
      exact ⟨success, htaken.trans (changes_modify (htaken.getElem? hi) fun tab : BtTabObj =>
        {tab with currTrans := {tab.currTrans with success := success}})⟩

/-- A result changes what the tablet is known by, takes the data, and leaves who it is
and whether it is busy. -/
theorem handleTransResult_changes {s s' : State} {i : Nat} {handling : Handling} {tab : BtTabObj}
    (hi : s.connectedTablets.elements[i]? = some tab)
    (hparent : tab.currTrans.parent = some (s.connectedTablets.pointer i))
    (hself : tab.currTrans.writeTransaction = false → ∀ task, tab.currTrans.data = some task →
      task.self = s.connectedTablets.pointer i)
    (h : s.handleTransResult server parseJson handling (s.connectedTablets.pointer i) = .ok s') :
    ∃ tab', Changes s i tab' s' ∧ Same tab tab' ∧ tab'.transactionState = tab.transactionState ∧
      tab'.currTrans.parent = tab.currTrans.parent ∧
      ∀ task, tab'.currTrans.data = some task → tab.currTrans.data = some task := by
  obtain ⟨tab', htab', h⟩ := bind_eq_ok h
  rw [tablet_pointer hi] at htab'
  cases htab'
  simp only at h
  split at h
  · cases h
    exact ⟨tab, .same_state hi rfl rfl rfl, ⟨rfl, rfl⟩, rfl, rfl, fun _ h => h⟩
  · rename_i hread
    split at h
    · obtain ⟨⟨data, s₁⟩, hdata, h⟩ := bind_eq_ok h
      obtain ⟨success, hchanges⟩ := getData_changes hi (hself (eq_false_of_ne_true hread)) hdata
      obtain ⟨_, _, h⟩ := bind_eq_ok h
      obtain ⟨_, _, h⟩ := bind_eq_ok h
      split at h
      · rename_i info t _
        cases h
        rw [hparent]
        have hinfo := changes_modify (hchanges.getElem? hi) fun tab : BtTabObj => {tab with info := info}
        refine ⟨_, hchanges.trans ⟨hinfo.tablets, hinfo.running, hinfo.accepted⟩, ⟨rfl, rfl⟩, rfl, hparent,
          fun task htask => ?_⟩
        cases htask
      · cases h
    · cases h
      exact ⟨tab, .same_state hi rfl rfl rfl, ⟨rfl, rfl⟩, rfl, rfl, fun _ h => h⟩

end

end ScoutingComputer.Bluetooth
