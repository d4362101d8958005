import ScoutingComputer.Bluetooth.Operations

/-! The pointers of running transactions, and the busy flags of tablets, over whole runs.

The vector of tablets may move its elements when one is added, and moves the later ones
when one is removed, while running transactions keep pointers to them. The two theorems
hold of every run that adds no tablet to a full vector while a transaction is running and
removes no tablet at or before the place of one whose transaction is running (`Rule`). -/
namespace ScoutingComputer.Bluetooth
open Machine (bind_eq_ok)

/-! ### The properties -/

/-- The pointer finds the tablet of this connection. -/
def Denotes (s : State) (p : Pointer) (connection : Nat) : Prop :=
  ∃ tab, s.connectedTablets.deref p = some tab ∧ tab.connection = connection

/-- All pointers of a running transaction find the tablet it was started for: its entry,
the parent field of the record, and the pointer that its task captured. -/
def KeepsIdentity (s : State) : Prop :=
  ∀ e ∈ s.runningTransactions, Denotes s e.trans e.connection ∧
    ∀ tab, s.connectedTablets.deref e.trans = some tab →
      (∃ p, tab.currTrans.parent = some p ∧ Denotes s p e.connection) ∧
      ∃ task, tab.currTrans.data = some task ∧ task.connection = e.connection ∧ Denotes s task.self e.connection

/-- A tablet has one entry when it is busy and none when it is not, and every entry is
of a connected tablet. -/
structure FlagsAgree (s : State) : Prop where
  flag : ∀ tab ∈ s.connectedTablets.elements,
    s.runningTransactions.countP (·.connection = tab.connection) = if tab.transactionState then 1 else 0
  connected : ∀ e ∈ s.runningTransactions, ∃ tab ∈ s.connectedTablets.elements, tab.connection = e.connection

/-! ### The rule -/

/-- Every running transaction has its tablet before place `i`. -/
def RunningBefore (s : State) (i : Nat) : Prop := ∀ e ∈ s.runningTransactions, e.trans.slot < i

section
variable (server : Server) (parseJson : Text → Option Json) (readWholeFile : String → Text)

/-- Iteration `i` of the loop over the connections removes its tablet only behind all
running transactions. -/
def VisitRule (visits : Nat → Visit) (s : State) (i : Nat) : Prop :=
  ∀ s', s.requestTransaction server readWholeFile i (visits i) = .ok (some s') → s'.refused i = true →
    RunningBefore s i

/-- So does every removal of `getNameList`. -/
def NamesRule (mouse : Mouse) : Nat → State → Prop
  | 0, _ => True
  | n + 1, s => ∀ i, (s.scanNames mouse).2 = some i →
    RunningBefore s i ∧ NamesRule mouse n ((s.scanNames mouse).1.killAt i)

/-- The condition on a step. -/
def Rule (s : State) : Event → Prop
  | .acceptConn a => a.peer = none ∨ s.runningTransactions = [] ∨
      s.connectedTablets.elements.length < s.connectedTablets.capacity
  | .handleReadyConnections visits =>
    Machine.Meets (fun s i => (s.visitConnection server parseJson readWholeFile visits i).toOption)
      (VisitRule server readWholeFile visits) s (List.range s.connectedTablets.elements.length)
  | .getNameList mouse => NamesRule mouse s.connectedTablets.elements.length s
  | .killSocket deleteSock => ∀ i, s.connectedTablets.elements.findIdx? (·.socket = deleteSock) = some i →
      RunningBefore s i
  | _ => True

end

/-- The invariant, of a state. -/
def State.Sound (s : State) : Prop := Bluetooth.Sound s.runningTransactions s.connectedTablets s.accepted

/-! ### The invariant gives the properties -/

theorem State.Sound.keepsIdentity {s : State} (h : s.Sound) : KeepsIdentity s := by
  intro e he
  obtain ⟨tab, htab, hcarries⟩ := h.carried e he
  have hself : Denotes s e.trans e.connection := ⟨tab, htab, hcarries.connection⟩
  refine ⟨hself, fun tab' htab' => ?_⟩
  rw [htab] at htab'
  cases htab'
  obtain ⟨task, hdata, htask, hconnection⟩ := hcarries.data
  exact ⟨⟨e.trans, hcarries.parent, hself⟩, task, hdata, hconnection, htask ▸ hself⟩

/-- An entry of a connection is the entry of the place of its tablet. -/
theorem State.Sound.connection_iff {s : State} (h : s.Sound) {i : Nat} {tab : BtTabObj}
    (hi : s.connectedTablets.elements[i]? = some tab) {e : Running} (he : e ∈ s.runningTransactions) :
    e.connection = tab.connection ↔ e.trans.slot = i := by
  obtain ⟨tab', htab', hcarries⟩ := h.carried e he
  have hslot := (Buffer.deref_iff.mp htab').2
  constructor
  · intro heq
    exact place_unique h.distinct.connections hslot hi (hcarries.connection.trans heq)
  · intro heq
    rw [heq, hi] at hslot
    cases hslot
    exact hcarries.connection.symm

theorem State.Sound.flagsAgree {s : State} (h : s.Sound) : FlagsAgree s where
  flag := by
    intro tab htab
    obtain ⟨i, hlt, rfl⟩ := List.mem_iff_getElem.mp htab
    have hi := List.getElem?_eq_getElem hlt
    have hcount : s.runningTransactions.countP (·.connection = s.connectedTablets.elements[i].connection) =
        (s.runningTransactions.map (·.trans.slot)).count i := by
      rw [List.count, List.countP_map]
      apply List.countP_congr
      intro e he
      simp [h.connection_iff hi he]
    rw [hcount]
    rcases h.rest i _ hi with hidle | ⟨e, he, hslot⟩
    · rw [if_neg (by rw [hidle.1]; simp)]
      apply List.count_eq_zero.mpr
      intro hmem
      obtain ⟨e, he, hslot⟩ := List.mem_map.mp hmem
      exact h.no_entry hi hidle.1 e he hslot
    · obtain ⟨tab, htab', hcarries⟩ := h.carried e he
      have hsame := (Buffer.deref_iff.mp htab').2
      rw [hslot, hi] at hsame
      cases hsame
      rw [if_pos hcarries.busy]
      exact List.count_eq_one_of_mem h.places (hslot ▸ List.mem_map_of_mem he)
  connected := by
    intro e he
    obtain ⟨tab, htab, hcarries⟩ := h.carried e he
    exact ⟨tab, List.mem_of_getElem? (Buffer.deref_iff.mp htab).2, hcarries.connection⟩

/-! ### One step -/

theorem killSocket_sound {s : State} {deleteSock : Nat} (h : s.Sound)
    (hrule : ∀ i, s.connectedTablets.elements.findIdx? (·.socket = deleteSock) = some i → RunningBefore s i) :
    (s.killSocket deleteSock).1.Sound := by
  obtain ⟨i, _, hi, _, _, hkill⟩ | ⟨_, hkill⟩ := killSocket_cases s deleteSock
  · rw [hkill]
    exact Bluetooth.Sound.erase h (hrule i hi)
  · rw [hkill]
    exact h

theorem killAt_sound {s : State} {i : Nat} (h : s.Sound) (hbefore : RunningBefore s i) : (s.killAt i).Sound := by
  unfold State.killAt
  split
  · rename_i tab hi
    apply killSocket_sound h
    intro j hj
    rw [h.distinct.findIdx? hi] at hj
    cases hj
    exact hbefore
  · exact h

theorem acceptConn_sound {s s' : State} {a : Accept} (h : s.Sound)
    (hrule : a.peer = none ∨ s.runningTransactions = [] ∨
      s.connectedTablets.elements.length < s.connectedTablets.capacity)
    (hs : s.acceptConn a = .ok s') : s'.Sound := by
  obtain ⟨_, rfl⟩ | ⟨peer, hpeer, hnew, rfl⟩ := acceptConn_cases hs
  · exact h
  · apply Bluetooth.Sound.push h
    · rcases hrule with hnone | hroom
      · rw [hpeer] at hnone
        cases hnone
      · exact hroom
    · exact hnew
    · rfl
    · exact ⟨rfl, fun task htask => by cases htask⟩

/-- A task that is not ready is the task of a running transaction. -/
theorem State.Sound.carrier {s : State} {i : Nat} {tab : BtTabObj} {task : Task} (h : s.Sound)
    (hi : s.connectedTablets.elements[i]? = some tab) (hdata : tab.currTrans.data = some task)
    (hready : task.state.ready = false) :
    ∃ e ∈ s.runningTransactions, e.trans = s.connectedTablets.pointer i ∧ Carries e tab ∧
      task.self = e.trans ∧ task.connection = e.connection := by
  rcases h.rest i tab hi with hidle | ⟨e, he, hslot⟩
  · rw [hidle.2 task hdata] at hready
    cases hready
  · have hpointer := h.pointer he
    rw [hslot] at hpointer
    obtain ⟨tab', htab', hcarries⟩ := h.carried e he
    rw [hpointer, Buffer.deref_pointer, hi] at htab'
    cases htab'
    obtain ⟨task', hdata', hself, hconnection⟩ := hcarries.data
    rw [hdata] at hdata'
    cases hdata'
    exact ⟨e, he, hpointer, hcarries, hself, hconnection⟩

theorem progress_sound {s s' : State} {i : Nat} {p : Progress} (h : s.Sound) (hs : s.progress i p = .ok s') :
    s'.Sound := by
  obtain ⟨tab, hi⟩ := progress_connected hs
  obtain ⟨task, state, success, hdata, hready, hchanges, _⟩ := progress_changes hi hs fun task hdata hready => by
    obtain ⟨e, _, hpointer, _, hself, _⟩ := h.carrier hi hdata hready
    rw [hself, hpointer]
  obtain ⟨e, he, hpointer, hcarries, hself, hconnection⟩ := h.carrier hi hdata hready
  have hslot : e.trans.slot = i := by
    rw [hpointer]
    rfl
  have htab : s.connectedTablets.deref e.trans = some tab := by rw [hpointer, Buffer.deref_pointer, hi]
  unfold State.Sound
  rw [hchanges.tablets, hchanges.running, hchanges.accepted, ← hslot]
  exact Bluetooth.Sound.modify_carried h he htab ⟨rfl, rfl⟩
    ⟨hcarries.connection, hcarries.busy, hcarries.parent, _, rfl, hself, hconnection⟩

section
variable {server : Server} {parseJson : Text → Option Json} {readWholeFile : String → Text}

/-! ### The ends of a visit

Up to its end a visit has changed tablet `i` alone, which had no entry. -/

/-- The tablet is removed, as it is by now. -/
theorem refused_sound {s s₁ : State} {i : Nat} {old tab : BtTabObj} (h : s.Sound)
    (hi : s.connectedTablets.elements[i]? = some old) (hchanges : Changes s i tab s₁) (hsame : Same old tab)
    (hbefore : RunningBefore s i) : (s₁.killSocket tab.socket).1.Sound := by
  have hdistinct : Distinct s₁.connectedTablets.elements s.accepted := by
    rw [hchanges.tablets]
    exact h.distinct.modify hi hsame
  have hfind := hdistinct.findIdx? (hchanges.getElem? hi)
  have herase : s₁.connectedTablets.erase i = s.connectedTablets.erase i := by
    rw [hchanges.tablets]
    simp only [Buffer.erase, Buffer.modify, List.eraseIdx_modify_of_eq]
  simp only [State.killSocket, hfind]
  show Bluetooth.Sound s₁.runningTransactions (s₁.connectedTablets.erase i) s₁.accepted
  rw [herase, hchanges.running, hchanges.accepted]
  exact Bluetooth.Sound.erase h hbefore

/-- The transaction is ready and its result is handled at once. -/
theorem handled_sound {s s₁ s' : State} {i : Nat} {old tab : BtTabObj} {handling : Handling} (h : s.Sound)
    (hi : s.connectedTablets.elements[i]? = some old) (hold : Idle old) (hchanges : Changes s i tab s₁)
    (hreq : Requested (s₁.connectedTablets.pointer i) old tab) (hbatman : tab.currTrans.batmanTrans = false)
    (hready : tab.currTrans.isReady = .ok true)
    (hs : s₁.handleTransResult server parseJson handling (s₁.connectedTablets.pointer i) = .ok s') : s'.Sound := by
  obtain ⟨task, hdata, hstate⟩ := isReady_eq_ok hready
  obtain ⟨tab', hresult, hsame, hflag, _, hkept⟩ :=
    handleTransResult_changes (hchanges.getElem? hi) hreq.parent
      (fun hread _ hdata => hreq.self_of_read hread hbatman hdata) hs
  have hfinal := hchanges.trans hresult
  unfold State.Sound
  rw [hfinal.tablets, hfinal.running, hfinal.accepted]
  refine Bluetooth.Sound.modify_idle h hi (h.no_entry hi hold.1)
    ⟨hsame.1.trans hreq.same.1, hsame.2.trans hreq.same.2⟩ ⟨hflag.trans hreq.notBusy, fun task' htask' => ?_⟩
  have := hkept task' htask'
  rw [hdata] at this
  cases this
  exact hstate

/-- The transaction is not ready and becomes a running one. -/
theorem entered_sound {s s₁ : State} {i : Nat} {old tab : BtTabObj} (h : s.Sound)
    (hi : s.connectedTablets.elements[i]? = some old) (hold : Idle old) (hchanges : Changes s i tab s₁)
    (hreq : Requested (s₁.connectedTablets.pointer i) old tab) (hready : tab.currTrans.isReady = .ok false) :
    Bluetooth.Sound (s₁.runningTransactions ++ [⟨s₁.connectedTablets.pointer i, tab.connection⟩])
      (s₁.connectedTablets.modify i fun tab => {tab with transactionState := true}) s₁.accepted := by
  obtain ⟨task, hdata, hstate⟩ := isReady_eq_ok hready
  have hlaunched := hreq.launched hdata hstate
  have hbusy := hchanges.trans
    (changes_modify (hchanges.getElem? hi) fun tab : BtTabObj => {tab with transactionState := true})
  have htablets := hbusy.tablets
  simp only [State.modify] at htablets
  rw [htablets, hchanges.running, hchanges.accepted, hchanges.pointer, hreq.same.2]
  rw [hchanges.pointer] at hreq hlaunched
  exact Bluetooth.Sound.enter h hi (h.no_entry hi hold.1) ⟨hreq.same.1, rfl⟩
    ⟨rfl, rfl, hreq.parent, task, hdata, hlaunched.1, hlaunched.2⟩

theorem State.Sound.idle {s : State} (h : s.Sound) {i : Nat} {tab : BtTabObj}
    (hi : s.connectedTablets.elements[i]? = some tab) (hfree : tab.transactionState = false) : Idle tab := by
  rcases h.rest i tab hi with hidle | ⟨e, he, hslot⟩
  · exact hidle
  · exact absurd hslot (h.no_entry hi hfree e he)

theorem visitConnection_sound {visits : Nat → Visit} {s s' : State} {i : Nat} (h : s.Sound)
    (hrule : VisitRule server readWholeFile visits s i)
    (hs : s.visitConnection server parseJson readWholeFile visits i = .ok s') : s'.Sound := by
  obtain ⟨request, hrequest, hs⟩ := bind_eq_ok hs
  cases request with
  | none =>
    cases hs
    exact h
  | some s₁ =>
    obtain ⟨old, tab, hi, hold, hchanges, hreq⟩ := requestTransaction_spec (fun tab => h.idle) hrequest
    have hi₁ := hchanges.getElem? hi
    rw [← hchanges.pointer] at hreq
    obtain ⟨tab', htab', hs⟩ := bind_eq_ok hs
    rw [tablet_pointer hi₁] at htab'
    cases htab'
    cases hrefused : s₁.refused i with
    | true =>
      rw [hrefused, if_pos rfl] at hs
      obtain ⟨parent, hparent, hs⟩ := bind_eq_ok hs
      rw [hreq.parent, tablet_pointer hi₁] at hparent
      cases hparent
      cases hs
      exact refused_sound h hi hchanges hreq.same (hrule s₁ hrequest hrefused)
    | false =>
      rw [hrefused] at hs
      simp only [Bool.false_eq_true, if_false] at hs
      obtain ⟨s₂, hprogress, hs⟩ := bind_eq_ok hs
      obtain ⟨tab₂, hchanges₂, hreq₂, hbatman⟩ := progressAll_requested hi₁ hreq hprogress
      have hall := hchanges.trans hchanges₂
      rw [← hchanges₂.pointer] at hreq₂ hs
      obtain ⟨tab', htab', hs⟩ := bind_eq_ok hs
      rw [tablet_pointer (hall.getElem? hi)] at htab'
      cases htab'
      obtain ⟨ready, hready, hs⟩ := bind_eq_ok hs
      cases ready with
      | true =>
        rw [if_pos rfl] at hs
        refine handled_sound h hi hold hall hreq₂ ?_ hready hs
        unfold State.refused at hrefused
        rw [hi₁, Option.any_some, Bool.or_eq_false_iff] at hrefused
        exact hbatman.trans hrefused.1
      | false =>
        simp only [Bool.false_eq_true, if_false] at hs
        obtain ⟨_, _, hs⟩ := bind_eq_ok hs
        cases hs
        rw [hreq₂.parent]
        exact entered_sound h hi hold hall hreq₂ hready

theorem handleReadyConnections_sound {visits : Nat → Visit} {s s' : State} (h : s.Sound)
    (hrule : Rule server parseJson readWholeFile s (.handleReadyConnections visits))
    (hs : s.handleReadyConnections server parseJson readWholeFile visits = .ok s') : s'.Sound := by
  refine Machine.invariant_run (I := State.Sound) (fun s i s' hsound hvisit hstep => ?_) h hrule
    (Machine.run_of_foldlM hs)
  exact visitConnection_sound hsound hvisit (Machine.toOption_eq_some hstep)

/-! ### The loop over the running transactions -/

/-- An entry that is ready is handled, its tablet freed, and the entry gone. -/
theorem handleEntry_sound {before after : List Running} {e : Running} {handling : Handling} {s s' : State}
    {tab : BtTabObj} {task : Task} (h : Bluetooth.Sound (before ++ e :: after) s.connectedTablets s.accepted)
    (htab : s.connectedTablets.deref e.trans = some tab) (hdata : tab.currTrans.data = some task)
    (hready : task.state.ready = true) (hs : s.handleEntry server parseJson handling e = .ok s') :
    Bluetooth.Sound (before ++ after) s'.connectedTablets s'.accepted := by
  have he : e ∈ before ++ e :: after := List.mem_append_right _ (List.mem_cons_self ..)
  obtain ⟨tab', htab', hcarries⟩ := h.carried e he
  rw [htab] at htab'
  cases htab'
  have hpointer := h.pointer he
  have hi := (Buffer.deref_iff.mp htab).2
  obtain ⟨task', hdata', hself, _⟩ := hcarries.data
  rw [hdata] at hdata'
  cases hdata'
  obtain ⟨s₁, hresult, hs⟩ := bind_eq_ok hs
  rw [hpointer] at hresult
  obtain ⟨tab₁, hchanges, hsame, _, hparent, hkept⟩ := handleTransResult_changes hi
    (hcarries.parent.trans (congrArg some hpointer)) (by
      intro _ task' htask'
      rw [hdata] at htask'
      cases htask'
      exact hself.trans hpointer) hresult
  have hi₁ := hchanges.getElem? hi
  obtain ⟨tab', htab', hs⟩ := bind_eq_ok hs
  rw [hpointer, ← hchanges.pointer, tablet_pointer hi₁] at htab'
  cases htab'
  obtain ⟨_, _, hs⟩ := bind_eq_ok hs
  rw [hparent, hcarries.parent] at hs
  cases hs
  have hfreed := hchanges.trans (changes_modify hi₁ fun tab : BtTabObj => {tab with transactionState := false})
  show Bluetooth.Sound _ (s₁.modify e.trans.slot _).connectedTablets s₁.accepted
  rw [hfreed.tablets, hchanges.accepted]
  refine Bluetooth.Sound.leave h htab hsame ⟨rfl, fun task' htask' => ?_⟩
  have := hkept task' htask'
  rw [hdata] at this
  cases this
  exact hready

/-- A pass never finds an entry without data. -/
theorem runningPass_sound {handlings : Nat → Handling} (n : Nat) (before rest : List Running) (hn : rest.length ≤ n)
    {running : List Running} {again : Bool} {s s' : State}
    (h : Bluetooth.Sound (before ++ rest) s.connectedTablets s.accepted)
    (hs : State.runningPass server parseJson handlings before rest s = .ok (running, again, s')) :
    again = false ∧ Bluetooth.Sound running s'.connectedTablets s'.accepted := by
  induction n generalizing before rest s with
  | zero =>
    cases List.length_eq_zero_iff.mp (Nat.le_zero.mp hn)
    cases hs
    rw [List.append_nil] at h
    exact ⟨rfl, h⟩
  | succ n ih =>
    cases rest with
    | nil =>
      cases hs
      rw [List.append_nil] at h
      exact ⟨rfl, h⟩
    | cons e rest =>
      rw [List.length_cons] at hn
      obtain ⟨tab, htab, hcarries⟩ := h.carried e (List.mem_append_right _ (List.mem_cons_self ..))
      obtain ⟨task, hdata, _⟩ := hcarries.data
      have hfound : s.tablet (some e.trans) = .ok tab := by
        simp only [State.tablet, Option.bind_some, htab]
      unfold State.runningPass at hs
      obtain ⟨tab', htab', hs⟩ := bind_eq_ok hs
      rw [hfound] at htab'
      cases htab'
      simp only [hdata] at hs
      cases hready : task.state.ready with
      | false =>
        rw [hready] at hs
        simp only [Bool.false_eq_true, if_false] at hs
        refine ih (before ++ [e]) rest (by omega) ?_ hs
        rwa [List.append_assoc]
      | true =>
        rw [hready, if_pos rfl] at hs
        obtain ⟨s₁, hentry, hs⟩ := bind_eq_ok hs
        have hsound := handleEntry_sound h htab hdata hready hentry
        cases rest with
        | nil =>
          cases hs
          rw [List.append_nil] at hsound
          exact ⟨rfl, hsound⟩
        | cons next rest =>
          rw [List.length_cons] at hn
          refine ih (before ++ [next]) rest (by omega) ?_ hs
          rw [List.append_assoc]
          exact hsound

theorem handleRunningTransactions_sound {handlings : Nat → Handling} {s s' : State} (h : s.Sound)
    (hs : s.handleRunningTransactions server parseJson handlings = .ok s') : s'.Sound := by
  unfold State.handleRunningTransactions at hs
  cases hn : s.runningTransactions.length with
  | zero =>
    rw [hn] at hs
    cases hs
    exact h
  | succ n =>
    rw [hn] at hs
    obtain ⟨⟨running, again, s₁⟩, hpass, hs⟩ := bind_eq_ok hs
    obtain ⟨rfl, hsound⟩ := runningPass_sound _ [] s.runningTransactions le_rfl h hpass
    cases hs
    exact hsound

end

/-! ### The list of names, and removing all -/

theorem scanNames_alike (mouse : Mouse) (s : State) :
    Alike s.connectedTablets (s.scanNames mouse).1.connectedTablets :=
  map_alike fun _ => ⟨⟨rfl, rfl⟩, rfl, rfl⟩

theorem scanNames_sound (mouse : Mouse) {s : State} (h : s.Sound) : (s.scanNames mouse).1.Sound :=
  Bluetooth.Sound.of_alike h (scanNames_alike mouse s)

theorem getNameListFrom_sound {mouse : Mouse} {n : Nat} {s : State} (h : s.Sound) (hrule : NamesRule mouse n s) :
    (s.getNameListFrom mouse n).Sound := by
  induction n generalizing s with
  | zero => exact scanNames_sound mouse h
  | succ n ih =>
    have hscan := scanNames_sound mouse h
    have hpair : s.scanNames mouse = ((s.scanNames mouse).1, (s.scanNames mouse).2) := rfl
    unfold State.getNameListFrom
    rw [hpair]
    cases hkill : (s.scanNames mouse).2 with
    | none => exact hscan
    | some i =>
      obtain ⟨hbefore, hrest⟩ := hrule i hkill
      exact ih (killAt_sound hscan hbefore) hrest

theorem killAllSockets_sound {waited : Nat → List Socket.Answer} {s s' : State}
    (hs : s.killAllSockets waited = .ok s') : s'.Sound := by
  obtain ⟨s₁, _, hs⟩ := bind_eq_ok hs
  cases hs
  exact ⟨⟨.nil, .nil, fun tab htab => absurd htab (List.not_mem_nil)⟩, fun e he => absurd he (List.not_mem_nil),
    .nil, fun i tab hi => by cases hi⟩

/-! ### Runs -/

theorem step_sound {server : Server} {parseJson : Text → Option Json} {readWholeFile : String → Text}
    (s : State) (e : Event) (s' : State) (h : s.Sound) (hrule : Rule server parseJson readWholeFile s e)
    (hs : step server parseJson readWholeFile s e = some s') : s'.Sound := by
  have hok := Machine.toOption_eq_some hs
  cases e with
  | acceptConn a => exact acceptConn_sound h hrule hok
  | handleReadyConnections visits => exact handleReadyConnections_sound h hrule hok
  | handleRunningTransactions handlings => exact handleRunningTransactions_sound h hok
  | getNameList mouse =>
    cases hok
    exact getNameListFrom_sound h hrule
  | killSocket deleteSock =>
    cases hok
    exact killSocket_sound h hrule
  | killAllSockets waited => exact killAllSockets_sound hok
  | progress i p => exact progress_sound h hok
  | draw places =>
    cases hok
    exact Bluetooth.Sound.of_alike h (mapIdx_alike fun _ _ => ⟨⟨rfl, rfl⟩, rfl, rfl⟩)
  | setCallType i callType =>
    cases hok
    refine Bluetooth.Sound.of_alike h (modify_alike ?_ i)
    exact fun _ => ⟨⟨rfl, rfl⟩, rfl, rfl⟩

theorem emptyState_sound (table : Table) : (emptyState table).Sound :=
  ⟨⟨.nil, .nil, fun tab htab => absurd htab (List.not_mem_nil)⟩, fun e he => absurd he (List.not_mem_nil),
    .nil, fun i tab hi => by cases hi⟩

theorem run_sound {server : Server} {parseJson : Text → Option Json} {readWholeFile : String → Text}
    {table : Table} {events : List Event} {s : State}
    (hrule : Machine.Meets (step server parseJson readWholeFile) (Rule server parseJson readWholeFile)
      (emptyState table) events)
    (hrun : Machine.run (step server parseJson readWholeFile) (emptyState table) events = some s) : s.Sound :=
  Machine.invariant_run step_sound (emptyState_sound table) hrule hrun

/-! ### A tablet with a running transaction, and what happens to it -/

/-- A tablet joins; a full vector grows to `growth`. -/
def joins (peer growth : Nat) : Event :=
  .acceptConn ⟨some peer, "00:11:22:33:44:55".toList, growth, ⟨0, 0, 100, 40, false, false⟩⟩

/-- Every tablet that is free sends a code, and a thread is given the transfer. -/
def requests (code : UInt8) : Event :=
  .handleReadyConnections fun _ =>
    { readable := true
      readableAgain := true
      writable := true
      code := [.getTime 0, .malloc true, .recv (.bytes [code]) 0 0]
      async := true
      selects := fun _ => true
      beforeTest := []
      beforeReady := []
      waited := []
      inserts := fun _ => true }

/-- The code of a match. -/
def sendsMatch : Event := requests 1

/-- The mouse over the button of the first tablet. -/
def mouseOverButton (down released : Bool) : Event := .getNameList ⟨10, 10, down, released⟩

/-- Another tablet joins while there is room. -/
def joinsWithRoom : List Event := [joins 10 4, sendsMatch, joins 20 4]

theorem joinsWithRoom_rule :
    Machine.Meets (step plainServer (fun _ => none) fun _ => []) (Rule plainServer (fun _ => none) fun _ => [])
      (emptyState ⟨[], 0⟩) joinsWithRoom := by
  refine Machine.meets_cons (.inr (.inl rfl)) rfl (Machine.meets_cons ?_ rfl (Machine.meets_cons ?_ rfl trivial))
  · exact ⟨fun _ _ _ e he => absurd he (List.not_mem_nil), fun _ _ => trivial⟩
  · exact .inr (.inr (by decide))

/-- **Transaction references keep their identity** in every run under the rule. -/
theorem references_keep_identity (server : Server) (parseJson : Text → Option Json)
    (readWholeFile : String → Text) (table : Table) (events : List Event) (s : State)
    (hrule : Machine.Meets (step server parseJson readWholeFile) (Rule server parseJson readWholeFile)
      (emptyState table) events)
    (hrun : Machine.run (step server parseJson readWholeFile) (emptyState table) events = some s) :
    KeepsIdentity s :=
  (run_sound hrule hrun).keepsIdentity

theorem references_keep_identity_joinsWithRoom :
    ∃ s, Machine.run (step plainServer (fun _ => none) fun _ => []) (emptyState ⟨[], 0⟩) joinsWithRoom = some s ∧
      s.runningTransactions = [⟨⟨1, 0⟩, 0⟩] ∧ KeepsIdentity s :=
  ⟨_, rfl, rfl, references_keep_identity plainServer (fun _ => none) (fun _ => []) ⟨[], 0⟩ joinsWithRoom _
    joinsWithRoom_rule rfl⟩

/-- A second tablet joins a vector with room for one: the pointers of the running
transaction are to the buffer that was left. -/
theorem second_tablet_loses_references :
    ∃ s, Machine.run (step plainServer (fun _ => none) fun _ => []) (emptyState ⟨[], 0⟩)
        [joins 10 1, sendsMatch, joins 20 2] = some s ∧ ¬ KeepsIdentity s := by
  refine ⟨_, rfl, fun h => ?_⟩
  obtain ⟨⟨tab, htab, _⟩, _⟩ := h ⟨⟨1, 0⟩, 0⟩ (List.mem_singleton.mpr rfl)
  exact absurd (Buffer.deref_iff.mp htab).1 (by decide)

/-- **Busy flags and the running list agree** in every run under the rule. -/
theorem busy_flags_agree (server : Server) (parseJson : Text → Option Json)
    (readWholeFile : String → Text) (table : Table) (events : List Event) (s : State)
    (hrule : Machine.Meets (step server parseJson readWholeFile) (Rule server parseJson readWholeFile)
      (emptyState table) events)
    (hrun : Machine.run (step server parseJson readWholeFile) (emptyState table) events = some s) :
    FlagsAgree s :=
  (run_sound hrule hrun).flagsAgree

theorem busy_flags_agree_joinsWithRoom :
    ∃ s, Machine.run (step plainServer (fun _ => none) fun _ => []) (emptyState ⟨[], 0⟩) joinsWithRoom = some s ∧
      s.connectedTablets.elements.map (·.transactionState) = [true, false] ∧ FlagsAgree s :=
  ⟨_, rfl, rfl, busy_flags_agree plainServer (fun _ => none) (fun _ => []) ⟨[], 0⟩ joinsWithRoom _
    joinsWithRoom_rule rfl⟩

/-- The kill button removes a busy tablet and leaves its entry. -/
theorem kill_button_leaves_entry :
    ∃ s, Machine.run (step plainServer (fun _ => none) fun _ => []) (emptyState ⟨[], 0⟩)
        [joins 10 1, sendsMatch, mouseOverButton true false, mouseOverButton false true] = some s ∧
      s.connectedTablets.elements.length = 0 ∧ s.runningTransactions = [⟨⟨1, 0⟩, 0⟩] ∧ ¬ FlagsAgree s := by
  refine ⟨_, rfl, ?_⟩
  generalize hs : State.getNameList _ _ = s
  have hempty : s.connectedTablets.elements.length = 0 := by
    rw [← hs]
    decide +kernel
  have hrunning : s.runningTransactions = [⟨⟨1, 0⟩, 0⟩] := by
    rw [← hs]
    decide +kernel
  refine ⟨hempty, hrunning, fun h => ?_⟩
  obtain ⟨tab, htab, _⟩ := h.connected ⟨⟨1, 0⟩, 0⟩ (by simp [hrunning])
  rw [List.length_eq_zero_iff.mp hempty] at htab
  exact absurd htab (List.not_mem_nil)

end ScoutingComputer.Bluetooth
