import ScoutingComputer.Bluetooth.FailedRead
import ScoutingComputer.Bluetooth.Request

/-! Whether a request is refused.

After a request the frame tests `batmanTrans` and `success` of the record, and removes the
tablet when the transaction is refused. A read sets both and an error sets both; a write
leaves `success` as the transaction before has left it, until the thread of its own task
begins and sets it. `Visit.Free` says what must agree for two tablets to be decided
alike. -/
namespace ScoutingComputer.Bluetooth
open Socket
open Machine (bind_eq_ok)

/-- What is left open in a request: the choice of `std::async`, whether the thread of the
task has begun before the test, and which lookups are executed. -/
structure Choice where
  async : Bool
  started : Bool
  selects : Nat → Bool

/-- The request with these choices. -/
def Visit.choose (visit : Visit) (c : Choice) : Visit :=
  {visit with
    readable := true
    async := c.async
    selects := c.selects
    beforeTest := if c.started then [.started] else []}

section
variable (server : Server) (parseJson : Text → Option Json) (readWholeFile : String → Text)

/-- Whether the request of tablet `i` is refused; none for one that does not get there. -/
def State.decision (i : Nat) (visit : Visit) (s : State) : Option Bool :=
  match s.requestTransaction server readWholeFile i visit with
  | .ok (some s) => some (s.refused i)
  | _ => none

/-- A run after which a tablet is connected and its transactions are completed. -/
structure History where
  table : Table
  events : List Event
  state : State
  run : Machine.run (step server parseJson readWholeFile) (emptyState table) events = some state
  i : Nat
  tab : BtTabObj
  connected : state.connectedTablets.elements[i]? = some tab
  completed : Idle tab

variable {server parseJson readWholeFile}

/-- What the next request can lead to. -/
def History.Decides (h : History server parseJson readWholeFile) (visit : Visit) (refused : Bool) : Prop :=
  ∃ c, h.state.decision server readWholeFile h.i (visit.choose c) = some refused

/-- After both histories the request is decided alike, whatever is chosen. -/
def SameDecision (h₁ h₂ : History server parseJson readWholeFile) (visit : Visit) : Prop :=
  ∀ d₁ d₂, h₁.Decides visit d₁ → h₂.Decides visit d₂ → d₁ = d₂

/-- What the transactions before have left does not decide the request: it is an error or
a read; or a write and both have left `success`, or neither has and no thread can set it;
or a code without a case and both records are refused or neither is. -/
def Visit.Free (visit : Visit) (tab₁ tab₂ : BtTabObj) : Prop :=
  ∀ transactionType, visit.Sends transactionType → transactionType < 0 →
    if Writes transactionType then
      tab₁.currTrans.success = true ∧ tab₂.currTrans.success = true ∨
        tab₁.currTrans.success = false ∧ tab₂.currTrans.success = false ∧
          tab₁.callType = .CALLTYPE_DEFERRED ∧ tab₂.callType = .CALLTYPE_DEFERRED
    else tab₁.refused = tab₂.refused

/-! ### One decision -/

variable {s : State} {i : Nat} {old : BtTabObj} {visit : Visit} {c : Choice} {r : BtTabObj × Bool}

theorem decision_eq (hi : s.connectedTablets.elements[i]? = some old) (hfree : old.transactionState = false)
    (hrequest : request server readWholeFile (visit.choose c) (s.connectedTablets.pointer i) s.table old = .ok r) :
    s.decision server readWholeFile i (visit.choose c) =
      ((s.record i old.socket r).progressAll i (visit.choose c).beforeTest).toOption.map fun s => s.refused i := by
  unfold State.decision
  rw [requestTransaction_eq server readWholeFile hi rfl hfree, hrequest]
  simp only [bind, Except.bind]
  cases (s.record i old.socket r).progressAll i (visit.choose c).beforeTest with
  | ok s => rfl
  | error e => rfl

/-- A request that is tested before the thread of its task has begun. -/
theorem decision_waiting (hi : s.connectedTablets.elements[i]? = some old) (hfree : old.transactionState = false)
    (hrequest : request server readWholeFile (visit.choose c) (s.connectedTablets.pointer i) s.table old = .ok r)
    (hstarted : c.started = false) :
    s.decision server readWholeFile i (visit.choose c) = some r.1.refused := by
  have hbefore : (visit.choose c).beforeTest = [] := by
    unfold Visit.choose
    rw [hstarted]
    rfl
  rw [decision_eq hi hfree hrequest, hbefore]
  show some ((s.record i old.socket r).refused i) = _
  rw [refused_eq ((changes_record s i old.socket r).getElem? hi)]

/-- A request that is tested after the thread of its task has begun. -/
theorem decision_started (hi : s.connectedTablets.elements[i]? = some old) (hfree : old.transactionState = false)
    (hrequest : request server readWholeFile (visit.choose c) (s.connectedTablets.pointer i) s.table old = .ok r)
    (hstarted : c.started = true) {task : Task} (htask : r.1.currTrans.data = some task)
    (hself : task.self = s.connectedTablets.pointer i) (hqueued : task.state = .queued) :
    s.decision server readWholeFile i (visit.choose c) = some r.1.currTrans.batmanTrans := by
  have hbefore : (visit.choose c).beforeTest = [.started] := by
    unfold Visit.choose
    rw [hstarted]
    rfl
  have hrecord := (changes_record s i old.socket r).getElem? hi
  have hprogress := progress_started hrecord htask hself hqueued
  rw [decision_eq hi hfree hrequest, hbefore]
  unfold State.progressAll
  rw [List.foldlM_cons, hprogress]
  show some (State.refused i _) = _
  rw [refused_eq ((changes_modify hrecord fun _ => r.1.onTask task .running true).getElem? hrecord)]
  show some (r.1.currTrans.batmanTrans || !true) = _
  rw [Bool.not_true, Bool.or_false]

/-- No thread begins a task that is ready. -/
theorem decision_ready (hi : s.connectedTablets.elements[i]? = some old) (hfree : old.transactionState = false)
    (hrequest : request server readWholeFile (visit.choose c) (s.connectedTablets.pointer i) s.table old = .ok r)
    (hstarted : c.started = true) (hready : ∀ task, r.1.currTrans.data = some task → task.state.ready = true) :
    s.decision server readWholeFile i (visit.choose c) = none := by
  have hbefore : (visit.choose c).beforeTest = [.started] := by
    unfold Visit.choose
    rw [hstarted]
    rfl
  rw [decision_eq hi hfree hrequest, hbefore]
  unfold State.progressAll
  rw [List.foldlM_cons, progress_blocked ((changes_record s i old.socket r).getElem? hi) hready]
  rfl

/-! ### What a request can lead to -/

variable {h : History server parseJson readWholeFile} {d : Bool} {transactionType : TransactionType}

theorem Visit.Sends.choose (hsends : visit.Sends transactionType) (c : Choice) :
    (visit.choose c).Sends transactionType :=
  ⟨hsends.readable, hsends.writable, hsends.code, hsends.notError, hsends.notClose⟩

/-- A request that launches nothing, tested on the record it makes. -/
theorem decides_ready {refused : Bool} (hrequest : ∀ c, ∃ r, request server readWholeFile (visit.choose c)
      (h.state.connectedTablets.pointer h.i) h.state.table h.tab = .ok r ∧
      (∀ task, r.1.currTrans.data = some task → task.state.ready = true) ∧ r.1.refused = refused) :
    h.Decides visit d ↔ d = refused := by
  constructor
  · rintro ⟨c, hc⟩
    obtain ⟨r, hr, hready, hrefused⟩ := hrequest c
    cases hstarted : c.started with
    | false =>
      rw [decision_waiting h.connected h.completed.1 hr hstarted, hrefused] at hc
      exact (Option.some.inj hc).symm
    | true =>
      rw [decision_ready h.connected h.completed.1 hr hstarted hready] at hc
      cases hc
  · rintro rfl
    obtain ⟨r, hr, _, hrefused⟩ := hrequest ⟨false, false, fun _ => true⟩
    exact ⟨⟨false, false, fun _ => true⟩, (decision_waiting h.connected h.completed.1 hr rfl).trans
      (congrArg some hrefused)⟩

theorem decides_closes (hcloses : visit.Closes) : h.Decides visit d ↔ d = true := by
  apply decides_ready
  intro c
  have hchosen : (visit.choose c).Closes := hcloses
  obtain ⟨_, hr⟩ := hchosen.request_eq server readWholeFile (h.state.connectedTablets.pointer h.i) h.state.table h.tab
  exact ⟨_, hr, h.completed.2, rfl⟩

theorem decides_ignored (hsends : visit.Sends transactionType) (hnegative : transactionType < 0)
    (hnone : ¬ Writes transactionType) : h.Decides visit d ↔ d = h.tab.refused := by
  apply decides_ready
  intro c
  exact ⟨_, (hsends.choose c).request_ignored server readWholeFile _ _ h.tab hnegative hnone, h.completed.2, rfl⟩

/-- A request that launches a transfer. -/
theorem decides_launched {transfer : Choice → OsProgram (Option (List UInt8) × Bool)} {r : Choice → BtTabObj × Bool}
    (hrequest : ∀ c, request server readWholeFile (visit.choose c) (h.state.connectedTablets.pointer h.i) h.state.table
      h.tab = .ok (r c))
    (htask : ∀ c, (r c).1.currTrans.data =
      some (launched (visit.choose c) (h.state.connectedTablets.pointer h.i) h.tab (transfer c)))
    (hbatman : ∀ c, (r c).1.currTrans.batmanTrans = false) {success : Bool}
    (hsuccess : ∀ c, (r c).1.currTrans.success = success) :
    h.Decides visit d ↔ d = !success ∨ d = false ∧ h.tab.callType ≠ .CALLTYPE_DEFERRED := by
  have hrefused : ∀ c, (r c).1.refused = !success := by
    intro c
    unfold BtTabObj.refused
    rw [hbatman, hsuccess, Bool.false_or]
  constructor
  · rintro ⟨c, hc⟩
    cases hstarted : c.started with
    | false =>
      rw [decision_waiting h.connected h.completed.1 (hrequest c) hstarted, hrefused] at hc
      exact .inl (Option.some.inj hc).symm
    | true =>
      obtain hlaunch | hlaunch := launch_cases h.tab.callType c.async
      · have hready : ∀ task, (r c).1.currTrans.data = some task → task.state.ready = true := by
          intro task htask'
          cases (htask c).symm.trans htask'
          show (launch h.tab.callType c.async).ready = true
          rw [hlaunch]
          rfl
        rw [decision_ready h.connected h.completed.1 (hrequest c) hstarted hready] at hc
        cases hc
      · rw [decision_started h.connected h.completed.1 (hrequest c) hstarted (htask c) rfl hlaunch, hbatman] at hc
        refine .inr ⟨(Option.some.inj hc).symm, fun hdeferred => ?_⟩
        rw [hdeferred] at hlaunch
        cases hlaunch
  · rintro (rfl | ⟨rfl, hthread⟩)
    · exact ⟨⟨false, false, fun _ => true⟩, (decision_waiting h.connected h.completed.1 (hrequest _) rfl).trans
        (congrArg some (hrefused _))⟩
    · have hqueued : launch h.tab.callType true = .queued := by
        cases hcall : h.tab.callType with
        | CALLTYPE_DEFERRED => exact absurd hcall hthread
        | CALLTYPE_DEFAULT => rfl
        | CALLTYPE_ASYNCHRONOUS => rfl
      have hstarted := decision_started h.connected h.completed.1 (hrequest ⟨true, true, fun _ => true⟩) rfl
        (htask _) rfl hqueued
      exact ⟨_, hstarted.trans (congrArg some (hbatman _))⟩

theorem decides_reads (hsends : visit.Sends transactionType) (hpositive : ¬ transactionType < 0) :
    h.Decides visit d ↔ d = false := by
  rw [decides_launched (fun c => (hsends.choose c).request_reads server readWholeFile _ _ h.tab hpositive)
    (fun _ => rfl) (fun _ => rfl) (fun _ => rfl)]
  exact or_iff_left_of_imp fun hfalse => hfalse.1

theorem decides_writes (hsends : visit.Sends transactionType) (hwrites : Writes transactionType) :
    h.Decides visit d ↔ d = !h.tab.currTrans.success ∨ d = false ∧ h.tab.callType ≠ .CALLTYPE_DEFERRED := by
  have hdata : ∀ c : Choice, ∃ data, writeData server readWholeFile c.selects transactionType h.tab.info h.state.table =
      some data := fun c => writeData_of_writes server readWholeFile hwrites c.selects h.tab.info h.state.table
  obtain ⟨data, hdata⟩ := Classical.axiomOfChoice hdata
  exact decides_launched (fun c => (hsends.choose c).request_writes server readWholeFile _ _ h.tab hwrites (hdata c))
    (fun _ => rfl) (fun _ => rfl) (fun _ => rfl)

/-- A request that is decided is an error or has a code. -/
theorem decides_kind (hd : h.Decides visit d) : visit.Closes ∨ ∃ transactionType, visit.Sends transactionType := by
  obtain ⟨c, hc⟩ := hd
  obtain hcloses | ⟨transactionType, hsends⟩ | ⟨e, herror⟩ := (visit.choose c).kinds
  · exact .inl hcloses
  · exact .inr ⟨transactionType, hsends.readable, hsends.writable, hsends.code, hsends.notError, hsends.notClose⟩
  · unfold State.decision at hc
    rw [requestTransaction_eq server readWholeFile h.connected rfl h.completed.1,
      request_error server readWholeFile _ h.state.table h.tab (herror _ h.tab)] at hc
    cases hc

theorem decides_closes_or_reads {h₁ h₂ : History server parseJson readWholeFile}
    (hfree : ∀ transactionType, visit.Sends transactionType → ¬ transactionType < 0) : SameDecision h₁ h₂ visit := by
  intro d₁ d₂ hd₁ hd₂
  obtain hcloses | ⟨transactionType, hsends⟩ := decides_kind hd₁
  · rw [(decides_closes hcloses).mp hd₁, (decides_closes hcloses).mp hd₂]
  · have hpositive := hfree transactionType hsends
    rw [(decides_reads hsends hpositive).mp hd₁, (decides_reads hsends hpositive).mp hd₂]

/-- Two sets of decisions on a write. -/
theorem writes_alike (success₁ success₂ : Bool) (deferred₁ deferred₂ : Prop) :
    (∀ d₁ d₂, d₁ = !success₁ ∨ d₁ = false ∧ ¬ deferred₁ → d₂ = !success₂ ∨ d₂ = false ∧ ¬ deferred₂ → d₁ = d₂) ↔
      success₁ = true ∧ success₂ = true ∨ success₁ = false ∧ success₂ = false ∧ deferred₁ ∧ deferred₂ := by
  cases success₁ <;> cases success₂ <;> by_cases h₁ : deferred₁ <;> by_cases h₂ : deferred₂ <;> simp [h₁, h₂]

theorem same_decision_write {h₁ h₂ : History server parseJson readWholeFile} (hsends : visit.Sends transactionType)
    (hnegative : transactionType < 0) : SameDecision h₁ h₂ visit ↔
      if Writes transactionType then
        h₁.tab.currTrans.success = true ∧ h₂.tab.currTrans.success = true ∨
          h₁.tab.currTrans.success = false ∧ h₂.tab.currTrans.success = false ∧
            h₁.tab.callType = .CALLTYPE_DEFERRED ∧ h₂.tab.callType = .CALLTYPE_DEFERRED
      else h₁.tab.refused = h₂.tab.refused := by
  unfold SameDecision
  by_cases hwrites : Writes transactionType
  · simp only [if_pos hwrites, decides_writes hsends hwrites]
    apply writes_alike
  · simp only [if_neg hwrites, decides_ignored hsends hnegative hwrites]
    exact ⟨fun hsame => hsame _ _ rfl rfl, fun hsame d₁ d₂ hd₁ hd₂ => hd₁.trans (hsame.trans hd₂.symm)⟩

end

/-- **What was left of past transactions decides nothing** exactly when it agrees, for any
two histories and any request. -/
theorem same_decision_iff {server : Server} {parseJson : Text → Option Json} {readWholeFile : String → Text}
    (h₁ h₂ : History server parseJson readWholeFile) (visit : Visit) :
    SameDecision h₁ h₂ visit ↔ visit.Free h₁.tab h₂.tab := by
  constructor
  · intro hsame transactionType hsends hnegative
    exact (same_decision_write hsends hnegative).mp hsame
  · intro hfree
    by_cases hwrite : ∃ transactionType, visit.Sends transactionType ∧ transactionType < 0
    · obtain ⟨transactionType, hsends, hnegative⟩ := hwrite
      exact (same_decision_write hsends hnegative).mpr (hfree transactionType hsends hnegative)
    · apply decides_closes_or_reads
      intro transactionType hsends hnegative
      exact hwrite ⟨transactionType, hsends, hnegative⟩

/-- A tablet has only joined. -/
def hasJoined : History plainServer (fun _ => none) fun _ => [] where
  table := ⟨[], 0⟩
  events := [joins 10 1]
  state := _
  run := rfl
  i := 0
  tab := _
  connected := rfl
  completed := by
    refine ⟨rfl, fun task htask => ?_⟩
    cases htask

/-- A request for the hash of the files, whose transfer fails after the number of bytes
and before the frame asks for it. -/
def hashFails : Visit :=
  { readable := true
    readableAgain := true
    writable := true
    code := [.getTime 0, .malloc true, .recv (.bytes [255]) 0 0]
    async := true
    selects := fun _ => true
    beforeTest := []
    beforeReady := [.started, .finished [.send (.count 4), .malloc false]]
    waited := []
    inserts := fun _ => true }

/-- A tablet has made that request. -/
def writeHasFailed : History plainServer (fun _ => none) fun _ => [] where
  table := ⟨[], 0⟩
  events := [joins 10 1, .handleReadyConnections fun _ => hashFails]
  state := _
  run := rfl
  i := 0
  tab := _
  connected := rfl
  completed := by
    refine ⟨rfl, fun task htask => ?_⟩
    cases htask
    rfl

/-- The tablet whose write has failed is removed by the request that the other is
granted. -/
theorem failed_write_refuses_the_next : ¬ SameDecision hasJoined writeHasFailed hashFails := by
  intro hsame
  have hgranted : hasJoined.Decides hashFails false := ⟨⟨true, false, fun _ => true⟩, rfl⟩
  have hrefused : writeHasFailed.Decides hashFails true := ⟨⟨true, false, fun _ => true⟩, rfl⟩
  cases hsame false true hgranted hrefused

end ScoutingComputer.Bluetooth
