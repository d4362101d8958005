import ScoutingComputer.Bluetooth.FailedRead
import ScoutingComputer.Bluetooth.Request

/-! Which data is asked whether it is ready.

A request for a read or a write puts a new future into the record before the record is
asked. A negative code without a case puts none there: what is asked then is what the
transaction before has left, or nothing, which is undefined. -/
namespace ScoutingComputer.Bluetooth
open Socket
open Machine (bind_eq_ok)

section
variable (server : Server) (parseJson : Text → Option Json) (readWholeFile : String → Text)

namespace State

/-- The data of the record of tablet `i` when its visit asks whether it is ready; none
for a visit that does not get there. -/
def polled (i : Nat) (visit : Visit) (s : State) : Option (Option Task) :=
  match s.requestTransaction server readWholeFile i visit with
  | .ok (some s) =>
    if s.refused i then none
    else match s.progressAll i visit.beforeReady with
      | .ok s => s.connectedTablets.elements[i]?.map (·.currTrans.data)
      | .error _ => none
  | _ => none

/-- The record of tablet `i` without the data of the transaction before. -/
def forget (i : Nat) (s : State) : State := s.modifyTrans i fun trans => {trans with data := none}

end State

/-- The future that is asked was made for this request: the visit puts it there also when
the record has none. -/
def PollsOwn (visits : Nat → Visit) (s : State) (i : Nat) : Prop :=
  ∀ data, s.polled server readWholeFile i (visits i) = some data →
    ∃ task, data = some task ∧ (s.forget i).polled server readWholeFile i (visits i) = some (some task)

/-- A visit that asks has a code for a read, or for a write there is a case for. -/
def KnownCode (visits : Nat → Visit) (s : State) (i : Nat) : Prop :=
  ∀ data, s.polled server readWholeFile i (visits i) = some data →
    ∃ transactionType, (visits i).Sends transactionType ∧ (0 ≤ transactionType ∨ Writes transactionType)

variable {server parseJson readWholeFile}

theorem polled_eq_some {s : State} {i : Nat} {visit : Visit} {data : Option Task}
    (h : s.polled server readWholeFile i visit = some data) :
    ∃ s₁ s₂ tab, s.requestTransaction server readWholeFile i visit = .ok (some s₁) ∧ s₁.refused i = false ∧
      s₁.progressAll i visit.beforeReady = .ok s₂ ∧ s₂.connectedTablets.elements[i]? = some tab ∧
      tab.currTrans.data = data := by
  unfold State.polled at h
  split at h
  · rename_i s₁ hrequest
    split at h
    · cases h
    · rename_i hrefused
      split at h
      · rename_i s₂ hprogress
        obtain ⟨tab, htab, hdata⟩ := Option.map_eq_some_iff.mp h
        exact ⟨s₁, s₂, tab, hrequest, eq_false_of_ne_true hrefused, hprogress, htab, hdata⟩
      · cases h
  · cases h

variable (parseJson) in
/-- Asking an empty future is undefined. -/
theorem polled_none_undefined {visits : Nat → Visit} {s : State} {i : Nat}
    (h : s.polled server readWholeFile i (visits i) = some none) :
    s.visitConnection server parseJson readWholeFile visits i = .error .undefined := by
  obtain ⟨s₁, s₂, tab, hrequest, hrefused, hprogress, htab, hdata⟩ := polled_eq_some h
  have hkeeps : Keeps s₁ s₂ := keeps_records.progressAll hprogress
  obtain ⟨tab₁, htab₁, _⟩ := hkeeps.symm.getElem? htab
  rw [refused_eq htab₁] at hrefused
  rw [visitConnection_polls parseJson visits hrequest htab₁ hrefused hprogress htab (hkeeps.pointer i)]
  unfold TabTransaction.isReady
  rw [hdata]
  rfl

/-! ### Whose data it is -/

theorem forget_getElem? {s : State} {i : Nat} {old : BtTabObj} (hi : s.connectedTablets.elements[i]? = some old) :
    (s.forget i).connectedTablets.elements[i]? = some {old with currTrans := {old.currTrans with data := none}} := by
  exact (changes_modify hi fun tab => {tab with currTrans := {tab.currTrans with data := none}}).getElem? hi

/-- A request that makes one record of the old one with and without its data does the
same. -/
theorem polled_forget {s : State} {i : Nat} {visit : Visit} {old : BtTabObj} {r : BtTabObj × Bool}
    (hi : s.connectedTablets.elements[i]? = some old) (hreadable : visit.readable = true)
    (hfree : old.transactionState = false)
    (hrequest : request server readWholeFile visit (s.connectedTablets.pointer i) s.table old = .ok r)
    (hforgot : request server readWholeFile visit (s.connectedTablets.pointer i) s.table
      {old with currTrans := {old.currTrans with data := none}} = .ok r) :
    (s.forget i).polled server readWholeFile i visit = s.polled server readWholeFile i visit := by
  have hrecord : (s.forget i).record i old.socket r = s.record i old.socket r := by
    simp only [State.record, State.forget, State.modifyTrans, State.modify, Buffer.modify_modify, Function.comp_def]
  have hsame : (s.forget i).requestTransaction server readWholeFile i visit =
      s.requestTransaction server readWholeFile i visit := by
    rw [requestTransaction_eq server readWholeFile hi hreadable hfree, hrequest,
      requestTransaction_eq server readWholeFile (forget_getElem? hi) hreadable hfree]
    show (request server readWholeFile visit (s.connectedTablets.pointer i) s.table _ >>= _) = _
    rw [hforgot]
    simp only [bind, Except.bind, hrecord]
  unfold State.polled
  rw [hsame]

/-- A request that leaves a record without data as it is has nothing to ask. -/
theorem polled_forget_empty {s : State} {i : Nat} {visit : Visit} {old : BtTabObj} {r : BtTabObj × Bool}
    (hi : s.connectedTablets.elements[i]? = some old) (hreadable : visit.readable = true)
    (hfree : old.transactionState = false)
    (hforgot : request server readWholeFile visit (s.connectedTablets.pointer i) s.table
      {old with currTrans := {old.currTrans with data := none}} = .ok r) (hempty : r.1.currTrans.data = none)
    (task : Task) : (s.forget i).polled server readWholeFile i visit ≠ some (some task) := by
  intro h
  obtain ⟨s₁, s₂, tab, hrequest, _, hready, htab, hdata⟩ := polled_eq_some h
  rw [requestTransaction_eq server readWholeFile (forget_getElem? hi) hreadable hfree] at hrequest
  obtain ⟨r', hr', hrequest⟩ := bind_eq_ok hrequest
  cases hforgot.symm.trans hr'
  obtain ⟨_, htest, hrequest⟩ := bind_eq_ok hrequest
  cases hrequest
  have hnew := (changes_record (s.forget i) i old.socket r).getElem? (forget_getElem? hi)
  have hnone : ∀ task, r.1.currTrans.data = some task → task.state.ready = true := by
    rw [hempty]
    intro task htask
    cases htask
  have hsame := progressAll_ready hnew hnone htest
  subst hsame
  have hsame := progressAll_ready hnew hnone hready
  subst hsame
  cases hnew.symm.trans htab
  rw [hempty] at hdata
  cases hdata

/-- The future that is asked is the request's own exactly when the code is known, whatever
the record holds. -/
theorem pollsOwn_iff {visits : Nat → Visit} {s : State} {i : Nat} :
    PollsOwn server readWholeFile visits s i ↔ KnownCode server readWholeFile visits s i := by
  constructor
  · intro hown data hpolled
    obtain ⟨task, _, hforgot⟩ := hown data hpolled
    obtain ⟨s₁, _, _, hrequest, _⟩ := polled_eq_some hpolled
    obtain ⟨old, hi, hreadable, hfree⟩ := requestTransaction_free hrequest
    obtain hcloses | ⟨transactionType, hsends⟩ | ⟨e, herror⟩ := (visits i).kinds
    · obtain ⟨_, hclosed⟩ := hcloses.request_eq server readWholeFile (s.connectedTablets.pointer i) s.table
        {old with currTrans := {old.currTrans with data := none}}
      exact absurd hforgot (polled_forget_empty hi hreadable hfree hclosed rfl task)
    · refine ⟨transactionType, hsends, ?_⟩
      by_contra hunknown
      rw [not_or, Int8.not_le] at hunknown
      have hignored := hsends.request_ignored server readWholeFile (s.connectedTablets.pointer i) s.table
        {old with currTrans := {old.currTrans with data := none}} hunknown.1 hunknown.2
      exact polled_forget_empty hi hreadable hfree hignored rfl task hforgot
    · rw [requestTransaction_eq server readWholeFile hi hreadable hfree,
        request_error server readWholeFile _ s.table old (herror _ old)] at hrequest
      cases hrequest
  · intro hknown data hpolled
    obtain ⟨transactionType, hsends, hcode⟩ := hknown data hpolled
    obtain ⟨s₁, s₂, tab, hrequest, _, hready, htab, hdata⟩ := polled_eq_some hpolled
    obtain ⟨old, hi, hreadable, hfree⟩ := requestTransaction_free hrequest
    -- a known code puts a task into the record, whatever was there
    have hlaunch : ∃ r task,
        request server readWholeFile (visits i) (s.connectedTablets.pointer i) s.table old = .ok r ∧
        request server readWholeFile (visits i) (s.connectedTablets.pointer i) s.table
          {old with currTrans := {old.currTrans with data := none}} = .ok r ∧
        r.1.currTrans.data = some task ∧ task.self = s.connectedTablets.pointer i := by
      by_cases hwrites : Writes transactionType
      · obtain ⟨bytes, hbytes⟩ := writeData_of_writes server readWholeFile hwrites (visits i).selects old.info s.table
        exact ⟨_, _, hsends.request_writes server readWholeFile _ _ old hwrites hbytes,
          hsends.request_writes server readWholeFile _ _ _ hwrites hbytes, rfl, rfl⟩
      · have hpositive : ¬ transactionType < 0 := Int8.not_lt.mpr (hcode.resolve_right hwrites)
        exact ⟨_, _, hsends.request_reads server readWholeFile _ _ old hpositive,
          hsends.request_reads server readWholeFile _ _ _ hpositive, rfl, rfl⟩
    obtain ⟨r, task, hold, hforgot, htask, hself⟩ := hlaunch
    rw [polled_forget hi hreadable hfree hold hforgot, hpolled]
    rw [requestTransaction_eq server readWholeFile hi hreadable hfree, hold] at hrequest
    obtain ⟨_, hr, hrequest⟩ := bind_eq_ok hrequest
    cases hr
    obtain ⟨_, htest, hrequest⟩ := bind_eq_ok hrequest
    cases hrequest
    have hrecord := (changes_record s i old.socket r).getElem? hi
    obtain ⟨_, _, hchanges⟩ := progressAll_launched hrecord htask hself htest
    have hrunning := hchanges.getElem? hrecord
    obtain ⟨_, _, hchanges'⟩ := progressAll_launched hrunning rfl (hself.trans hchanges.pointer.symm) hready
    cases (hchanges'.getElem? hrunning).symm.trans htab
    exact ⟨_, hdata.symm, congrArg some hdata.symm⟩

end

/-! ### Runs -/

/-- **The future that is asked is the request's own** throughout a run, exactly when no
visit of the run asks after a negative code that has no case. -/
theorem polls_own_iff (server : Server) (parseJson : Text → Option Json) (readWholeFile : String → Text)
    (table : Table) (events : List Event) :
    Machine.Meets (step server parseJson readWholeFile)
        (FrameRule server parseJson readWholeFile (PollsOwn server readWholeFile)) (emptyState table) events ↔
      Machine.Meets (step server parseJson readWholeFile)
        (FrameRule server parseJson readWholeFile (KnownCode server readWholeFile)) (emptyState table) events := by
  have hrule : PollsOwn server readWholeFile = KnownCode server readWholeFile := by
    funext visits s i
    exact propext pollsOwn_iff
  rw [hrule]

/-- A request of a tablet whose transfers wait until their value is asked for, which has
a negative code without a case as its first or its second. -/
theorem unknown_code_polls_another :
    ¬ Machine.Meets (step plainServer (fun _ => none) fun _ => [])
        (FrameRule plainServer (fun _ => none) (fun _ => []) (PollsOwn plainServer fun _ => []))
        (emptyState ⟨[], 0⟩) [joins 10 1, requests 156] ∧
      ¬ Machine.Meets (step plainServer (fun _ => none) fun _ => [])
        (FrameRule plainServer (fun _ => none) (fun _ => []) (PollsOwn plainServer fun _ => []))
        (emptyState ⟨[], 0⟩) [joins 10 1, .setCallType 0 .CALLTYPE_DEFERRED, requests 255, requests 156] := by
  constructor
  · intro h
    obtain ⟨task, hnone, _⟩ := (h.2 _ rfl).1.1 none rfl
    cases hnone
  · intro h
    obtain ⟨task, _, hforgot⟩ := ((((h.2 _ rfl).2 _ rfl).2 _ rfl).1.1 _ rfl)
    cases hforgot

end ScoutingComputer.Bluetooth
