import ScoutingComputer.Bluetooth.Notes

/-! The loop over the connections gives an account of the payloads.

An iteration grants or refuses what the tablet asks for, and asks the tablet: a payload
that it notes was received in its own transfer, and waits when the iteration ends or has
been handled in it. -/
namespace ScoutingComputer.Bluetooth
open Socket
open Machine (bind_eq_ok toOption_eq_some)

variable {s s' : State} {i : Nat} {tab old : BtTabObj}

/-! ### Requests -/

section
variable {server : Server} {parseJson : Text → Option Json} {readWholeFile : String → Text} {visit : Visit}

/-- Nothing waits in the record of a request, and one of a read is granted. -/
theorem request_fit {self : Pointer} {t : Table} {r : BtTabObj × Bool}
    (h : request server readWholeFile visit self t old = .ok r) :
    Fit r.1 ∧ r.1.pending = [] ∧ (r.1.Reads → r.1.currTrans.batmanTrans = false) := by
  have hother : ¬ r.1.Reads →
      Fit r.1 ∧ r.1.pending = [] ∧ (r.1.Reads → r.1.currTrans.batmanTrans = false) := by
    intro hreads
    have hpending := BtTabObj.pending_of_not_reads hreads
    exact ⟨.of_pending (fun h => absurd h hreads) hpending, hpending, fun h => absurd h hreads⟩
  obtain hcloses | ⟨transactionType, hsends⟩ | ⟨e, herror⟩ := visit.kinds
  · obtain ⟨transactionType, htype, hread⟩ := hcloses.read
    obtain ⟨_, _, hread⟩ := hread self old
    rw [request_closes server readWholeFile self t old htype hread] at h
    cases h
    apply hother
    intro hreads
    have hreceives : Receives transactionType := hreads.2
    obtain rfl | rfl := htype
    · exact absurd hreceives (by decide)
    · exact absurd hreceives (by decide)
  · by_cases hnegative : transactionType < 0
    · by_cases hwrites : Writes transactionType
      · obtain ⟨data, hdata⟩ := writeData_of_writes server readWholeFile hwrites visit.selects old.info t
        rw [hsends.request_writes server readWholeFile self t old hwrites hdata] at h
        cases h
        exact hother fun hreads => absurd hreads.1 (by simp)
      · rw [hsends.request_ignored server readWholeFile self t old hnegative hwrites] at h
        cases h
        exact hother fun hreads => absurd hreads.1 (by simp)
    · rw [hsends.request_reads server readWholeFile self t old hnegative] at h
      cases h
      have hpending : ({old with currTrans := ⟨some self, transactionType, some (launched visit self old internalRead),
          false, true, false⟩} : BtTabObj).pending = [] := by
        refine BtTabObj.pending_of_data rfl fun data hstate => ?_
        obtain hlaunch | hlaunch := launch_cases old.callType visit.async
        · cases hlaunch.symm.trans hstate
        · cases hlaunch.symm.trans hstate
      refine ⟨.of_pending (fun _ task htask => ?_) hpending, hpending, fun _ => rfl⟩
      cases htask
      rfl
  · rw [request_error server readWholeFile self t old (herror self old)] at h
    cases h

/-- The thread of a task that was launched for the tablet. -/
theorem progressAll_accounts {ps : List Progress} (hi : s.connectedTablets.elements[i]? = some tab)
    (hreq : Requested (s.connectedTablets.pointer i) old tab) (hfit : Fit tab) (h : s.progressAll i ps = .ok s') :
    ∃ tab', Changes s i tab' s' ∧ Requested (s.connectedTablets.pointer i) old tab' ∧ Fit tab' ∧
      tab'.currTrans.batmanTrans = tab.currTrans.batmanTrans ∧ (tab'.Reads ↔ tab.Reads) ∧
      AccountsTab tab (s.progressAllNotes i ps) tab' := by
  unfold State.progressAll at h
  induction ps generalizing s tab with
  | nil =>
    cases h
    exact ⟨tab, .same_state hi rfl rfl rfl, hreq, hfit, rfl, Iff.rfl, accountsTab_same rfl⟩
  | cons p ps ih =>
    rw [List.foldlM_cons] at h
    obtain ⟨s₁, h₁, h₂⟩ := bind_eq_ok h
    obtain ⟨task, state, success, hchanges₁, hfit₁, haccounts₁⟩ :=
      progress_accounts hi (fun _ hdata hready => (hreq.launched hdata hready).1) hfit h₁
    obtain ⟨tab₁, hchanges, hreq₁, _⟩ := progress_requested hi hreq h₁
    have hsame : tab₁ = tab.onTask task state success :=
      Option.some.inj ((hchanges.getElem? hi).symm.trans (hchanges₁.getElem? hi))
    rw [hsame, ← hchanges₁.pointer] at hreq₁
    obtain ⟨tab₂, hchanges₂, hreq₂, hfit₂, hbatman₂, hreads₂, haccounts₂⟩ :=
      ih (hchanges₁.getElem? hi) hreq₁ hfit₁ h₂
    rw [hchanges₁.pointer] at hreq₂
    refine ⟨tab₂, hchanges₁.trans hchanges₂, hreq₂, hfit₂, hbatman₂, hreads₂, ?_⟩
    unfold State.progressAllNotes Machine.notes
    rw [h₁]
    exact accountsTab_trans haccounts₁ haccounts₂

/-- The request, and then the thread. -/
theorem requestTransaction_stages (h : s.requestTransaction server readWholeFile i visit = .ok (some s')) :
    ∃ old r, s.connectedTablets.elements[i]? = some old ∧ old.transactionState = false ∧
      request server readWholeFile visit (s.connectedTablets.pointer i) s.table old = .ok r ∧
      s.requestTransaction server readWholeFile i {visit with beforeTest := []} =
        .ok (some (s.record i old.socket r)) ∧
      (s.record i old.socket r).progressAll i visit.beforeTest = .ok s' := by
  obtain ⟨old, hi, hreadable, hfree⟩ := requestTransaction_free h
  rw [requestTransaction_eq server readWholeFile hi hreadable hfree] at h
  obtain ⟨r, hr, h⟩ := bind_eq_ok h
  obtain ⟨s₁, hprogress, h⟩ := bind_eq_ok h
  cases h
  have hstart : s.requestTransaction server readWholeFile i {visit with beforeTest := []} = do
      let r ← request server readWholeFile visit (s.connectedTablets.pointer i) s.table old
      let s ← (s.record i old.socket r).progressAll i []
      return some s := requestTransaction_eq server readWholeFile hi hreadable hfree
  rw [hr] at hstart
  exact ⟨old, r, hi, hfree, hr, hstart, hprogress⟩

theorem requestTransaction_none (h : s.requestTransaction server readWholeFile i visit = .ok none) :
    s.requestTransaction server readWholeFile i {visit with beforeTest := []} = .ok none := by
  unfold State.requestTransaction at h ⊢
  cases hi : s.connectedTablets.elements[i]? with
  | none => rfl
  | some old =>
    rw [hi] at h
    simp only at h ⊢
    split at h
    · rename_i hnone
      exact if_pos hnone
    · obtain ⟨_, _, h⟩ := bind_eq_ok h
      obtain ⟨_, _, h⟩ := bind_eq_ok h
      cases h

theorem request_requested {self : Pointer} {t : Table} {r : BtTabObj × Bool} (hidle : Idle old)
    (h : request server readWholeFile visit self t old = .ok r) : Requested self old r.1 := by
  obtain ⟨tab, hread, h⟩ := bind_eq_ok h
  cases h
  exact initReadyTransaction_requested server readWholeFile visit self t hidle hread

/-! ### One iteration of the loop over the connections -/

variable {visits : Nat → Visit}

/-- The tablet is removed, and nothing waits: a read is refused only when it has failed. -/
theorem refused_accounts {s₁ : State} (hsound : s.Sound) (htidy : s.Tidy)
    (hi : s.connectedTablets.elements[i]? = some old) (hchanges : Changes s i tab s₁) (hsame : Same old tab)
    (hfit : Fit tab) (hbatman : tab.Reads → tab.currTrans.batmanTrans = false) (hrefused : tab.refused = true) :
    (s₁.killSocket tab.socket).1.Tidy ∧ Accounts s₁ [] (s₁.killSocket tab.socket).1 := by
  have hpending : tab.pending = [] := by
    by_cases hreads : tab.Reads
    · rw [BtTabObj.refused, hbatman hreads, Bool.false_or, Bool.not_eq_true'] at hrefused
      by_contra hpending
      rw [hfit.success hpending] at hrefused
      cases hrefused
    · exact BtTabObj.pending_of_not_reads hreads
  have hdistinct : Distinct s₁.connectedTablets.elements s₁.accepted := by
    rw [hchanges.tablets, hchanges.accepted]
    exact hsound.distinct.modify hi hsame
  exact ⟨killSocket_tidy (hchanges.tidy htidy (hfit.tidy hpending)) _,
    killSocket_accounts hdistinct (hchanges.getElem? hi) hpending⟩

/-- The transaction is ready and its result is handled at once. -/
theorem handled_accounts {s₁ : State} {handling : Handling} (htidy : s.Tidy)
    (hi : s.connectedTablets.elements[i]? = some old) (hchanges : Changes s i tab s₁)
    (hreq : Requested (s₁.connectedTablets.pointer i) old tab) (hfit : Fit tab)
    (hbatman : tab.Reads → tab.currTrans.batmanTrans = false) (hready : tab.currTrans.isReady = .ok true)
    (hs : s₁.handleTransResult server parseJson handling (s₁.connectedTablets.pointer i) = .ok s') :
    s'.Tidy ∧ Accounts s₁ (s₁.handleNotes handling (s₁.connectedTablets.pointer i)) s' := by
  have hi₁ := hchanges.getElem? hi
  obtain ⟨task, hdata, hstate⟩ := isReady_eq_ok hready
  have htab : s₁.connectedTablets.deref (s₁.connectedTablets.pointer i) = some tab := by
    rw [Buffer.deref_pointer]
    exact hi₁
  have hself : tab.Reads → task.self = s₁.connectedTablets.pointer i := fun hreads =>
    hreq.self_of_read hreads.1 (hbatman hreads) hdata
  obtain ⟨tab', hresult, _, hfit', hpending, haccounts⟩ :=
    handle_accounts htab hreq.parent hdata hself hstate hfit hs
  exact ⟨(hchanges.trans hresult).tidy htidy (hfit'.tidy hpending), hresult.accounts hi₁ haccounts⟩

/-- From the test of `success` on. -/
theorem tested_accounts {s₁ : State} (hsound : s.Sound) (htidy : s.Tidy)
    (hi : s.connectedTablets.elements[i]? = some old) (hchanges : Changes s i tab s₁)
    (hreq : Requested (s₁.connectedTablets.pointer i) old tab) (hfit : Fit tab)
    (hbatman : tab.Reads → tab.currTrans.batmanTrans = false)
    (hrequest : s.requestTransaction server readWholeFile i (visits i) = .ok (some s₁))
    (hs : s.visitConnection server parseJson readWholeFile visits i = .ok s') :
    s'.Tidy ∧ Accounts s₁ (s₁.testedNotes (visits i) i) s' := by
  have hi₁ := hchanges.getElem? hi
  unfold State.testedNotes
  rw [refused_eq hi₁]
  cases hrefused : tab.refused with
  | true =>
    rw [visitConnection_refused parseJson visits hrequest hi₁ hrefused hreq.parent] at hs
    cases hs
    exact refused_accounts hsound htidy hi hchanges hreq.same hfit hbatman hrefused
  | false =>
    cases hprogress : s₁.progressAll i (visits i).beforeReady with
    | error e =>
      simp only [State.visitConnection, hrequest, bind, Except.bind, tablet_pointer hi₁, refused_eq hi₁, hrefused,
        Bool.false_eq_true, if_false, hprogress] at hs
      cases hs
    | ok s₂ =>
      obtain ⟨tab₂, hchanges₂, hreq₂, hfit₂, hbatman₂, hreads₂, haccounts₂⟩ :=
        progressAll_accounts hi₁ hreq hfit hprogress
      have hi₂ := hchanges₂.getElem? hi₁
      have hall := hchanges.trans hchanges₂
      have hthread : Accounts s₁ (s₁.progressAllNotes i (visits i).beforeReady) s₂ :=
        hchanges₂.accounts hi₁ haccounts₂
      rw [visitConnection_polls parseJson visits hrequest hi₁ hrefused hprogress hi₂ hchanges₂.pointer] at hs
      obtain ⟨ready, hready, hs⟩ := bind_eq_ok hs
      obtain ⟨task, hdata, hstate⟩ := isReady_eq_ok hready
      simp only [Bool.false_eq_true, if_false, Except.toOption, Option.elim, hi₂, Option.any_some, hdata, hstate]
      rw [← hchanges₂.pointer] at hreq₂
      cases ready with
      | true =>
        rw [if_pos rfl, ← hchanges₂.pointer] at hs
        rw [if_pos rfl]
        have hbatmanNow : tab₂.Reads → tab₂.currTrans.batmanTrans = false := by
          intro hreads
          rw [hbatman₂]
          exact hbatman (hreads₂.mp hreads)
        obtain ⟨htidy', haccounts'⟩ := handled_accounts htidy hi hall hreq₂ hfit₂ hbatmanNow hready hs
        exact ⟨htidy', accounts_trans s₁ s₂ s' _ _ hthread haccounts'⟩
      | false =>
        simp only [Bool.false_eq_true, if_false] at hs ⊢
        obtain ⟨_, _, hs⟩ := bind_eq_ok hs
        rw [hreq₂.parent] at hs
        cases hs
        have hbusy := changes_modify hi₂ fun tab : BtTabObj => {tab with transactionState := true}
        have hbusyTidy := (hall.trans hbusy).tidy htidy
          ⟨⟨hfit₂.transfer, hfit₂.success⟩, fun hflag => by cases hflag⟩
        have hbusyAccounts := hbusy.accounts hi₂ (accountsTab_same rfl)
        exact ⟨hbusyTidy, accounts_trans s₁ s₂ _ _ _ hthread hbusyAccounts⟩

theorem visitConnection_accounts (hsound : s.Sound) (htidy : s.Tidy)
    (hs : s.visitConnection server parseJson readWholeFile visits i = .ok s') :
    s'.Tidy ∧ Accounts s (State.visitNotes server readWholeFile visits s i) s' := by
  have hvisit := hs
  obtain ⟨requested, hrequest, hs⟩ := bind_eq_ok hs
  unfold State.visitNotes
  cases requested with
  | none =>
    cases hs
    rw [requestTransaction_none hrequest]
    exact ⟨htidy, accounts_refl s⟩
  | some s₁ =>
    obtain ⟨old, r, hi, hfree, hr, hstart, hprogress⟩ := requestTransaction_stages hrequest
    have hold := hsound.idle hi hfree
    obtain ⟨hfit, hpending, hbatman⟩ := request_fit hr
    have hrecord := changes_record s i old.socket r
    have hreq : Requested ((s.record i old.socket r).connectedTablets.pointer i) old r.1 :=
      hrecord.pointer ▸ request_requested hold hr
    obtain ⟨tab₁, hchanges₁, hreq₁, hfit₁, hbatman₁, hreads₁, haccounts₁⟩ :=
      progressAll_accounts (hrecord.getElem? hi) hreq hfit hprogress
    rw [← hchanges₁.pointer] at hreq₁
    obtain ⟨htidy', haccounts'⟩ := tested_accounts hsound htidy hi (hrecord.trans hchanges₁) hreq₁ hfit₁
      (fun hreads => hbatman₁.trans (hbatman (hreads₁.mp hreads))) hrequest hvisit
    have hfirst : Accounts s [] (s.record i old.socket r) := by
      apply hrecord.accounts hi
      apply accountsTab_same
      rw [hpending, (htidy old (List.mem_of_getElem? hi)).free hfree]
    have hthread : Accounts (s.record i old.socket r)
        ((s.record i old.socket r).progressAllNotes i (visits i).beforeTest) s₁ :=
      hchanges₁.accounts (hrecord.getElem? hi) haccounts₁
    rw [hstart]
    simp only [hprogress, Except.toOption, Option.elim]
    exact ⟨htidy', accounts_trans _ _ _ [] _ hfirst (accounts_trans _ _ _ _ _ hthread haccounts')⟩

theorem handleReadyConnections_accounts (hsound : s.Sound) (htidy : s.Tidy)
    (hrule : Rule server parseJson readWholeFile s (.handleReadyConnections visits))
    (hs : s.handleReadyConnections server parseJson readWholeFile visits = .ok s') :
    s'.Tidy ∧ Accounts s (eventNotes server parseJson readWholeFile s (.handleReadyConnections visits)) s' := by
  have hvisits : ∀ s i s', s.Sound ∧ s.Tidy → VisitRule server readWholeFile visits s i →
      (s.visitConnection server parseJson readWholeFile visits i).toOption = some s' →
      (s'.Sound ∧ s'.Tidy) ∧ Accounts s (State.visitNotes server readWholeFile visits s i) s' := by
    intro s i s' h hvisit hstep
    have hok := toOption_eq_some hstep
    obtain ⟨htidy', haccounts⟩ := visitConnection_accounts h.1 h.2 hok
    exact ⟨⟨visitConnection_sound h.1 hvisit hok, htidy'⟩, haccounts⟩
  obtain ⟨h, haccounts⟩ := Machine.notes_run accounts_refl accounts_trans hvisits ⟨hsound, htidy⟩ hrule
    (Machine.run_of_foldlM hs)
  exact ⟨h.2, haccounts⟩

end

end ScoutingComputer.Bluetooth
