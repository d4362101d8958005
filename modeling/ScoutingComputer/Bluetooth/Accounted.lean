import ScoutingComputer.Bluetooth.Visited

/-! The loop over the running transactions and the steps outside of the loops give an
account of the payloads, and so does every run under the rule. -/
namespace ScoutingComputer.Bluetooth
open Socket
open Machine (bind_eq_ok toOption_eq_some)

variable {s s' : State} {i : Nat} {tab old : BtTabObj}

section
variable {server : Server} {parseJson : Text → Option Json} {handlings : Nat → Handling}

/-! ### The loop over the running transactions -/

/-- An entry that is ready is handled, and nothing waits for its tablet. -/
theorem handleEntry_accounts {running : List Running} {e : Running} {handling : Handling} {task : Task}
    (hsound : Bluetooth.Sound running s.connectedTablets s.accepted) (htidy : s.Tidy) (he : e ∈ running)
    (htab : s.connectedTablets.deref e.trans = some tab) (hdata : tab.currTrans.data = some task)
    (hready : task.state.ready = true) (hs : s.handleEntry server parseJson handling e = .ok s') :
    s'.Tidy ∧ Accounts s (s.handleNotes handling e.trans) s' := by
  obtain ⟨tab', htab', hcarries⟩ := hsound.carried e he
  rw [htab] at htab'
  cases htab'
  have hi := (Buffer.deref_iff.mp htab).2
  have hself : task.self = e.trans := by
    obtain ⟨task', hdata', hself, _⟩ := hcarries.data
    rw [hdata] at hdata'
    cases hdata'
    exact hself
  obtain ⟨s₁, hresult, hs⟩ := bind_eq_ok hs
  have hpointer := hsound.pointer he
  obtain ⟨tab₁, hchanges₁, hparent₁, hfit₁, hpending₁, haccounts₁⟩ :=
    handle_accounts htab hcarries.parent hdata (fun _ => hself) hready (htidy tab (List.mem_of_getElem? hi)).fit hresult
  have hi₁ := hchanges₁.getElem? hi
  obtain ⟨tab', htab', hs⟩ := bind_eq_ok hs
  rw [hpointer, ← hchanges₁.pointer, tablet_pointer hi₁] at htab'
  cases htab'
  obtain ⟨_, _, hs⟩ := bind_eq_ok hs
  rw [hparent₁] at hs
  cases hs
  have hfreed := changes_modify hi₁ fun tab : BtTabObj => {tab with transactionState := false}
  have hfree : ({tab₁ with transactionState := false} : BtTabObj).pending = [] := hpending₁
  have haccounts := accountsTab_trans haccounts₁ (accountsTab_same (hpending₁.trans hfree.symm))
  rw [List.append_nil] at haccounts
  have hall := hchanges₁.trans hfreed
  exact ⟨hall.tidy htidy (Fit.tidy ⟨hfit₁.transfer, hfit₁.success⟩ hfree), hall.accounts hi haccounts⟩

theorem runningPass_accounts (n : Nat) (before rest : List Running) (hn : rest.length ≤ n)
    {running : List Running} {again : Bool} (hsound : Bluetooth.Sound (before ++ rest) s.connectedTablets s.accepted)
    (htidy : s.Tidy) (hs : State.runningPass server parseJson handlings before rest s = .ok (running, again, s')) :
    s'.Tidy ∧ Accounts s (State.runningPassNotes server parseJson handlings rest s) s' := by
  induction n generalizing before rest s with
  | zero =>
    cases List.length_eq_zero_iff.mp (Nat.le_zero.mp hn)
    cases hs
    exact ⟨htidy, accounts_refl _⟩
  | succ n ih =>
    cases rest with
    | nil =>
      cases hs
      exact ⟨htidy, accounts_refl _⟩
    | cons e rest =>
      rw [List.length_cons] at hn
      have he : e ∈ before ++ e :: rest := List.mem_append_right _ (List.mem_cons_self ..)
      obtain ⟨tab, htab, hcarries⟩ := hsound.carried e he
      obtain ⟨task, hdata, _⟩ := hcarries.data
      unfold State.runningPass at hs
      obtain ⟨tab', htab', hs⟩ := bind_eq_ok hs
      rw [tablet_of_deref htab] at htab'
      cases htab'
      unfold State.runningPassNotes
      simp only [hdata, htab, Option.bind_some] at hs ⊢
      cases hready : task.state.ready with
      | false =>
        rw [hready] at hs
        simp only [Bool.false_eq_true, if_false] at hs ⊢
        refine ih (before ++ [e]) rest (by omega) ?_ htidy hs
        rwa [List.append_assoc]
      | true =>
        rw [hready, if_pos rfl] at hs
        obtain ⟨s₁, hentry, hs⟩ := bind_eq_ok hs
        obtain ⟨htidy₁, haccounts₁⟩ := handleEntry_accounts hsound htidy he htab hdata hready hentry
        simp only [if_true, hentry, Except.toOption, Option.elim]
        cases rest with
        | nil =>
          cases hs
          exact ⟨htidy₁, accounts_trans s _ _ _ [] haccounts₁ (accounts_refl _)⟩
        | cons next rest =>
          rw [List.length_cons] at hn
          obtain ⟨htidy', haccounts'⟩ := ih (before ++ [next]) rest (by omega) (by
            rw [List.append_assoc]
            exact handleEntry_sound hsound htab hdata hready hentry) htidy₁ hs
          exact ⟨htidy', accounts_trans s s₁ s' _ _ haccounts₁ haccounts'⟩

theorem handleRunningTransactions_accounts (hsound : s.Sound) (htidy : s.Tidy)
    (hs : s.handleRunningTransactions server parseJson handlings = .ok s') :
    s'.Tidy ∧ Accounts s (eventNotes server parseJson readWholeFile s (.handleRunningTransactions handlings)) s' := by
  unfold State.handleRunningTransactions at hs
  show s'.Tidy ∧ Accounts s (s.runningPassesNotes server parseJson handlings s.runningTransactions.length
    s.runningTransactions) s'
  cases hn : s.runningTransactions.length with
  | zero =>
    rw [hn] at hs
    cases hs
    exact ⟨htidy, accounts_refl s⟩
  | succ n =>
    rw [hn] at hs
    obtain ⟨⟨running, again, s₁⟩, hpass, hs⟩ := bind_eq_ok hs
    -- no entry is without data, so there is one pass
    obtain ⟨rfl, _⟩ := runningPass_sound _ [] s.runningTransactions le_rfl hsound hpass
    obtain ⟨htidy₁, haccounts₁⟩ := runningPass_accounts _ [] s.runningTransactions le_rfl hsound htidy hpass
    cases hs
    unfold State.runningPassesNotes
    rw [hpass]
    exact ⟨htidy₁, accounts_trans s s₁ _ _ [] haccounts₁ (accounts_refl _)⟩

end

/-! ### The other steps -/

/-- A thread goes on outside of the loops, for a busy tablet. -/
theorem progress_step {p : Progress} (hsound : s.Sound) (htidy : s.Tidy) (hs : s.progress i p = .ok s') :
    s'.Tidy ∧ Accounts s (s.progressNotes i p) s' := by
  obtain ⟨tab, hi⟩ := progress_connected hs
  have hself : ∀ task, tab.currTrans.data = some task → task.state.ready = false →
      task.self = s.connectedTablets.pointer i := by
    intro task hdata hready
    obtain ⟨e, _, hpointer, _, hself, _⟩ := hsound.carrier hi hdata hready
    exact hself.trans hpointer
  obtain ⟨task, _, _, hdata, hready, _⟩ := progress_changes hi hs hself
  obtain ⟨e, _, _, hcarries, _⟩ := hsound.carrier hi hdata hready
  obtain ⟨task', state, success, hchanges, hfit, haccounts⟩ :=
    progress_accounts hi hself (htidy tab (List.mem_of_getElem? hi)).fit hs
  refine ⟨hchanges.tidy htidy ⟨hfit, fun hfree => ?_⟩, hchanges.accounts hi haccounts⟩
  have hflag : tab.transactionState = false := hfree
  rw [hcarries.busy] at hflag
  cases hflag

theorem acceptConn_step {a : Accept} (htidy : s.Tidy) (hs : s.acceptConn a = .ok s') :
    s'.Tidy ∧ Accounts s [] s' := by
  obtain ⟨_, rfl⟩ | ⟨peer, _, _, rfl⟩ := acceptConn_cases hs
  · exact ⟨htidy, accounts_refl _⟩
  · constructor
    · intro tab htab
      rw [Buffer.push_elements] at htab
      obtain htab | htab := List.mem_append.mp htab
      · exact htidy tab htab
      · cases List.mem_singleton.mp htab
        exact Fit.tidy (.of_pending (fun _ task htask => by cases htask) rfl) rfl
    · apply accounts_of_pending
      unfold State.pending
      rw [Buffer.push_elements, List.flatMap_append]
      exact List.append_nil _

/-- The tablet of a running transaction stays, and for the others nothing waits. -/
theorem killSocket_step {deleteSock : Nat} (hsound : s.Sound) (htidy : s.Tidy)
    (hrule : ∀ i, s.connectedTablets.elements.findIdx? (·.socket = deleteSock) = some i → RunningBefore s i) :
    (s.killSocket deleteSock).1.Tidy ∧ Accounts s [] (s.killSocket deleteSock).1 := by
  refine ⟨killSocket_tidy htidy deleteSock, ?_⟩
  obtain ⟨i, tab, hfind, hi, _, hkill⟩ | ⟨_, hkill⟩ := killSocket_cases s deleteSock
  · have hbefore := hrule i hfind
    have hpending : tab.pending = [] := by
      obtain hidle | ⟨e, he, hslot⟩ := hsound.rest i _ hi
      · exact (htidy _ (List.mem_of_getElem? hi)).free hidle.1
      · have := hbefore e he
        omega
    rw [hkill]
    exact accounts_of_pending (flatMap_eraseIdx hi hpending)
  · rw [hkill]
    exact accounts_refl s

theorem Unseen.pending (h : Unseen old tab) : tab.pending = old.pending := by
  obtain ⟨hsame, _, htrans⟩ := h
  simp only [BtTabObj.pending, BtTabObj.payloads, BtTabObj.Reads, htrans, hsame.2]

theorem Unseen.tidy (h : Unseen old tab) (hold : Tidy old) : Tidy tab := by
  have hpending := h.pending
  obtain ⟨_, hflag, htrans⟩ := h
  refine ⟨⟨?_, ?_⟩, ?_⟩
  · unfold BtTabObj.Reads
    rw [htrans]
    exact hold.fit.transfer
  · rw [hpending, htrans]
    exact hold.fit.success
  · rw [hpending, hflag]
    exact hold.free

theorem alike_step (htidy : s.Tidy) (halike : Alike s.connectedTablets s'.connectedTablets) :
    s'.Tidy ∧ Accounts s [] s' := by
  constructor
  · intro tab' htab'
    obtain ⟨i, hi, rfl⟩ := List.mem_iff_getElem.mp htab'
    have hlt : i < s.connectedTablets.elements.length := by
      rw [← halike.length]
      exact hi
    have hunseen := halike.tablets i _ _ (List.getElem?_eq_getElem hlt) (List.getElem?_eq_getElem hi)
    exact hunseen.tidy (htidy _ (List.getElem_mem hlt))
  · apply accounts_of_pending
    unfold State.pending
    rw [List.flatMap_def, List.flatMap_def]
    congr 1
    refine List.ext_getElem (by simpa using halike.length) fun i hi' hi => ?_
    rw [List.length_map] at hi hi'
    rw [List.getElem_map, List.getElem_map]
    exact (halike.tablets i _ _ (List.getElem?_eq_getElem hi) (List.getElem?_eq_getElem hi')).pending

theorem scanNames_step (mouse : Mouse) (htidy : s.Tidy) :
    (s.scanNames mouse).1.Tidy ∧ Accounts s [] (s.scanNames mouse).1 :=
  alike_step htidy (scanNames_alike mouse s)

theorem killAt_step (hsound : s.Sound) (htidy : s.Tidy) (hbefore : RunningBefore s i) :
    (s.killAt i).Tidy ∧ Accounts s [] (s.killAt i) := by
  unfold State.killAt
  split
  · rename_i tab hi
    apply killSocket_step hsound htidy
    intro j hj
    rw [hsound.distinct.findIdx? hi] at hj
    cases hj
    exact hbefore
  · exact ⟨htidy, accounts_refl s⟩

theorem getNameListFrom_step {mouse : Mouse} {n : Nat} (hsound : s.Sound) (htidy : s.Tidy)
    (hrule : NamesRule mouse n s) :
    (s.getNameListFrom mouse n).Tidy ∧ Accounts s [] (s.getNameListFrom mouse n) := by
  induction n generalizing s with
  | zero => exact scanNames_step mouse htidy
  | succ n ih =>
    have hscan := scanNames_sound mouse hsound
    obtain ⟨htidy₁, haccounts₁⟩ := scanNames_step mouse htidy
    have hpair : s.scanNames mouse = ((s.scanNames mouse).1, (s.scanNames mouse).2) := rfl
    unfold State.getNameListFrom
    rw [hpair]
    cases hkill : (s.scanNames mouse).2 with
    | none => exact ⟨htidy₁, haccounts₁⟩
    | some i =>
      obtain ⟨hbefore, hrest⟩ := hrule i hkill
      obtain ⟨htidy₂, haccounts₂⟩ := killAt_step hscan htidy₁ hbefore
      obtain ⟨htidy₃, haccounts₃⟩ := ih (killAt_sound hscan hbefore) htidy₂ hrest
      exact ⟨htidy₃, accounts_trans _ _ _ [] [] haccounts₁ (accounts_trans _ _ _ [] [] haccounts₂ haccounts₃)⟩

/-! ### Runs -/

section
variable {server : Server} {parseJson : Text → Option Json} {readWholeFile : String → Text}

theorem step_accounts (s : State) (e : Event) (s' : State) (h : s.Sound ∧ s.Tidy)
    (hrule : DeliveryRule server parseJson readWholeFile s e)
    (hs : step server parseJson readWholeFile s e = some s') :
    (s'.Sound ∧ s'.Tidy) ∧ Accounts s (eventNotes server parseJson readWholeFile s e) s' := by
  obtain ⟨hsound, htidy⟩ := h
  have hok := toOption_eq_some hs
  suffices hstep : s'.Tidy ∧ Accounts s (eventNotes server parseJson readWholeFile s e) s' by
    exact ⟨⟨step_sound s e s' hsound hrule.1 hs, hstep.1⟩, hstep.2⟩
  cases e with
  | acceptConn a => exact acceptConn_step htidy hok
  | handleReadyConnections visits => exact handleReadyConnections_accounts hsound htidy hrule.1 hok
  | handleRunningTransactions handlings => exact handleRunningTransactions_accounts hsound htidy hok
  | getNameList mouse =>
    cases hok
    exact getNameListFrom_step hsound htidy hrule.1
  | killSocket deleteSock =>
    cases hok
    exact killSocket_step hsound htidy hrule.1
  | killAllSockets waited =>
    obtain ⟨hnone, hnotes⟩ := hrule.2 waited rfl
    obtain ⟨_, _, hok⟩ := bind_eq_ok hok
    cases hok
    refine ⟨fun tab htab => absurd htab (List.not_mem_nil), ?_⟩
    show Accounts s (s.killNotes waited) _
    rw [hnotes]
    exact accounts_of_pending hnone.symm
  | progress i p => exact progress_step hsound htidy hok
  | draw places =>
    cases hok
    exact alike_step htidy (mapIdx_alike fun _ _ => ⟨⟨rfl, rfl⟩, rfl, rfl⟩)
  | setCallType i callType =>
    cases hok
    refine alike_step htidy (modify_alike ?_ i)
    exact fun _ => ⟨⟨rfl, rfl⟩, rfl, rfl⟩

theorem run_accounts {table : Table} {events : List Event}
    (hrule : Machine.Meets (step server parseJson readWholeFile) (DeliveryRule server parseJson readWholeFile)
      (emptyState table) events)
    (hrun : Machine.run (step server parseJson readWholeFile) (emptyState table) events = some s) :
    (s.Sound ∧ s.Tidy) ∧ Accounts (emptyState table)
      (runNotes server parseJson readWholeFile (emptyState table) events) s :=
  Machine.notes_run accounts_refl accounts_trans step_accounts
    ⟨emptyState_sound table, fun _ htab => absurd htab (List.not_mem_nil)⟩ hrule hrun

end

end ScoutingComputer.Bluetooth
