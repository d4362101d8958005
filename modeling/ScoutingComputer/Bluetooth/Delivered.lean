import ScoutingComputer.Bluetooth.Accounted

/-! Every payload that was received is processed once, or waits to be.

What waits is picked up by the loops over the running transactions, as many as there are
entries. A reset of all tablets, which waits for every running transaction and does not
look at its value, drops a payload, and so does the removal of its tablet. -/
namespace ScoutingComputer.Bluetooth
open Socket
open Machine (bind_eq_ok toOption_eq_some)

variable {s s' : State}

section
variable {server : Server} {parseJson : Text → Option Json} {readWholeFile : String → Text}

/-! ### What waits is picked up -/

variable {handlings : Nat → Handling}

/-- While all entries wait for their transfers, no payload waits. -/
theorem pending_of_waiting (hsound : s.Sound) (htidy : s.Tidy)
    (h : ∀ e ∈ s.runningTransactions, Waiting s e) : s.pending = [] := by
  apply List.flatMap_eq_nil_iff.mpr
  intro tab htab
  obtain ⟨i, hi⟩ := List.getElem?_of_mem htab
  obtain hidle | ⟨e, he, hslot⟩ := hsound.rest i tab hi
  · exact (htidy tab htab).free hidle.1
  · obtain ⟨tab', task, htab', hdata, hready⟩ := h e he
    have hsame := (Buffer.deref_iff.mp htab').2
    rw [hslot, hi] at hsame
    cases hsame
    apply BtTabObj.pending_of_data hdata
    intro data hstate
    rw [hstate] at hready
    cases hready

/-- A pass keeps no entry twice, and drops one if any is ready. -/
theorem runningPass_length (n : Nat) (before rest : List Running) (hn : rest.length ≤ n) {running : List Running}
    {again : Bool} (hs : State.runningPass server parseJson handlings before rest s = .ok (running, again, s')) :
    running.length ≤ before.length + rest.length ∧
      ((∃ e ∈ rest, ¬ Waiting s e) → running.length < before.length + rest.length) := by
  induction n generalizing before rest s with
  | zero =>
    cases List.length_eq_zero_iff.mp (Nat.le_zero.mp hn)
    cases hs
    exact ⟨le_rfl, fun ⟨e, he, _⟩ => absurd he (List.not_mem_nil)⟩
  | succ n ih =>
    cases rest with
    | nil =>
      cases hs
      exact ⟨le_rfl, fun ⟨e, he, _⟩ => absurd he (List.not_mem_nil)⟩
    | cons e rest =>
      rw [List.length_cons] at hn
      unfold State.runningPass at hs
      obtain ⟨tab, htab, hs⟩ := bind_eq_ok hs
      obtain ⟨p, hp, htab⟩ := tablet_eq_ok htab
      cases hp
      cases hdata : tab.currTrans.data with
      | none =>
        simp only [hdata] at hs
        cases hs
        rw [List.length_append, List.length_cons]
        exact ⟨by omega, fun _ => by omega⟩
      | some task =>
        simp only [hdata] at hs
        cases hready : task.state.ready with
        | false =>
          rw [hready] at hs
          simp only [Bool.false_eq_true, if_false] at hs
          obtain ⟨hle, hlt⟩ := ih (before ++ [e]) rest (by omega) hs
          rw [List.length_append, List.length_singleton] at hle hlt
          rw [List.length_cons]
          refine ⟨by omega, fun ⟨e', he', hready'⟩ => ?_⟩
          obtain rfl | he' := List.mem_cons.mp he'
          · exact absurd ⟨tab, task, htab, hdata, hready⟩ hready'
          · have := hlt ⟨e', he', hready'⟩
            omega
        | true =>
          rw [hready, if_pos rfl] at hs
          obtain ⟨s₁, _, hs⟩ := bind_eq_ok hs
          cases rest with
          | nil =>
            cases hs
            simp only [List.length_cons, List.length_nil]
            exact ⟨by omega, fun _ => by omega⟩
          | cons next rest =>
            rw [List.length_cons] at hn
            obtain ⟨hle, _⟩ := ih (before ++ [next]) rest (by omega) hs
            rw [List.length_append, List.length_singleton] at hle
            simp only [List.length_cons]
            exact ⟨by omega, fun _ => by omega⟩

theorem handleRunningTransactions_waiting (h : ∀ e ∈ s.runningTransactions, Waiting s e) :
    s.handleRunningTransactions server parseJson handlings = .ok s := by
  have hpass := runningPass_waiting server parseJson handlings [] s.runningTransactions [] h
  rw [List.append_nil, List.nil_append] at hpass
  unfold State.handleRunningTransactions
  cases hn : s.runningTransactions.length with
  | zero =>
    have hnone := List.length_eq_zero_iff.mp hn
    cases s
    cases hnone
    rfl
  | succ n =>
    unfold State.runningPasses
    rw [hpass]
    rfl

theorem handleRunningTransactions_length (hsound : s.Sound) (hready : ∃ e ∈ s.runningTransactions, ¬ Waiting s e)
    (hs : s.handleRunningTransactions server parseJson handlings = .ok s') :
    s'.runningTransactions.length < s.runningTransactions.length := by
  unfold State.handleRunningTransactions at hs
  cases hn : s.runningTransactions.length with
  | zero =>
    obtain ⟨e, he, _⟩ := hready
    rw [List.length_eq_zero_iff.mp hn] at he
    cases he
  | succ n =>
    rw [hn] at hs
    obtain ⟨⟨running, again, s₁⟩, hpass, hs⟩ := bind_eq_ok hs
    obtain ⟨rfl, _⟩ := runningPass_sound _ [] s.runningTransactions le_rfl hsound hpass
    have hlt := (runningPass_length _ [] s.runningTransactions le_rfl hpass).2 hready
    cases hs
    rw [List.length_nil, Nat.zero_add, hn] at hlt
    exact hlt

theorem run_waiting (frames : List (Nat → Handling)) (h : ∀ e ∈ s.runningTransactions, Waiting s e) :
    Machine.run (step server parseJson readWholeFile) s (frames.map .handleRunningTransactions) = some s := by
  induction frames with
  | nil => rfl
  | cons handlings frames ih =>
    have hstep : step server parseJson readWholeFile s (.handleRunningTransactions handlings) = some s :=
      congrArg Except.toOption (handleRunningTransactions_waiting h)
    rw [List.map_cons, Machine.run, hstep]
    exact ih

/-- As many loops over the running transactions as there are entries pick up all that
waits. -/
theorem run_picks_up {frames : List (Nat → Handling)} (hsound : s.Sound) (htidy : s.Tidy)
    (hlength : s.runningTransactions.length ≤ frames.length)
    (hrun : Machine.run (step server parseJson readWholeFile) s (frames.map .handleRunningTransactions) = some s') :
    s'.pending = [] := by
  induction frames generalizing s with
  | nil =>
    cases hrun
    apply pending_of_waiting hsound htidy
    rw [List.length_eq_zero_iff.mp (Nat.le_zero.mp hlength)]
    exact fun e he => absurd he (List.not_mem_nil)
  | cons handlings frames ih =>
    by_cases hwait : ∀ e ∈ s.runningTransactions, Waiting s e
    · rw [run_waiting _ hwait] at hrun
      cases hrun
      exact pending_of_waiting hsound htidy hwait
    · push Not at hwait
      obtain ⟨s₁, h₁, h₂⟩ := Machine.run_cons hrun
      have hok : s.handleRunningTransactions server parseJson handlings = .ok s₁ := toOption_eq_some h₁
      have hlt := handleRunningTransactions_length hsound hwait hok
      have hstep : s₁.Tidy ∧
          Accounts s (eventNotes server parseJson readWholeFile s (.handleRunningTransactions handlings)) s₁ :=
        handleRunningTransactions_accounts hsound htidy hok
      rw [List.length_cons] at hlength
      exact ih (handleRunningTransactions_sound hsound hok) hstep.1 (by omega) h₂

end

/-! ### Received, and never processed -/

/-- A tablet joins and sends its name, and the transfer ends. -/
def nameArrives : List Event := [joins 10 1, requests 2, .progress 0 .started, .progress 0 (.finished readsName)]

/-- The frame that asks for the name also sees its transfer end. -/
def nameInOneFrame : Event :=
  .handleReadyConnections fun _ => {asks 2 with beforeReady := [.started, .finished readsName]}

end ScoutingComputer.Bluetooth
