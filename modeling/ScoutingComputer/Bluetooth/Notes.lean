import ScoutingComputer.Bluetooth.Payloads
import ScoutingComputer.Bluetooth.Policy

/-! The notes of a run: the payloads of its transfers and of its results, in order.

A run is free of losses when every payload noted as received is noted as processed once,
or waits with its tablet (`ProcessedOnce`). The invariant (`Tidy`) says where payloads can
wait, and `DeliveryRule` adds to the rule of the pointers that no payload waits when all
tablets are reset. -/
namespace ScoutingComputer.Bluetooth
open Socket

/-! ### The notes of a run -/

namespace State

/-- The notes of a thread that goes on. -/
def progressAllNotes (i : Nat) (ps : List Progress) (s : State) : List Note :=
  Machine.notes (fun s p => (s.progress i p).toOption) (progressNotes i) s ps

/-- The notes of a visit from the test of `success` on. -/
def testedNotes (visit : Visit) (i : Nat) (s : State) : List Note :=
  if s.refused i then []
  else
    s.progressAllNotes i visit.beforeReady ++ (s.progressAll i visit.beforeReady).toOption.elim [] fun s =>
      if s.connectedTablets.elements[i]?.any fun tab => tab.currTrans.data.any (·.state.ready) then
        s.handleNotes ⟨visit.inserts, visit.waited⟩ (s.connectedTablets.pointer i)
      else []

/-- What `get()` of every running transaction receives. -/
def killNotes (waited : Nat → List Answer) (s : State) : List Note :=
  Machine.notes (fun s e => (s.awaitRunning waited e).toOption)
    (fun s e => (s.takes e.trans (waited e.connection)).map .received) s s.runningTransactions

section
variable (server : Server) (parseJson : Text → Option Json) (readWholeFile : String → Text)

/-- The notes of one iteration of the loop over the connections. -/
def visitNotes (visits : Nat → Visit) (s : State) (i : Nat) : List Note :=
  match s.requestTransaction server readWholeFile i {visits i with beforeTest := []} with
  | .ok (some s) =>
    s.progressAllNotes i (visits i).beforeTest ++
      (s.progressAll i (visits i).beforeTest).toOption.elim [] (testedNotes (visits i) i)
  | _ => []

/-- The notes of a pass over the running transactions. -/
def runningPassNotes (handlings : Nat → Handling) : List Running → State → List Note
  | [], _ => []
  | e :: rest, s =>
    match (s.connectedTablets.deref e.trans).bind (·.currTrans.data) with
    | none => []
    | some task =>
      if task.state.ready then
        s.handleNotes (handlings e.connection) e.trans ++
          (s.handleEntry server parseJson (handlings e.connection) e).toOption.elim [] fun s =>
            match rest with
            | [] => []
            | _ :: rest => runningPassNotes handlings rest s
      else runningPassNotes handlings rest s

def runningPassesNotes (handlings : Nat → Handling) : Nat → List Running → State → List Note
  | 0, _, _ => []
  | n + 1, running, s =>
    runningPassNotes server parseJson handlings running s ++
      match runningPass server parseJson handlings [] running s with
      | .ok (running, true, s) => runningPassesNotes handlings n running s
      | _ => []

end

end State

section
variable (server : Server) (parseJson : Text → Option Json) (readWholeFile : String → Text)

/-- The notes of a step. -/
def eventNotes (s : State) : Event → List Note
  | .handleReadyConnections visits =>
    Machine.notes (fun s i => (s.visitConnection server parseJson readWholeFile visits i).toOption)
      (State.visitNotes server readWholeFile visits) s (List.range s.connectedTablets.elements.length)
  | .handleRunningTransactions handlings =>
    s.runningPassesNotes server parseJson handlings s.runningTransactions.length s.runningTransactions
  | .killAllSockets waited => s.killNotes waited
  | .progress i p => s.progressNotes i p
  | _ => []

/-- The notes of a run. -/
def runNotes (s : State) (events : List Event) : List Note :=
  Machine.notes (step server parseJson readWholeFile) (eventNotes server parseJson readWholeFile) s events

/-- Every payload has been processed as often as it was received, but for those that wait
to be picked up. -/
def ProcessedOnce (notes : List Note) (s : State) : Prop :=
  ∀ payload, (notes.filterMap Note.received?).count payload =
    (notes.filterMap Note.processed?).count payload + s.pending.count payload

/-- The rule of the pointers, and all tablets are reset only when no read has returned a
payload that waits, or returns one while it is waited for. -/
def DeliveryRule (s : State) (e : Event) : Prop :=
  Rule server parseJson readWholeFile s e ∧
    ∀ waited, e = .killAllSockets waited → s.pending = [] ∧ s.killNotes waited = []

end

/-! ### The invariant -/

/-- A tablet that is not busy has no payload that waits. -/
structure Tidy (tab : BtTabObj) : Prop where
  fit : Fit tab
  free : tab.transactionState = false → tab.pending = []

def State.Tidy (s : State) : Prop := ∀ tab ∈ s.connectedTablets.elements, Bluetooth.Tidy tab

variable {s s' : State} {i : Nat} {tab old : BtTabObj}

theorem Fit.of_pending (htransfer : tab.Reads → ∀ task, tab.currTrans.data = some task → task.transfer = internalRead)
    (h : tab.pending = []) : Fit tab := ⟨htransfer, fun hpending => absurd h hpending⟩

theorem Fit.tidy (h : Fit tab) (hpending : tab.pending = []) : Tidy tab := ⟨h, fun _ => hpending⟩

theorem Changes.tidy (h : Changes s i tab s') (hs : s.Tidy) (htab : Tidy tab) : s'.Tidy := by
  intro t ht
  obtain ⟨j, hj⟩ := List.getElem?_of_mem ht
  rw [h.tablets, Buffer.modify_getElem?] at hj
  split at hj
  · rw [Option.map_eq_some_iff] at hj
    obtain ⟨_, _, rfl⟩ := hj
    exact htab
  · exact hs t (List.mem_of_getElem? hj)

theorem flatMap_eraseIdx {α β : Type} {f : α → List β} {l : List α} {i : Nat} {a : α} (hi : l[i]? = some a)
    (ha : f a = []) : (l.eraseIdx i).flatMap f = l.flatMap f := by
  induction l generalizing i with
  | nil => cases hi
  | cons first rest ih =>
    cases i with
    | zero =>
      cases hi
      rw [List.eraseIdx_cons_zero, List.flatMap_cons, ha, List.nil_append]
    | succ i => rw [List.eraseIdx_cons_succ, List.flatMap_cons, List.flatMap_cons, ih hi]

/-- A tablet for which nothing waits is removed. -/
theorem killSocket_accounts (hdistinct : Distinct s.connectedTablets.elements s.accepted)
    (hi : s.connectedTablets.elements[i]? = some tab) (hpending : tab.pending = []) :
    Accounts s [] (s.killSocket tab.socket).1 := by
  rw [killSocket_at hdistinct hi]
  exact accounts_of_pending (flatMap_eraseIdx hi hpending)

theorem killSocket_tidy (hs : s.Tidy) (deleteSock : Nat) : (s.killSocket deleteSock).1.Tidy := by
  obtain ⟨j, _, _, _, _, hkill⟩ | ⟨_, hkill⟩ := killSocket_cases s deleteSock
  · rw [hkill]
    exact fun tab htab => hs tab ((List.eraseIdx_sublist s.connectedTablets.elements j).subset htab)
  · rw [hkill]
    exact hs

end ScoutingComputer.Bluetooth
