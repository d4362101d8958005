import Mathlib.Data.List.InsertIdx
import Mathlib.Data.List.Perm.Basic
import ScoutingComputer.Bluetooth.Identity
import ScoutingComputer.Bluetooth.Request

/-! How often a socket is closed.

Sockets are closed by `killSocket` and `killAllSockets`, which also remove the tablet, and
by `initReadyTransaction` in its error cases, which does not: there the frame goes on to
`killSocket` and the socket is closed again. `closed_once` is about every run without
such a request; nothing else closes a socket or removes a tablet. -/
namespace ScoutingComputer.Bluetooth
open Socket
open Machine (bind_eq_ok)

namespace State

/-- The sockets of the connected tablets. -/
def sockets (s : State) : List Nat := s.connectedTablets.elements.map (·.socket)

/-- The connections that were closed and those that are connected, by their sockets. -/
def accounted (s : State) : List Nat := s.closed ++ s.sockets

end State

/-- Of the connections that were accepted under a socket, each was closed once but for the
one that is connected. A socket is accepted again only when none is, so in a run that has
this in each of its states they take turns. -/
def ClosedOnce (accepts : List Nat) (s : State) : Prop :=
  ∀ socket, s.closed.count socket + s.sockets.count socket = accepts.count socket

/-- The socket that an event accepts. -/
def joined : Event → Option Nat
  | .acceptConn a => a.peer
  | _ => none

/-- Iteration `i` of the loop over the connections meets no such request. -/
def StaysOpen (visits : Nat → Visit) (s : State) (i : Nat) : Prop :=
  ∀ tab, s.connectedTablets.elements[i]? = some tab → (visits i).readable = true → tab.transactionState = false →
    ¬ (visits i).Closes

/-! ### Operations that leave the sockets alone -/

structure SameSockets (s s' : State) : Prop where
  sockets : s'.sockets = s.sockets
  closed : s'.closed = s.closed

theorem SameSockets.refl (s : State) : SameSockets s s := ⟨rfl, rfl⟩

theorem SameSockets.trans {s₁ s₂ s₃ : State} (h : SameSockets s₁ s₂) (h' : SameSockets s₂ s₃) : SameSockets s₁ s₃ :=
  ⟨h'.sockets.trans h.sockets, h'.closed.trans h.closed⟩

theorem SameSockets.accounted {s s' : State} (h : SameSockets s s') : s'.accounted = s.accounted := by
  unfold State.accounted
  rw [h.sockets, h.closed]

theorem sameSockets_modify {s : State} {i : Nat} {f : BtTabObj → BtTabObj}
    (h : ∀ tab, s.connectedTablets.elements[i]? = some tab → (f tab).socket = tab.socket) :
    SameSockets s (s.modify i f) := ⟨map_modify h, rfl⟩

theorem sameSockets_work : KeptByWork SameSockets where
  refl := SameSockets.refl
  trans := SameSockets.trans
  record := fun _ _ _ => sameSockets_modify fun _ _ => rfl
  info := fun _ _ _ => sameSockets_modify fun _ _ => rfl
  flag := fun _ _ _ => sameSockets_modify fun _ _ => rfl
  table := fun _ _ => ⟨rfl, rfl⟩
  running := fun _ _ => ⟨rfl, rfl⟩

section
variable {server : Server} {parseJson : Text → Option Json} {readWholeFile : String → Text}

/-! ### Requests -/

/-- A request that does not close the socket of its tablet. -/
theorem request_stays {visit : Visit} {self : Pointer} {t : Table} {old : BtTabObj} {r : BtTabObj × Bool}
    (hopen : ¬ visit.Closes) (h : request server readWholeFile visit self t old = .ok r) :
    r.2 = false ∧ r.1.socket = old.socket := by
  obtain hcloses | ⟨transactionType, hsends⟩ | ⟨e, herror⟩ := visit.kinds
  · exact absurd hcloses hopen
  · by_cases hnegative : transactionType < 0
    · by_cases hwrites : Writes transactionType
      · obtain ⟨data, hdata⟩ := writeData_of_writes server readWholeFile hwrites visit.selects old.info t
        rw [hsends.request_writes server readWholeFile self t old hwrites hdata] at h
        cases h
        exact ⟨rfl, rfl⟩
      · rw [hsends.request_ignored server readWholeFile self t old hnegative hwrites] at h
        cases h
        exact ⟨rfl, rfl⟩
    · rw [hsends.request_reads server readWholeFile self t old hnegative] at h
      cases h
      exact ⟨rfl, rfl⟩
  · rw [request_error server readWholeFile self t old (herror self old)] at h
    cases h

theorem requestTransaction_sameSockets {visits : Nat → Visit} {i : Nat} {s s' : State} (hopen : StaysOpen visits s i)
    (h : s.requestTransaction server readWholeFile i (visits i) = .ok (some s')) : SameSockets s s' := by
  obtain ⟨old, hi, hreadable, hfree⟩ := requestTransaction_free h
  rw [requestTransaction_eq server readWholeFile hi hreadable hfree] at h
  obtain ⟨r, hrequest, h⟩ := bind_eq_ok h
  obtain ⟨s₁, hprogress, h⟩ := bind_eq_ok h
  cases h
  obtain ⟨hstays, hsocket⟩ := request_stays (hopen old hi hreadable hfree) hrequest
  have hmodify : SameSockets s (s.modify i fun _ => r.1) := by
    apply sameSockets_modify
    intro tab' htab'
    rw [hi] at htab'
    cases htab'
    exact hsocket
  have hrecord : SameSockets s (s.record i old.socket r) := by
    refine ⟨hmodify.sockets, ?_⟩
    unfold State.record
    rw [hstays]
    rfl
  exact hrecord.trans (sameSockets_work.progressAll hprogress)

/-! ### What is accounted for -/

/-- A tablet is removed when its socket is closed. -/
theorem killSocket_accounted (s : State) (deleteSock : Nat) :
    (s.killSocket deleteSock).1.accounted.Perm s.accounted := by
  obtain ⟨i, tab, _, hi, hsocket, hkill⟩ | ⟨_, hkill⟩ := killSocket_cases s deleteSock
  · have hat : s.sockets[i]? = some deleteSock := by
      rw [State.sockets, List.getElem?_map, hi, ← hsocket]
      rfl
    obtain ⟨hlt, hat⟩ := List.getElem?_eq_some_iff.mp hat
    have herase : (s.connectedTablets.erase i).elements.map (·.socket) = s.sockets.eraseIdx i := by
      unfold State.sockets Buffer.erase
      rw [List.eraseIdx_map]
    rw [hkill]
    show ((s.closed ++ [deleteSock]) ++ (s.connectedTablets.erase i).elements.map (·.socket)).Perm _
    rw [herase, List.append_assoc, List.singleton_append, ← hat]
    exact (List.getElem_cons_eraseIdx_perm hlt).append_left s.closed
  · rw [hkill]

/-- The same connections are accounted for. -/
theorem accounted_work : KeptByWork fun s s' => s'.accounted.Perm s.accounted where
  refl := fun _ => .refl _
  trans := fun h h' => h'.trans h
  record := fun s i f => .of_eq (sameSockets_work.record s i f).accounted
  info := fun s i info => .of_eq (sameSockets_work.info s i info).accounted
  flag := fun s i busy => .of_eq (sameSockets_work.flag s i busy).accounted
  table := fun s t => .of_eq (sameSockets_work.table s t).accounted
  running := fun s running => .of_eq (sameSockets_work.running s running).accounted

theorem visitConnection_accounted {visits : Nat → Visit} {i : Nat} {s s' : State} (hopen : StaysOpen visits s i)
    (h : s.visitConnection server parseJson readWholeFile visits i = .ok s') : s'.accounted.Perm s.accounted :=
  accounted_work.visitConnection (fun _ hrequest => .of_eq (requestTransaction_sameSockets hopen hrequest).accounted)
    killSocket_accounted h

theorem handleReadyConnections_accounted {visits : Nat → Visit} {s s' : State}
    (hrule : FrameRule server parseJson readWholeFile StaysOpen s (.handleReadyConnections visits))
    (h : s.handleReadyConnections server parseJson readWholeFile visits = .ok s') : s'.accounted.Perm s.accounted := by
  refine Machine.invariant_run (I := fun s' => s'.accounted.Perm s.accounted) (fun s₁ i s₂ hperm hopen hstep => ?_)
    (.refl _) hrule (Machine.run_of_foldlM h)
  exact (visitConnection_accounted hopen (Machine.toOption_eq_some hstep)).trans hperm

theorem killAt_accounted (s : State) (i : Nat) : (s.killAt i).accounted.Perm s.accounted := by
  unfold State.killAt
  split
  · exact killSocket_accounted ..
  · exact .refl _

theorem scanNames_accounted (mouse : Mouse) (s : State) : (s.scanNames mouse).1.accounted = s.accounted := by
  simp only [State.accounted, State.scanNames, State.sockets, List.map_map]
  rfl

theorem getNameListFrom_accounted (mouse : Mouse) (n : Nat) (s : State) :
    (s.getNameListFrom mouse n).accounted.Perm s.accounted := by
  induction n generalizing s with
  | zero => exact .of_eq (scanNames_accounted mouse s)
  | succ n ih =>
    have hpair : s.scanNames mouse = ((s.scanNames mouse).1, (s.scanNames mouse).2) := rfl
    unfold State.getNameListFrom
    rw [hpair]
    cases (s.scanNames mouse).2 with
    | none => exact .of_eq (scanNames_accounted mouse s)
    | some i =>
      refine (ih _).trans ((killAt_accounted _ i).trans ?_)
      rw [scanNames_accounted]

theorem killAllSockets_accounted {waited : Nat → List Answer} {s s' : State} (h : s.killAllSockets waited = .ok s') :
    s'.accounted = s.accounted := by
  obtain ⟨s₁, hawait, h⟩ := bind_eq_ok h
  cases h
  have hclosed := (sameSockets_work.awaitAll hawait).closed
  show s₁.closed ++ [] = s.accounted
  rw [hclosed, List.append_nil]
  rfl

theorem acceptConn_accounted {a : Accept} {s s' : State} (h : s.acceptConn a = .ok s') :
    s'.accounted = s.accounted ++ a.peer.toList := by
  obtain ⟨hpeer, rfl⟩ | ⟨peer, hpeer, _, rfl⟩ := acceptConn_cases h
  · rw [hpeer]
    exact (List.append_nil _).symm
  · rw [hpeer]
    simp only [State.accounted, State.sockets, Buffer.push_elements, List.map_append, List.append_assoc]
    rfl

/-- One step: what was accounted for, and the socket that is accepted. -/
theorem step_accounted {s s' : State} {e : Event} (hrule : FrameRule server parseJson readWholeFile StaysOpen s e)
    (hs : step server parseJson readWholeFile s e = some s') :
    s'.accounted.Perm (s.accounted ++ (joined e).toList) := by
  have hok := Machine.toOption_eq_some hs
  cases e with
  | acceptConn a => exact .of_eq (acceptConn_accounted hok)
  | handleReadyConnections visits =>
    show s'.accounted.Perm (s.accounted ++ [])
    rw [List.append_nil]
    exact handleReadyConnections_accounted hrule hok
  | handleRunningTransactions handlings =>
    show s'.accounted.Perm (s.accounted ++ [])
    rw [List.append_nil]
    exact .of_eq (sameSockets_work.runningPasses _ hok).accounted
  | getNameList mouse =>
    cases hok
    show (s.getNameList mouse).accounted.Perm (s.accounted ++ [])
    rw [List.append_nil]
    exact getNameListFrom_accounted ..
  | killSocket deleteSock =>
    cases hok
    show (s.killSocket deleteSock).1.accounted.Perm (s.accounted ++ [])
    rw [List.append_nil]
    exact killSocket_accounted ..
  | killAllSockets waited =>
    show s'.accounted.Perm (s.accounted ++ [])
    rw [List.append_nil]
    exact .of_eq (killAllSockets_accounted hok)
  | progress i p =>
    show s'.accounted.Perm (s.accounted ++ [])
    rw [List.append_nil]
    exact .of_eq (sameSockets_work.progress hok).accounted
  | draw places =>
    cases hok
    apply List.Perm.of_eq
    simp only [State.accounted, State.sockets, joined, Option.toList_none, List.append_nil, List.append_cancel_left_eq]
    apply List.ext_getElem?
    intro j
    simp only [List.getElem?_map, List.getElem?_mapIdx, Option.map_map]
    rfl
  | setCallType i callType =>
    cases hok
    have hsame : SameSockets s (s.modify i fun tab => {tab with callType := callType}) :=
      sameSockets_modify fun _ _ => rfl
    show (s.modify i _).accounted.Perm (s.accounted ++ [])
    rw [List.append_nil]
    exact .of_eq hsame.accounted

/-- A run: what was accounted for, and the sockets that were accepted. -/
theorem run_accounted {s s' : State} {events : List Event}
    (hrule : Machine.Meets (step server parseJson readWholeFile) (FrameRule server parseJson readWholeFile StaysOpen)
      s events)
    (hrun : Machine.run (step server parseJson readWholeFile) s events = some s') :
    s'.accounted.Perm (s.accounted ++ events.filterMap joined) := by
  induction events generalizing s with
  | nil =>
    cases hrun
    exact .of_eq (List.append_nil _).symm
  | cons e events ih =>
    obtain ⟨s₁, hstep, hrest⟩ := Machine.run_cons hrun
    have hfirst := step_accounted hrule.1 hstep
    refine (ih (hrule.2 s₁ hstep) hrest).trans ((hfirst.append_right _).trans ?_)
    rw [List.append_assoc]
    cases hjoined : joined e with
    | none => rw [List.filterMap_cons_none hjoined]; rfl
    | some peer => rw [List.filterMap_cons_some hjoined]; rfl

end

/-- **Each accepted socket is closed exactly once** in every run in which no request closes
it: once the tablet is removed, and not before. -/
theorem closed_once (server : Server) (parseJson : Text → Option Json) (readWholeFile : String → Text) (table : Table)
    (events : List Event) (s : State)
    (hrule : Machine.Meets (step server parseJson readWholeFile) (FrameRule server parseJson readWholeFile StaysOpen)
      (emptyState table) events)
    (hrun : Machine.run (step server parseJson readWholeFile) (emptyState table) events = some s) :
    ClosedOnce (events.filterMap joined) s := by
  have hperm : s.accounted.Perm (events.filterMap joined) := run_accounted hrule hrun
  intro socket
  rw [← hperm.count_eq socket]
  exact List.count_append.symm

/-- A request for a code that can be read and is not the one that asks for the end. -/
theorem requests_staysOpen (server : Server) (parseJson : Text → Option Json) (readWholeFile : String → Text)
    {code : UInt8} {transactionType : TransactionType}
    (hcode : getTransactionType [.getTime 0, .malloc true, .recv (.bytes [code]) 0 0] = .done transactionType [])
    (herror : transactionType ≠ TRANS_SOCKET_ERROR) (hclose : transactionType ≠ TRANS_CLOSE_SOCKET) (s : State) :
    FrameRule server parseJson readWholeFile StaysOpen s (requests code) := by
  apply Machine.Meets.mono _ (Machine.meets_true _ _)
  intro _ i _ _ _ _ _ hcloses
  obtain hread | hwrite | ⟨other, hother, htype⟩ := hcloses
  · cases hread
  · cases hwrite
  · obtain ⟨rfl, _⟩ := ScoutingComputer.Progress.done.inj (hcode.symm.trans hother)
    exact htype.elim herror hclose

theorem closed_once_killed :
    ∃ s, Machine.run (step plainServer (fun _ => none) fun _ => []) (emptyState ⟨[], 0⟩)
        [joins 10 1, sendsMatch, .killSocket 10] = some s ∧ s.closed = [10] ∧ ClosedOnce [10] s :=
  ⟨_, rfl, rfl, closed_once plainServer (fun _ => none) (fun _ => []) ⟨[], 0⟩ [joins 10 1, sendsMatch, .killSocket 10] _
    (Machine.meets_cons trivial rfl
      (Machine.meets_cons (requests_staysOpen _ _ _ rfl (by decide) (by decide) _) rfl
        (Machine.meets_cons trivial rfl trivial))) rfl⟩

/-- The code that asks for the end closes the socket twice. -/
theorem close_code_closes_twice :
    ∃ s, Machine.run (step plainServer (fun _ => none) fun _ => []) (emptyState ⟨[], 0⟩)
        [joins 10 1, requests 0] = some s ∧ s.closed = [10, 10] ∧ ¬ ClosedOnce [10] s := by
  refine ⟨_, rfl, rfl, fun h => ?_⟩
  have := h 10
  revert this
  decide

end ScoutingComputer.Bluetooth
