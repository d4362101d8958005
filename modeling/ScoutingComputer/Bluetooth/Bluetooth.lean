import ScoutingComputer.Bluetooth.BtTabObj

/-! The Bluetooth component: the connected tablets, the running transactions, and the
operations on them.

The tablets lie in a vector. A running transaction is a pointer to the record inside its
tablet; a second number, which the program does not have, says for which connection it
was started. -/
namespace ScoutingComputer.Bluetooth
open Socket

/-- An entry of `runningTransactions`. -/
structure Running where
  trans : Pointer
  /-- The connection the transaction was started for. -/
  connection : Nat
  deriving DecidableEq, Repr

/-- An entry of the list that is drawn. -/
inductive NameListEntry where
  | name (index : Nat)
  | killButton (tablet : Pointer)
  deriving DecidableEq, Repr

structure State where
  connectedTablets : Buffer BtTabObj
  runningTransactions : List Running
  names : List Text
  nameList : List NameListEntry
  table : Table
  /-- The sockets that `closesocket` was called with. -/
  closed : List Nat
  /-- How many connections have been accepted. -/
  accepted : Nat

def emptyState (table : Table) : State := ⟨⟨0, 0, []⟩, [], [], [], table, [], 0⟩

/-- What `accept` gives in one call. -/
structure Accept where
  peer : Option Nat
  addrStr : Text
  /-- The capacity that a full vector grows to. -/
  growth : Nat
  killButton : Button

/-- What handling one running transaction meets. -/
structure Handling where
  inserts : Nat → Bool
  waited : List Answer

namespace State

/-- The tablet behind a pointer. -/
def tablet (s : State) (p : Option Pointer) : Checked BtTabObj :=
  match p.bind s.connectedTablets.deref with
  | some tab => .ok tab
  | none => .error .undefined

def modify (s : State) (i : Nat) (f : BtTabObj → BtTabObj) : State :=
  {s with connectedTablets := s.connectedTablets.modify i f}

def modifyTrans (s : State) (i : Nat) (f : TabTransaction → TabTransaction) : State :=
  s.modify i fun tab => {tab with currTrans := f tab.currTrans}

/-! ### Accepting and removing -/

/-- `accept` gives a socket that is not in use. -/
def acceptConn (a : Accept) (s : State) : Checked State :=
  match a.peer with
  | none => .ok s
  | some peer =>
    if s.connectedTablets.elements.any (·.socket = peer) then .error .blocked
    else
      .ok {s with
        connectedTablets := s.connectedTablets.push a.growth
          { connection := s.accepted
            socket := peer
            callType := .CALLTYPE_DEFAULT
            currTrans := .new
            info := ⟨a.addrStr, []⟩
            transactionState := false
            killButton := a.killButton }
        accepted := s.accepted + 1 }

def killSocket (deleteSock : Nat) (s : State) : State × Bool :=
  match s.connectedTablets.elements.findIdx? (·.socket = deleteSock) with
  | some i =>
    ({s with connectedTablets := s.connectedTablets.erase i, closed := s.closed ++ [deleteSock]}, true)
  | none => (s, false)

/-! ### Tasks -/

/-- A task writes `success` through the pointer it was launched with. -/
def writeSuccess (task : Task) (success : Bool) (s : State) : Checked State := do
  let _ ← s.tablet (some task.self)
  return s.modifyTrans task.self.slot fun trans => {trans with success := success}

/-- The thread of the task of tablet `i` goes on. -/
def progress (i : Nat) (p : Progress) (s : State) : Checked State :=
  match s.connectedTablets.elements[i]?.bind (·.currTrans.data) with
  | none => .error .blocked
  | some task =>
    match p, task.state with
    | .started, .queued =>
      (s.modifyTrans i fun trans => {trans with data := some {task with state := .running}}).writeSuccess task true
    | .finished answers, .running => do
      let (data, success) ← finish task.transfer answers
      (s.modifyTrans i fun trans => {trans with data := some {task with state := .finished data}}).writeSuccess
        task success
    | _, _ => .error .blocked

def progressAll (i : Nat) (ps : List Progress) (s : State) : Checked State :=
  ps.foldlM (fun s p => s.progress i p) s

/-- `data.get()` of the record at `p`; a task that is not finished is waited for. -/
def getData (p : Pointer) (waited : List Answer) (s : State) : Checked (TransferData × State) := do
  let tab ← s.tablet (some p)
  let taken := s.modifyTrans p.slot fun trans => {trans with data := none}
  match tab.currTrans.data with
  | none => .error .undefined
  | some task =>
    match task.state with
    | .finished data => return (data, taken)
    | _ =>
      let (data, success) ← finish task.transfer waited
      let s ← taken.writeSuccess task success
      return (data, s)

/-! ### Results -/

section
variable (server : Server) (parseJson : Text → Option Json) (readWholeFile : String → Text)

/-- `handleTransResult` of the record at `p`. -/
def handleTransResult (h : Handling) (p : Pointer) (s : State) : Checked State := do
  let tab ← s.tablet (some p)
  let trans := tab.currTrans
  if trans.writeTransaction then return s
  else if trans.transactionType = TRANS_RECV_MATCH ∨ trans.transactionType = TRANS_RECV_TABLET_INFO ∨
      trans.transactionType = TRANS_RECV_TAB_MATCH_LIST then
    let (data, s) ← s.getData p h.waited
    let tab ← s.tablet (some p)
    let parent ← s.tablet trans.parent
    match Bluetooth.handleTransResult server parseJson h.inserts
        ⟨trans.transactionType, false, tab.currTrans.success, data⟩ parent.info s.table with
    | .ok (info, t) =>
      return {s with table := t}.modify (trans.parent.elim 0 (·.slot)) fun tab => {tab with info := info}
    | .error e => .error (.threw e)
  else return s

/-! ### The loop over the connections -/

/-- The request of tablet `i`, up to the test of `success`; `none` when there is none. -/
def requestTransaction (i : Nat) (visit : Visit) (s : State) : Checked (Option State) :=
  match s.connectedTablets.elements[i]? with
  | none => .ok none
  | some tab =>
    if !visit.readable || tab.transactionState then .ok none
    else do
      let self := s.connectedTablets.pointer i
      let tab ← readTransactionData visit self tab
      let request := initReadyTransaction server readWholeFile visit self s.table tab
      let closed := if request.2 then s.closed ++ [tab.socket] else s.closed
      let s ← {s.modify i fun _ => request.1 with closed := closed}.progressAll i visit.beforeTest
      return some s

/-- The conductor refuses the transaction, or the transfer has failed already. -/
def refused (i : Nat) (s : State) : Bool :=
  s.connectedTablets.elements[i]?.any fun tab => tab.currTrans.batmanTrans || !tab.currTrans.success

/-- One iteration of the loop of `handleReadyConnections`. -/
def visitConnection (visits : Nat → Visit) (s : State) (i : Nat) : Checked State := do
  match ← s.requestTransaction server readWholeFile i (visits i) with
  | none => return s
  | some s =>
    let self := s.connectedTablets.pointer i
    let tab ← s.tablet (some self)
    if s.refused i then
      let parent ← s.tablet tab.currTrans.parent
      return (s.killSocket parent.socket).1
    else
      let s ← s.progressAll i (visits i).beforeReady
      let tab ← s.tablet (some self)
      let ready ← tab.currTrans.isReady
      if ready then
        let handling : Handling := ⟨(visits i).inserts, (visits i).waited⟩
        handleTransResult server parseJson handling self s
      else
        let _ ← s.tablet tab.currTrans.parent
        let entered : State :=
          {s with runningTransactions := s.runningTransactions ++ [⟨self, tab.connection⟩]}
        return entered.modify (tab.currTrans.parent.elim 0 (·.slot)) fun tab =>
          {tab with transactionState := true}

/-- The loop ends at the size, which a removal lowers. -/
def handleReadyConnections (visits : Nat → Visit) (s : State) : Checked State :=
  (List.range s.connectedTablets.elements.length).foldlM
    (visitConnection server parseJson readWholeFile visits) s

/-! ### The loop over the running transactions -/

/-- A running transaction that is ready: its result is handled and its tablet is free. -/
def handleEntry (handling : Handling) (e : Running) (s : State) : Checked State := do
  let s ← s.handleTransResult server parseJson handling e.trans
  let tab ← s.tablet (some e.trans)
  let _ ← s.tablet tab.currTrans.parent
  return s.modify (tab.currTrans.parent.elim 0 (·.slot)) fun tab => {tab with transactionState := false}

/-- The loop of `handleRunningTransactions`: `before` are the entries it has passed. It
starts again, on the entries that are left, when one has no data. -/
def runningPass (handlings : Nat → Handling) :
    List Running → List Running → State → Checked (List Running × Bool × State)
  | before, [], s => .ok (before, false, s)
  | before, e :: rest, s => do
    let tab ← s.tablet (some e.trans)
    match tab.currTrans.data with
    | none => return (before ++ rest, true, s)
    | some task =>
      if task.state.ready then
        let s ← s.handleEntry server parseJson (handlings e.connection) e
        -- the entry that moves into the place of the erased one is passed over
        match rest with
        | [] => return (before, false, s)
        | next :: rest => runningPass handlings (before ++ [next]) rest s
      else runningPass handlings (before ++ [e]) rest s

/-- At most as many passes as there are entries, since each new one has fewer. -/
def runningPasses (handlings : Nat → Handling) : Nat → List Running → State → Checked State
  | 0, running, s => .ok {s with runningTransactions := running}
  | n + 1, running, s => do
    let (running, again, s) ← runningPass server parseJson handlings [] running s
    if again then runningPasses handlings n running s
    else return {s with runningTransactions := running}

def handleRunningTransactions (handlings : Nat → Handling) (s : State) : Checked State :=
  runningPasses server parseJson handlings s.runningTransactions.length s.runningTransactions s

end

/-! ### The list of names and removing all -/

/-- The loop of `getNameList`: the list of the tablets and their buttons, and the last
one whose button is released. -/
def scanNames (mouse : Mouse) (s : State) : State × Option Nat :=
  let tablets := s.connectedTablets.elements
  let indices := List.range tablets.length
  let kill := (indices.filter fun i => tablets[i]?.any fun tab => (tab.killButton.isReleased mouse).1).getLast?
  ({s with
    connectedTablets := {s.connectedTablets with
      elements := tablets.map fun tab => {tab with killButton := (tab.killButton.isReleased mouse).2}}
    names := tablets.map (·.info.tabScoutingName)
    nameList := indices.flatMap fun i => [.name i, .killButton (s.connectedTablets.pointer i)] }, kill)

/-- `killSocket` of the tablet at `i`. -/
def killAt (i : Nat) (s : State) : State :=
  match s.connectedTablets.elements[i]? with
  | some tab => (s.killSocket tab.socket).1
  | none => s

/-- `getNameList` calls itself after a removal, at most as often as there are tablets. -/
def getNameListFrom (mouse : Mouse) : Nat → State → State
  | 0, s => (s.scanNames mouse).1
  | n + 1, s =>
    match s.scanNames mouse with
    | (s, some killIndex) => getNameListFrom mouse n (s.killAt killIndex)
    | (s, none) => s

def getNameList (mouse : Mouse) (s : State) : State :=
  s.getNameListFrom mouse s.connectedTablets.elements.length

/-- `get()` of a running transaction, whose value is not used. -/
def awaitRunning (waited : Nat → List Answer) (s : State) (e : Running) : Checked State := do
  let (data, s) ← s.getData e.trans (waited e.connection)
  match data with
  | .ok _ => return s
  | .error error => .error (.threw error)

/-- Every running transaction is waited for after its socket was closed. -/
def killAllSockets (waited : Nat → List Answer) (s : State) : Checked State := do
  let closed : State := {s with closed := s.closed ++ s.connectedTablets.elements.map BtTabObj.socket}
  let s ← s.runningTransactions.foldlM (awaitRunning waited) closed
  return {s with runningTransactions := [], connectedTablets := s.connectedTablets.clear}

end State

/-! ### Runs -/

inductive Event where
  | acceptConn (a : Accept)
  | handleReadyConnections (visits : Nat → Visit)
  | handleRunningTransactions (handlings : Nat → Handling)
  | getNameList (mouse : Mouse)
  | killSocket (deleteSock : Nat)
  | killAllSockets (waited : Nat → List Answer)
  /-- The thread of the task of a tablet goes on. -/
  | progress (i : Nat) (p : Progress)
  /-- The kill buttons are drawn. -/
  | draw (places : Nat → Rat × Rat)
  | setCallType (i : Nat) (callType : SocketCallType)

section
variable (server : Server) (parseJson : Text → Option Json) (readWholeFile : String → Text)

def perform (s : State) : Event → Checked State
  | .acceptConn a => s.acceptConn a
  | .handleReadyConnections visits => s.handleReadyConnections server parseJson readWholeFile visits
  | .handleRunningTransactions handlings => s.handleRunningTransactions server parseJson handlings
  | .getNameList mouse => .ok (s.getNameList mouse)
  | .killSocket deleteSock => .ok (s.killSocket deleteSock).1
  | .killAllSockets waited => s.killAllSockets waited
  | .progress i p => s.progress i p
  | .draw places => .ok {s with connectedTablets := {s.connectedTablets with
      elements := s.connectedTablets.elements.mapIdx fun i tab => {tab with killButton := {tab.killButton with
        lastX := (places i).1
        lastY := (places i).2}}}}
  | .setCallType i callType => .ok (s.modify i fun tab => {tab with callType := callType})

/-- One step of a run; an exception or an undefined operation ends it. -/
def step (s : State) (e : Event) : Option State := (perform server parseJson readWholeFile s e).toOption

end

end ScoutingComputer.Bluetooth
