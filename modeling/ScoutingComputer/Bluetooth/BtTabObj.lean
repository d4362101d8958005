import ScoutingComputer.Bluetooth.BluetoothConductor
import ScoutingComputer.Foundation.Buffer
import ScoutingComputer.GuiHandler.Button

/-! One connected tablet and the record of its current transaction.

A transfer is a task that a thread works on, or that is deferred until its value is
asked for. The task was launched with pointers: to the tablet whose socket it uses and
to the `success` flag in the record of that tablet. The numbers of connections are not
in the program: they say which of the connections accepted so far is meant. -/
namespace ScoutingComputer.Bluetooth
open Socket

/-- Why an operation does not go on. -/
inductive Failure where
  | threw (error : Exception)
  /-- A pointer or a future that may not be used is used. -/
  | undefined
  /-- The environment did not give what the operation waits for. -/
  | blocked
  deriving DecidableEq, Repr

abbrev Checked := Except Failure

/-- What a transfer leaves: the value, or the exception kept in the future. -/
abbrev TransferData := Except Exception (Option (List UInt8))

inductive TaskState where
  /-- Runs when its value is asked for. -/
  | deferred
  /-- Given to a thread that has not begun. -/
  | queued
  | running
  | finished (data : TransferData)

/-- `data.wait_for(0)` is not a timeout. -/
def TaskState.ready : TaskState → Bool
  | deferred => true
  | finished _ => true
  | _ => false

theorem TaskState.ready_cases {state : TaskState} (h : state.ready = true) :
    state = .deferred ∨ ∃ data, state = .finished data := by
  cases state with
  | deferred => exact .inl rfl
  | finished data => exact .inr ⟨data, rfl⟩
  | queued | running => cases h

structure Task where
  /-- The pointer that was captured. -/
  self : Pointer
  /-- The connection it was started for. -/
  connection : Nat
  transfer : OsProgram (Option (List UInt8) × Bool)
  state : TaskState

/-- A transfer on the answers of the system, all of which it uses. `success` is set at
its start, so that is what a transfer that throws leaves in it. -/
def finish (transfer : OsProgram (Option (List UInt8) × Bool)) (answers : List Answer) :
    Checked (TransferData × Bool) :=
  match transfer answers with
  | .done (value, success) [] => .ok (.ok value, success)
  | .throws e [] => .ok (.error e, true)
  | _ => .error .blocked

inductive SocketCallType where
  | CALLTYPE_DEFAULT
  | CALLTYPE_DEFERRED
  | CALLTYPE_ASYNCHRONOUS
  deriving DecidableEq, Repr

structure TabTransaction where
  parent : Option Pointer
  transactionType : TransactionType
  data : Option Task
  batmanTrans : Bool
  success : Bool
  writeTransaction : Bool

/-- The record of a tablet that has had no transaction yet. -/
def TabTransaction.new : TabTransaction := ⟨none, 0, none, false, true, false⟩

/-- Whether the data is ready; asking a future without a task is undefined. -/
def TabTransaction.isReady (record : TabTransaction) : Checked Bool :=
  match record.data with
  | none => .error .undefined
  | some task => .ok task.state.ready

structure BtTabObj where
  connection : Nat
  socket : Nat
  callType : SocketCallType
  currTrans : TabTransaction
  info : TabletInfo
  transactionState : Bool
  killButton : Button

/-- What the thread of a task does. -/
inductive Progress where
  /-- It begins, which sets `success`. -/
  | started
  | finished (answers : List Answer)

/-- What one iteration of the loop over the connections meets. -/
structure Visit where
  /-- What `select` says of reading, before and in `readTransactionData`, and of writing. -/
  readable : Bool
  readableAgain : Bool
  writable : Bool
  /-- The answers to `getTransactionType`. -/
  code : List Answer
  /-- The choice of `std::async` when the policy leaves one. -/
  async : Bool
  /-- The lookups of the unreceived matches that are executed. -/
  selects : Nat → Bool
  /-- What the thread does before `success` is tested, and before the data is. -/
  beforeTest : List Progress
  beforeReady : List Progress
  /-- The answers to a transfer that runs when it is waited for. -/
  waited : List Answer
  /-- The `INSERT`s of a received match that are executed. -/
  inserts : Nat → Bool

/-- `readTransactionData` of the tablet at `self`. -/
def readTransactionData (visit : Visit) (self : Pointer) (tab : BtTabObj) : Checked BtTabObj :=
  let currTrans := {tab.currTrans with parent := some self}
  if !visit.readableAgain || !visit.writable then
    .ok {tab with currTrans := {currTrans with
      success := false
      transactionType := TRANS_CLOSE_SOCKET
      writeTransaction := false}}
  else
    match getTransactionType visit.code with
    | .done transactionType [] =>
      let currTrans := {currTrans with transactionType := transactionType}
      if transactionType = TRANS_SOCKET_ERROR then
        .ok {tab with currTrans := {currTrans with success := false, writeTransaction := false}}
      else .ok {tab with currTrans := {currTrans with writeTransaction := decide (transactionType < 0)}}
    | .throws e _ => .error (.threw e)
    | _ => .error .blocked

/-- What `std::async` makes under the policy of a call type. -/
def launch (callType : SocketCallType) (async : Bool) : TaskState :=
  match callType with
  | .CALLTYPE_DEFAULT => if async then .queued else .deferred
  | .CALLTYPE_DEFERRED => .deferred
  | .CALLTYPE_ASYNCHRONOUS => .queued

section
variable (server : Server) (readWholeFile : String → Text)

/-- `initReadyTransaction` on the record of the tablet at `self`, and whether it closes
the socket. The outcome of the NACK it sends after an error is ignored. -/
def initReadyTransaction (visit : Visit) (self : Pointer) (t : Table) (tab : BtTabObj) : BtTabObj × Bool :=
  let trans := tab.currTrans
  let task (transfer : OsProgram (Option (List UInt8) × Bool)) : Task :=
    ⟨self, tab.connection, transfer, launch tab.callType visit.async⟩
  if trans.transactionType = TRANS_SOCKET_ERROR ∨ trans.transactionType = TRANS_CLOSE_SOCKET then
    ({tab with currTrans := {trans with success := false, batmanTrans := true, writeTransaction := false}}, true)
  else if trans.writeTransaction then
    match writeData server readWholeFile visit.selects trans.transactionType tab.info t with
    | some data =>
      ({tab with currTrans := {trans with
        batmanTrans := false
        writeTransaction := true
        data := some (task (internalWrite data))}}, false)
    -- a code without a case: the record stays as it is
    | none => (tab, false)
  else
    ({tab with currTrans := {trans with
      success := true
      batmanTrans := false
      data := some (task internalRead)}}, false)

end

end ScoutingComputer.Bluetooth
