import ScoutingComputer.Bluetooth.BluetoothConductor
import ScoutingComputer.Foundation.Run

/-! One connection: the computer, a tablet, and the bytes under way between them.

The computer takes a code when there are bytes to read, carries out the transaction of the
code and handles its result; a program of it goes on one call at a time. The tablet keeps
to the message orders in the comments of `internalRead` and `internalWrite`. Every byte
from the tablet is marked with what it is part of, which the computer does not see. -/
namespace ScoutingComputer.Connection
open Socket

/-- What a byte from the tablet is part of; an `ack` may be a NACK. -/
inductive Part where
  | code
  | length
  | payload
  | ack
  deriving DecidableEq, Repr

abbrev Byte := Part × UInt8

def marked (part : Part) (bytes : List UInt8) : List Byte := bytes.map (part, ·)

/-! ### The tablet -/

/-- What the tablet has left to do in a transaction. -/
inductive Talk where
  | finish (received : Option (List UInt8)) (success : Bool)
  | say (bytes : List Byte) (next : Talk)
  /-- Take `n` bytes, of which it has `heard` some. -/
  | hear (n : Nat) (heard : List UInt8) (next : List UInt8 → Talk)

/-- A transaction the tablet asks for: it is received from the tablet or sent to it. A
tablet that `persists` goes on after a NACK; `first` and `second` are whether it
acknowledges the number of bytes and the data. -/
inductive Transaction where
  | receive (code : TransactionType) (payload : List UInt8) (persists : Bool)
  | send (code : TransactionType) (first second : Bool)

namespace Transaction

def code : Transaction → TransactionType
  | receive code _ _ => code
  | send code _ _ => code

/-- The tablet's part: for a received one it hears an ACK, says the number of bytes, hears
another and says the bytes; for a sent one it hears the number, answers, hears the data
and answers. -/
def talk : Transaction → Talk
  | receive code payload persists =>
    .say (marked .code [code.toUInt8]) <|
    .hear 3 [] fun answer =>
      if answer = Socket.ack ∨ persists = true then
        .say (marked .length (bytesOfSize payload.length)) <|
        .hear 3 [] fun answer' =>
          if answer' = Socket.ack ∨ persists = true then
            .say (marked .payload payload) <|
            .finish none (answer == Socket.ack && answer' == Socket.ack)
          else .finish none false
      else .finish none false
  | send code first second =>
    .say (marked .code [code.toUInt8]) <|
    .hear 4 [] fun length =>
      if first then
        .say (marked .ack Socket.ack) <|
        .hear (intOfBytes length).toNat [] fun data =>
          .say (marked .ack (if second then Socket.ack else nack)) <|
          .finish (some data) second
      else .say (marked .ack nack) <| .finish none false

end Transaction

/-! ### The computer -/

inductive Phase where
  /-- No transaction is running. -/
  | waiting
  | typing (program : OsProgram TransactionType)
  /-- `tested` once `success` has been tested. -/
  | transfer (code : TransactionType) (tested : Bool) (program : OsProgram (Option (List UInt8) × Bool))
  | closed
  /-- An exception has left the frame. -/
  | crashed

namespace Phase

def call : Phase → Option Call
  | typing program => program.call
  | transfer _ _ program => program.call
  | _ => none

/-- The program goes on with the answer to its call. -/
def after (a : Answer) : Phase → Phase
  | typing program => typing (program.after a)
  | transfer code tested program => transfer code tested (program.after a)
  | phase => phase

def isTyping : Phase → Bool
  | typing _ => true
  | _ => false

end Phase

/-- A transaction whose result was handled. -/
structure Outcome where
  code : TransactionType
  data : Except Exception (Option (List UInt8))
  success : Bool

structure State where
  /-- From the tablet and to it. -/
  up : List Byte
  down : List UInt8
  now : Nat
  /-- When the computer last got a byte or began to read. -/
  quietSince : Nat
  computer : Phase
  outcomes : List Outcome
  /-- What the bytes that `getTransactionType` took were part of. -/
  codeParts : List Part
  /-- The transaction the tablet is in, and those it has not begun. -/
  talk : Option Talk
  transactions : List Transaction
  /-- What the tablet got in each transaction, and whether it succeeded. -/
  received : List (Option (List UInt8) × Bool)

def start (transactions : List Transaction) : State :=
  { up := []
    down := []
    now := 0
    quietSince := 0
    computer := .waiting
    outcomes := []
    codeParts := []
    talk := none
    transactions := transactions
    received := [] }

/-! ### Steps -/

inductive Event where
  | wait (ms : Nat)
  /-- The computer finds bytes to read. -/
  | request
  | malloc
  | getTime
  /-- A `recv` gets `n` bytes, or none when there is nothing to read; `late` is the time
  until its loop reads the clock again. -/
  | recv (n late : Nat)
  /-- A `send` takes `n` bytes, or none for now. -/
  | send (n : Nat)
  /-- The code has been read. -/
  | launch
  /-- `success` is tested. -/
  | test
  /-- The transfer has ended and its result is handled. -/
  | handle (inserts : Nat → Bool) (parent : Bluetooth.TabletInfo) (t : Table)
  /-- The tablet begins a transaction, says or takes `n` bytes, goes on, or ends. -/
  | begin_
  | say (n : Nat)
  | hear (n : Nat)
  | turn
  | finish

section
variable (server : Server) (parseJson : Text → Option Json)
variable (vector : Nat → TransactionType → Option (List UInt8))

/-- The transaction of a code: a refused one closes the socket, and the others are read or
written. `vector k` gives the data of transaction `k`; without data the result of
`isReady` is undefined. -/
def launch (k : Nat) (code : TransactionType) : Option Phase :=
  if code = TRANS_SOCKET_ERROR ∨ code = TRANS_CLOSE_SOCKET then some .closed
  else if code < 0 then (vector k code).map fun data => .transfer code false (internalWrite data)
  else some (.transfer code false internalRead)

/-- The result is handled by the conductor; an exception of it leaves the frame. -/
def handleResult (inserts : Nat → Bool) (parent : Bluetooth.TabletInfo) (t : Table) (outcome : Outcome) (s : State) :
    State :=
  match Bluetooth.handleTransResult server parseJson inserts
      ⟨outcome.code, decide (outcome.code < 0), outcome.success, outcome.data⟩ parent t with
  | .ok _ => {s with
      computer := .waiting
      outcomes := s.outcomes ++ [outcome]}
  | .error _ => {s with computer := .crashed}

def step (s : State) : Event → Option State
  | .wait ms => some {s with now := s.now + ms}
  | .request =>
    match s.computer with
    | .waiting => if s.up = [] then none else some {s with computer := .typing getTransactionType}
    | _ => none
  | .malloc =>
    match s.computer.call with
    | some (.malloc _) => some {s with computer := s.computer.after (.malloc true)}
    | _ => none
  | .getTime =>
    match s.computer.call with
    | some .getTime => some {s with
        computer := s.computer.after (.getTime s.now)
        quietSince := s.now}
    | _ => none
  | .recv n late =>
    match s.computer.call with
    | some (.recv len) =>
      if n = 0 then
        some {s with
          computer := s.computer.after (.recv (.error WSAEWOULDBLOCK) s.now (s.now + late))
          now := s.now + late}
      else if n ≤ s.up.length ∧ (n : Int) ≤ len then
        some {s with
          up := s.up.drop n
          computer := s.computer.after (.recv (.bytes ((s.up.take n).map Prod.snd)) s.now (s.now + late))
          now := s.now + late
          quietSince := s.now
          codeParts := if s.computer.isTyping then s.codeParts ++ (s.up.take n).map Prod.fst else s.codeParts}
      else none
    | _ => none
  | .send n =>
    match s.computer.call with
    | some (.send data) =>
      if n = 0 then some {s with computer := s.computer.after (.send (.error WSAEWOULDBLOCK))}
      else if n ≤ data.length then
        some {s with
          down := s.down ++ data.take n
          computer := s.computer.after (.send (.count n))}
      else none
    | _ => none
  | .launch =>
    match s.computer with
    | .typing program =>
      match program [] with
      | .done code [] => (launch vector s.outcomes.length code).map fun phase => {s with computer := phase}
      | _ => none
    | _ => none
  | .test =>
    match s.computer with
    | .transfer code false program =>
      match program [] with
      | .done (_, false) [] => some {s with computer := .closed}
      | _ => some {s with computer := .transfer code true program}
    | _ => none
  | .handle inserts parent t =>
    match s.computer with
    | .transfer code true program =>
      match program [] with
      | .done (data, success) [] => some (handleResult server parseJson inserts parent t ⟨code, .ok data, success⟩ s)
      | .throws e [] => some (handleResult server parseJson inserts parent t ⟨code, .error e, true⟩ s)
      | _ => none
    | _ => none
  | .begin_ =>
    match s.talk, s.transactions with
    | none, transaction :: transactions => some {s with
        talk := some transaction.talk
        transactions := transactions}
    | _, _ => none
  | .say n =>
    match s.talk with
    | some (.say bytes next) =>
      if 0 < n ∧ n ≤ bytes.length then
        some {s with
          up := s.up ++ bytes.take n
          talk := some (.say (bytes.drop n) next)}
      else none
    | _ => none
  | .hear n =>
    match s.talk with
    | some (.hear total heard next) =>
      if 0 < n ∧ n ≤ s.down.length ∧ heard.length + n ≤ total then
        some {s with
          down := s.down.drop n
          talk := some (.hear total (heard ++ s.down.take n) next)}
      else none
    | _ => none
  | .turn =>
    match s.talk with
    | some (.say [] next) => some {s with talk := some next}
    | some (.hear total heard next) => if heard.length = total then some {s with talk := some (next heard)} else none
    | _ => none
  | .finish =>
    match s.talk with
    | some (.finish received success) => some {s with
        talk := none
        received := s.received ++ [(received, success)]}
    | _ => none

end

/-- The step gets on: it is not the passing of time, nor a call that gets nothing. -/
def Event.gains : Event → Bool
  | .wait _ => false
  | .recv n _ => decide (0 < n)
  | .send n => decide (0 < n)
  | _ => true

/-- The silence that the step ends or goes on with is no longer than the timeout. -/
def InTime (s : State) : Event → Prop
  | .recv n late => if n = 0 then s.now + late ≤ s.quietSince + timeout else late ≤ timeout
  | _ => True

end ScoutingComputer.Connection
