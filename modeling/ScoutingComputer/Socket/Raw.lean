import Mathlib.Data.Rat.Floor
import ScoutingComputer.Foundation.Trace
import ScoutingComputer.Socket.Calls

/-! The two loops with their pointers.

`recv` and `send` take a pointer and an `int`, and return an `int` that the loops keep as a
`size_t`; an error is then the largest of them. Pointers are offsets into the buffer here,
and the buffer that is filled is memory which is written piece by piece. The clock is read
in seconds. -/
namespace ScoutingComputer.Socket.Raw
open Program

inductive Call where
  | malloc (size : Nat)
  | getTime
  | recv (dataPtr : Nat) (len : Int)
  | send (dataCurr : Nat) (len : Int)
  deriving DecidableEq, Repr

inductive Answer where
  /-- What is in the memory, if there is any. -/
  | malloc (memory : Option (List UInt8))
  | getTime (now : Rat)
  /-- What is returned, what was put behind the pointer, what `WSAGetLastError` says, and
  the two readings of the clock after it. -/
  | recv (result : Int) (filled : List UInt8) (lastError : Int) (moved checked : Rat)
  | send (result : Int) (lastError : Int)
  deriving DecidableEq, Repr

inductive Fault where
  /-- A write outside the memory. -/
  | outOfBounds
  | threw (error : Exception)
  deriving DecidableEq, Repr

abbrev RawProgram := Program Call Answer Fault

def SOCKET_ERROR : Int := -1

def timeout : Rat := 15

def getTime : RawProgram Rat
  | .getTime now :: rest => .done now rest
  | _ => .asks .getTime

/-- No request for half of the address space is granted. -/
def malloc (size : Nat) : RawProgram (Option (List UInt8))
  | .malloc memory :: rest => .done (if size < 2 ^ 63 then memory else none) rest
  | _ => .asks (.malloc size)

/-- `filled` is written from `dataPtr` on. -/
def write (memory : List UInt8) (dataPtr : Nat) (filled : List UInt8) : Option (List UInt8) :=
  if dataPtr + filled.length ≤ memory.length then
    some (memory.take dataPtr ++ filled ++ memory.drop (dataPtr + filled.length))
  else none

/-- The loop of `readAllSocketData`. It returns the memory behind `dataPtrStart`. -/
def receiveLoop (sizeExpected : Nat) (memory : List UInt8) (dataPtr dataRecvd : Nat) (timeoutTime : Rat) :
    RawProgram (Option (List UInt8))
  | [] =>
    if dataRecvd < sizeExpected then .asks (.recv dataPtr (intOfSize (sizeExpected - dataRecvd)))
    else .done (some memory) []
  | answer :: rest =>
    if dataRecvd < sizeExpected then
      match answer with
      | .recv result filled lastError moved checked =>
        match write memory dataPtr filled with
        | none => .throws .outOfBounds rest
        | some memory =>
          let currentLenRecvd := sizeOfInt result
          let timeoutTime := if currentLenRecvd > 0 ∧ currentLenRecvd ≠ sizeOfInt SOCKET_ERROR then moved + timeout
            else timeoutTime
          if checked > timeoutTime then .done none rest
          else if currentLenRecvd = 0 then .done none rest
          else if currentLenRecvd = sizeOfInt SOCKET_ERROR then
            if lastError = WSAEWOULDBLOCK ∨ lastError = WSAEINPROGRESS then
              receiveLoop sizeExpected memory dataPtr dataRecvd timeoutTime rest
            else match WinsockErrorDesc.get lastError with
              | none => .throws (.threw .outOfRange) rest
              | some _ => .done none rest
          else
            receiveLoop sizeExpected memory (dataPtr + currentLenRecvd) ((dataRecvd + currentLenRecvd) % 2 ^ 64)
              timeoutTime rest
      | _ => .asks (.recv dataPtr (intOfSize (sizeExpected - dataRecvd)))
    else .done (some memory) (answer :: rest)

/-- `none` is a return with `success` false. -/
def readAllSocketData (sizeExpected : Nat) : RawProgram (Option (List UInt8)) := do
  let now ← getTime
  if sizeExpected < 1 then return some []
  else
    let memory ← malloc sizeExpected
    match memory with
    | none => return none
    | some memory => receiveLoop sizeExpected memory 0 0 (now + timeout)

/-- The loop of `sendToSocket`. -/
def sendLoop (size dataCurr sentData : Nat) : RawProgram Bool
  | [] => if sentData < size then .asks (.send dataCurr (intOfSize (size - sentData))) else .done true []
  | answer :: rest =>
    if sentData < size then
      match answer with
      | .send result lastError =>
        let currSentData := sizeOfInt result
        if currSentData = sizeOfInt SOCKET_ERROR then
          if lastError = WSAEWOULDBLOCK then sendLoop size dataCurr sentData rest else .done false rest
        else sendLoop size (dataCurr + currSentData) ((sentData + currSentData) % 2 ^ 64) rest
      | _ => .asks (.send dataCurr (intOfSize (size - sentData)))
    else .done true (answer :: rest)

def sendToSocket (size : Nat) : RawProgram Bool := if size < 1 then return true else sendLoop size 0 0

/-! ### What is documented -/

/-- What a call promises of its answer. -/
def Fits : Call → Answer → Prop
  | .malloc size, .malloc memory => ∀ bytes ∈ memory, bytes.length = size
  | .getTime, .getTime _ => True
  | .recv _ len, .recv result filled _ _ _ =>
    (result = SOCKET_ERROR ∧ filled = []) ∨ (0 ≤ result ∧ result ≤ len ∧ filled.length = result)
  | .send _ len, .send result _ => result = SOCKET_ERROR ∨ (0 ≤ result ∧ result ≤ len)
  | _, _ => False

instance (call : Call) (answer : Answer) : Decidable (Fits call answer) := by
  unfold Fits
  split <;> infer_instance

/-- Every call is answered as documented. -/
abbrev Answered {α : Type} (p : RawProgram α) (answers : List Answer) : Prop := AnsweredBy Fits p answers

/-- The memory a call may touch is inside `size` bytes; a length that is negative is no
length. -/
def Call.InBounds (size : Nat) : Call → Prop
  | .recv dataPtr len => dataPtr + len ≤ size
  | .send dataCurr len => dataCurr + len ≤ size
  | _ => True

/-! ### The loops over lists -/

def milliseconds (time : Rat) : Nat := ⌊1000 * time⌋.toNat

/-- An answer as the loops over lists of bytes get it. -/
def Answer.listed : Answer → Socket.Answer
  | .malloc memory => .malloc memory.isSome
  | .getTime now => .getTime (milliseconds now)
  | .recv result filled lastError moved checked =>
    .recv (if result = SOCKET_ERROR then .error lastError else .bytes filled) (milliseconds moved) (milliseconds checked)
  | .send result lastError =>
    .send (if result = SOCKET_ERROR then .error lastError else .count result.toNat)

/-- A call of the loops over lists: what is sent are bytes, and what is received has no
place. -/
def Call.listed (data : List UInt8) : Call → Socket.Call
  | .malloc size => .malloc size
  | .getTime => .getTime
  | .recv _ len => .recv len
  | .send dataCurr _ => .send (data.drop dataCurr)

/-- The same progress. A write outside the memory is none over lists. -/
inductive Matches (data : List UInt8) {α : Type} : Progress Call Answer Fault α →
    Progress Socket.Call Socket.Answer Exception α → Prop where
  | done (value : α) (rest : List Answer) : Matches data (.done value rest) (.done value (rest.map Answer.listed))
  | asks (call : Call) : Matches data (.asks call) (.asks (call.listed data))
  | throws (error : Exception) (rest : List Answer) :
    Matches data (.throws (.threw error) rest) (.throws error (rest.map Answer.listed))

end ScoutingComputer.Socket.Raw
