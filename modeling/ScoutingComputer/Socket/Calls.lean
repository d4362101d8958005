import Mathlib.Algebra.Ring.Int.Defs
import Mathlib.Algebra.Ring.Nat
import ScoutingComputer.Foundation.Program
import ScoutingComputer.Socket.WinsockErrorDesc
import ScoutingComputer.Types

/-! The calls a connection makes to the operating system, and the two loops over them.

The socket is non-blocking: `recv` and `send` return at once, with an error code when
there is nothing to do. `readAllSocketData` and `sendToSocket` retry until they have
moved all their bytes, so they are recursions on the answers the system gives. -/
namespace ScoutingComputer.Socket

inductive Call where
  | malloc (size : Nat)
  | getTime
  /-- `recv` with its length argument, an `int`. -/
  | recv (len : Int)
  | send (data : List UInt8)
  deriving DecidableEq, Repr

/-- What `recv` returns: bytes (none of them is its 0), or `SOCKET_ERROR` with the
code of `WSAGetLastError`. -/
inductive Received where
  | bytes (data : List UInt8)
  | error (code : Int)
  deriving DecidableEq, Repr

inductive Sent where
  | count (n : Nat)
  | error (code : Int)
  deriving DecidableEq, Repr

/-- An answer of the system. The clock is read in milliseconds; a `recv` carries the
two readings its loop takes after it, where the deadline is moved and where it is
checked. -/
inductive Answer where
  | malloc (granted : Bool)
  | getTime (now : Nat)
  | recv (result : Received) (moved checked : Nat)
  | send (result : Sent)
  deriving DecidableEq, Repr

abbrev OsProgram := Program Call Answer Exception

def WSAEWOULDBLOCK : Int := 10035
def WSAEINPROGRESS : Int := 10036

/-- Fifteen seconds. -/
def timeout : Nat := 15000

/-- No request for half of the address space is granted. -/
def malloc (size : Nat) : OsProgram Bool
  | .malloc granted :: rest => .done (granted && decide (size < 2 ^ 63)) rest
  | _ => .asks (.malloc size)

def getTime : OsProgram Nat
  | .getTime now :: rest => .done now rest
  | _ => .asks .getTime

/-- A `size_t` passed as an `int`. -/
def intOfSize (size : Nat) : Int := Int.bmod size (2 ^ 32)

theorem intOfSize_natCast {n : Nat} (h : n < 2 ^ 31) : intOfSize n = n := by
  unfold intOfSize
  apply Int.bmod_eq_of_le <;> omega

theorem intOfSize_eq (n : Nat) :
    intOfSize n = if n % 2 ^ 32 < 2 ^ 31 then ((n % 2 ^ 32 : Nat) : Int) else (n % 2 ^ 32 : Nat) - (2 : Int) ^ 32 := by
  have hdef : intOfSize n = if (n : Int) % (2 ^ 32 : Nat) < ((2 ^ 32 : Nat) + 1) / 2 then (n : Int) % (2 ^ 32 : Nat)
      else (n : Int) % (2 ^ 32 : Nat) - (2 ^ 32 : Nat) := Int.bmod_def ..
  split
  · rw [hdef]
    split <;> omega
  · rw [hdef]
    split <;> omega

theorem intOfSize_le (n : Nat) : intOfSize n ≤ n := by
  rw [intOfSize_eq]
  split <;> omega

theorem intOfSize_lt (n : Nat) : intOfSize n < 2 ^ 31 := by
  rw [intOfSize_eq]
  split <;> omega

/-- An `int` passed as a `size_t`. -/
def sizeOfInt (n : Int) : Nat := (n % 2 ^ 64).toNat

/-- The loop of `readAllSocketData`, with the bytes received so far and the deadline. -/
def receiveLoop (sizeExpected : Nat) (dataRecvd : List UInt8) (timeoutTime : Nat) :
    OsProgram (Option (List UInt8))
  | [] =>
    if dataRecvd.length < sizeExpected then .asks (.recv (intOfSize (sizeExpected - dataRecvd.length)))
    else .done (some dataRecvd) []
  | answer :: rest =>
    if dataRecvd.length < sizeExpected then
      match answer with
      | .recv result moved checked =>
        match result with
        | .bytes data =>
          let timeoutTime := if data ≠ [] then moved + timeout else timeoutTime
          if checked > timeoutTime then .done none rest
          -- a graceful close
          else if data = [] then .done none rest
          else receiveLoop sizeExpected (dataRecvd ++ data) timeoutTime rest
        | .error code =>
          if checked > timeoutTime then .done none rest
          else if code = WSAEWOULDBLOCK ∨ code = WSAEINPROGRESS then
            receiveLoop sizeExpected dataRecvd timeoutTime rest
          -- the message prints the error's name, looked up with `at`
          else match WinsockErrorDesc.get code with
            | none => .throws .outOfRange rest
            | some _ => .done none rest
      | _ => .asks (.recv (intOfSize (sizeExpected - dataRecvd.length)))
    else .done (some dataRecvd) (answer :: rest)

/-- `none` is a return with `success` false. -/
def readAllSocketData (sizeExpected : Nat) : OsProgram (Option (List UInt8)) := do
  let now ← getTime
  if sizeExpected < 1 then return some []
  else
    let granted ← malloc sizeExpected
    if granted then receiveLoop sizeExpected [] (now + timeout)
    else return none

/-- `sendToSocket`, with the bytes not yet sent. -/
def sendToSocket (data : List UInt8) : OsProgram Bool
  | [] => if data = [] then .done true [] else .asks (.send data)
  | answer :: rest =>
    if data = [] then .done true (answer :: rest)
    else match answer with
      | .send (.count n) => sendToSocket (data.drop n) rest
      | .send (.error code) =>
        if code = WSAEWOULDBLOCK then sendToSocket data rest else .done false rest
      | _ => .asks (.send data)

/-! ### What remains of the loops after one more answer -/

theorem malloc_after (size : Nat) (granted : Bool) :
    (malloc size).after (.malloc granted) = Pure.pure (granted && decide (size < 2 ^ 63)) := rfl

theorem receiveLoop_full {sizeExpected : Nat} {dataRecvd : List UInt8}
    (h : sizeExpected ≤ dataRecvd.length) (timeoutTime : Nat) :
    receiveLoop sizeExpected dataRecvd timeoutTime = Pure.pure (some dataRecvd) := by
  funext answers
  cases answers <;> simp [receiveLoop, Nat.not_lt.mpr h, Program.pure_def]

theorem receiveLoop_call {sizeExpected : Nat} {dataRecvd : List UInt8}
    (h : dataRecvd.length < sizeExpected) (timeoutTime : Nat) :
    (receiveLoop sizeExpected dataRecvd timeoutTime).call =
      some (.recv (intOfSize (sizeExpected - dataRecvd.length))) := by
  simp [Program.call, receiveLoop, h]

/-- Bytes in time move the deadline and are kept. -/
theorem receiveLoop_bytes {sizeExpected : Nat} {dataRecvd data : List UInt8} {timeoutTime moved checked : Nat}
    (h : dataRecvd.length < sizeExpected) (hd : data ≠ []) (ht : checked ≤ moved + timeout) :
    (receiveLoop sizeExpected dataRecvd timeoutTime).after (.recv (.bytes data) moved checked) =
      receiveLoop sizeExpected (dataRecvd ++ data) (moved + timeout) := by
  funext rest
  simp [Program.after, receiveLoop, h, hd, Nat.not_lt.mpr ht]

/-- Nothing to receive, before the deadline: the loop is where it was. -/
theorem receiveLoop_pause {sizeExpected : Nat} {dataRecvd : List UInt8} {timeoutTime moved checked : Nat}
    {code : Int} (h : dataRecvd.length < sizeExpected) (ht : checked ≤ timeoutTime)
    (hc : code = WSAEWOULDBLOCK ∨ code = WSAEINPROGRESS) :
    (receiveLoop sizeExpected dataRecvd timeoutTime).after (.recv (.error code) moved checked) =
      receiveLoop sizeExpected dataRecvd timeoutTime := by
  funext rest
  simp [Program.after, receiveLoop, h, Nat.not_lt.mpr ht, hc]

/-- Nothing to receive, past the deadline: the read has failed. -/
theorem receiveLoop_late {sizeExpected : Nat} {dataRecvd : List UInt8} {timeoutTime moved checked : Nat}
    {code : Int} (h : dataRecvd.length < sizeExpected) (ht : timeoutTime < checked) :
    (receiveLoop sizeExpected dataRecvd timeoutTime).after (.recv (.error code) moved checked) =
      Pure.pure none := by
  funext rest
  simp [Program.after, receiveLoop, h, ht, Program.pure_def]

theorem sendToSocket_nil : sendToSocket [] = Pure.pure true := by
  funext answers
  cases answers <;> simp [sendToSocket, Program.pure_def]

theorem sendToSocket_call {data : List UInt8} (h : data ≠ []) :
    (sendToSocket data).call = some (.send data) := by
  simp [Program.call, sendToSocket, h]

theorem sendToSocket_count {data : List UInt8} (h : data ≠ []) (n : Nat) :
    (sendToSocket data).after (.send (.count n)) = sendToSocket (data.drop n) := by
  funext rest
  simp [Program.after, sendToSocket, h]

theorem sendToSocket_pause {data : List UInt8} (h : data ≠ []) :
    (sendToSocket data).after (.send (.error WSAEWOULDBLOCK)) = sendToSocket data := by
  funext rest
  simp [Program.after, sendToSocket, h]

end ScoutingComputer.Socket
