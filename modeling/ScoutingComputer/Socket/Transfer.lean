import ScoutingComputer.Socket.Calls

/-! One transfer with a tablet: the acknowledgements, the transaction code, and the
two transactions `internalRead` and `internalWrite`.

Both return an optional vector and set a shared `success` flag; here a transfer
returns the pair of what it leaves in the two. -/
namespace ScoutingComputer.Socket

/-- A transaction code: any byte a tablet sends, as a signed `char`. -/
abbrev TransactionType := Int8

def TRANS_SOCKET_ERROR : TransactionType := -128
def TRANS_SEND_TAB_UNRECVD_MATCHES : TransactionType := -3
def TRANS_SEND_LOCAL_DB : TransactionType := -2
def TRANS_SEND_LOCAL_DB_HASH : TransactionType := -1
def TRANS_CLOSE_SOCKET : TransactionType := 0
def TRANS_RECV_MATCH : TransactionType := 1
def TRANS_RECV_TABLET_INFO : TransactionType := 2
def TRANS_RECV_TAB_MATCH_LIST : TransactionType := 3

def ack : List UInt8 := [65, 67, 75]
def nack : List UInt8 := [78, 67, 75]

/-- The number that bytes spell, the first byte the least significant. -/
def littleEndian : List UInt8 → Nat
  | [] => 0
  | b :: bs => b.toNat + 256 * littleEndian bs

/-- The first four bytes read as an `int`. -/
def intOfBytes (bytes : List UInt8) : Int := Int.bmod (littleEndian (bytes.take 4)) (2 ^ 32)

/-- The four bytes of an `int` that was converted from a `size_t`. -/
def bytesOfSize (size : Nat) : List UInt8 :=
  [UInt8.ofNat size, UInt8.ofNat (size / 256), UInt8.ofNat (size / 256 ^ 2), UInt8.ofNat (size / 256 ^ 3)]

def getTransactionType : OsProgram TransactionType := do
  let transRes ← readAllSocketData 1
  match transRes with
  | none => return TRANS_SOCKET_ERROR
  | some data => return (data.headD 0).toInt8

/-- `sendAck` and `sendNack` build their three bytes in memory of their own. -/
def sendWord (dataToSend : List UInt8) : OsProgram Bool := do
  let granted ← malloc 3
  if granted then sendToSocket dataToSend else return false

def sendAck : OsProgram Bool := sendWord ack

def sendNack : OsProgram Bool := sendWord nack

def readAck : OsProgram Bool := do
  let granted ← malloc 3
  if granted then
    let dataRecvd ← readAllSocketData 3
    match dataRecvd with
    | none => return false
    | some data => return (data.take 3 == ack)
  else return false

/-- The computer acknowledges, reads the number of bytes, acknowledges it and reads
the bytes. -/
def internalRead : OsProgram (Option (List UInt8) × Bool) := do
  let acked ← sendAck
  if acked then
    let numOfByteData ← readAllSocketData 4
    match numOfByteData with
    | none =>
      let _ ← sendNack
      return (none, false)
    | some sizeData =>
      let bytesExpected := intOfBytes sizeData
      let acked ← sendAck
      if acked then
        let message ← readAllSocketData (sizeOfInt bytesExpected)
        match message with
        | none =>
          let _ ← sendNack
          return (none, false)
        | some messageData =>
          -- `reserve` takes the `int` as a `size_t`
          if bytesExpected < 0 then Program.throwing .lengthError
          else return (some (messageData.take bytesExpected.toNat), true)
      else return (none, false)
  else return (none, false)

/-- The computer sends the number of bytes, waits for an acknowledgement, sends the
bytes and waits for another. -/
def internalWrite (data : List UInt8) : OsProgram (Option (List UInt8) × Bool) := do
  let sent ← sendToSocket (bytesOfSize data.length)
  let success ← (if sent then readAck else Pure.pure false)
  if success then
    let sent ← sendToSocket data
    let success ← (if sent then readAck else Pure.pure false)
    return (none, success)
  else return (none, false)

/-! ### The number on the wire -/

theorem littleEndian_bytesOfSize (n : Nat) (h : n < 2 ^ 32) : littleEndian (bytesOfSize n) = n := by
  simp only [bytesOfSize, littleEndian, UInt8.toNat_ofNat']
  omega

/-- A size below `2 ^ 31` is read back as itself. -/
theorem intOfBytes_bytesOfSize (n : Nat) (h : n < 2 ^ 31) : intOfBytes (bytesOfSize n) = n := by
  have htake : (bytesOfSize n).take 4 = bytesOfSize n := rfl
  unfold intOfBytes
  rw [htake, littleEndian_bytesOfSize n (by omega)]
  apply Int.bmod_eq_of_le <;> omega

theorem sizeOfInt_natCast (n : Nat) (h : n < 2 ^ 31) : sizeOfInt n = n := by
  unfold sizeOfInt
  omega

end ScoutingComputer.Socket
