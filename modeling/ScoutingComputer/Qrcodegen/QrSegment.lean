import ScoutingComputer.Qrcodegen.BitBuffer

/-! Segments: how a text becomes bits.

A text of digits is packed three to ten bits, one of the 45 characters of
`ALPHANUMERIC_CHARSET` two to eleven bits, any other goes byte by byte. A segment's bits do
not say how many characters they are or in what mode; the symbol has a header for that,
whose length field grows with the version. -/
namespace ScoutingComputer.Qrcodegen

/-- `QrSegment::Mode`, as far as the library makes segments of it from a text. -/
inductive Mode where
  | numeric
  | alphanumeric
  | byte
  deriving DecidableEq, Repr

def Mode.getModeBits : Mode → Nat
  | numeric => 0x1
  | alphanumeric => 0x2
  | byte => 0x4

def Mode.numBitsCharCount : Mode → List Nat
  | numeric => [10, 12, 14]
  | alphanumeric => [9, 11, 13]
  | byte => [8, 16, 16]

def Mode.numCharCountBits (mode : Mode) (ver : Nat) : Nat := mode.numBitsCharCount.getD ((ver + 7) / 17) 0

structure QrSegment where
  mode : Mode
  numChars : Nat
  data : BitBuffer
  deriving DecidableEq, Repr

def INT_MAX : Nat := 2147483647

namespace QrSegment

/-- The loop of `makeBytes`. -/
def pushBytes : List UInt8 → BitBuffer → Except Error BitBuffer
  | [], bb => .ok bb
  | b :: data, bb => do
    let bb ← appendBits b.toNat 8 bb
    pushBytes data bb

def makeBytes (data : List UInt8) : Except Error QrSegment :=
  if data.length > INT_MAX then throw (.lengthError "Data too long")
  else do
    let bb ← pushBytes data []
    return ⟨.byte, data.length, bb⟩

/-- The loop of `makeNumeric`, and the digits that are left. -/
def numericLoop : Text → (accumData accumCount charCount : Nat) → BitBuffer → Except Error QrSegment
  | [], accumData, accumCount, charCount, bb => do
    let bb ← if accumCount > 0 then appendBits accumData (accumCount * 3 + 1) bb else .ok bb
    return ⟨.numeric, charCount, bb⟩
  | c :: digits, accumData, accumCount, charCount, bb =>
    if c < '0' ∨ c > '9' then throw (.domainError "String contains non-numeric characters")
    else
      let accumData := accumData * 10 + (c.toNat - '0'.toNat)
      let accumCount := accumCount + 1
      if accumCount = 3 then do
        let bb ← appendBits accumData 10 bb
        numericLoop digits 0 0 (charCount + 1) bb
      else numericLoop digits accumData accumCount (charCount + 1) bb

def makeNumeric (digits : Text) : Except Error QrSegment := numericLoop digits 0 0 0 []

def ALPHANUMERIC_CHARSET : Text := "0123456789ABCDEFGHIJKLMNOPQRSTUVWXYZ $%*+-./:".toList

/-- `strchr` in the charset, as an index. -/
def charsetIndex (c : Char) : Option Nat := ALPHANUMERIC_CHARSET.findIdx? (· == c)

/-- The loop of `makeAlphanumeric`, and the character that is left. -/
def alphanumericLoop : Text → (accumData accumCount charCount : Nat) → BitBuffer → Except Error QrSegment
  | [], accumData, accumCount, charCount, bb => do
    let bb ← if accumCount > 0 then appendBits accumData 6 bb else .ok bb
    return ⟨.alphanumeric, charCount, bb⟩
  | c :: text, accumData, accumCount, charCount, bb =>
    match charsetIndex c with
    | none => throw (.domainError "String contains unencodable characters in alphanumeric mode")
    | some index =>
      let accumData := accumData * 45 + index
      let accumCount := accumCount + 1
      if accumCount = 2 then do
        let bb ← appendBits accumData 11 bb
        alphanumericLoop text 0 0 (charCount + 1) bb
      else alphanumericLoop text accumData accumCount (charCount + 1) bb

def makeAlphanumeric (text : Text) : Except Error QrSegment := alphanumericLoop text 0 0 0 []

def isNumeric (text : Text) : Bool := text.all fun c => !(c < '0' ∨ c > '9')

def isAlphanumeric (text : Text) : Bool := text.all fun c => (charsetIndex c).isSome

/-- The segments of a text: none when it is empty, otherwise one. -/
def makeSegments (text : Text) : Except Error (List QrSegment) :=
  if text = [] then .ok []
  else if isNumeric text then return [← makeNumeric text]
  else if isAlphanumeric text then return [← makeAlphanumeric text]
  else return [← makeBytes (toBytes text)]

/-- The loop of `getTotalBits`; `none` is its -1. -/
def addTotalBits (version : Nat) : List QrSegment → Nat → Option Nat
  | [], result => some result
  | seg :: segs, result =>
    let ccbits := seg.mode.numCharCountBits version
    if seg.numChars ≥ 2 ^ ccbits then none
    else if 4 + ccbits > INT_MAX - result then none
    else
      let result := result + (4 + ccbits)
      if seg.data.length > INT_MAX - result then none
      else addTotalBits version segs (result + seg.data.length)

def getTotalBits (segs : List QrSegment) (version : Nat) : Option Nat := addTotalBits version segs 0

end QrSegment
end ScoutingComputer.Qrcodegen
