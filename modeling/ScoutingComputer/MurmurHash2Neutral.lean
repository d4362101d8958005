import Mathlib.Algebra.Ring.Nat
import ScoutingComputer.Types

/-! The hash of the local database, on `int` arithmetic that wraps. -/
namespace ScoutingComputer

/-- A `char` as an `int`. -/
def intOfChar (c : UInt8) : BitVec 32 := c.toBitVec.signExtend 32

def multVal : BitVec 32 := 0x5bd1e995#32

/-- The four bytes of a block, mixed. -/
def murmurBlock (b₀ b₁ b₂ b₃ : UInt8) : BitVec 32 :=
  let curr := intOfChar b₀ ||| intOfChar b₁ <<< 8 ||| intOfChar b₂ <<< 16 ||| intOfChar b₃ <<< 24
  let curr := curr * multVal
  let curr := curr ^^^ curr.sshiftRight 24
  curr * multVal

/-- The loop over whole blocks, then the switch over the bytes that are left. -/
def murmurLoop : BitVec 32 → List UInt8 → BitVec 32
  | hash, b₀ :: b₁ :: b₂ :: b₃ :: rest => murmurLoop (hash * multVal ^^^ murmurBlock b₀ b₁ b₂ b₃) rest
  | hash, [b₀, b₁, b₂] => (hash ^^^ intOfChar b₂ <<< 16 ^^^ intOfChar b₁ <<< 8 ^^^ intOfChar b₀) * multVal
  | hash, [b₀, b₁] => (hash ^^^ intOfChar b₁ <<< 8 ^^^ intOfChar b₀) * multVal
  | hash, [b₀] => (hash ^^^ intOfChar b₀) * multVal
  | hash, [] => hash

/-- The size as the `int` that the loop and the switch count with. A negative one leaves
them nothing. -/
def hashedLength (size : Nat) : Nat := ((size : Int).bmod (2 ^ 32)).toNat

def hashedPart (data : List UInt8) : List UInt8 := data.take (hashedLength data.length)

def murmurSeed (size : Nat) : BitVec 32 := 1138#32 ^^^ BitVec.ofNat 32 size

/-- The three steps after the switch. -/
def murmurFinish (hash : BitVec 32) : BitVec 32 :=
  let hash := hash ^^^ hash.sshiftRight 13
  let hash := hash * multVal
  hash ^^^ hash.sshiftRight 15

def murmurHash (data : List UInt8) : BitVec 32 :=
  murmurFinish (murmurLoop (murmurSeed data.length) (hashedPart data))

end ScoutingComputer
