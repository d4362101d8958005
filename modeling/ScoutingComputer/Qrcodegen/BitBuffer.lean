import ScoutingComputer.Foundation.BigEndian
import ScoutingComputer.Types

/-! The bit buffer, and what the library throws. -/
namespace ScoutingComputer.Qrcodegen

inductive Error where
  | domainError (what : String)
  | invalidArgument (what : String)
  | lengthError (what : String)
  /-- `data_too_long`. -/
  | dataTooLong (what : String)
  /-- `std::out_of_range`, from `at`. -/
  | outOfRange
  deriving DecidableEq, Repr

/-- `getBit`. -/
def getBit (x i : Nat) : Bool := ((x >>> i) &&& 1) != 0

theorem getBit_eq (x i : Nat) : getBit x i = x.testBit i := by
  rw [getBit, Nat.and_comm]
  rfl

abbrev BitBuffer := List Bool

/-- The loop of `appendBits` from bit `i - 1` down. -/
def pushBits (val : Nat) : Nat → BitBuffer → BitBuffer
  | 0, bb => bb
  | i + 1, bb => pushBits val i (bb ++ [getBit val i])

def appendBits (val len : Nat) (bb : BitBuffer) : Except Error BitBuffer :=
  if len > 31 ∨ val >>> len ≠ 0 then .error (.domainError "Value out of range") else .ok (pushBits val len bb)

open BigEndian

theorem pushBits_eq (val len : Nat) (bb : BitBuffer) : pushBits val len bb = bb ++ bits val len := by
  induction len generalizing bb with
  | zero => exact (List.append_nil bb).symm
  | succ len ih => rw [pushBits, ih, bits, getBit_eq, List.append_assoc, List.singleton_append]

theorem appendBits_ok {val len : Nat} (bb : BitBuffer) (hlen : len ≤ 31) (hval : val < 2 ^ len) :
    appendBits val len bb = .ok (bb ++ bits val len) := by
  have hshift : val >>> len = 0 := by rw [Nat.shiftRight_eq_div_pow, Nat.div_eq_of_lt hval]
  rw [appendBits, if_neg (by omega), pushBits_eq]

end ScoutingComputer.Qrcodegen
