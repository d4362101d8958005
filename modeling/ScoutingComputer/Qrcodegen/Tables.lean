import Mathlib.Algebra.Ring.Nat

/-! How much a symbol holds: the tables of the library, by level and version. -/
namespace ScoutingComputer.Qrcodegen

inductive Ecc where
  | low
  | medium
  | quartile
  | high
  deriving DecidableEq, Repr

/-- `getFormatBits`. -/
def Ecc.getFormatBits : Ecc → Nat
  | low => 1
  | medium => 0
  | quartile => 3
  | high => 2

def MIN_VERSION : Nat := 1
def MAX_VERSION : Nat := 40

/-- The table without its entry for version 0, which no caller has. -/
def ECC_CODEWORDS_PER_BLOCK : Ecc → List Nat
  | .low => [7, 10, 15, 20, 26, 18, 20, 24, 30, 18, 20, 24, 26, 30, 22, 24, 28, 30, 28, 28, 28, 28, 30, 30, 26, 28, 30,
      30, 30, 30, 30, 30, 30, 30, 30, 30, 30, 30, 30, 30]
  | .medium => [10, 16, 26, 18, 24, 16, 18, 22, 22, 26, 30, 22, 22, 24, 24, 28, 28, 26, 26, 26, 26, 28, 28, 28, 28, 28,
      28, 28, 28, 28, 28, 28, 28, 28, 28, 28, 28, 28, 28, 28]
  | .quartile => [13, 22, 18, 26, 18, 24, 18, 22, 20, 24, 28, 26, 24, 20, 30, 24, 28, 28, 26, 30, 28, 30, 30, 30, 30,
      28, 30, 30, 30, 30, 30, 30, 30, 30, 30, 30, 30, 30, 30, 30]
  | .high => [17, 28, 22, 16, 22, 28, 26, 26, 24, 28, 24, 28, 22, 24, 24, 30, 28, 28, 26, 28, 30, 24, 30, 30, 30, 30,
      30, 30, 30, 30, 30, 30, 30, 30, 30, 30, 30, 30, 30, 30]

def NUM_ERROR_CORRECTION_BLOCKS : Ecc → List Nat
  | .low => [1, 1, 1, 1, 1, 2, 2, 2, 2, 4, 4, 4, 4, 4, 6, 6, 6, 6, 7, 8, 8, 9, 9, 10, 12, 12, 12, 13, 14, 15, 16, 17,
      18, 19, 19, 20, 21, 22, 24, 25]
  | .medium => [1, 1, 1, 2, 2, 4, 4, 4, 5, 5, 5, 8, 9, 9, 10, 10, 11, 13, 14, 16, 17, 17, 18, 20, 21, 23, 25, 26, 28,
      29, 31, 33, 35, 37, 38, 40, 43, 45, 47, 49]
  | .quartile => [1, 1, 2, 2, 4, 4, 6, 6, 8, 8, 8, 10, 12, 16, 12, 17, 16, 18, 21, 20, 23, 23, 25, 27, 29, 34, 34, 35,
      38, 40, 43, 45, 48, 51, 53, 56, 59, 62, 65, 68]
  | .high => [1, 1, 2, 4, 4, 4, 5, 6, 8, 8, 11, 11, 16, 16, 18, 16, 19, 21, 25, 25, 25, 34, 30, 32, 35, 37, 40, 42, 45,
      48, 51, 54, 57, 60, 63, 66, 70, 74, 77, 81]

def eccCodewordsPerBlock (ver : Nat) (ecl : Ecc) : Nat := (ECC_CODEWORDS_PER_BLOCK ecl).getD (ver - 1) 0

def numErrorCorrectionBlocks (ver : Nat) (ecl : Ecc) : Nat := (NUM_ERROR_CORRECTION_BLOCKS ecl).getD (ver - 1) 0

/-- The modules that are left for codewords, of a version in the range. -/
def getNumRawDataModules (ver : Nat) : Nat :=
  let result := (16 * ver + 128) * ver + 64
  if ver ≥ 2 then
    let numAlign := ver / 7 + 2
    let result := result - ((25 * numAlign - 10) * numAlign - 55)
    if ver ≥ 7 then result - 36 else result
  else result

def getNumDataCodewords (ver : Nat) (ecl : Ecc) : Nat :=
  getNumRawDataModules ver / 8 - eccCodewordsPerBlock ver ecl * numErrorCorrectionBlocks ver ecl

/-! ### What the tables have in common -/

def allEcc : List Ecc := [.low, .medium, .quartile, .high]

theorem mem_allEcc (ecl : Ecc) : ecl ∈ allEcc := by
  cases ecl <;> decide

/-- What holds of every version and level by looking at each. -/
theorem forall_tables {P : Nat → Ecc → Bool}
    (h : ((List.range MAX_VERSION).all fun v => allEcc.all fun ecl => P (v + 1) ecl) = true) {ver : Nat} (ecl : Ecc)
    (hlow : MIN_VERSION ≤ ver) (hhigh : ver ≤ MAX_VERSION) : P ver ecl = true := by
  have hmin : 1 ≤ ver := hlow
  have hver := List.all_eq_true.mp h (ver - 1) (List.mem_range.mpr (by omega))
  rw [Nat.sub_add_cancel hmin] at hver
  exact List.all_eq_true.mp hver ecl (mem_allEcc ecl)

end ScoutingComputer.Qrcodegen
