import Mathlib.Algebra.Ring.Int.Defs
import ScoutingComputer.Qrcodegen.FunctionPatterns

/-! The penalty score of a grid.

Each row and each column is scanned for runs of one colour and for patterns that look like
a finder; then blocks of two by two and the balance of dark and light modules count. -/
namespace ScoutingComputer.Qrcodegen

def PENALTY_N1 : Nat := 3
def PENALTY_N2 : Nat := 3
def PENALTY_N3 : Nat := 40
def PENALTY_N4 : Nat := 10

/-- The run history moves on by one; the first run gets a light border in front. -/
def finderPenaltyAddHistory (size currentRunLength : Nat) (runHistory : List Nat) : List Nat :=
  (if runHistory.getD 0 0 = 0 then currentRunLength + size else currentRunLength) :: runHistory.dropLast

def finderPenaltyCountPatterns (runHistory : List Nat) : Nat :=
  let n := runHistory.getD 1 0
  let core := n > 0 ∧ runHistory.getD 2 0 = n ∧ runHistory.getD 3 0 = n * 3 ∧ runHistory.getD 4 0 = n ∧
    runHistory.getD 5 0 = n
  (if core ∧ runHistory.getD 0 0 ≥ n * 4 ∧ runHistory.getD 6 0 ≥ n then 1 else 0) +
    (if core ∧ runHistory.getD 6 0 ≥ n * 4 ∧ runHistory.getD 0 0 ≥ n then 1 else 0)

def finderPenaltyTerminateAndCount (size : Nat) (currentRunColor : Bool) (currentRunLength : Nat)
    (runHistory : List Nat) : Nat :=
  let (currentRunLength, runHistory) :=
    if currentRunColor then (0, finderPenaltyAddHistory size currentRunLength runHistory)
    else (currentRunLength, runHistory)
  finderPenaltyCountPatterns (finderPenaltyAddHistory size (currentRunLength + size) runHistory)

/-- The scan of a row or a column, up to some module. -/
structure Scan where
  result : Nat
  runColor : Bool
  run : Nat
  runHistory : List Nat

def scanModule (size : Nat) (s : Scan) (color : Bool) : Scan :=
  if color = s.runColor then
    let run := s.run + 1
    let result := if run = 5 then s.result + PENALTY_N1 else if run > 5 then s.result + 1 else s.result
    {s with result := result, run := run}
  else
    let runHistory := finderPenaltyAddHistory size s.run s.runHistory
    let result := if !s.runColor then s.result + finderPenaltyCountPatterns runHistory * PENALTY_N3 else s.result
    ⟨result, color, 1, runHistory⟩

/-- A row or a column: adjacent modules of the same colour, and finder-like patterns. -/
def linePenalty (size : Nat) (line : List Bool) : Nat :=
  let s := line.foldl (scanModule size) ⟨0, false, 0, List.replicate 7 0⟩
  s.result + finderPenaltyTerminateAndCount size s.runColor s.run s.runHistory * PENALTY_N3

/-- Blocks of two by two modules of the same colour. -/
def blockPenalty (size : Nat) (module : Nat × Nat → Bool) : Nat :=
  ((List.range (size - 1)).map fun y => ((List.range (size - 1)).map fun x =>
    let color := module (x, y)
    if color = module (x + 1, y) ∧ color = module (x, y + 1) ∧ color = module (x + 1, y + 1) then PENALTY_N2 else 0).sum).sum

def darkModules (size : Nat) (module : Nat × Nat → Bool) : Nat :=
  ((List.range size).map fun y => ((List.range size).map fun x => (module (x, y)).toNat).sum).sum

/-- The smallest `k` with `(45 - 5k)% <= dark / total <= (55 + 5k)%`. -/
def balance (size : Nat) (module : Nat × Nat → Bool) : Int :=
  let total : Int := size * size
  let dark : Int := darkModules size module
  (((dark * 20 - total * 10).natAbs : Int) + total - 1).tdiv total - 1

def getPenaltyScore (size : Nat) (module : Nat × Nat → Bool) : Int :=
  let rows := ((List.range size).map fun y => linePenalty size ((List.range size).map fun x => module (x, y))).sum
  let columns := ((List.range size).map fun x => linePenalty size ((List.range size).map fun y => module (x, y))).sum
  (rows : Int) + columns + blockPenalty size module + balance size module * PENALTY_N4

end ScoutingComputer.Qrcodegen
