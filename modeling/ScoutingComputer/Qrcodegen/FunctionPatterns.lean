import ScoutingComputer.Qrcodegen.BitBuffer
import ScoutingComputer.Qrcodegen.Tables

/-! The function patterns of a symbol.

Each drawing function sets a list of modules, in an order in which later ones overwrite
earlier ones. What is set this way is marked, and neither data nor mask touches it. -/
namespace ScoutingComputer.Qrcodegen

/-- The grids of the constructor, by `(x, y)`. -/
structure Canvas where
  size : Nat
  modules : Nat × Nat → Bool
  isFunction : Nat × Nat → Bool

/-- A call of `setFunctionModule`: `x`, `y` and `isDark`. -/
abbrev Stroke := Int × Int × Bool

def setFunctionModule (c : Canvas) : Stroke → Except Error Canvas
  | (x, y, isDark) =>
    if 0 ≤ x ∧ x < c.size ∧ 0 ≤ y ∧ y < c.size then
      .ok {c with
        modules := fun p => if p = (x.toNat, y.toNat) then isDark else c.modules p
        isFunction := fun p => if p = (x.toNat, y.toNat) then true else c.isFunction p}
    else .error .outOfRange

def draw : List Stroke → Canvas → Except Error Canvas
  | [], c => .ok c
  | s :: strokes, c => do
    let c ← setFunctionModule c s
    draw strokes c

/-- The integers from `-n` to `n`. -/
def around (n : Nat) : List Int := (List.range (2 * n + 1)).map fun i : Nat => (i : Int) - n

/-- Horizontal and vertical timing patterns. -/
def timingPattern (size : Nat) : List Stroke :=
  (List.range size).flatMap fun i : Nat => [(6, (i : Int), i % 2 == 0), ((i : Int), 6, i % 2 == 0)]

def drawFinderPattern (size : Nat) (x y : Int) : List Stroke :=
  (around 4).flatMap fun dy => (around 4).flatMap fun dx =>
    let dist := max dx.natAbs dy.natAbs
    let xx := x + dx
    let yy := y + dy
    if 0 ≤ xx ∧ xx < size ∧ 0 ≤ yy ∧ yy < size then [(xx, yy, dist != 2 && dist != 4)] else []

def drawAlignmentPattern (x y : Int) : List Stroke :=
  (around 2).flatMap fun dy => (around 2).map fun dx => (x + dx, y + dy, max dx.natAbs dy.natAbs != 1)

/-- The loop that inserts the positions at the front. -/
def alignmentLoop (step : Nat) : (remaining pos : Nat) → List Nat → List Nat
  | 0, _, result => result
  | remaining + 1, pos, result => alignmentLoop step remaining (pos - step) (pos :: result)

def symbolSize (version : Nat) : Nat := version * 4 + 17

def getAlignmentPatternPositions (version : Nat) : List Nat :=
  if version = 1 then []
  else
    let numAlign := version / 7 + 2
    let step := (version * 8 + numAlign * 3 + 5) / (numAlign * 4 - 4) * 2
    6 :: alignmentLoop step (numAlign - 1) (symbolSize version - 7) []

/-- All pairs of positions but the three finder corners. -/
def alignmentPatterns (alignPatPos : List Nat) : List Stroke :=
  let numAlign := alignPatPos.length
  (List.range numAlign).flatMap fun i => (List.range numAlign).flatMap fun j =>
    if ¬ ((i = 0 ∧ j = 0) ∨ (i = 0 ∧ j = numAlign - 1) ∨ (i = numAlign - 1 ∧ j = 0)) then
      drawAlignmentPattern (alignPatPos.getD i 0 : Nat) (alignPatPos.getD j 0 : Nat)
    else []

/-- The check bits: `passes` times `rem = (rem << 1) ^ ((rem >> top) * poly)`. -/
def checkBits (top poly : Nat) : (passes rem : Nat) → Nat
  | 0, rem => rem
  | passes + 1, rem => checkBits top poly passes ((rem <<< 1) ^^^ ((rem >>> top) * poly))

def formatBits (ecl : Ecc) (msk : Nat) : Nat :=
  let data := ecl.getFormatBits <<< 3 ||| msk
  let rem := checkBits 9 0x537 10 data
  (data <<< 10 ||| rem) ^^^ 0x5412

def drawFormatBits (size : Nat) (bits : Nat) : List Stroke :=
  -- first copy
  (List.range 6).map (fun i : Nat => (8, (i : Int), getBit bits i)) ++
  [(8, 7, getBit bits 6), (8, 8, getBit bits 7), (7, 8, getBit bits 8)] ++
  (List.range' 9 6).map (fun i : Nat => (14 - (i : Int), 8, getBit bits i)) ++
  -- second copy
  (List.range 8).map (fun i : Nat => ((size : Int) - 1 - i, 8, getBit bits i)) ++
  (List.range' 8 7).map (fun i : Nat => (8, (size : Int) - 15 + i, getBit bits i)) ++
  -- always dark
  [(8, (size : Int) - 8, true)]

def versionBits (version : Nat) : Nat := version <<< 12 ||| checkBits 11 0x1F25 12 version

def drawVersion (version size : Nat) : List Stroke :=
  if version < 7 then []
  else (List.range 18).flatMap fun i =>
    let a : Int := size - 11 + (i % 3 : Nat)
    let b : Int := (i / 3 : Nat)
    [(a, b, getBit (versionBits version) i), (b, a, getBit (versionBits version) i)]

def drawFunctionPatterns (version : Nat) (ecl : Ecc) : List Stroke :=
  let size := symbolSize version
  timingPattern size ++
  drawFinderPattern size 3 3 ++ drawFinderPattern size ((size : Int) - 4) 3 ++ drawFinderPattern size 3 ((size : Int) - 4) ++
  alignmentPatterns (getAlignmentPatternPositions version) ++
  drawFormatBits size (formatBits ecl 0) ++ drawVersion version size

end ScoutingComputer.Qrcodegen
