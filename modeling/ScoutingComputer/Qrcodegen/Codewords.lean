import ScoutingComputer.Qrcodegen.FunctionPatterns

/-! Codewords and masks on the grid.

The bits of the codewords go up and down through pairs of columns, from the right, past
the function modules. A mask inverts the modules of a pattern that are not function modules. -/
namespace ScoutingComputer.Qrcodegen

/-- The right column of each column pair, from `right` on. -/
def rightColumns : (passes right : Nat) → List Nat
  | 0, _ => []
  | passes + 1, right =>
    if right ≥ 1 then
      let right := if right = 6 then 5 else right
      right :: rightColumns passes (right - 2)
    else []

/-- The funny zigzag scan. -/
def zigzag (size : Nat) : List (Nat × Nat) :=
  (rightColumns size (size - 1)).flatMap fun right => (List.range size).flatMap fun vert => [0, 1].map fun j =>
    let x := right - j
    let upward := ((right + 1) &&& 2) == 0
    let y := if upward then size - 1 - vert else vert
    (x, y)

/-- One module of the scan, with the bit index into the data. -/
def drawBit (data : List UInt8) : Canvas × Nat → Nat × Nat → Canvas × Nat
  | (c, i), p =>
    if !c.isFunction p && decide (i < data.length * 8) then
      ({c with
          modules := fun q =>
            if q = p then getBit (data.getD (i >>> 3) 0).toNat (7 - (i &&& 7)) else c.modules q}, i + 1)
    else (c, i)

def drawCodewords (version : Nat) (data : List UInt8) (c : Canvas) : Except Error Canvas :=
  if data.length ≠ getNumRawDataModules version / 8 then throw (.invalidArgument "Invalid argument")
  else return ((zigzag c.size).foldl (drawBit data) (c, 0)).1

/-- Whether mask `msk` inverts the module. -/
def invert (msk x y : Nat) : Bool :=
  match msk with
  | 0 => (x + y) % 2 == 0
  | 1 => y % 2 == 0
  | 2 => x % 3 == 0
  | 3 => (x + y) % 3 == 0
  | 4 => (x / 3 + y / 2) % 2 == 0
  | 5 => x * y % 2 + x * y % 3 == 0
  | 6 => (x * y % 2 + x * y % 3) % 2 == 0
  | _ => ((x + y) % 2 + x * y % 3) % 2 == 0

def applyMask (msk : Nat) (c : Canvas) : Except Error Canvas :=
  if msk > 7 then throw (.domainError "Mask value out of range")
  else return {c with modules := fun p =>
    if p.1 < c.size ∧ p.2 < c.size then c.modules p ^^ (invert msk p.1 p.2 && !c.isFunction p) else c.modules p}

end ScoutingComputer.Qrcodegen
