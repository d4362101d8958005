import ScoutingComputer.Qrcodegen.BitBuffer
import ScoutingComputer.Qrcodegen.Field
import ScoutingComputer.Qrcodegen.Tables

/-! The blocks of a symbol.

The data codewords are cut into blocks, the shorter ones first, and each gets its own check
codewords. The blocks are then interleaved; a short block has a padding byte at the end of
its data, which is left out. -/
namespace ScoutingComputer.Qrcodegen

/-- One pass over the product: multiplied by `x - root`, in place. -/
def multiplyRoot (root : UInt8) : List UInt8 → List UInt8
  | [] => []
  | [c] => [reedSolomonMultiply c root]
  | c :: c' :: result => (reedSolomonMultiply c root ^^^ c') :: multiplyRoot root (c' :: result)

/-- The loop over the roots, each twice the one before. -/
def divisorLoop : (passes : Nat) → (root : UInt8) → List UInt8 → List UInt8
  | 0, _, result => result
  | passes + 1, root, result => divisorLoop passes (reedSolomonMultiply root 0x02) (multiplyRoot root result)

def reedSolomonComputeDivisor (degree : Nat) : Except Error (List UInt8) :=
  if degree < 1 ∨ degree > 255 then throw (.domainError "Degree out of range")
  else return divisorLoop degree 1 (List.replicate (degree - 1) 0 ++ [1])

/-- One step of the polynomial division. The divisor has at least one coefficient. -/
def divisionStep (divisor result : List UInt8) (b : UInt8) : List UInt8 :=
  let factor := b ^^^ result.headD 0
  List.zipWith (fun r d => r ^^^ reedSolomonMultiply d factor) (result.tail ++ [0]) divisor

def reedSolomonComputeRemainder (data divisor : List UInt8) : List UInt8 :=
  data.foldl (divisionStep divisor) (List.replicate divisor.length 0)

/-- The parameter numbers of `addEccAndInterleave`. -/
structure Layout where
  numBlocks : Nat
  blockEccLen : Nat
  numShortBlocks : Nat
  shortBlockLen : Nat

def layout (version : Nat) (ecl : Ecc) : Layout :=
  let numBlocks := numErrorCorrectionBlocks version ecl
  let rawCodewords := getNumRawDataModules version / 8
  { numBlocks := numBlocks
    blockEccLen := eccCodewordsPerBlock version ecl
    numShortBlocks := numBlocks - rawCodewords % numBlocks
    shortBlockLen := rawCodewords / numBlocks }

namespace Layout
variable (l : Layout)

/-- The data codewords of a short block. -/
def shortDataLen : Nat := l.shortBlockLen - l.blockEccLen

/-- The data codewords of block `i`. -/
def dataLen (i : Nat) : Nat := l.shortDataLen + if i < l.numShortBlocks then 0 else 1

end Layout

/-- Splitting the data into blocks from block `i` on, and appending ECC to each block. -/
def makeBlocks (l : Layout) (rsDiv : List UInt8) : (remaining i : Nat) → List UInt8 → List (List UInt8)
  | 0, _, _ => []
  | remaining + 1, i, data =>
    let dat := data.take (l.dataLen i)
    let ecc := reedSolomonComputeRemainder dat rsDiv
    ((if i < l.numShortBlocks then dat ++ [0] else dat) ++ ecc) ::
      makeBlocks l rsDiv remaining (i + 1) (data.drop (l.dataLen i))

/-- The places of the blocks in the order in which they are pushed: index `i` of every
block `j`, without the padding byte of the short blocks. -/
def interleaved (l : Layout) (size numBlocks : Nat) : List (Nat × Nat) :=
  (List.range size).flatMap fun i =>
    ((List.range numBlocks).filter fun j => i ≠ l.shortDataLen ∨ j ≥ l.numShortBlocks).map fun j => (i, j)

def interleave (l : Layout) (blocks : List (List UInt8)) : List UInt8 :=
  (interleaved l (blocks.headD []).length blocks.length).map fun (i, j) => (blocks.getD j []).getD i 0

def addEccAndInterleave (version : Nat) (ecl : Ecc) (data : List UInt8) : Except Error (List UInt8) :=
  if data.length ≠ getNumDataCodewords version ecl then throw (.invalidArgument "Invalid argument")
  else do
    let l := layout version ecl
    let rsDiv ← reedSolomonComputeDivisor l.blockEccLen
    return interleave l (makeBlocks l rsDiv l.numBlocks 0 data)

end ScoutingComputer.Qrcodegen
