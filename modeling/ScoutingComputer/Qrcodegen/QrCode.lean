import ScoutingComputer.Qrcodegen.Blocks
import ScoutingComputer.Qrcodegen.Codewords
import ScoutingComputer.Qrcodegen.EncodeSegments
import ScoutingComputer.Qrcodegen.Penalty

/-! The QR code of a text. -/
namespace ScoutingComputer.Qrcodegen

structure QrCode where
  version : Nat
  size : Nat
  errorCorrectionLevel : Ecc
  mask : Nat
  /-- By `(x, y)`; `true` is dark. -/
  modules : Nat × Nat → Bool

def QrCode.getModule (qr : QrCode) (x y : Int) : Bool :=
  decide (0 ≤ x ∧ x < qr.size ∧ 0 ≤ y ∧ y < qr.size) && qr.modules (x.toNat, y.toNat)

/-- The grids before anything is drawn: all light. -/
def blank (version : Nat) : Canvas := ⟨symbolSize version, fun _ => false, fun _ => false⟩

def LONG_MAX : Int := 2147483647

/-- The loop over the masks from `i` on: the grids, the best mask so far and its penalty. -/
def chooseMask (ecl : Ecc) : (remaining i : Nat) → (msk minPenalty : Int) → Canvas → Except Error (Canvas × Int)
  | 0, _, msk, _, c => .ok (c, msk)
  | remaining + 1, i, msk, minPenalty, c => do
    let c ← applyMask i c
    let c ← draw (drawFormatBits c.size (formatBits ecl i)) c
    let penalty := getPenaltyScore c.size c.modules
    let (msk, minPenalty) := if penalty < minPenalty then ((i : Int), penalty) else (msk, minPenalty)
    let c ← applyMask i c  -- undoes the mask due to xor
    chooseMask ecl remaining (i + 1) msk minPenalty c

/-- The constructor. -/
def makeQrCode (ver : Nat) (ecl : Ecc) (dataCodewords : List UInt8) (msk : Int) : Except Error QrCode :=
  if ver < MIN_VERSION ∨ ver > MAX_VERSION then throw (.domainError "Version value out of range")
  else if msk < -1 ∨ msk > 7 then throw (.domainError "Mask value out of range")
  else do
    let c ← draw (drawFunctionPatterns ver ecl) (blank ver)
    let allCodewords ← addEccAndInterleave ver ecl dataCodewords
    let c ← drawCodewords ver allCodewords c
    let (c, msk) ← if msk = -1 then chooseMask ecl 8 0 msk LONG_MAX c else .ok (c, msk)
    let c ← applyMask msk.toNat c
    let c ← draw (drawFormatBits c.size (formatBits ecl msk.toNat)) c
    return ⟨ver, c.size, ecl, msk.toNat, c.modules⟩

def encodeSegments (segs : List QrSegment) (ecl : Ecc) (minVersion maxVersion : Nat) (mask : Int) (boostEcl : Bool) :
    Except Error QrCode := do
  let (version, ecl, dataCodewords) ← encodeData segs ecl minVersion maxVersion mask boostEcl
  makeQrCode version ecl dataCodewords mask

/-- `encodeText`, with the values that `encodeSegments` has by default. -/
def encodeText (text : Text) (ecl : Ecc) : Except Error QrCode := do
  let segs ← QrSegment.makeSegments (cString text)
  encodeSegments segs ecl 1 40 (-1) true

end ScoutingComputer.Qrcodegen
