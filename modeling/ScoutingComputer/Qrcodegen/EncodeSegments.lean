import ScoutingComputer.Qrcodegen.QrSegment
import ScoutingComputer.Qrcodegen.Tables

/-! From segments to the data codewords of a symbol.

The smallest version that holds the bits is taken, then the highest level of correction
that still fits in it. The segments are written with their headers, ended by up to four
zeros, filled up to a byte and then with two alternating bytes. -/
namespace ScoutingComputer.Qrcodegen
open QrSegment

/-- The bits that the segments take in a version; `none` when they do not fit. -/
def fits (segs : List QrSegment) (ecl : Ecc) (version : Nat) : Option Nat :=
  match getTotalBits segs version with
  | none => none
  | some dataUsedBits => if dataUsedBits ≤ getNumDataCodewords version ecl * 8 then some dataUsedBits else none

/-- What is thrown when the last version does not hold them. -/
def tooLong (segs : List QrSegment) (ecl : Ecc) (version : Nat) : Error :=
  match getTotalBits segs version with
  | none => .dataTooLong "Segment too long"
  | some dataUsedBits =>
    .dataTooLong ("Data length = " ++ toString dataUsedBits ++ " bits, Max capacity = " ++
      toString (getNumDataCodewords version ecl * 8) ++ " bits")

/-- The minimal version from `version` on, with `remaining` larger ones allowed, and the
bits used. -/
def findVersion (segs : List QrSegment) (ecl : Ecc) : (remaining version : Nat) → Except Error (Nat × Nat)
  | remaining, version =>
    match fits segs ecl version, remaining with
    | some dataUsedBits, _ => .ok (version, dataUsedBits)
    | none, 0 => .error (tooLong segs ecl version)
    | none, remaining + 1 => findVersion segs ecl remaining (version + 1)

/-- The level is raised while the data still fits. -/
def boost (boostEcl : Bool) (version dataUsedBits : Nat) (ecl : Ecc) : Ecc :=
  [Ecc.medium, .quartile, .high].foldl (fun ecl newEcl =>
    if boostEcl = true ∧ dataUsedBits ≤ getNumDataCodewords version newEcl * 8 then newEcl else ecl) ecl

/-- The segments with their headers. -/
def concatenate (version : Nat) : List QrSegment → BitBuffer → Except Error BitBuffer
  | [], bb => .ok bb
  | seg :: segs, bb => do
    let bb ← appendBits seg.mode.getModeBits 4 bb
    let bb ← appendBits seg.numChars (seg.mode.numCharCountBits version) bb
    concatenate version segs (bb ++ seg.data)

/-- The bytes 0xEC and 0x11 in turn, until the capacity is reached. -/
def padBytes (dataCapacityBits : Nat) : (passes padByte : Nat) → BitBuffer → Except Error BitBuffer
  | 0, _, bb => .ok bb
  | passes + 1, padByte, bb =>
    if bb.length < dataCapacityBits then do
      let bb ← appendBits padByte 8 bb
      padBytes dataCapacityBits passes (padByte ^^^ (0xEC ^^^ 0x11)) bb
    else .ok bb

/-- The terminator and the padding. -/
def pad (dataCapacityBits : Nat) (bb : BitBuffer) : Except Error BitBuffer := do
  let bb ← appendBits 0 (min 4 (dataCapacityBits - bb.length)) bb
  let bb ← appendBits 0 ((8 - bb.length % 8) % 8) bb
  padBytes dataCapacityBits dataCapacityBits 0xEC bb

/-- `dataCodewords.at(i >> 3) |= (bb.at(i) ? 1 : 0) << (7 - (i & 7))`. -/
def packBit (bb : BitBuffer) (dataCodewords : List UInt8) (i : Nat) : List UInt8 :=
  dataCodewords.modify (i >>> 3) fun b => b ||| UInt8.ofNat ((bb.getD i false).toNat <<< (7 - (i &&& 7)))

/-- Packing the bits into bytes in big endian. -/
def packBits (bb : BitBuffer) : List UInt8 :=
  (List.range bb.length).foldl (packBit bb) (List.replicate (bb.length / 8) 0)

/-- What `encodeSegments` passes to the constructor: the version, the level and the data
codewords. -/
def encodeData (segs : List QrSegment) (ecl : Ecc) (minVersion maxVersion : Nat) (mask : Int) (boostEcl : Bool) :
    Except Error (Nat × Ecc × List UInt8) :=
  if ¬ (MIN_VERSION ≤ minVersion ∧ minVersion ≤ maxVersion ∧ maxVersion ≤ MAX_VERSION) ∨ mask < -1 ∨ mask > 7 then
    throw (.invalidArgument "Invalid value")
  else do
    let (version, dataUsedBits) ← findVersion segs ecl (maxVersion - minVersion) minVersion
    let ecl := boost boostEcl version dataUsedBits ecl
    let bb ← concatenate version segs []
    let bb ← pad (getNumDataCodewords version ecl * 8) bb
    return (version, ecl, packBits bb)

end ScoutingComputer.Qrcodegen
