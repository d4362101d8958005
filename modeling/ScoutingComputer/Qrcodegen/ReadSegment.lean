import Mathlib.Data.List.Forall2
import ScoutingComputer.Qrcodegen.QrSegment

/-! Reading the bits of a segment.

The reader knows the mode and the number of characters from the header. What
`makeSegments` makes of a text, it turns back into the bytes of that text, and it leaves
whatever comes behind (`makeSegments_encodes`). -/
namespace ScoutingComputer.Qrcodegen
open BigEndian

/-- The next `len` bits as a number, and the bits after them. -/
def takeNumber (len : Nat) (bits : BitBuffer) : Option (Nat × BitBuffer) :=
  if bits.length < len then none else some (number (bits.take len), bits.drop len)

theorem takeNumber_bits {val len : Nat} (h : val < 2 ^ len) (rest : BitBuffer) :
    takeNumber len (bits val len ++ rest) = some (val, rest) := by
  have hlen : ¬ (bits val len ++ rest).length < len := by
    rw [List.length_append, length_bits]
    omega
  rw [takeNumber, if_neg hlen, List.take_left' (length_bits val len), List.drop_left' (length_bits val len),
    number_bits h]

def digitByte (v : Nat) : UInt8 := UInt8.ofNat ('0'.toNat + v)

def readNumeric : Nat → BitBuffer → Option (List UInt8 × BitBuffer)
  | 0, bs => some ([], bs)
  | 1, bs => (takeNumber 4 bs).map fun (v, bs) => ([digitByte v], bs)
  | 2, bs => (takeNumber 7 bs).map fun (v, bs) => ([digitByte (v / 10), digitByte (v % 10)], bs)
  | n + 3, bs => do
    let (v, bs) ← takeNumber 10 bs
    let (text, bs) ← readNumeric n bs
    return (digitByte (v / 100) :: digitByte (v / 10 % 10) :: digitByte (v % 10) :: text, bs)

def charsetByte (v : Nat) : Option UInt8 :=
  (QrSegment.ALPHANUMERIC_CHARSET[v]?).map fun c => UInt8.ofNat c.toNat

def readAlphanumeric : Nat → BitBuffer → Option (List UInt8 × BitBuffer)
  | 0, bs => some ([], bs)
  | 1, bs => do
    let (v, bs) ← takeNumber 6 bs
    return ([← charsetByte v], bs)
  | n + 2, bs => do
    let (v, bs) ← takeNumber 11 bs
    let first ← charsetByte (v / 45)
    let second ← charsetByte (v % 45)
    let (text, bs) ← readAlphanumeric n bs
    return (first :: second :: text, bs)

def readByte : Nat → BitBuffer → Option (List UInt8 × BitBuffer)
  | 0, bs => some ([], bs)
  | n + 1, bs => do
    let (v, bs) ← takeNumber 8 bs
    let (text, bs) ← readByte n bs
    return (UInt8.ofNat v :: text, bs)

/-- The characters of a segment, and the bits behind it. -/
def readData : Mode → Nat → BitBuffer → Option (List UInt8 × BitBuffer)
  | .numeric => readNumeric
  | .alphanumeric => readAlphanumeric
  | .byte => readByte

/-- The segment is these characters. -/
def Encodes (seg : QrSegment) (text : List UInt8) : Prop :=
  seg.numChars = text.length ∧ ∀ rest, readData seg.mode seg.numChars (seg.data ++ rest) = some (text, rest)

namespace QrSegment

/-! ### Bytes -/

theorem pushBytes_ok (data : List UInt8) (bb : BitBuffer) :
    pushBytes data bb = .ok (bb ++ data.flatMap fun b => bits b.toNat 8) := by
  induction data generalizing bb with
  | nil => simp [pushBytes]
  | cons b data ih =>
    rw [pushBytes, appendBits_ok bb (by decide) b.toNat_lt]
    show pushBytes data (bb ++ bits b.toNat 8) = _
    rw [ih, List.flatMap_cons, List.append_assoc]

theorem readByte_ok (data : List UInt8) (rest : BitBuffer) :
    readByte data.length ((data.flatMap fun b => bits b.toNat 8) ++ rest) = some (data, rest) := by
  induction data with
  | nil => rfl
  | cons b data ih =>
    rw [List.length_cons, readByte, List.flatMap_cons, List.append_assoc, takeNumber_bits b.toNat_lt]
    simp only [Option.bind_eq_bind, Option.bind_some, ih, UInt8.ofNat_toNat]
    rfl

theorem makeBytes_encodes {data : List UInt8} (h : data.length ≤ INT_MAX) :
    ∃ seg, makeBytes data = .ok seg ∧ Encodes seg data ∧ seg.mode = .byte := by
  refine ⟨⟨.byte, data.length, data.flatMap fun b => bits b.toNat 8⟩, ?_, ⟨rfl, ?_⟩, rfl⟩
  · rw [makeBytes, if_neg (Nat.not_lt.mpr h), pushBytes_ok, List.nil_append]
    rfl
  · intro rest
    exact readByte_ok data rest

/-! ### Digits -/

theorem digit_range {c : Char} (h : ¬ (c < '0' ∨ c > '9')) : 48 ≤ c.toNat ∧ c.toNat ≤ 57 := by
  obtain ⟨hlow, hhigh⟩ := not_or.mp h
  have hlow := Char.not_lt.mp hlow
  have hhigh := Char.not_lt.mp hhigh
  exact ⟨hlow, hhigh⟩

def digitValue (c : Char) : Nat := c.toNat - '0'.toNat

theorem digitByte_digitValue {c : Char} (h : ¬ (c < '0' ∨ c > '9')) :
    digitByte (digitValue c) = UInt8.ofNat c.toNat := by
  obtain ⟨hlow, _⟩ := digit_range h
  rw [digitByte, digitValue]
  congr 1
  show 48 + (c.toNat - 48) = c.toNat
  omega

theorem digitValue_lt {c : Char} (h : ¬ (c < '0' ∨ c > '9')) : digitValue c < 10 := by
  obtain ⟨hlow, hhigh⟩ := digit_range h
  show c.toNat - 48 < 10
  omega

/-- What the groups of three digits become. -/
def numericBits : Text → BitBuffer
  | [] => []
  | [a] => bits (digitValue a) 4
  | [a, b] => bits (digitValue a * 10 + digitValue b) 7
  | a :: b :: c :: digits =>
    bits ((digitValue a * 10 + digitValue b) * 10 + digitValue c) 10 ++ numericBits digits

theorem numericLoop_digit {c : Char} (h : ¬ (c < '0' ∨ c > '9')) (digits : Text) (accumData charCount : Nat)
    {accumCount : Nat} (hcount : accumCount ≠ 2) (bb : BitBuffer) :
    numericLoop (c :: digits) accumData accumCount charCount bb =
      numericLoop digits (accumData * 10 + digitValue c) (accumCount + 1) (charCount + 1) bb := by
  rw [numericLoop, if_neg h, if_neg (by omega)]
  rfl

theorem numericLoop_third {c : Char} (h : ¬ (c < '0' ∨ c > '9')) (digits : Text) (charCount : Nat)
    {accumData : Nat} (hacc : accumData < 100) (bb : BitBuffer) :
    numericLoop (c :: digits) accumData 2 charCount bb =
      numericLoop digits 0 0 (charCount + 1) (bb ++ bits (accumData * 10 + digitValue c) 10) := by
  have := digitValue_lt h
  have happend := @appendBits_ok (accumData * 10 + digitValue c) 10 bb (by decide) (by omega)
  rw [numericLoop, if_neg h, if_pos rfl]
  show (appendBits (accumData * 10 + digitValue c) 10 bb).bind _ = _
  rw [happend]
  rfl

theorem numericLoop_nil {accumData accumCount : Nat} (hcount : accumCount = 1 ∨ accumCount = 2)
    (hacc : accumData < 10 ^ accumCount) (charCount : Nat) (bb : BitBuffer) :
    numericLoop [] accumData accumCount charCount bb =
      .ok ⟨.numeric, charCount, bb ++ bits accumData (accumCount * 3 + 1)⟩ := by
  have happend : appendBits accumData (accumCount * 3 + 1) bb = .ok (bb ++ bits accumData (accumCount * 3 + 1)) := by
    rcases hcount with rfl | rfl
    · exact appendBits_ok bb (by decide) (by omega)
    · exact appendBits_ok bb (by decide) (by omega)
  rw [numericLoop, if_pos (by omega), happend]
  rfl

/-- The loop starts over after each group of three. -/
theorem numericLoop_ok : ∀ (digits : Text) (charCount : Nat) (bb : BitBuffer),
    (∀ c ∈ digits, ¬ (c < '0' ∨ c > '9')) →
      numericLoop digits 0 0 charCount bb = .ok ⟨.numeric, charCount + digits.length, bb ++ numericBits digits⟩
  | [], charCount, bb, _ => by
    rw [numericLoop, numericBits, List.append_nil]
    rfl
  | [a], charCount, bb, h => by
    have ha := h a (by simp)
    have := digitValue_lt ha
    rw [numericLoop_digit ha _ _ _ (by decide), numericLoop_nil (.inl rfl) (by omega)]
    simp [numericBits]
  | [a, b], charCount, bb, h => by
    have ha := h a (by simp)
    have hb := h b (by simp)
    have := digitValue_lt ha
    have := digitValue_lt hb
    rw [numericLoop_digit ha _ _ _ (by decide), numericLoop_digit hb _ _ _ (by decide),
      numericLoop_nil (.inr rfl) (by omega)]
    simp [numericBits]
  | a :: b :: c :: digits, charCount, bb, h => by
    have ha := h a (by simp)
    have hb := h b (by simp)
    have hc := h c (by simp)
    have := digitValue_lt ha
    have := digitValue_lt hb
    have hrest : ∀ d ∈ digits, ¬ (d < '0' ∨ d > '9') := fun d hd => h d (by simp [hd])
    rw [numericLoop_digit ha _ _ _ (by decide), numericLoop_digit hb _ _ _ (by decide),
      numericLoop_third hc _ _ (by omega), numericLoop_ok digits _ _ hrest]
    simp only [numericBits, List.length_cons, List.append_assoc, Nat.zero_mul, Nat.zero_add, Except.ok.injEq,
      QrSegment.mk.injEq, true_and, and_true]
    omega

theorem readNumeric_ok : ∀ (digits : Text) (rest : BitBuffer), (∀ c ∈ digits, ¬ (c < '0' ∨ c > '9')) →
    readNumeric digits.length (numericBits digits ++ rest) = some (toBytes digits, rest)
  | [], rest, _ => rfl
  | [a], rest, h => by
    have ha := h a (by simp)
    have := digitValue_lt ha
    show (takeNumber 4 (bits (digitValue a) 4 ++ rest)).map _ = _
    rw [takeNumber_bits (by omega)]
    simp [digitByte_digitValue ha, toBytes]
  | [a, b], rest, h => by
    have ha := h a (by simp)
    have hb := h b (by simp)
    have := digitValue_lt ha
    have := digitValue_lt hb
    show (takeNumber 7 (bits (digitValue a * 10 + digitValue b) 7 ++ rest)).map _ = _
    rw [takeNumber_bits (by omega)]
    have hfirst : (digitValue a * 10 + digitValue b) / 10 = digitValue a := by omega
    have hsecond : (digitValue a * 10 + digitValue b) % 10 = digitValue b := by omega
    simp [hfirst, hsecond, digitByte_digitValue ha, digitByte_digitValue hb, toBytes]
  | a :: b :: c :: digits, rest, h => by
    have ha := h a (by simp)
    have hb := h b (by simp)
    have hc := h c (by simp)
    have := digitValue_lt ha
    have := digitValue_lt hb
    have := digitValue_lt hc
    have hrest : ∀ d ∈ digits, ¬ (d < '0' ∨ d > '9') := fun d hd => h d (by simp [hd])
    obtain ⟨v, hv⟩ : ∃ v, v = (digitValue a * 10 + digitValue b) * 10 + digitValue c := ⟨_, rfl⟩
    have hfirst : v / 100 = digitValue a := by omega
    have hsecond : v / 10 % 10 = digitValue b := by omega
    have hthird : v % 10 = digitValue c := by omega
    rw [numericBits, ← hv, List.append_assoc]
    show readNumeric (digits.length + 3) _ = _
    rw [readNumeric, takeNumber_bits (by omega)]
    simp only [Option.bind_eq_bind, Option.bind_some, readNumeric_ok digits rest hrest, hfirst, hsecond, hthird,
      digitByte_digitValue ha, digitByte_digitValue hb, digitByte_digitValue hc]
    rfl

theorem isNumeric_iff (text : Text) : isNumeric text = true ↔ ∀ c ∈ text, ¬ (c < '0' ∨ c > '9') := by
  simp [isNumeric]

theorem makeNumeric_encodes {text : Text} (h : isNumeric text = true) :
    ∃ seg, makeNumeric text = .ok seg ∧ Encodes seg (toBytes text) ∧ seg.mode = .numeric := by
  have hdigits := (isNumeric_iff text).mp h
  refine ⟨⟨.numeric, text.length, numericBits text⟩, ?_, ⟨?_, ?_⟩, rfl⟩
  · rw [makeNumeric, numericLoop_ok text 0 [] hdigits, Nat.zero_add, List.nil_append]
  · rw [toBytes, List.length_map]
  · intro rest
    exact readNumeric_ok text rest hdigits

/-! ### The alphanumeric charset -/

theorem charsetIndex_lt {c : Char} {i : Nat} (h : charsetIndex c = some i) : i < 45 := by
  have := List.findIdx?_eq_some_iff_getElem.mp h
  exact this.1

theorem charsetByte_charsetIndex {c : Char} {i : Nat} (h : charsetIndex c = some i) :
    charsetByte i = some (UInt8.ofNat c.toNat) := by
  obtain ⟨hi, hc, _⟩ := List.findIdx?_eq_some_iff_getElem.mp h
  rw [charsetByte, List.getElem?_eq_getElem hi, eq_of_beq hc]
  rfl

def charsetValue (c : Char) : Nat := (charsetIndex c).getD 0

theorem charsetIndex_eq {c : Char} (h : (charsetIndex c).isSome = true) : charsetIndex c = some (charsetValue c) := by
  obtain ⟨i, hi⟩ := Option.isSome_iff_exists.mp h
  rw [charsetValue, hi]
  rfl

/-- What the pairs of characters become. -/
def alphanumericBits : Text → BitBuffer
  | [] => []
  | [a] => bits (charsetValue a) 6
  | a :: b :: text => bits (charsetValue a * 45 + charsetValue b) 11 ++ alphanumericBits text

/-- The loop starts over after each pair. -/
theorem alphanumericLoop_ok : ∀ (text : Text) (charCount : Nat) (bb : BitBuffer),
    (∀ c ∈ text, (charsetIndex c).isSome = true) →
      alphanumericLoop text 0 0 charCount bb =
        .ok ⟨.alphanumeric, charCount + text.length, bb ++ alphanumericBits text⟩
  | [], charCount, bb, _ => by
    rw [alphanumericLoop, alphanumericBits, List.append_nil]
    rfl
  | [a], charCount, bb, h => by
    have ha := charsetIndex_eq (h a (by simp))
    have := charsetIndex_lt ha
    have happend := @appendBits_ok (charsetValue a) 6 bb (by decide) (by omega)
    simp only [alphanumericLoop, ha, Nat.zero_mul, Nat.zero_add, happend]
    rfl
  | a :: b :: text, charCount, bb, h => by
    have ha := charsetIndex_eq (h a (by simp))
    have hb := charsetIndex_eq (h b (by simp))
    have := charsetIndex_lt ha
    have := charsetIndex_lt hb
    have hrest : ∀ c ∈ text, (charsetIndex c).isSome = true := fun c hc => h c (by simp [hc])
    have happend := @appendBits_ok (charsetValue a * 45 + charsetValue b) 11 bb (by decide) (by omega)
    simp only [alphanumericLoop, ha, hb, Nat.zero_mul, Nat.zero_add, happend]
    show alphanumericLoop text 0 0 (charCount + 1 + 1) (bb ++ _) = _
    rw [alphanumericLoop_ok text _ _ hrest]
    simp only [alphanumericBits, List.length_cons, List.append_assoc, Except.ok.injEq, QrSegment.mk.injEq, true_and,
      and_true]
    omega

theorem readAlphanumeric_ok : ∀ (text : Text) (rest : BitBuffer), (∀ c ∈ text, (charsetIndex c).isSome = true) →
    readAlphanumeric text.length (alphanumericBits text ++ rest) = some (toBytes text, rest)
  | [], rest, _ => rfl
  | [a], rest, h => by
    have ha := charsetIndex_eq (h a (by simp))
    have := charsetIndex_lt ha
    show readAlphanumeric 1 (bits (charsetValue a) 6 ++ rest) = _
    rw [readAlphanumeric, takeNumber_bits (by omega)]
    simp only [Option.bind_eq_bind, Option.bind_some, charsetByte_charsetIndex ha]
    rfl
  | a :: b :: text, rest, h => by
    have ha := charsetIndex_eq (h a (by simp))
    have hb := charsetIndex_eq (h b (by simp))
    have := charsetIndex_lt ha
    have := charsetIndex_lt hb
    have hrest : ∀ c ∈ text, (charsetIndex c).isSome = true := fun c hc => h c (by simp [hc])
    have hfirst : (charsetValue a * 45 + charsetValue b) / 45 = charsetValue a := by omega
    have hsecond : (charsetValue a * 45 + charsetValue b) % 45 = charsetValue b := by omega
    rw [alphanumericBits, List.append_assoc]
    show readAlphanumeric (text.length + 2) _ = _
    rw [readAlphanumeric, takeNumber_bits (by omega)]
    simp only [Option.bind_eq_bind, Option.bind_some, hfirst, hsecond, charsetByte_charsetIndex ha,
      charsetByte_charsetIndex hb, readAlphanumeric_ok text rest hrest]
    rfl

theorem isAlphanumeric_iff (text : Text) :
    isAlphanumeric text = true ↔ ∀ c ∈ text, (charsetIndex c).isSome = true := List.all_eq_true

theorem makeAlphanumeric_encodes {text : Text} (h : isAlphanumeric text = true) :
    ∃ seg, makeAlphanumeric text = .ok seg ∧ Encodes seg (toBytes text) ∧ seg.mode = .alphanumeric := by
  have hchars := (isAlphanumeric_iff text).mp h
  refine ⟨⟨.alphanumeric, text.length, alphanumericBits text⟩, ?_, ⟨?_, ?_⟩, rfl⟩
  · rw [makeAlphanumeric, alphanumericLoop_ok text 0 [] hchars, Nat.zero_add, List.nil_append]
  · rw [toBytes, List.length_map]
  · intro rest
    exact readAlphanumeric_ok text rest hchars

/-- Whatever kind of segment is taken, it is the characters of the text. -/
theorem makeSegments_encodes {text : Text} {segs : List QrSegment} (h : makeSegments text = .ok segs) :
    ∃ texts, List.Forall₂ Encodes segs texts ∧ texts.flatten = toBytes text := by
  have hone : ∀ {made : Except Error QrSegment}, (do return [← made]) = Except.ok segs →
      (∃ seg, made = .ok seg ∧ Encodes seg (toBytes text)) →
        ∃ texts, List.Forall₂ Encodes segs texts ∧ texts.flatten = toBytes text := by
    rintro _ hsegs ⟨seg, rfl, hseg⟩
    cases Except.ok.inj hsegs
    exact ⟨[toBytes text], .cons hseg .nil, List.append_nil _⟩
  rw [makeSegments] at h
  split at h
  · rename_i hempty
    cases h
    exact ⟨[], .nil, by rw [hempty]; rfl⟩
  · split at h
    · rename_i hnumeric
      obtain ⟨seg, hmade, hseg, _⟩ := makeNumeric_encodes hnumeric
      exact hone h ⟨seg, hmade, hseg⟩
    · split at h
      · rename_i halphanumeric
        obtain ⟨seg, hmade, hseg, _⟩ := makeAlphanumeric_encodes halphanumeric
        exact hone h ⟨seg, hmade, hseg⟩
      · by_cases hlen : (toBytes text).length ≤ INT_MAX
        · obtain ⟨seg, hmade, hseg, _⟩ := makeBytes_encodes hlen
          exact hone h ⟨seg, hmade, hseg⟩
        · rw [makeBytes, if_pos (Nat.not_le.mp hlen)] at h
          cases h

end QrSegment
end ScoutingComputer.Qrcodegen
