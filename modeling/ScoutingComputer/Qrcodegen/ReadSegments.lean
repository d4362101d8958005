import Mathlib.Data.List.Basic
import ScoutingComputer.Qrcodegen.EncodeSegments
import ScoutingComputer.Qrcodegen.ReadSegment

/-! Reading the data codewords of a symbol.

The reader goes from header to header until it meets the terminator or too few bits for
one. `encodeData_reads` says what `encodeData` is for: when it returns, the codewords fill
the version and level that it names, and reading them gives the characters of all
segments; and it takes the smallest version that holds them, at a level no lower than the
one asked for. -/
namespace ScoutingComputer.Qrcodegen
open BigEndian QrSegment

/-! ### The reader -/

def modeOfBits : Nat → Option Mode
  | 0x1 => some .numeric
  | 0x2 => some .alphanumeric
  | 0x4 => some .byte
  | _ => none

/-- The characters of the segments, `passes` of them at most. -/
def readSegments (version : Nat) : (passes : Nat) → BitBuffer → Option (List UInt8)
  | 0, _ => some []
  | passes + 1, bs =>
    match takeNumber 4 bs with
    | none => some []
    | some (0, _) => some []
    | some (modeBits + 1, bs) => do
      let mode ← modeOfBits (modeBits + 1)
      let (numChars, bs) ← takeNumber (mode.numCharCountBits version) bs
      let (text, bs) ← readData mode numChars bs
      return text ++ (← readSegments version passes bs)

def codewordBits (codewords : List UInt8) : BitBuffer := codewords.flatMap fun b => bits b.toNat 8

/-- What a symbol of this version with these data codewords says. -/
def readCodewords (version : Nat) (codewords : List UInt8) : Option (List UInt8) :=
  readSegments version (codewordBits codewords).length (codewordBits codewords)

/-! ### The version -/

theorem fits_le {segs : List QrSegment} {ecl : Ecc} {version dataUsedBits : Nat}
    (h : fits segs ecl version = some dataUsedBits) :
    getTotalBits segs version = some dataUsedBits ∧ dataUsedBits ≤ getNumDataCodewords version ecl * 8 := by
  unfold fits at h
  cases htotal : getTotalBits segs version with
  | none => rw [htotal] at h; cases h
  | some used =>
    rw [htotal] at h
    simp only [Option.ite_none_right_eq_some, Option.some.injEq] at h
    obtain ⟨hle, rfl⟩ := h
    exact ⟨rfl, hle⟩

/-- The first version that fits. -/
theorem findVersion_ok {segs : List QrSegment} {ecl : Ecc} {remaining first version dataUsedBits : Nat}
    (h : findVersion segs ecl remaining first = .ok (version, dataUsedBits)) :
    first ≤ version ∧ version ≤ first + remaining ∧ fits segs ecl version = some dataUsedBits ∧
      ∀ v, first ≤ v → v < version → fits segs ecl v = none := by
  induction remaining generalizing first with
  | zero =>
    unfold findVersion at h
    cases hfits : fits segs ecl first with
    | none => simp [hfits] at h
    | some used =>
      simp only [hfits, Except.ok.injEq, Prod.mk.injEq] at h
      obtain ⟨rfl, rfl⟩ := h
      exact ⟨Nat.le_refl _, Nat.le_refl _, hfits, fun v hv hlt => absurd hlt (Nat.not_lt.mpr hv)⟩
  | succ remaining ih =>
    unfold findVersion at h
    cases hfits : fits segs ecl first with
    | none =>
      simp only [hfits] at h
      obtain ⟨hlow, hhigh, hv, hnone⟩ := ih h
      refine ⟨by omega, by omega, hv, fun v hfirst hlt => ?_⟩
      rcases Nat.eq_or_lt_of_le hfirst with rfl | hfirst
      · exact hfits
      · exact hnone v hfirst hlt
    | some used =>
      simp only [hfits, Except.ok.injEq, Prod.mk.injEq] at h
      obtain ⟨rfl, rfl⟩ := h
      exact ⟨Nat.le_refl _, Nat.le_add_right _ _, hfits, fun v hv hlt => absurd hlt (Nat.not_lt.mpr hv)⟩

theorem findVersion_fits {segs : List QrSegment} {ecl : Ecc} {remaining first v dataUsedBits : Nat}
    (hlow : first ≤ v) (hhigh : v ≤ first + remaining) (hfits : fits segs ecl v = some dataUsedBits) :
    ∃ found, findVersion segs ecl remaining first = .ok found := by
  induction remaining generalizing first with
  | zero =>
    cases Nat.le_antisymm hlow hhigh
    unfold findVersion
    rw [hfits]
    exact ⟨_, rfl⟩
  | succ remaining ih =>
    unfold findVersion
    cases hfirst : fits segs ecl first with
    | some used => exact ⟨_, rfl⟩
    | none =>
      have hne : first ≠ v := by
        rintro rfl
        rw [hfirst] at hfits
        cases hfits
      exact ih (by omega) (by omega)

/-- The level that is used: what fits at the one asked for still fits. -/
theorem boost_fits (boostEcl : Bool) {version dataUsedBits : Nat} {ecl : Ecc}
    (h : dataUsedBits ≤ getNumDataCodewords version ecl * 8) :
    dataUsedBits ≤ getNumDataCodewords version (boost boostEcl version dataUsedBits ecl) * 8 := by
  have hfold : ∀ (levels : List Ecc) (ecl : Ecc), dataUsedBits ≤ getNumDataCodewords version ecl * 8 →
      dataUsedBits ≤ getNumDataCodewords version (levels.foldl (fun ecl newEcl =>
        if boostEcl = true ∧ dataUsedBits ≤ getNumDataCodewords version newEcl * 8 then newEcl else ecl) ecl) * 8 := by
    intro levels
    induction levels with
    | nil => exact fun _ h => h
    | cons newEcl levels ih =>
      intro ecl h
      rw [List.foldl_cons]
      refine ih _ ?_
      split
      · rename_i hnew
        exact hnew.2
      · exact h
  exact hfold _ _ h

/-! ### Headers -/

theorem modeOfBits_getModeBits (mode : Mode) : modeOfBits mode.getModeBits = some mode := by
  cases mode <;> rfl

theorem numCharCountBits_le (mode : Mode) (ver : Nat) : mode.numCharCountBits ver ≤ 16 := by
  unfold Mode.numCharCountBits
  rw [List.getD_eq_getElem?_getD]
  obtain ⟨k, hk⟩ : ∃ k, k = (ver + 7) / 17 := ⟨_, rfl⟩
  rw [← hk]
  match k with
  | 0 => cases mode <;> decide
  | 1 => cases mode <;> decide
  | 2 => cases mode <;> decide
  | k + 3 => cases mode <;> exact Nat.zero_le _

/-- A segment in the symbol. -/
def segmentBits (version : Nat) (seg : QrSegment) : BitBuffer :=
  bits seg.mode.getModeBits 4 ++ bits seg.numChars (seg.mode.numCharCountBits version) ++ seg.data

theorem length_segmentBits (version : Nat) (seg : QrSegment) :
    (segmentBits version seg).length = 4 + seg.mode.numCharCountBits version + seg.data.length := by
  rw [segmentBits, List.length_append, List.length_append, length_bits, length_bits]

/-- The total counts the bits that are written, and every count fits its field. -/
theorem addTotalBits_eq {version : Nat} {segs : List QrSegment} {result total : Nat}
    (h : addTotalBits version segs result = some total) :
    total = result + (segs.flatMap (segmentBits version)).length ∧
      ∀ seg ∈ segs, seg.numChars < 2 ^ seg.mode.numCharCountBits version := by
  induction segs generalizing result with
  | nil =>
    cases h
    exact ⟨rfl, fun _ hseg => absurd hseg List.not_mem_nil⟩
  | cons seg segs ih =>
    simp only [addTotalBits] at h
    split at h
    · cases h
    · rename_i hnum
      split at h
      · cases h
      · split at h
        · cases h
        · obtain ⟨htotal, hrest⟩ := ih h
          constructor
          · rw [htotal, List.flatMap_cons, List.length_append, length_segmentBits]
            omega
          · intro s hs
            rcases List.mem_cons.mp hs with rfl | hs
            · exact Nat.not_le.mp hnum
            · exact hrest s hs

theorem concatenate_ok {version : Nat} {segs : List QrSegment} (bb : BitBuffer)
    (h : ∀ seg ∈ segs, seg.numChars < 2 ^ seg.mode.numCharCountBits version) :
    concatenate version segs bb = .ok (bb ++ segs.flatMap (segmentBits version)) := by
  induction segs generalizing bb with
  | nil => simp [concatenate]
  | cons seg segs ih =>
    have hmode : seg.mode.getModeBits < 2 ^ 4 := by cases seg.mode <;> decide
    have hnum := h seg (List.mem_cons_self ..)
    have hlen := (numCharCountBits_le seg.mode version).trans (by decide : 16 ≤ 31)
    rw [concatenate, appendBits_ok bb (by decide) hmode]
    show (appendBits seg.numChars (seg.mode.numCharCountBits version) (bb ++ bits seg.mode.getModeBits 4)).bind _ = _
    rw [appendBits_ok _ hlen hnum]
    show concatenate version segs _ = _
    rw [ih _ fun s hs => h s (List.mem_cons_of_mem seg hs), List.flatMap_cons, segmentBits]
    simp only [List.append_assoc]

/-- Where the reader stops: at four zeros, or at less than four bits. -/
def Terminated (tail : BitBuffer) : Prop := tail.length < 4 ∨ ∃ rest, tail = bits 0 4 ++ rest

theorem readSegments_terminated (version passes : Nat) {tail : BitBuffer} (h : Terminated tail) :
    readSegments version passes tail = some [] := by
  cases passes with
  | zero => rfl
  | succ passes =>
    rcases h with hshort | ⟨rest, rfl⟩
    · rw [readSegments, takeNumber, if_pos hshort]
    · rw [readSegments, takeNumber_bits (by decide)]

theorem readSegments_segment {version passes : Nat} {seg : QrSegment} {text : List UInt8} (h : Encodes seg text)
    (hnum : seg.numChars < 2 ^ seg.mode.numCharCountBits version) (rest : BitBuffer) :
    readSegments version (passes + 1) (segmentBits version seg ++ rest) =
      (readSegments version passes rest).map (text ++ ·) := by
  have hmode : seg.mode.getModeBits < 2 ^ 4 := by cases seg.mode <;> decide
  obtain ⟨modeBits, hbits⟩ : ∃ modeBits, seg.mode.getModeBits = modeBits + 1 :=
    ⟨seg.mode.getModeBits - 1, by cases seg.mode <;> rfl⟩
  have hread : takeNumber 4 (segmentBits version seg ++ rest) =
      some (modeBits + 1, bits seg.numChars (seg.mode.numCharCountBits version) ++ (seg.data ++ rest)) := by
    rw [segmentBits, List.append_assoc, List.append_assoc, takeNumber_bits hmode, hbits]
  have hof : modeOfBits (modeBits + 1) = some seg.mode := hbits ▸ modeOfBits_getModeBits seg.mode
  rw [readSegments, hread]
  simp only [hof, Option.bind_eq_bind, Option.bind_some, takeNumber_bits hnum, h.2 rest]
  cases readSegments version passes rest <;> rfl

/-- All segments are read, one pass for each. -/
theorem readSegments_segments {version : Nat} {segs : List QrSegment} {texts : List (List UInt8)}
    (h : List.Forall₂ Encodes segs texts) (hnum : ∀ seg ∈ segs, seg.numChars < 2 ^ seg.mode.numCharCountBits version)
    {tail : BitBuffer} (htail : Terminated tail) {passes : Nat} (hpasses : segs.length ≤ passes) :
    readSegments version passes (segs.flatMap (segmentBits version) ++ tail) = some texts.flatten := by
  induction h generalizing passes with
  | nil => exact readSegments_terminated version passes htail
  | @cons seg text segs texts hseg _ ih =>
    obtain ⟨passes, rfl⟩ : ∃ p, passes = p + 1 := ⟨passes - 1, by simp at hpasses; omega⟩
    have hrest := ih (fun s hs => hnum s (List.mem_cons_of_mem seg hs)) (Nat.le_of_succ_le_succ hpasses)
    rw [List.flatMap_cons, List.append_assoc, readSegments_segment hseg (hnum seg (List.mem_cons_self ..)), hrest]
    rfl

/-! ### The terminator and the padding -/

theorem padBytes_ok {dataCapacityBits : Nat} (hcap : 8 ∣ dataCapacityBits) (passes padByte : Nat) (bb : BitBuffer)
    (hbyte : padByte = 0xEC ∨ padByte = 0x11) (hbb : 8 ∣ bb.length) (hle : bb.length ≤ dataCapacityBits)
    (hpasses : dataCapacityBits ≤ bb.length + passes) :
    ∃ filling, padBytes dataCapacityBits passes padByte bb = .ok (bb ++ filling) ∧
      (bb ++ filling).length = dataCapacityBits := by
  induction passes generalizing padByte bb with
  | zero => exact ⟨[], by simp [padBytes], by simp; omega⟩
  | succ passes ih =>
    by_cases hlt : bb.length < dataCapacityBits
    · have hlt256 : padByte < 2 ^ 8 := by rcases hbyte with rfl | rfl <;> decide
      have hnext : padByte ^^^ (0xEC ^^^ 0x11) = 0xEC ∨ padByte ^^^ (0xEC ^^^ 0x11) = 0x11 := by
        rcases hbyte with rfl | rfl <;> decide
      have hlen : (bb ++ bits padByte 8).length = bb.length + 8 := by rw [List.length_append, length_bits]
      obtain ⟨filling, hfill, hfull⟩ := ih _ (bb ++ bits padByte 8) hnext (by omega) (by omega) (by omega)
      refine ⟨bits padByte 8 ++ filling, ?_, ?_⟩
      · rw [padBytes, if_pos hlt, appendBits_ok bb (by decide) hlt256]
        show padBytes dataCapacityBits passes _ (bb ++ bits padByte 8) = _
        rw [hfill, List.append_assoc]
      · rw [← List.append_assoc, hfull]
    · refine ⟨[], ?_, ?_⟩
      · rw [padBytes, if_neg hlt, List.append_nil]
      · rw [List.append_nil]
        omega

/-- The bits are filled up to the capacity, and what is added ends the segments. -/
theorem pad_ok {dataCapacityBits : Nat} (hcap : 8 ∣ dataCapacityBits) (bb : BitBuffer)
    (hle : bb.length ≤ dataCapacityBits) :
    ∃ tail, pad dataCapacityBits bb = .ok (bb ++ tail) ∧ (bb ++ tail).length = dataCapacityBits ∧ Terminated tail := by
  obtain ⟨zeros, hzeros⟩ : ∃ zeros, zeros = min 4 (dataCapacityBits - bb.length) := ⟨_, rfl⟩
  obtain ⟨fill, hfill⟩ : ∃ fill, fill = (8 - (bb ++ bits 0 zeros).length % 8) % 8 := ⟨_, rfl⟩
  have hlen : (bb ++ bits 0 zeros).length = bb.length + zeros := by rw [List.length_append, length_bits]
  have hlen' : (bb ++ bits 0 zeros ++ bits 0 fill).length = bb.length + zeros + fill := by
    rw [List.length_append, hlen, length_bits]
  obtain ⟨filling, hpad, hfull⟩ := padBytes_ok hcap dataCapacityBits 0xEC (bb ++ bits 0 zeros ++ bits 0 fill)
    (.inl rfl) (by omega) (by omega) (by omega)
  refine ⟨bits 0 zeros ++ bits 0 fill ++ filling, ?_, ?_, ?_⟩
  · rw [pad, ← hzeros, appendBits_ok bb (by omega) (Nat.two_pow_pos _)]
    show (appendBits 0 ((8 - (bb ++ bits 0 zeros).length % 8) % 8) (bb ++ bits 0 zeros)).bind _ = _
    rw [← hfill, appendBits_ok _ (by omega) (Nat.two_pow_pos _)]
    show padBytes dataCapacityBits dataCapacityBits 0xEC _ = _
    rw [hpad]
    simp only [List.append_assoc]
  · rw [← hfull]
    simp only [List.append_assoc]
  · by_cases hfour : zeros = 4
    · rw [hfour, List.append_assoc]
      exact .inr ⟨_, rfl⟩
    · left
      have hzero : zeros = dataCapacityBits - bb.length := by omega
      simp only [List.length_append, length_bits] at hfull ⊢
      omega

/-! ### Packing -/

theorem length_codewordBits (codewords : List UInt8) : (codewordBits codewords).length = codewords.length * 8 := by
  induction codewords with
  | nil => rfl
  | cons b codewords ih =>
    rw [codewordBits, List.flatMap_cons, List.length_append, length_bits, ← codewordBits, ih, List.length_cons]
    omega

theorem getElem?_bits {val len i : Nat} (h : i < len) : (bits val len)[i]? = some (val.testBit (len - 1 - i)) := by
  induction len generalizing i with
  | zero => exact absurd h (Nat.not_lt_zero i)
  | succ len ih =>
    cases i with
    | zero => rfl
    | succ i =>
      rw [bits, List.getElem?_cons_succ, ih (Nat.lt_of_succ_lt_succ h)]
      congr 2
      omega

/-- Bit `i` of the codewords, as `drawCodewords` reads it. -/
theorem getElem?_codewordBits {codewords : List UInt8} {i : Nat} (h : i < codewords.length * 8) :
    (codewordBits codewords)[i]? = some (getBit (codewords.getD (i >>> 3) 0).toNat (7 - (i &&& 7))) := by
  have hdiv : i >>> 3 = i / 8 := Nat.shiftRight_eq_div_pow i 3
  have hmod : i &&& 7 = i % 8 := Nat.and_two_pow_sub_one_eq_mod i 3
  rw [hdiv, hmod, getBit_eq]
  induction codewords generalizing i with
  | nil => simp at h
  | cons b codewords ih =>
    rw [codewordBits, List.flatMap_cons, ← codewordBits]
    by_cases hi : i < 8
    · rw [List.getElem?_append_left (by rwa [length_bits]), getElem?_bits hi, Nat.div_eq_of_lt hi, Nat.mod_eq_of_lt hi]
      rfl
    · rw [List.length_cons] at h
      have hrest := @ih (i - 8) (by omega) (Nat.shiftRight_eq_div_pow _ 3) (Nat.and_two_pow_sub_one_eq_mod _ 3)
      have hdiv8 : i / 8 = (i - 8) / 8 + 1 := by omega
      have hmod8 : (i - 8) % 8 = i % 8 := by omega
      rw [List.getElem?_append_right (by rw [length_bits]; omega), length_bits, hrest, hdiv8, hmod8,
        List.getD_cons_succ]

theorem length_packBit (bb : BitBuffer) (dataCodewords : List UInt8) (i : Nat) :
    (packBit bb dataCodewords i).length = dataCodewords.length := List.length_modify ..

/-- What is set after the first `n` bits. -/
theorem packed_upto (bb : BitBuffer) (n len : Nat) :
    let packed := (List.range n).foldl (packBit bb) (List.replicate len 0)
    packed.length = len ∧ ∀ k < len, ∀ j < 8,
      (packed.getD k 0).toNat.testBit (7 - j) = (decide (8 * k + j < n) && bb.getD (8 * k + j) false) := by
  induction n with
  | zero =>
    refine ⟨List.length_replicate, fun k hk j _ => ?_⟩
    simp [List.getD_eq_getElem?_getD, hk]
  | succ n ih =>
    obtain ⟨hlen, hbit⟩ := ih
    simp only [List.range_succ, List.foldl_append, List.foldl_cons, List.foldl_nil]
    refine ⟨(length_packBit bb _ n).trans hlen, fun k hk j hj => ?_⟩
    have hold := hbit k hk j hj
    have hk' : k < ((List.range n).foldl (packBit bb) (List.replicate len 0)).length := hlen.symm ▸ hk
    rw [packBit, Nat.shiftRight_eq_div_pow, Nat.and_two_pow_sub_one_eq_mod n 3, List.getD_eq_getElem?_getD,
      List.getElem?_modify, List.getElem?_eq_getElem hk']
    rw [List.getD_eq_getElem?_getD, List.getElem?_eq_getElem hk', Option.getD_some] at hold
    simp only [Option.map_eq_map, Option.map_some, Option.getD_some]
    by_cases hcell : n / 2 ^ 3 = k
    · rw [if_pos hcell, UInt8.toNat_or, Nat.testBit_or, hold, UInt8.toNat_ofNat']
      have hmask : ((bb.getD n false).toNat <<< (7 - n % 2 ^ 3)) % 2 ^ 8 = (bb.getD n false).toNat <<< (7 - n % 2 ^ 3) := by
        apply Nat.mod_eq_of_lt
        cases bb.getD n false
        · rw [Bool.toNat_false, Nat.zero_shiftLeft]
          decide
        · rw [Bool.toNat_true, Nat.one_shiftLeft]
          exact Nat.pow_lt_pow_right (by decide) (by omega)
      rw [hmask]
      by_cases hj' : 8 * k + j = n
      · have hshift : 7 - n % 2 ^ 3 = 7 - j := by omega
        rw [hshift, hj']
        cases bb.getD n false <;> simp [Nat.one_shiftLeft]
      · have hne : 7 - n % 2 ^ 3 ≠ 7 - j := by omega
        have hmask0 : ((bb.getD n false).toNat <<< (7 - n % 2 ^ 3)).testBit (7 - j) = false := by
          cases bb.getD n false
          · simp
          · rw [Bool.toNat_true, Nat.one_shiftLeft, Nat.testBit_two_pow]
            simpa using hne
        have hiff : 8 * k + j < n + 1 ↔ 8 * k + j < n := by omega
        rw [hmask0, Bool.or_false]
        simp only [hiff]
    · have hiff : 8 * k + j < n + 1 ↔ 8 * k + j < n := by omega
      rw [if_neg hcell]
      simp only [hiff]
      exact hold

theorem length_packBits (bb : BitBuffer) : (packBits bb).length = bb.length / 8 :=
  (packed_upto bb bb.length (bb.length / 8)).1

/-- The packed bytes are the bits. -/
theorem codewordBits_packBits {bb : BitBuffer} (h : 8 ∣ bb.length) : codewordBits (packBits bb) = bb := by
  obtain ⟨hlen, hbit⟩ := packed_upto bb bb.length (bb.length / 8)
  have hlength : (codewordBits (packBits bb)).length = bb.length := by
    rw [length_codewordBits, length_packBits]
    omega
  apply List.ext_getElem?
  intro i
  by_cases hi : i < bb.length
  · rw [getElem?_codewordBits (by rw [length_packBits]; omega), getBit_eq, Nat.shiftRight_eq_div_pow,
      Nat.and_two_pow_sub_one_eq_mod i 3]
    have := hbit (i / 2 ^ 3) (by omega) (i % 2 ^ 3) (by omega)
    have hi' : 8 * (i / 2 ^ 3) + i % 2 ^ 3 = i := by omega
    rw [hi', decide_eq_true hi, Bool.true_and] at this
    rw [packBits, this, List.getD_eq_getElem?_getD, List.getElem?_eq_getElem hi]
    rfl
  · rw [List.getElem?_eq_none (by omega), List.getElem?_eq_none (by omega)]

/-! ### The whole -/

/-- The order of the levels. -/
def Ecc.ordinal : Ecc → Nat
  | low => 0
  | medium => 1
  | quartile => 2
  | high => 3

/-- The level does not drop. -/
theorem ordinal_le_boost (boostEcl : Bool) {version dataUsedBits : Nat} {ecl : Ecc}
    (h : dataUsedBits ≤ getNumDataCodewords version ecl * 8) :
    ecl.ordinal ≤ (boost boostEcl version dataUsedBits ecl).ordinal := by
  cases boostEcl with
  | false => simp [boost]
  | true =>
    simp only [boost, List.foldl_cons, List.foldl_nil, true_and]
    cases ecl with
    | low => exact Nat.zero_le _
    | medium =>
      rw [if_pos h]
      split_ifs <;> decide
    | quartile =>
      simp only [if_pos h]
      split_ifs <;> decide
    | high =>
      simp only [if_pos h]
      decide

/-- No higher level fits. -/
theorem ordinal_boost_ge {version dataUsedBits : Nat} (ecl : Ecc) {level : Ecc}
    (h : dataUsedBits ≤ getNumDataCodewords version level * 8) :
    level.ordinal ≤ (boost true version dataUsedBits ecl).ordinal := by
  simp only [boost, List.foldl_cons, List.foldl_nil, true_and]
  cases level with
  | low => exact Nat.zero_le _
  | medium =>
    simp only [if_pos h]
    split_ifs <;> decide
  | quartile =>
    simp only [if_pos h]
    split_ifs <;> decide
  | high =>
    simp only [if_pos h]
    decide

/-- What `encodeData` does once a version is found. -/
theorem encodeData_eq {segs : List QrSegment} {ecl : Ecc} {minVersion maxVersion version dataUsedBits : Nat} {mask : Int}
    (boostEcl : Bool)
    (hvalid : (MIN_VERSION ≤ minVersion ∧ minVersion ≤ maxVersion ∧ maxVersion ≤ MAX_VERSION) ∧ -1 ≤ mask ∧ mask ≤ 7)
    (hfound : findVersion segs ecl (maxVersion - minVersion) minVersion = .ok (version, dataUsedBits)) :
    ∃ tail, Terminated tail ∧
      (segs.flatMap (segmentBits version) ++ tail).length =
        getNumDataCodewords version (boost boostEcl version dataUsedBits ecl) * 8 ∧
      encodeData segs ecl minVersion maxVersion mask boostEcl =
        .ok (version, boost boostEcl version dataUsedBits ecl, packBits (segs.flatMap (segmentBits version) ++ tail)) := by
  obtain ⟨hrange, hlow, hhigh⟩ := hvalid
  obtain ⟨_, _, hfits, _⟩ := findVersion_ok hfound
  obtain ⟨htotal, hcap⟩ := fits_le hfits
  obtain ⟨hused, hnum⟩ := addTotalBits_eq htotal
  rw [Nat.zero_add] at hused
  have hboost := boost_fits boostEcl hcap
  obtain ⟨bb, hbb⟩ : ∃ bb, bb = segs.flatMap (segmentBits version) := ⟨_, rfl⟩
  rw [← hbb] at hused
  obtain ⟨tail, hpad, hlen, htail⟩ := pad_ok (Nat.dvd_mul_left 8 _) bb (hused ▸ hboost)
  have hconcat : concatenate version segs [] = .ok bb := by
    rw [concatenate_ok [] hnum, List.nil_append, hbb]
  rw [← hbb, hused]
  refine ⟨tail, htail, hlen, ?_⟩
  rw [encodeData, if_neg (by rintro (h | h | h); exacts [h hrange, by omega, by omega]), hfound]
  show (concatenate version segs []).bind _ = _
  rw [hconcat, hused]
  show (pad (getNumDataCodewords version (boost boostEcl version bb.length ecl) * 8) bb).bind _ = _
  rw [hpad]
  rfl

/-- The pieces of a call that returns. -/
theorem encodeData_found {segs : List QrSegment} {ecl level : Ecc} {minVersion maxVersion version : Nat} {mask : Int}
    {boostEcl : Bool} {codewords : List UInt8}
    (h : encodeData segs ecl minVersion maxVersion mask boostEcl = .ok (version, level, codewords)) :
    ((MIN_VERSION ≤ minVersion ∧ minVersion ≤ maxVersion ∧ maxVersion ≤ MAX_VERSION) ∧ -1 ≤ mask ∧ mask ≤ 7) ∧
      ∃ dataUsedBits, findVersion segs ecl (maxVersion - minVersion) minVersion = .ok (version, dataUsedBits) := by
  by_cases hbad : ¬ (MIN_VERSION ≤ minVersion ∧ minVersion ≤ maxVersion ∧ maxVersion ≤ MAX_VERSION) ∨ mask < -1 ∨ mask > 7
  · rw [encodeData, if_pos hbad] at h
    cases h
  · obtain ⟨hrange, hmask⟩ := not_or.mp hbad
    have hrange := not_not.mp hrange
    have hlow : -1 ≤ mask := by omega
    have hhigh : mask ≤ 7 := by omega
    refine ⟨⟨hrange, hlow, hhigh⟩, ?_⟩
    cases hfound : findVersion segs ecl (maxVersion - minVersion) minVersion with
    | error e =>
      rw [encodeData, if_neg hbad, hfound] at h
      cases h
    | ok found =>
      obtain ⟨found, dataUsedBits⟩ := found
      obtain ⟨_, _, _, heq⟩ := encodeData_eq boostEcl ⟨hrange, hlow, hhigh⟩ hfound
      rw [heq] at h
      cases h
      exact ⟨dataUsedBits, rfl⟩

/-- **Reading the codewords gives the characters of the segments**, and they are as many as
the version and level have room for. -/
theorem encodeData_reads {segs : List QrSegment} {texts : List (List UInt8)} (hsegs : List.Forall₂ Encodes segs texts)
    {ecl level : Ecc} {minVersion maxVersion version : Nat} {mask : Int} {boostEcl : Bool} {codewords : List UInt8}
    (h : encodeData segs ecl minVersion maxVersion mask boostEcl = .ok (version, level, codewords)) :
    codewords.length = getNumDataCodewords version level ∧ readCodewords version codewords = some texts.flatten := by
  obtain ⟨hvalid, dataUsedBits, hfound⟩ := encodeData_found h
  obtain ⟨_, _, hfits, _⟩ := findVersion_ok hfound
  obtain ⟨htotal, _⟩ := fits_le hfits
  obtain ⟨_, hnum⟩ := addTotalBits_eq htotal
  obtain ⟨tail, htail, hlen, heq⟩ := encodeData_eq boostEcl hvalid hfound
  rw [heq] at h
  cases h
  have hbits := @codewordBits_packBits (segs.flatMap (segmentBits version) ++ tail) (hlen ▸ Nat.dvd_mul_left 8 _)
  constructor
  · rw [length_packBits, hlen, Nat.mul_div_cancel _ (by decide)]
  · rw [readCodewords, hbits]
    refine readSegments_segments hsegs hnum htail ?_
    have hcount : ∀ segs : List QrSegment, segs.length ≤ (segs.flatMap (segmentBits version)).length := by
      intro segs
      induction segs with
      | nil => exact Nat.le_refl 0
      | cons seg segs ih =>
        rw [List.flatMap_cons, List.length_append, length_segmentBits, List.length_cons]
        omega
    rw [List.length_append]
    exact (hcount segs).trans (Nat.le_add_right _ _)

/-- **The smallest version and the highest level**: the version is the first in the range
that holds the segments at the level asked for, and no level higher than the one taken
holds them in it. -/
theorem encodeData_minimal {segs : List QrSegment} {ecl level : Ecc} {minVersion maxVersion version : Nat} {mask : Int}
    {codewords : List UInt8} (h : encodeData segs ecl minVersion maxVersion mask true = .ok (version, level, codewords)) :
    (minVersion ≤ version ∧ version ≤ maxVersion ∧ (fits segs ecl version).isSome ∧
        ∀ v, minVersion ≤ v → v < version → fits segs ecl v = none) ∧
      ecl.ordinal ≤ level.ordinal ∧ (fits segs level version).isSome ∧
        ∀ higher, level.ordinal < higher.ordinal → fits segs higher version = none := by
  obtain ⟨hvalid, dataUsedBits, hfound⟩ := encodeData_found h
  obtain ⟨hlow, hhigh, hfits, hmin⟩ := findVersion_ok hfound
  obtain ⟨htotal, hcap⟩ := fits_le hfits
  obtain ⟨_, _, _, heq⟩ := encodeData_eq true hvalid hfound
  rw [heq] at h
  cases h
  have hlevel := boost_fits true hcap
  refine ⟨⟨hlow, by omega, by rw [hfits]; rfl, hmin⟩, ordinal_le_boost true hcap, ?_, ?_⟩
  · rw [fits, htotal]
    simp [hlevel]
  · intro higher hhigher
    rw [fits, htotal]
    by_cases hle : dataUsedBits ≤ getNumDataCodewords version higher * 8
    · exact absurd (ordinal_boost_ge ecl hle) (Nat.not_le.mpr hhigher)
    · simp [hle]

/-- Nothing is thrown when a version of the range holds the segments. -/
theorem encodeData_isOk {segs : List QrSegment} {ecl : Ecc} {minVersion maxVersion v dataUsedBits : Nat} {mask : Int}
    (boostEcl : Bool)
    (hvalid : (MIN_VERSION ≤ minVersion ∧ minVersion ≤ maxVersion ∧ maxVersion ≤ MAX_VERSION) ∧ -1 ≤ mask ∧ mask ≤ 7)
    (hlow : minVersion ≤ v) (hhigh : v ≤ maxVersion) (hfits : fits segs ecl v = some dataUsedBits) :
    ∃ version level codewords, encodeData segs ecl minVersion maxVersion mask boostEcl = .ok (version, level, codewords) := by
  obtain ⟨⟨version, used⟩, hfound⟩ := @findVersion_fits segs ecl (maxVersion - minVersion) minVersion v dataUsedBits hlow
    (by omega) hfits
  obtain ⟨_, _, _, heq⟩ := encodeData_eq boostEcl hvalid hfound
  exact ⟨_, _, _, heq⟩

end ScoutingComputer.Qrcodegen
