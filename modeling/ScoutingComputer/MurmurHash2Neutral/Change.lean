import ScoutingComputer.MurmurHash2Neutral
import ScoutingComputer.Foundation.Mixing

/-! Which changes the hash of the local database notices.

The loop and the switch count with the size as an `int`, so that from 2 GiB on a part of
the data, or all of it, is not read. In a block the bytes are joined by `|=` after their
sign was extended: a byte with the top bit set covers all bytes after it (`visible`). The
shifts to the right are arithmetic and merge a word with its complement, once in each
block and twice at the end. Every other step merges nothing, so these are the only
changes of one block, or of the last bytes, that are not noticed (`hash_notices_iff`). -/
namespace ScoutingComputer.MurmurHash2Neutral

/-! ### The bytes of a word -/

/-- What is left of a block when its bytes are joined with `|=`. -/
def visible : List UInt8 → List UInt8
  | [] => []
  | b :: bytes => if b.toBitVec.msb then [b] else b :: visible bytes

/-- The bytes joined with `|=`, as in a block. -/
def blockWord : List UInt8 → BitVec 32
  | [] => 0#32
  | b :: bytes => intOfChar b ||| blockWord bytes <<< 8

/-- The bytes joined with `^=`, as in the switch. -/
def tailWord : List UInt8 → BitVec 32
  | [] => 0#32
  | b :: bytes => intOfChar b ^^^ tailWord bytes <<< 8

theorem getLsbD_intOfChar (b : UInt8) {i : Nat} (hi : i < 32) :
    (intOfChar b).getLsbD i = if i < 8 then b.toBitVec.getLsbD i else b.toBitVec.msb := by
  rw [intOfChar, BitVec.getLsbD_signExtend, decide_eq_true hi, Bool.true_and]

/-- Two words with the same bits below `8 * n`. -/
def SameBits (n : Nat) (x y : BitVec 32) : Prop := ∀ i < 8 * n, x.getLsbD i = y.getLsbD i

theorem sameBits_four {x y : BitVec 32} : SameBits 4 x y ↔ x = y := by
  constructor
  · intro h
    exact BitVec.eq_of_getLsbD_eq h
  · rintro rfl
    exact fun _ _ => rfl

theorem byte_eq_of_bits {b b' : UInt8} (h : ∀ i < 8, b.toBitVec.getLsbD i = b'.toBitVec.getLsbD i) : b = b' :=
  UInt8.toBitVec_inj.mp (BitVec.eq_of_getLsbD_eq h)

/-- The first byte is in the low bits; its sign is joined with all bits of the others. -/
theorem sameBits_cons {join : Bool → Bool → Bool} {b b' : UInt8} {x y rest rest' : BitVec 32} {n : Nat}
    (hx : ∀ i < 32, x.getLsbD i =
      if i < 8 then b.toBitVec.getLsbD i else join b.toBitVec.msb (rest.getLsbD (i - 8)))
    (hy : ∀ i < 32, y.getLsbD i =
      if i < 8 then b'.toBitVec.getLsbD i else join b'.toBitVec.msb (rest'.getLsbD (i - 8)))
    (hn : n < 4) :
    SameBits (n + 1) x y ↔
      b = b' ∧ ∀ i < 8 * n, join b.toBitVec.msb (rest.getLsbD i) = join b.toBitVec.msb (rest'.getLsbD i) := by
  constructor
  · intro h
    have hb : b = b' := by
      apply byte_eq_of_bits
      intro i hi
      have hbit := h i (by omega)
      rwa [hx i (by omega), hy i (by omega), if_pos hi, if_pos hi] at hbit
    subst hb
    refine ⟨rfl, fun i hi => ?_⟩
    have hbit := h (i + 8) (by omega)
    rwa [hx _ (by omega), hy _ (by omega), if_neg (by omega), if_neg (by omega), Nat.add_sub_cancel] at hbit
  · rintro ⟨rfl, h⟩ i hi
    rw [hx i (by omega), hy i (by omega)]
    split
    · rfl
    · exact h (i - 8) (by omega)

theorem getLsbD_blockWord_cons (b : UInt8) (bytes : List UInt8) :
    ∀ i < 32, (blockWord (b :: bytes)).getLsbD i =
      if i < 8 then b.toBitVec.getLsbD i else (b.toBitVec.msb || (blockWord bytes).getLsbD (i - 8)) := by
  intro i hi
  rw [blockWord, BitVec.getLsbD_or, getLsbD_intOfChar b hi, BitVec.getLsbD_shiftLeft]
  by_cases hlow : i < 8
  · simp [hlow]
  · simp [hlow, hi]

theorem getLsbD_tailWord_cons (b : UInt8) (bytes : List UInt8) :
    ∀ i < 32, (tailWord (b :: bytes)).getLsbD i =
      if i < 8 then b.toBitVec.getLsbD i else (b.toBitVec.msb ^^ (tailWord bytes).getLsbD (i - 8)) := by
  intro i hi
  rw [tailWord, BitVec.getLsbD_xor, getLsbD_intOfChar b hi, BitVec.getLsbD_shiftLeft]
  by_cases hlow : i < 8
  · simp [hlow]
  · simp [hlow, hi]

theorem head?_visible (b : UInt8) (bytes : List UInt8) : (visible (b :: bytes)).head? = some b := by
  rw [visible]
  split <;> rfl

theorem head_of_visible {b b' : UInt8} {bytes bytes' : List UInt8}
    (h : visible (b :: bytes) = visible (b' :: bytes')) : b = b' := by
  have hhead := congrArg List.head? h
  rwa [head?_visible, head?_visible, Option.some.injEq] at hhead

theorem sameBits_blockWord {bytes bytes' : List UInt8} (hsame : bytes.length = bytes'.length)
    (hfour : bytes.length ≤ 4) :
    SameBits bytes.length (blockWord bytes) (blockWord bytes') ↔ visible bytes = visible bytes' := by
  induction bytes generalizing bytes' with
  | nil =>
    rw [List.eq_nil_of_length_eq_zero hsame.symm]
    simp [SameBits]
  | cons b bytes ih =>
    cases bytes' with
    | nil => simp at hsame
    | cons b' bytes' =>
      simp only [List.length_cons, Nat.add_right_cancel_iff] at hsame hfour ⊢
      have ih := ih hsame (by omega)
      rw [sameBits_cons (getLsbD_blockWord_cons b bytes) (getLsbD_blockWord_cons b' bytes') (by omega)]
      cases hmsb : b.toBitVec.msb with
      | true =>
        -- The sign covers all that follows.
        constructor
        · rintro ⟨rfl, -⟩
          simp [visible, hmsb]
        · intro h
          exact ⟨head_of_visible h, by simp⟩
      | false =>
        constructor
        · rintro ⟨rfl, h⟩
          have hrest := ih.mp (fun i hi => by simpa using h i hi)
          simp [visible, hmsb, hrest]
        · intro h
          obtain rfl := head_of_visible h
          simp only [visible, hmsb, Bool.false_eq_true, if_false, List.cons.injEq, true_and] at h
          exact ⟨rfl, fun i hi => by simpa using ih.mpr h i hi⟩

theorem sameBits_tailWord {bytes bytes' : List UInt8} (hsame : bytes.length = bytes'.length)
    (hfour : bytes.length ≤ 4) :
    SameBits bytes.length (tailWord bytes) (tailWord bytes') ↔ bytes = bytes' := by
  induction bytes generalizing bytes' with
  | nil =>
    rw [List.eq_nil_of_length_eq_zero hsame.symm]
    simp [SameBits]
  | cons b bytes ih =>
    cases bytes' with
    | nil => simp at hsame
    | cons b' bytes' =>
      simp only [List.length_cons, Nat.add_right_cancel_iff] at hsame hfour ⊢
      rw [sameBits_cons (getLsbD_tailWord_cons b bytes) (getLsbD_tailWord_cons b' bytes') (by omega),
        List.cons.injEq, ← ih hsame (by omega)]
      simp only [SameBits, Bool.bne_right_inj]

theorem blockWord_inj {block block' : List UInt8} (h : block.length = 4) (h' : block'.length = 4) :
    blockWord block = blockWord block' ↔ visible block = visible block' := by
  rw [← sameBits_blockWord (h.trans h'.symm) h.le, h, sameBits_four]

theorem tailWord_inj {bytes bytes' : List UInt8} (hsame : bytes.length = bytes'.length) (hfew : bytes.length < 4) :
    tailWord bytes = tailWord bytes' ↔ bytes = bytes' := by
  constructor
  · intro h
    rw [← sameBits_tailWord hsame hfew.le, h]
    exact fun _ _ => rfl
  · rintro rfl
    rfl

/-! ### The steps -/

theorem multVal_inj {x y : BitVec 32} : x * multVal = y * multVal ↔ x = y :=
  Mixing.mul_inj (show multVal * 0xe59b19bd#32 = 1#32 by decide)

/-- The words whose products are complements. -/
def Opposed (x y : BitVec 32) : Prop := y * multVal = ~~~(x * multVal)

instance (x y : BitVec 32) : Decidable (Opposed x y) := inferInstanceAs (Decidable (_ = _))

/-- The words that a product and a shift behind it merge. -/
theorem product_shift_eq_iff {k : Nat} (hk : 0 < k) {x y : BitVec 32} :
    x * multVal ^^^ (x * multVal).sshiftRight k = y * multVal ^^^ (y * multVal).sshiftRight k ↔
      x = y ∨ Opposed x y := by
  rw [Mixing.xor_sshiftRight_eq_iff hk, multVal_inj, eq_comm (a := y), Opposed]

theorem murmurBlock_eq (b₀ b₁ b₂ b₃ : UInt8) :
    murmurBlock b₀ b₁ b₂ b₃ =
      (blockWord [b₀, b₁, b₂, b₃] * multVal ^^^ (blockWord [b₀, b₁, b₂, b₃] * multVal).sshiftRight 24) * multVal := by
  have hword : blockWord [b₀, b₁, b₂, b₃] =
      intOfChar b₀ ||| intOfChar b₁ <<< 8 ||| intOfChar b₂ <<< 16 ||| intOfChar b₃ <<< 24 := by
    simp only [blockWord, BitVec.shiftLeft_or_distrib, BitVec.or_assoc]
    simp
  rw [murmurBlock, hword]

theorem murmurBlock_eq_iff {b₀ b₁ b₂ b₃ b₀' b₁' b₂' b₃' : UInt8} :
    murmurBlock b₀ b₁ b₂ b₃ = murmurBlock b₀' b₁' b₂' b₃' ↔
      visible [b₀, b₁, b₂, b₃] = visible [b₀', b₁', b₂', b₃'] ∨
        Opposed (blockWord [b₀, b₁, b₂, b₃]) (blockWord [b₀', b₁', b₂', b₃']) := by
  rw [murmurBlock_eq, murmurBlock_eq, multVal_inj, product_shift_eq_iff (by decide), blockWord_inj rfl rfl]

/-- The switch joins the last bytes from the highest to the lowest. -/
theorem murmurLoop_tail (hash : BitVec 32) {bytes : List UInt8} (hne : bytes ≠ []) (hfew : bytes.length < 4) :
    murmurLoop hash bytes = (hash ^^^ tailWord bytes) * multVal := by
  match bytes, hne, hfew with
  | [b₀], _, _ => simp [murmurLoop, tailWord]
  | [b₀, b₁], _, _ =>
    have hword : tailWord [b₀, b₁] = intOfChar b₁ <<< 8 ^^^ intOfChar b₀ := by
      simp [tailWord, BitVec.xor_comm]
    rw [murmurLoop, hword, BitVec.xor_assoc]
  | [b₀, b₁, b₂], _, _ =>
    have hword : tailWord [b₀, b₁, b₂] = intOfChar b₂ <<< 16 ^^^ (intOfChar b₁ <<< 8 ^^^ intOfChar b₀) := by
      simp only [tailWord, BitVec.zero_shiftLeft, BitVec.xor_zero, BitVec.shiftLeft_xor_distrib,
        ← BitVec.shiftLeft_add]
      rw [BitVec.xor_comm, BitVec.xor_comm (intOfChar b₁ <<< 8), BitVec.xor_assoc]
    rw [murmurLoop, hword, BitVec.xor_assoc, BitVec.xor_assoc]

theorem murmurLoop_append (hash : BitVec 32) {before : List UInt8} (haligned : before.length % 4 = 0)
    (rest : List UInt8) : murmurLoop hash (before ++ rest) = murmurLoop (murmurLoop hash before) rest := by
  fun_induction murmurLoop hash before with
  | case1 hash b₀ b₁ b₂ b₃ before ih =>
    simp only [List.length_cons] at haligned
    simp only [List.cons_append, murmurLoop]
    exact ih (by omega)
  | case2 | case3 | case4 => simp at haligned
  | case5 => rfl

/-- No data merge two accumulators. -/
theorem murmurLoop_inj {hash hash' : BitVec 32} (rest : List UInt8) :
    murmurLoop hash rest = murmurLoop hash' rest ↔ hash = hash' := by
  fun_induction murmurLoop hash rest generalizing hash' with
  | case1 hash b₀ b₁ b₂ b₃ rest ih =>
    rw [murmurLoop, ih, BitVec.xor_left_inj, multVal_inj]
  | case2 | case3 | case4 => simp only [murmurLoop, multVal_inj, BitVec.xor_left_inj]
  | case5 => simp only [murmurLoop]

/-- What the first of the last three steps makes of an accumulator. -/
def folded (hash : BitVec 32) : BitVec 32 := hash ^^^ hash.sshiftRight 13

theorem murmurFinish_eq_iff {x y : BitVec 32} :
    murmurFinish x = murmurFinish y ↔ x = y ∨ y = ~~~x ∨ Opposed (folded x) (folded y) := by
  have hfinish : ∀ z, murmurFinish z = folded z * multVal ^^^ (folded z * multVal).sshiftRight 15 := fun _ => rfl
  rw [hfinish, hfinish, product_shift_eq_iff (by decide), folded, folded,
    Mixing.xor_sshiftRight_eq_iff (by decide), eq_comm (a := y), or_assoc]

/-! ### Changes -/

/-- Two vectors of one size that differ in one aligned block only, or in the last one to
three bytes only. -/
structure Change where
  before : List UInt8
  part : List UInt8
  part' : List UInt8
  after : List UInt8
  aligned : before.length % 4 = 0
  same : part.length = part'.length
  within : part.length = 4 ∨ part.length < 4 ∧ after = []
  differs : part ≠ part'

/-- The accumulator before the last three steps. -/
def accumulated (data : List UInt8) : BitVec 32 := murmurLoop (murmurSeed data.length) (hashedPart data)

theorem murmurHash_eq (data : List UInt8) : murmurHash data = murmurFinish (accumulated data) := rfl

namespace Change

def old (c : Change) : List UInt8 := c.before ++ (c.part ++ c.after)

def new (c : Change) : List UInt8 := c.before ++ (c.part' ++ c.after)

def size (c : Change) : Nat := c.before.length + (c.part.length + c.after.length)

/-- The bytes hashed from the part that differs. -/
def hashed (c : Change) (part : List UInt8) : List UInt8 := part.take (hashedLength c.size - c.before.length)

/-- What the hash sees of the part that differs: of a block, nothing behind a sign. -/
def seen (c : Change) (part : List UInt8) : List UInt8 :=
  if (c.hashed part).length = 4 then visible (c.hashed part) else c.hashed part

/-- The two words of a changed block whose products are complements. -/
def Merged (c : Change) : Prop :=
  (c.hashed c.part).length = 4 ∧ Opposed (blockWord c.part) (blockWord c.part')

/-- The hash sees the change, and neither the shift in the block nor the two at the end
merge what it sees. -/
structure Noticed (c : Change) : Prop where
  seen : c.seen c.part ≠ c.seen c.part'
  block : ¬ c.Merged
  first : accumulated c.new ≠ ~~~ accumulated c.old
  last : ¬ Opposed (folded (accumulated c.old)) (folded (accumulated c.new))

theorem length_old (c : Change) : c.old.length = c.size := by simp [old, size]

theorem length_new (c : Change) : c.new.length = c.size := by simp [new, size, c.same]

theorem length_hashed (c : Change) : (c.hashed c.part').length = (c.hashed c.part).length := by
  simp [hashed, c.same]

theorem length_hashed_le (c : Change) : (c.hashed c.part).length ≤ 4 := by
  have hwithin : c.part.length ≤ 4 := by
    obtain h | ⟨h, -⟩ := c.within
    · exact h.le
    · exact h.le
  exact (List.length_take_le' _ _).trans hwithin

theorem hashed_of_four (c : Change) (h : (c.hashed c.part).length = 4) :
    c.hashed c.part = c.part ∧ c.hashed c.part' = c.part' := by
  have hsame := c.same
  have hwithin := c.within
  rw [hashed, List.length_take] at h
  constructor
  · exact List.take_of_length_le (by omega)
  · exact List.take_of_length_le (by omega)

/-- The bytes hashed behind the part that differs. -/
def rest (c : Change) : List UInt8 := c.after.take (hashedLength c.size - c.before.length - c.part.length)

/-- Behind a part that is not a whole block nothing is hashed. -/
theorem rest_of_lt (c : Change) (h : (c.hashed c.part).length < 4) : c.rest = [] := by
  rw [rest]
  obtain hfour | ⟨-, hafter⟩ := c.within
  · rw [hashed, List.length_take] at h
    rw [show hashedLength c.size - c.before.length - c.part.length = 0 by omega, List.take_zero]
  · rw [hafter, List.take_nil]

theorem hashedPart_old (c : Change) :
    hashedPart c.old = c.before.take (hashedLength c.size) ++ (c.hashed c.part ++ c.rest) := by
  rw [hashedPart, length_old, old, List.take_append, List.take_append, hashed, rest]

theorem hashedPart_new (c : Change) :
    hashedPart c.new = c.before.take (hashedLength c.size) ++ (c.hashed c.part' ++ c.rest) := by
  rw [hashedPart, length_new, new, List.take_append, List.take_append, hashed, rest, c.same]

/-- The part that differs, hashed from one accumulator. -/
theorem murmurLoop_eq_iff (c : Change) (hash : BitVec 32) :
    murmurLoop hash (c.hashed c.part ++ c.rest) = murmurLoop hash (c.hashed c.part' ++ c.rest) ↔
      c.seen c.part = c.seen c.part' ∨ c.Merged := by
  have hsame := c.length_hashed
  rw [seen, seen, hsame, Merged]
  by_cases hfour : (c.hashed c.part).length = 4
  · obtain ⟨hpart, hpart'⟩ := c.hashed_of_four hfour
    rw [if_pos hfour, if_pos hfour, and_iff_right hfour]
    rw [hfour] at hsame
    rw [hpart] at hfour ⊢
    rw [hpart'] at hsame ⊢
    obtain ⟨b₀, b₁, b₂, b₃, hblock⟩ := List.length_eq_four.mp hfour
    obtain ⟨b₀', b₁', b₂', b₃', hblock'⟩ := List.length_eq_four.mp hsame
    simp only [hblock, hblock', List.cons_append, List.nil_append, murmurLoop]
    rw [murmurLoop_inj, BitVec.xor_right_inj, murmurBlock_eq_iff]
  · have hfew : (c.hashed c.part).length < 4 := lt_of_le_of_ne c.length_hashed_le hfour
    rw [if_neg hfour, if_neg hfour, c.rest_of_lt hfew, List.append_nil, List.append_nil]
    simp only [hfour, false_and, or_false]
    cases hhashed : c.hashed c.part with
    | nil =>
      rw [hhashed, List.length_nil] at hsame
      simp [List.eq_nil_of_length_eq_zero hsame]
    | cons b bytes =>
      rw [← hhashed]
      have hne : c.hashed c.part ≠ [] := by simp [hhashed]
      have hne' : c.hashed c.part' ≠ [] := by
        rw [← List.length_pos_iff, hsame]
        exact List.length_pos_iff.mpr hne
      rw [murmurLoop_tail _ hne hfew, murmurLoop_tail _ hne' (hsame.trans_lt hfew), multVal_inj,
        BitVec.xor_right_inj, tailWord_inj hsame.symm hfew]

/-- The accumulators before the last three steps agree when the hash does not see the
change, or the shift in the block merges it. -/
theorem accumulated_eq_iff (c : Change) :
    accumulated c.old = accumulated c.new ↔ c.seen c.part = c.seen c.part' ∨ c.Merged := by
  rw [accumulated, accumulated, length_old, length_new, hashedPart_old, hashedPart_new]
  by_cases hreached : c.before.length ≤ hashedLength c.size
  · rw [List.take_of_length_le hreached, murmurLoop_append _ c.aligned, murmurLoop_append _ c.aligned,
      murmurLoop_eq_iff]
  · have hnothing : ∀ part, c.hashed part = [] := by
      intro part
      rw [hashed, Nat.sub_eq_zero_of_le (Nat.le_of_not_le hreached), List.take_zero]
    rw [seen, seen, hnothing, hnothing]
    exact iff_of_true rfl (.inl rfl)

end Change

/-- A change is noticed exactly when the hash sees it and no shift merges it. -/
theorem hash_notices_iff (c : Change) : murmurHash c.old ≠ murmurHash c.new ↔ c.Noticed := by
  rw [murmurHash_eq, murmurHash_eq, ne_eq, murmurFinish_eq_iff, c.accumulated_eq_iff]
  constructor
  · intro h
    simp only [not_or] at h
    exact ⟨h.1.1, h.1.2, h.2.1, h.2.2⟩
  · rintro ⟨hseen, hblock, hfirst, hlast⟩ ((h | h) | h | h)
    exacts [hseen h, hblock h, hfirst h, hlast h]

/-- The end of a scouter's name in UTF-8 changes, behind a letter with an accent. -/
def accented : Change where
  before := []
  part := [0xC3, 0xA9, 0x6C, 0x61]
  part' := [0xC3, 0xA9, 0x6C, 0x65]
  after := []
  aligned := rfl
  same := rfl
  within := .inl rfl
  differs := by decide

theorem accented_name_is_not_noticed : murmurHash accented.old = murmurHash accented.new := by decide

end ScoutingComputer.MurmurHash2Neutral
