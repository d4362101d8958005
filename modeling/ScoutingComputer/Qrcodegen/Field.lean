import Mathlib.Algebra.Field.Defs
import Mathlib.Data.BitVec
import Mathlib.GroupTheory.OrderOfElement
import Mathlib.Order.Interval.Finset.Nat

/-! The product of two bytes in the code of the symbol.

`reedSolomonMultiply` doubles what it has, reduced by the polynomial 0x11D, and adds the
first factor for each bit of the second. Doubling is linear, and the laws follow from that
and from `1 * y = y`: with exclusive or as the sum the bytes are a field. The powers of 2
go through all 255 bytes other than 0. -/
namespace ScoutingComputer.Qrcodegen

/-- One pass of the loop, on an `int`. -/
def peasantStep (x y : UInt8) (z i : Nat) : Nat :=
  let z := (z <<< 1) ^^^ ((z >>> 7) * 0x11D)
  z ^^^ (((y.toNat >>> i) &&& 1) * x.toNat)

/-- Russian peasant multiplication. -/
def reedSolomonMultiply (x y : UInt8) : UInt8 :=
  UInt8.ofNat ([7, 6, 5, 4, 3, 2, 1, 0].foldl (peasantStep x y) 0)

/-! ### Doubling -/

/-- What doubling takes off for the bit that it shifts out. -/
def carry (z : UInt8) : UInt8 := if z < 128 then 0 else 0x1D

def double (z : UInt8) : UInt8 := (z <<< 1) ^^^ carry z

theorem xor_four (a b c d : UInt8) : (a ^^^ b) ^^^ (c ^^^ d) = (a ^^^ c) ^^^ (b ^^^ d) := by ac_rfl

theorem lt_iff_msb (z : UInt8) : z < 128 ↔ z.toBitVec.msb = false := by
  rw [BitVec.msb_eq_decide, UInt8.lt_iff_toNat_lt]
  simp

theorem carry_xor (a b : UInt8) : carry (a ^^^ b) = carry a ^^^ carry b := by
  simp only [carry, lt_iff_msb, UInt8.toBitVec_xor, BitVec.msb_xor]
  cases a.toBitVec.msb <;> cases b.toBitVec.msb <;> decide

theorem double_xor (a b : UInt8) : double (a ^^^ b) = double a ^^^ double b := by
  have hshift : (a ^^^ b) <<< 1 = (a <<< 1) ^^^ (b <<< 1) := by
    apply UInt8.toBitVec_inj.mp
    simp [BitVec.shiftLeft_xor_distrib]
  rw [double, carry_xor, hshift, xor_four]
  rfl

theorem double_nat (z : Nat) (h : z < 256) :
    (z <<< 1) ^^^ ((z >>> 7) * 0x11D) = (double (UInt8.ofNat z)).toNat := by
  have hall : ∀ z : Fin 256, (z.val <<< 1) ^^^ ((z.val >>> 7) * 0x11D) = (double (UInt8.ofNat z.val)).toNat := by
    decide +kernel
  exact hall ⟨z, h⟩

/-! ### The loop -/

/-- The bit of `y` that the pass `i` looks at. -/
def bit (y : UInt8) (i : Nat) : Bool := y.toNat.testBit i

/-- `x` for a set bit. -/
def taken (x : UInt8) (b : Bool) : UInt8 := if b then x else 0

def peasant (x : UInt8) (bits : List Bool) : UInt8 := bits.foldl (fun z b => double z ^^^ taken x b) 0

def factorBits (y : UInt8) : List Bool := [7, 6, 5, 4, 3, 2, 1, 0].map (bit y)

theorem peasantStep_eq (x y : UInt8) (z : UInt8) (i : Nat) :
    peasantStep x y z.toNat i = (double z ^^^ taken x (bit y i)).toNat := by
  have htaken : ((y.toNat >>> i) &&& 1) * x.toNat = (taken x (bit y i)).toNat := by
    rw [taken, bit, Nat.testBit_eq_decide_div_mod_eq, Nat.shiftRight_eq_div_pow, Nat.and_one_is_mod]
    have : y.toNat / 2 ^ i % 2 = 0 ∨ y.toNat / 2 ^ i % 2 = 1 := by omega
    rcases this with h | h <;> simp [h]
  show ((z.toNat <<< 1) ^^^ ((z.toNat >>> 7) * 0x11D)) ^^^ _ = _
  rw [double_nat z.toNat z.toNat_lt, htaken, UInt8.ofNat_toNat, UInt8.toNat_xor]

theorem foldl_peasantStep (x y : UInt8) (passes : List Nat) (z : UInt8) : passes.foldl (peasantStep x y) z.toNat =
    ((passes.map (bit y)).foldl (fun z b => double z ^^^ taken x b) z).toNat := by
  induction passes generalizing z with
  | nil => rfl
  | cons i passes ih =>
    rw [List.foldl_cons, peasantStep_eq, ih]
    rfl

theorem peasant_toNat (x y : UInt8) :
    [7, 6, 5, 4, 3, 2, 1, 0].foldl (peasantStep x y) 0 = (peasant x (factorBits y)).toNat :=
  foldl_peasantStep x y _ 0

theorem reedSolomonMultiply_eq (x y : UInt8) : reedSolomonMultiply x y = peasant x (factorBits y) := by
  rw [reedSolomonMultiply, peasant_toNat, UInt8.ofNat_toNat]

theorem taken_xor (x y : UInt8) (b : Bool) : taken (x ^^^ y) b = taken x b ^^^ taken y b := by
  cases b
  · exact (UInt8.xor_self (a := 0)).symm
  · rfl

theorem taken_bne (x : UInt8) (b c : Bool) : taken x (b ^^ c) = taken x b ^^^ taken x c := by
  cases b <;> cases c <;> simp [taken]

/-- A map that adds and goes past a doubling goes past the whole loop. -/
theorem map_peasant {f : UInt8 → UInt8} (hxor : ∀ a b, f (a ^^^ b) = f a ^^^ f b)
    (hdouble : ∀ a, f (double a) = double (f a)) (x : UInt8) (bits : List Bool) :
    f (peasant x bits) = peasant (f x) bits := by
  have hzero : f 0 = 0 := by
    have := hxor 0 0
    rwa [UInt8.xor_self, UInt8.xor_self] at this
  have hfold : ∀ z, f (bits.foldl (fun z b => double z ^^^ taken x b) z) =
      bits.foldl (fun z b => double z ^^^ taken (f x) b) (f z) := by
    induction bits with
    | nil => exact fun _ => rfl
    | cons b bits ih =>
      intro z
      have htaken : f (taken x b) = taken (f x) b := by
        cases b
        · exact hzero
        · rfl
      rw [List.foldl_cons, List.foldl_cons, ih, hxor, hdouble, htaken]
  rw [peasant, hfold, hzero]
  rfl

theorem peasant_xor (x y : UInt8) (bits : List Bool) : peasant (x ^^^ y) bits = peasant x bits ^^^ peasant y bits := by
  have hfold : ∀ z z', bits.foldl (fun z b => double z ^^^ taken (x ^^^ y) b) (z ^^^ z') =
      bits.foldl (fun z b => double z ^^^ taken x b) z ^^^ bits.foldl (fun z b => double z ^^^ taken y b) z' := by
    induction bits with
    | nil => exact fun _ _ => rfl
    | cons b bits ih =>
      intro z z'
      rw [List.foldl_cons, double_xor, taken_xor, xor_four, ih]
      rfl
  have hsum := hfold 0 0
  rw [UInt8.xor_self] at hsum
  exact hsum

theorem peasant_bits (x : UInt8) (as bs : List Bool) (h : as.length = bs.length) :
    peasant x (List.zipWith (· ^^ ·) as bs) = peasant x as ^^^ peasant x bs := by
  have hfold : ∀ z z', (List.zipWith (· ^^ ·) as bs).foldl (fun z b => double z ^^^ taken x b) (z ^^^ z') =
      as.foldl (fun z b => double z ^^^ taken x b) z ^^^ bs.foldl (fun z b => double z ^^^ taken x b) z' := by
    induction as generalizing bs with
    | nil =>
      cases List.length_eq_zero_iff.mp h.symm
      exact fun _ _ => rfl
    | cons a as ih =>
      cases bs with
      | nil => cases h
      | cons b bs =>
        intro z z'
        rw [List.zipWith_cons_cons, List.foldl_cons, double_xor, taken_bne, xor_four, ih bs (Nat.succ.inj h)]
        rfl
  have hsum := hfold 0 0
  rw [UInt8.xor_self] at hsum
  exact hsum

theorem factorBits_xor (x y : UInt8) : factorBits (x ^^^ y) = List.zipWith (· ^^ ·) (factorBits x) (factorBits y) := by
  simp only [factorBits, bit, UInt8.toNat_xor, Nat.testBit_xor, List.map_cons, List.map_nil, List.zipWith_cons_cons,
    List.zipWith_nil_left]

theorem double_peasant (x : UInt8) (bits : List Bool) : double (peasant x bits) = peasant (double x) bits :=
  map_peasant double_xor (fun _ => rfl) x bits

/-! ### The laws -/

theorem multiply_xor (x y z : UInt8) :
    reedSolomonMultiply x (y ^^^ z) = reedSolomonMultiply x y ^^^ reedSolomonMultiply x z := by
  simp only [reedSolomonMultiply_eq, factorBits_xor]
  exact peasant_bits x _ _ rfl

theorem one_multiply (y : UInt8) : reedSolomonMultiply 1 y = y := by
  have hall : ∀ y : Fin 256, reedSolomonMultiply 1 (UInt8.ofNat y.val) = UInt8.ofNat y.val := by decide +kernel
  simpa using hall ⟨y.toNat, y.toNat_lt⟩

/-- Two factors can be exchanged. -/
theorem multiply_multiply (x y z : UInt8) :
    reedSolomonMultiply (reedSolomonMultiply x y) z = reedSolomonMultiply (reedSolomonMultiply x z) y := by
  simp only [reedSolomonMultiply_eq]
  exact @map_peasant (peasant · (factorBits z)) (peasant_xor · · (factorBits z))
    (fun a => (double_peasant a (factorBits z)).symm) x (factorBits y)

theorem multiply_comm (x y : UInt8) : reedSolomonMultiply x y = reedSolomonMultiply y x := by
  have := multiply_multiply 1 x y
  rwa [one_multiply, one_multiply] at this

theorem multiply_assoc (x y z : UInt8) :
    reedSolomonMultiply (reedSolomonMultiply x y) z = reedSolomonMultiply x (reedSolomonMultiply y z) := by
  rw [multiply_comm x y, multiply_multiply, multiply_comm (reedSolomonMultiply y z)]

theorem multiply_one (x : UInt8) : reedSolomonMultiply x 1 = x := by
  rw [multiply_comm, one_multiply]

theorem multiply_zero (x : UInt8) : reedSolomonMultiply x 0 = 0 := by
  have := multiply_xor x 0 0
  rwa [UInt8.xor_self, UInt8.xor_self] at this

/-! ### The field -/

/-- The bytes with exclusive or and this product. -/
structure GF256 where
  byte : UInt8
  deriving DecidableEq

namespace GF256

theorem ext {a b : GF256} (h : a.byte = b.byte) : a = b := by
  cases a
  cases b
  rw [mk.injEq]
  exact h

instance : Zero GF256 := ⟨⟨0⟩⟩
instance : One GF256 := ⟨⟨1⟩⟩
instance : Add GF256 := ⟨fun a b => ⟨a.byte ^^^ b.byte⟩⟩
instance : Neg GF256 := ⟨id⟩
instance : Mul GF256 := ⟨fun a b => ⟨reedSolomonMultiply a.byte b.byte⟩⟩

theorem add_self (a : GF256) : a + a = 0 := ext UInt8.xor_self

instance : CommRing GF256 where
  add_assoc a b c := ext (UInt8.xor_assoc a.byte b.byte c.byte)
  zero_add _ := ext UInt8.zero_xor
  add_zero _ := ext UInt8.xor_zero
  nsmul := nsmulRec
  zsmul := zsmulRec
  neg_add_cancel := add_self
  add_comm a b := ext (UInt8.xor_comm a.byte b.byte)
  left_distrib a b c := ext (multiply_xor a.byte b.byte c.byte)
  right_distrib a b c := by
    apply ext
    show reedSolomonMultiply (a.byte ^^^ b.byte) c.byte = _
    rw [multiply_comm, multiply_xor, multiply_comm c.byte, multiply_comm c.byte]
    rfl
  zero_mul a := ext ((multiply_comm 0 a.byte).trans (multiply_zero a.byte))
  mul_zero a := ext (multiply_zero a.byte)
  mul_assoc a b c := ext (multiply_assoc a.byte b.byte c.byte)
  one_mul a := ext (one_multiply a.byte)
  mul_one a := ext (multiply_one a.byte)
  mul_comm a b := ext (multiply_comm a.byte b.byte)

/-- The generator. -/
def two : GF256 := ⟨2⟩

theorem mul_two (a : GF256) : a * two = ⟨double a.byte⟩ := by
  apply ext
  show reedSolomonMultiply a.byte 2 = double a.byte
  have hbits : factorBits 2 = [false, false, false, false, false, false, true, false] := by decide
  have hzero : double 0 = 0 := by decide
  rw [reedSolomonMultiply_eq, hbits]
  simp only [peasant, List.foldl_cons, List.foldl_nil, taken, hzero, Bool.false_eq_true, if_false, if_true,
    UInt8.xor_zero, UInt8.zero_xor]

/-- `z` and what the next doublings make of it. -/
def doublings : Nat → UInt8 → List UInt8
  | 0, _ => []
  | n + 1, z => z :: doublings n (double z)

theorem doublings_eq (n k : Nat) :
    doublings n (two ^ k).byte = (List.range n).map fun i => (two ^ (k + i)).byte := by
  induction n generalizing k with
  | zero => rfl
  | succ n ih =>
    have hdouble : double (two ^ k).byte = (two ^ (k + 1)).byte := by rw [pow_succ, mul_two]
    rw [doublings, hdouble, ih, List.range_succ_eq_map, List.map_cons, List.map_map, Nat.add_zero]
    congr 1
    refine List.map_congr_left fun i _ => ?_
    rw [Function.comp_apply, Nat.succ_eq_add_one, Nat.add_assoc, Nat.add_comm 1]

theorem doublings_one (n : Nat) : doublings n 1 = (List.range n).map fun i => (two ^ i).byte := by
  have := doublings_eq n 0
  simp only [pow_zero, Nat.zero_add] at this
  exact this

theorem two_pow {i : Nat} {z : UInt8} (h : (doublings (i + 1) 1)[i]? = some z) : two ^ i = ⟨z⟩ := by
  rw [doublings_one, List.getElem?_map, List.getElem?_range (Nat.lt_succ_self i)] at h
  exact ext (Option.some.inj h)

theorem two_pow_255 : two ^ 255 = 1 := two_pow (by decide +kernel)

theorem orderOf_two : orderOf two = 255 := by
  refine orderOf_eq_of_pow_and_pow_div_prime (by decide) two_pow_255 fun p hp hdvd => ?_
  have hprimes : p = 3 ∨ p = 5 ∨ p = 17 := by
    have h : p ∣ 3 * 5 * 17 := hdvd
    rcases hp.dvd_mul.mp h with h | h
    · rcases hp.dvd_mul.mp h with h | h
      · exact .inl ((Nat.prime_dvd_prime_iff_eq hp (by decide)).mp h)
      · exact .inr (.inl ((Nat.prime_dvd_prime_iff_eq hp (by decide)).mp h))
    · exact .inr (.inr ((Nat.prime_dvd_prime_iff_eq hp (by decide)).mp h))
  rcases hprimes with rfl | rfl | rfl
  · have h : two ^ 85 = ⟨214⟩ := two_pow (by decide +kernel)
    rw [h]
    decide
  · have h : two ^ 51 = ⟨10⟩ := two_pow (by decide +kernel)
    rw [h]
    decide
  · have h : two ^ 15 = ⟨38⟩ := two_pow (by decide +kernel)
    rw [h]
    decide

/-- **The powers of 2 are different**, as far as a block can be long. -/
theorem two_pow_inj {i j : Nat} (hi : i < 255) (hj : j < 255) (h : two ^ i = two ^ j) : i = j := by
  wlog hij : i ≤ j generalizing i j
  · exact (this hj hi h.symm (Nat.le_of_not_le hij)).symm
  have hone : two ^ (j - i) = 1 := by
    calc two ^ (j - i) = two ^ 255 * two ^ (j - i) := by rw [two_pow_255, one_mul]
      _ = two ^ (255 - i) * two ^ j := by rw [← pow_add, ← pow_add]; congr 1; omega
      _ = two ^ (255 - i) * two ^ i := by rw [h]
      _ = two ^ 255 := by rw [← pow_add, Nat.sub_add_cancel (Nat.le_of_lt hi)]
      _ = 1 := two_pow_255
  have hdvd := orderOf_dvd_of_pow_eq_one hone
  rw [orderOf_two] at hdvd
  have := Nat.eq_zero_of_dvd_of_lt hdvd (by omega)
  omega

theorem exists_two_pow {a : GF256} (h : a ≠ 0) : ∃ i, a = two ^ i := by
  have hne : ∀ i < 255, (two ^ i).byte.toNat ≠ 0 := by
    intro i hi hzero
    have hpow : two ^ i = 0 := ext (UInt8.toNat_inj.mp hzero)
    have hone := two_pow_255
    rw [show 255 = i + (255 - i) by omega, pow_add, hpow, zero_mul] at hone
    exact absurd hone (by decide)
  have hinj : Set.InjOn (fun i => (two ^ i).byte.toNat) (Finset.range 255) := by
    intro i hi j hj hij
    exact two_pow_inj (Finset.mem_range.mp hi) (Finset.mem_range.mp hj) (ext (UInt8.toNat_inj.mp hij))
  have hall : (Finset.range 255).image (fun i => (two ^ i).byte.toNat) = Finset.Icc 1 255 := by
    apply Finset.eq_of_subset_of_card_le
    · intro k hk
      obtain ⟨i, hi, rfl⟩ := Finset.mem_image.mp hk
      have := hne i (Finset.mem_range.mp hi)
      have := (two ^ i).byte.toNat_lt
      exact Finset.mem_Icc.mpr (by omega)
    · rw [Finset.card_image_of_injOn hinj, Finset.card_range, Nat.card_Icc]
  have hmem : a.byte.toNat ∈ Finset.Icc 1 255 := by
    have hnz : a.byte.toNat ≠ 0 := fun hzero => h (ext (UInt8.toNat_inj.mp hzero))
    have := a.byte.toNat_lt
    exact Finset.mem_Icc.mpr (by omega)
  rw [← hall] at hmem
  obtain ⟨i, _, hi⟩ := Finset.mem_image.mp hmem
  exact ⟨i, ext (UInt8.toNat_inj.mp hi).symm⟩

theorem mul_pow_254 {a : GF256} (h : a ≠ 0) : a * a ^ 254 = 1 := by
  obtain ⟨i, rfl⟩ := exists_two_pow h
  rw [← pow_succ', ← pow_mul, Nat.mul_comm, pow_mul, two_pow_255, one_pow]

instance : Field GF256 where
  inv a := a ^ 254
  exists_pair_ne := ⟨0, 1, by decide⟩
  mul_inv_cancel _ := mul_pow_254
  inv_zero := zero_pow (by decide)
  nnqsmul := _
  nnqsmul_def _ _ := rfl
  qsmul := _
  qsmul_def _ _ := rfl

theorem iterate_multiply (i : Nat) : (reedSolomonMultiply 2)^[i] 1 = (two ^ i).byte := by
  induction i with
  | zero => rfl
  | succ i ih =>
    rw [Function.iterate_succ_apply', ih, pow_succ']
    rfl

end GF256

/-- **The bytes are a field, and 2 generates it**: the product keeps inside a byte, it is
associative, commutative and distributes over exclusive or, every byte but 0 has an inverse,
and is reached from 1 by doubling less than 255 times. -/
theorem reedSolomonMultiply_field :
    (∀ x y : UInt8, ([7, 6, 5, 4, 3, 2, 1, 0].foldl (peasantStep x y) 0) >>> 8 = 0) ∧
      (∀ x y z, reedSolomonMultiply (reedSolomonMultiply x y) z = reedSolomonMultiply x (reedSolomonMultiply y z)) ∧
      (∀ x y, reedSolomonMultiply x y = reedSolomonMultiply y x) ∧
      (∀ x y z, reedSolomonMultiply x (y ^^^ z) = reedSolomonMultiply x y ^^^ reedSolomonMultiply x z) ∧
      (∀ x, reedSolomonMultiply 1 x = x) ∧
      ∀ x, x ≠ 0 → (∃ y, reedSolomonMultiply x y = 1) ∧ ∃ i < 255, (reedSolomonMultiply 2)^[i] 1 = x := by
  refine ⟨fun x y => ?_, multiply_assoc, multiply_comm, multiply_xor, one_multiply, fun x hx => ⟨?_, ?_⟩⟩
  · rw [peasant_toNat, Nat.shiftRight_eq_div_pow]
    exact Nat.div_eq_of_lt (peasant x (factorBits y)).toNat_lt
  · have hne : (⟨x⟩ : GF256) ≠ 0 := fun h => hx (congrArg GF256.byte h)
    exact ⟨((⟨x⟩ : GF256) ^ 254).byte, congrArg GF256.byte (GF256.mul_pow_254 hne)⟩
  · have hne : (⟨x⟩ : GF256) ≠ 0 := fun h => hx (congrArg GF256.byte h)
    obtain ⟨i, hi⟩ := GF256.exists_two_pow hne
    refine ⟨i % 255, Nat.mod_lt i (by decide), ?_⟩
    rw [GF256.iterate_multiply, ← GF256.orderOf_two, pow_mod_orderOf, ← hi]

end ScoutingComputer.Qrcodegen
