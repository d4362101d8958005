import Mathlib.Algebra.Ring.Nat

/-! Numbers written bit by bit, the highest bit first. -/
namespace ScoutingComputer.BigEndian

/-- The lowest `len` bits of a number. -/
def bits (val : Nat) : Nat → List Bool
  | 0 => []
  | len + 1 => val.testBit len :: bits val len

def number : List Bool → Nat
  | [] => 0
  | b :: bs => 2 ^ bs.length * b.toNat + number bs

@[simp] theorem length_bits (val len : Nat) : (bits val len).length = len := by
  induction len with
  | zero => rfl
  | succ len ih => rw [bits, List.length_cons, ih]

theorem number_bits_mod (val len : Nat) : number (bits val len) = val % 2 ^ len := by
  induction len with
  | zero => rw [Nat.pow_zero, Nat.mod_one]; rfl
  | succ len ih =>
    have hbit : (val.testBit len).toNat = val / 2 ^ len % 2 := by
      rw [Nat.testBit_eq_decide_div_mod_eq]
      have : val / 2 ^ len % 2 = 0 ∨ val / 2 ^ len % 2 = 1 := by omega
      rcases this with h | h <;> rw [h] <;> rfl
    rw [bits, number, length_bits, ih, hbit, Nat.mod_pow_succ, Nat.add_comm]

/-- A number that fits is read back. -/
theorem number_bits {val len : Nat} (h : val < 2 ^ len) : number (bits val len) = val := by
  rw [number_bits_mod, Nat.mod_eq_of_lt h]

theorem number_lt (bs : List Bool) : number bs < 2 ^ bs.length := by
  induction bs with
  | nil => exact Nat.one_pos
  | cons b bs ih =>
    rw [number, List.length_cons, Nat.pow_succ]
    cases b
    · rw [Bool.toNat_false, Nat.mul_zero]
      omega
    · rw [Bool.toNat_true, Nat.mul_one]
      omega

theorem bits_add_mul (m val len : Nat) : bits (2 ^ len * m + val) len = bits val len := by
  have hlow : ∀ k, k ≤ len → bits (2 ^ len * m + val) k = bits val k := by
    intro k
    induction k with
    | zero => exact fun _ => rfl
    | succ k ih =>
      intro hk
      rw [bits, bits, ih (Nat.le_of_succ_le hk), Nat.testBit_eq_decide_div_mod_eq, Nat.testBit_eq_decide_div_mod_eq]
      obtain ⟨j, rfl⟩ : ∃ j, len = k + 1 + j := ⟨len - (k + 1), by omega⟩
      have hsplit : 2 ^ (k + 1 + j) * m = 2 ^ k * (2 * (2 ^ j * m)) := by
        rw [Nat.pow_add, Nat.pow_succ, Nat.mul_assoc, Nat.mul_assoc]
      rw [hsplit, Nat.mul_add_div (Nat.two_pow_pos k), Nat.mul_add_mod]
  exact hlow len (Nat.le_refl len)

/-- Bits are read as a number and written again. -/
theorem bits_number (bs : List Bool) : bits (number bs) bs.length = bs := by
  induction bs with
  | nil => rfl
  | cons b bs ih =>
    have hlt := number_lt bs
    have hbit : (2 ^ bs.length * b.toNat + number bs).testBit bs.length = b := by
      rw [Nat.testBit_eq_decide_div_mod_eq, Nat.mul_add_div (Nat.two_pow_pos _), Nat.div_eq_of_lt hlt]
      cases b <;> rfl
    rw [number, List.length_cons, bits, bits_add_mul, ih, hbit]

theorem bits_inj {a b len : Nat} (ha : a < 2 ^ len) (hb : b < 2 ^ len) (h : bits a len = bits b len) : a = b := by
  rw [← number_bits ha, h, number_bits hb]

end ScoutingComputer.BigEndian
