import Mathlib.Data.BitVec

/-! Steps that mix the bits of a word.

A multiplication by a word with an inverse and an exclusive or with a fixed word merge no
two words. The exclusive or of a word with itself shifted does not either when the shift is
logical; when it is arithmetic, it merges each word with its complement, and no others. -/
namespace ScoutingComputer.Mixing
variable {w : Nat}

theorem mul_inj {m inverse : BitVec w} (h : m * inverse = 1#w) {x y : BitVec w} : x * m = y * m ↔ x = y := by
  constructor
  · intro hxy
    have hcancel := congrArg (· * inverse) hxy
    simpa only [BitVec.mul_assoc, h, BitVec.mul_one] using hcancel
  · rintro rfl
    rfl

/-- A word that an arithmetic shift leaves as it is has one value in all its bits. -/
theorem sshiftRight_eq_self {k : Nat} (hk : 0 < k) {z : BitVec w} (h : z.sshiftRight k = z) :
    z = 0#w ∨ z = BitVec.allOnes w := by
  have hbits : ∀ n i, w - i = n → i < w → z.getLsbD i = z.msb := by
    intro n
    induction n using Nat.strongRecOn with
    | ind n ih =>
      intro i hn hi
      have hbit := congrArg (·.getLsbD i) h
      simp only [BitVec.getLsbD_sshiftRight, Nat.not_le.mpr hi, decide_false, Bool.not_false, Bool.true_and] at hbit
      rw [← hbit]
      split
      · rename_i hin
        exact ih (w - (k + i)) (by omega) (k + i) rfl hin
      · rfl
  cases hmsb : z.msb with
  | false =>
    left
    apply BitVec.eq_of_getLsbD_eq
    intro i hi
    rw [hbits _ i rfl hi, hmsb, BitVec.getLsbD_zero]
  | true =>
    right
    apply BitVec.eq_of_getLsbD_eq
    intro i hi
    rw [hbits _ i rfl hi, hmsb, BitVec.getLsbD_allOnes, decide_eq_true hi]

theorem sshiftRight_allOnes {k : Nat} : (BitVec.allOnes w).sshiftRight k = BitVec.allOnes w := by
  apply BitVec.eq_of_getLsbD_eq
  intro i hi
  have hmsb : (BitVec.allOnes w).msb = true := by
    rw [BitVec.msb_eq_getLsbD_last, BitVec.getLsbD_allOnes, decide_eq_true (by omega)]
  simp only [BitVec.getLsbD_sshiftRight, BitVec.getLsbD_allOnes, hmsb, hi, Nat.not_le.mpr hi]
  split <;> simp_all

theorem xor_eq_allOnes_iff {x y : BitVec w} : x ^^^ y = BitVec.allOnes w ↔ y = ~~~x := by
  rw [← BitVec.xor_allOnes]
  constructor
  · intro h
    rw [← h, ← BitVec.xor_assoc, BitVec.xor_self, BitVec.zero_xor]
  · rintro rfl
    rw [← BitVec.xor_assoc, BitVec.xor_self, BitVec.zero_xor]

theorem xor_swap {a b c d : BitVec w} (h : a ^^^ b = c ^^^ d) : b ^^^ d = a ^^^ c := by
  apply BitVec.eq_of_getLsbD_eq
  intro i _
  have hbit := congrArg (·.getLsbD i) h
  simp only [BitVec.getLsbD_xor] at hbit ⊢
  revert hbit
  cases a.getLsbD i <;> cases b.getLsbD i <;> cases c.getLsbD i <;> cases d.getLsbD i <;> decide

theorem xor_eq_xor_iff {a b c d : BitVec w} : a ^^^ b = c ^^^ d ↔ b ^^^ d = a ^^^ c := by
  constructor
  · exact xor_swap
  · intro h
    rw [BitVec.xor_comm a b, BitVec.xor_comm c d]
    exact (xor_swap h).symm

/-- What the arithmetic shift merges. -/
theorem xor_sshiftRight_eq_iff {k : Nat} (hk : 0 < k) {x y : BitVec w} :
    x ^^^ x.sshiftRight k = y ^^^ y.sshiftRight k ↔ y = x ∨ y = ~~~x := by
  rw [xor_eq_xor_iff, ← BitVec.sshiftRight_xor_distrib]
  constructor
  · intro h
    obtain hzero | hones := sshiftRight_eq_self hk h
    · exact .inl (BitVec.xor_eq_zero_iff.mp hzero).symm
    · exact .inr (xor_eq_allOnes_iff.mp hones)
  · rintro (rfl | rfl)
    · rw [BitVec.xor_self, BitVec.zero_sshiftRight]
    · rw [xor_eq_allOnes_iff.mpr rfl, sshiftRight_allOnes]

end ScoutingComputer.Mixing
