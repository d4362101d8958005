import Mathlib.LinearAlgebra.Vandermonde

/-! Reed-Solomon codes.

A list of coefficients, the highest power first, is a word of the code with `d` check
symbols when it vanishes at the first `d` powers of `α`. The check symbols are what a shift
register leaves that divides the data by a monic polynomial with those roots. Two words of
the code that differ in at most `d` places are the same, so a word with at most `d / 2`
wrong symbols still determines the one that was sent. -/
namespace ScoutingComputer.ReedSolomon

section Division
variable {R : Type} [CommRing R]

/-- The value at `x`. -/
def value (x : R) : List R → R
  | [] => 0
  | c :: cs => c * x ^ cs.length + value x cs

theorem value_append (x : R) (a b : List R) : value x (a ++ b) = value x a * x ^ b.length + value x b := by
  induction a with
  | nil => simp [value]
  | cons c a ih =>
    simp only [List.cons_append, value, ih, List.length_append, pow_add]
    ring

theorem value_replicate_zero (x : R) (n : Nat) : value x (List.replicate n 0) = 0 := by
  induction n with
  | zero => rfl
  | succ n ih => simp [List.replicate_succ, value, ih]

theorem value_zipWith_add (x : R) {a b : List R} (h : a.length = b.length) :
    value x (List.zipWith (· + ·) a b) = value x a + value x b := by
  induction a generalizing b with
  | nil => cases b with
    | nil => simp [value]
    | cons _ _ => cases h
  | cons c a ih => cases b with
    | nil => cases h
    | cons c' b =>
      have h' : a.length = b.length := Nat.succ.inj h
      simp only [List.zipWith_cons_cons, value, ih h', List.length_zipWith, ← h', Nat.min_self]
      ring

theorem value_zipWith_sub (x : R) {a b : List R} (h : a.length = b.length) :
    value x (List.zipWith (· - ·) a b) = value x a - value x b := by
  induction a generalizing b with
  | nil => cases b with
    | nil => simp [value]
    | cons _ _ => cases h
  | cons c a ih => cases b with
    | nil => cases h
    | cons c' b =>
      have h' : a.length = b.length := Nat.succ.inj h
      simp only [List.zipWith_cons_cons, value, ih h', List.length_zipWith, ← h', Nat.min_self]
      ring

theorem value_map_mul (x k : R) (a : List R) : value x (a.map (· * k)) = value x a * k := by
  induction a with
  | nil => simp [value]
  | cons c a ih =>
    simp only [List.map_cons, value, ih, List.length_map]
    ring

/-- One step of the register: it shifts by a place, and the symbol that comes in and the
one that goes out are taken off as a multiple of the divisor. -/
def shift (divisor : List R) (register : List R) (symbol : R) : List R :=
  List.zipWith (· + ·) (register.tail ++ [0]) (divisor.map (· * (symbol + register.headD 0)))

/-- What is left of the data times `x ^ d` after division by `x ^ d + divisor`. -/
def remainder (divisor data : List R) : List R :=
  data.foldl (shift divisor) (List.replicate divisor.length 0)

theorem length_shift {divisor register : List R} (h : register.length = divisor.length)
    (hpos : divisor ≠ []) (symbol : R) : (shift divisor register symbol).length = divisor.length := by
  have := List.length_pos_iff.mpr hpos
  simp only [shift, List.length_zipWith, List.length_append, List.length_tail, List.length_map,
    List.length_singleton]
  omega

/-- At a root of the divisor, the register goes on like the data times `x ^ d`. -/
theorem value_shift (htwo : ∀ a : R, a + a = 0) {divisor register : List R} {x : R}
    (h : register.length = divisor.length) (hpos : divisor ≠ [])
    (hroot : x ^ divisor.length + value x divisor = 0) (symbol : R) :
    value x (shift divisor register symbol) = value x register * x + symbol * x ^ divisor.length := by
  cases register with
  | nil => exact absurd (List.length_eq_zero_iff.mp h.symm) hpos
  | cons r register =>
    have hlen : (register ++ [0]).length = (divisor.map (· * (symbol + r))).length := by
      rw [List.length_append, List.length_map, ← h]
      rfl
    have hvalue : value x divisor = x ^ divisor.length := by
      rw [← add_zero (value x divisor), ← htwo (x ^ divisor.length), ← add_assoc,
        add_comm (value x divisor), hroot, zero_add]
    have hshift : value x (shift divisor (r :: register) symbol) =
        value x (register ++ [0]) + value x (divisor.map (· * (symbol + r))) := value_zipWith_add x hlen
    have hpow : x ^ divisor.length = x ^ register.length * x := by
      rw [← h, List.length_cons, pow_succ]
    rw [hshift, value_append, value_map_mul, hvalue]
    simp only [value, List.length_singleton, List.length_nil, pow_one, zero_mul, add_zero]
    rw [hpow, mul_add]
    calc value x register * x + (x ^ register.length * x * symbol + x ^ register.length * x * r)
        = (r * x ^ register.length + value x register) * x + symbol * (x ^ register.length * x) := by ring

theorem length_foldl_shift {divisor : List R} (hpos : divisor ≠ []) (data register : List R)
    (h : register.length = divisor.length) : (data.foldl (shift divisor) register).length = divisor.length := by
  induction data generalizing register with
  | nil => exact h
  | cons symbol data ih => exact ih _ (length_shift h hpos symbol)

theorem length_remainder {divisor : List R} (hpos : divisor ≠ []) (data : List R) :
    (remainder divisor data).length = divisor.length :=
  length_foldl_shift hpos data _ List.length_replicate

theorem value_foldl_shift (htwo : ∀ a : R, a + a = 0) {divisor : List R} {x : R} (hpos : divisor ≠ [])
    (hroot : x ^ divisor.length + value x divisor = 0) (data register : List R)
    (h : register.length = divisor.length) :
    value x (data.foldl (shift divisor) register) =
      value x register * x ^ data.length + value x data * x ^ divisor.length := by
  induction data generalizing register with
  | nil => simp [value]
  | cons symbol data ih =>
    rw [List.foldl_cons, ih _ (length_shift h hpos symbol), value_shift htwo h hpos hroot, List.length_cons, value,
      pow_succ]
    ring

/-- **The data and its check symbols vanish at every root of the divisor.** -/
theorem value_append_remainder (htwo : ∀ a : R, a + a = 0) {divisor : List R} {x : R} (hpos : divisor ≠ [])
    (hroot : x ^ divisor.length + value x divisor = 0) (data : List R) :
    value x (data ++ remainder divisor data) = 0 := by
  have hrem : value x (remainder divisor data) = value x data * x ^ divisor.length := by
    rw [remainder, value_foldl_shift htwo hpos hroot data _ List.length_replicate, value_replicate_zero, zero_mul,
      zero_add]
  rw [value_append, length_remainder hpos, hrem, htwo]

/-! ### The divisor -/

/-- The product with `x + root`, in as many places: what comes out on top is dropped. -/
def timesRoot (root : R) : List R → List R
  | [] => []
  | c :: cs => (c * root + cs.headD 0) :: timesRoot root cs

theorem length_timesRoot (root : R) (cs : List R) : (timesRoot root cs).length = cs.length := by
  induction cs with
  | nil => rfl
  | cons c cs ih => simp [timesRoot, ih]

theorem value_timesRoot (x root : R) (cs : List R) :
    value x (timesRoot root cs) + cs.headD 0 * x ^ cs.length = value x cs * (root + x) := by
  induction cs with
  | nil => simp [timesRoot, value]
  | cons c cs ih =>
    simp only [timesRoot, value, length_timesRoot, List.headD_cons, List.length_cons]
    rw [add_mul (c * x ^ cs.length), ← ih, pow_succ]
    ring

/-- While there is room on top, nothing is dropped. -/
theorem timesRoot_replicate (root : R) (k : Nat) (cs : List R) :
    timesRoot root (List.replicate (k + 1) 0 ++ 1 :: cs) =
      List.replicate k 0 ++ 1 :: timesRoot root (1 :: cs) := by
  induction k with
  | zero => simp [timesRoot]
  | succ k ih =>
    rw [List.replicate_succ, List.cons_append, timesRoot, ih]
    simp [List.replicate_succ]

/-- The product of `x + root` over the roots, without its leading `x ^ degree`. -/
def divisor (roots : List R) : List R :=
  roots.foldl (fun cs root => timesRoot root cs) (List.replicate (roots.length - 1) 0 ++ [1])

theorem length_foldl_timesRoot (roots cs : List R) :
    (roots.foldl (fun cs root => timesRoot root cs) cs).length = cs.length := by
  induction roots generalizing cs with
  | nil => rfl
  | cons root roots ih => exact (ih _).trans (length_timesRoot root cs)

theorem length_divisor {roots : List R} (h : roots ≠ []) : (divisor roots).length = roots.length := by
  have := List.length_pos_iff.mpr h
  rw [divisor, length_foldl_timesRoot, List.length_append, List.length_replicate, List.length_singleton]
  omega

/-- The roots that are multiplied in while there is room. -/
theorem foldl_timesRoot (x : R) (roots : List R) (k : Nat) (cs : List R) :
    ∃ cs', roots.foldl (fun cs root => timesRoot root cs) (List.replicate (roots.length + k) 0 ++ 1 :: cs) =
        List.replicate k 0 ++ 1 :: cs' ∧
      value x (1 :: cs') = value x (1 :: cs) * (roots.map (· + x)).prod := by
  induction roots generalizing cs with
  | nil => exact ⟨cs, by simp, by simp⟩
  | cons root roots ih =>
    obtain ⟨cs', hfold, hvalue⟩ := ih (timesRoot root (1 :: cs))
    refine ⟨cs', ?_, ?_⟩
    · rw [List.foldl_cons, List.length_cons, Nat.add_right_comm, timesRoot_replicate, hfold]
    · have hstep : value x (1 :: timesRoot root (1 :: cs)) = value x (1 :: cs) * (root + x) := by
        rw [← value_timesRoot, value, length_timesRoot]
        simp only [List.headD_cons, one_mul]
        exact add_comm _ _
      rw [hvalue, hstep, List.map_cons, List.prod_cons, mul_assoc]

theorem value_divisor (x : R) {roots : List R} (h : roots ≠ []) :
    x ^ roots.length + value x (divisor roots) = (roots.map (· + x)).prod := by
  obtain ⟨front, last, rfl⟩ : ∃ front last, roots = front ++ [last] :=
    ⟨roots.dropLast, roots.getLast h, (List.dropLast_append_getLast h).symm⟩
  obtain ⟨cs, hfold, hvalue⟩ := foldl_timesRoot x front 0 []
  rw [List.replicate_zero, List.nil_append, Nat.add_zero] at hfold
  have hlen : cs.length = front.length := by
    have := congrArg List.length hfold
    rw [length_foldl_timesRoot] at this
    simpa using this.symm
  have hdiv : divisor (front ++ [last]) = timesRoot last (1 :: cs) := by
    rw [divisor, List.foldl_append, List.length_append, List.length_singleton, Nat.add_sub_cancel, hfold]
    rfl
  have hlast := value_timesRoot x last (1 :: cs)
  simp only [List.headD_cons, one_mul, List.length_cons, hlen] at hlast
  rw [hdiv, List.length_append, List.length_singleton, add_comm, hlast, hvalue, List.map_append, List.prod_append]
  simp [value]

/-- Each root is a zero of the divisor with its leading power. -/
theorem root_divisor (htwo : ∀ a : R, a + a = 0) {roots : List R} {x : R} (h : x ∈ roots) :
    x ^ (divisor roots).length + value x (divisor roots) = 0 := by
  have hne : roots ≠ [] := List.ne_nil_of_mem h
  rw [length_divisor hne, value_divisor x hne]
  exact List.prod_eq_zero (List.mem_map.mpr ⟨x, h, htwo x⟩)

/-! ### Words of the code -/

/-- The powers that the words of the code vanish at. -/
def roots (α : R) (d : Nat) : List R := (List.range d).map (α ^ ·)

def IsWord (α : R) (d : Nat) (word : List R) : Prop := ∀ i < d, value (α ^ i) word = 0

/-- **What the register appends makes a word of the code.** -/
theorem isWord_append_remainder (htwo : ∀ a : R, a + a = 0) (α : R) {d : Nat} (hd : d ≠ 0) (data : List R) :
    IsWord α d (data ++ remainder (divisor (roots α d)) data) := by
  intro i hi
  have hmem : α ^ i ∈ roots α d := List.mem_map_of_mem (List.mem_range.mpr hi)
  have hne : divisor (roots α d) ≠ [] := by
    rw [← List.length_pos_iff, length_divisor (List.ne_nil_of_mem hmem), roots, List.length_map, List.length_range]
    exact Nat.pos_of_ne_zero hd
  exact value_append_remainder htwo hne (root_divisor htwo hmem) data

end Division

section Distance
variable {F : Type} [DecidableEq F]

/-- In how many places two words differ. -/
def errors : List F → List F → Nat
  | a :: as, b :: bs => (if a = b then 0 else 1) + errors as bs
  | _, _ => 0

theorem errors_comm (as bs : List F) : errors as bs = errors bs as := by
  induction as generalizing bs with
  | nil => cases bs <;> rfl
  | cons a as ih =>
    cases bs with
    | nil => rfl
    | cons b bs => simp only [errors, ih bs, eq_comm (a := a) (b := b)]

/-- The errors along a path of places. -/
theorem errors_map {ι : Type} (f g : ι → F) (path : List ι) :
    errors (path.map f) (path.map g) = path.countP fun i => f i ≠ g i := by
  induction path with
  | nil => rfl
  | cons i path ih =>
    rw [List.map_cons, List.map_cons, errors, ih, List.countP_cons]
    by_cases h : f i = g i
    · simp [h]
    · simp [h, Nat.add_comm]

theorem errors_triangle {as bs cs : List F} (hab : as.length = bs.length) (hbc : bs.length = cs.length) :
    errors as cs ≤ errors as bs + errors bs cs := by
  induction as generalizing bs cs with
  | nil => exact Nat.zero_le _
  | cons a as ih =>
    cases bs with
    | nil => cases hab
    | cons b bs =>
      cases cs with
      | nil => cases hbc
      | cons c cs =>
        have hrest := ih (Nat.succ.inj hab) (Nat.succ.inj hbc)
        have hfirst : (if a = c then 0 else 1) ≤ (if a = b then 0 else 1) + if b = c then 0 else 1 := by
          by_cases hb : a = b
          · rw [hb, if_pos rfl, Nat.zero_add]
          · rw [if_neg hb]
            split_ifs <;> omega
        simp only [errors]
        omega

end Distance

section Uniqueness
variable {F : Type} [Field F]

/-- The value as a sum over the places. -/
theorem value_eq_sum (x : F) (word : List F) :
    value x word = ∑ i : Fin word.length, word.get i * x ^ (word.length - 1 - i) := by
  induction word with
  | nil => rfl
  | cons c cs ih =>
    show c * x ^ cs.length + value x cs = ∑ i : Fin (cs.length + 1), _
    rw [Fin.sum_univ_succ, ih]
    congr 1
    refine Finset.sum_congr rfl fun i _ => ?_
    show cs.get i * x ^ (cs.length - 1 - i) = cs.get i * x ^ (cs.length + 1 - 1 - (i.val + 1))
    congr 2
    omega

variable [DecidableEq F]

/-- The places where a word is not zero. -/
def support (word : List F) : Finset (Fin word.length) := Finset.univ.filter fun i => word.get i ≠ 0

/-- A word of the code with at most `d` symbols that are not zero has none. -/
theorem eq_zero_of_support {α : F} {d : Nat} {word : List F} (hword : IsWord α d word)
    (hpow : ∀ i < word.length, ∀ j < word.length, α ^ i = α ^ j → i = j) (hsupport : (support word).card ≤ d) :
    support word = ∅ := by
  obtain ⟨s, hs⟩ : ∃ s, (support word).card = s := ⟨_, rfl⟩
  -- the nodes of a Vandermonde matrix: one for each place that is not zero
  let place : Fin s → Fin word.length := fun k => (support word).orderEmbOfFin hs k
  have hplace : Function.Injective place := ((support word).orderEmbOfFin hs).injective
  have himage : Finset.univ.image place = support word := Finset.image_orderEmbOfFin_univ (support word) hs
  let node : Fin s → F := fun k => α ^ (word.length - 1 - (place k).val)
  have hnode : Function.Injective node := by
    intro k l hkl
    have hk := (place k).isLt
    have hl := (place l).isLt
    have := hpow _ (by omega) _ (by omega) hkl
    exact hplace (Fin.ext (by omega))
  have hsum : ∀ i : Fin s, ∑ k : Fin s, word.get (place k) * node k ^ (i : Nat) = 0 := by
    intro i
    have hzero := hword i (i.isLt.trans_le (hs ▸ hsupport))
    rw [value_eq_sum, ← Finset.sum_subset (Finset.subset_univ (support word))] at hzero
    · rw [← hzero, ← himage, Finset.sum_image hplace.injOn]
      refine Finset.sum_congr rfl fun k _ => ?_
      show word.get (place k) * (α ^ (word.length - 1 - (place k).val)) ^ (i : Nat) =
        word.get (place k) * (α ^ (i : Nat)) ^ (word.length - 1 - (place k).val)
      rw [← pow_mul, ← pow_mul, Nat.mul_comm]
    · intro j _ hj
      have hj : word.get j = 0 := by simpa [support] using hj
      rw [hj, zero_mul]
  have hvalues := Matrix.eq_zero_of_forall_pow_sum_mul_pow_eq_zero hnode hsum
  by_contra hne
  obtain ⟨j, hj⟩ := Finset.nonempty_iff_ne_empty.mpr hne
  rw [← himage] at hj
  obtain ⟨k, _, hk⟩ := Finset.mem_image.mp hj
  rw [himage] at hj
  have hget : word.get (place k) = 0 := congrFun hvalues k
  rw [hk] at hget
  exact (Finset.mem_filter.mp hj).2 hget

theorem card_support_cons (c : F) (cs : List F) :
    (support (c :: cs)).card = (if c = 0 then 0 else 1) + (support cs).card := by
  simp only [support, Finset.card_filter]
  show ∑ i : Fin (cs.length + 1), _ = _
  rw [Fin.sum_univ_succ]
  congr 1
  show (if c ≠ 0 then 1 else 0) = _
  rw [ite_not]

theorem card_support_sub (a b : List F) : (support (List.zipWith (· - ·) a b)).card = errors a b := by
  induction a generalizing b with
  | nil => rfl
  | cons c a ih =>
    cases b with
    | nil => rfl
    | cons c' b =>
      rw [List.zipWith_cons_cons, card_support_cons, ih, errors]
      simp only [sub_eq_zero]

theorem eq_of_support_sub {a b : List F} (h : a.length = b.length)
    (hs : support (List.zipWith (· - ·) a b) = ∅) : a = b := by
  have hcard := card_support_sub a b
  rw [hs, Finset.card_empty] at hcard
  clear hs
  induction a generalizing b with
  | nil => exact (List.length_eq_zero_iff.mp h.symm).symm
  | cons c a ih =>
    cases b with
    | nil => cases h
    | cons c' b =>
      rw [errors] at hcard
      have hc : c = c' := by
        by_contra hne
        rw [if_neg hne] at hcard
        omega
      rw [hc, ih (Nat.succ.inj h) (by omega)]

/-- **The distance of the code**: two words that differ in at most `d` places are the
same. -/
theorem eq_of_errors_le {α : F} {d : Nat} {a b : List F} (ha : IsWord α d a) (hb : IsWord α d b)
    (hlen : a.length = b.length) (hpow : ∀ i < a.length, ∀ j < a.length, α ^ i = α ^ j → i = j)
    (h : errors a b ≤ d) : a = b := by
  have hword : IsWord α d (List.zipWith (· - ·) a b) := by
    intro i hi
    rw [value_zipWith_sub _ hlen, ha i hi, hb i hi, sub_zero]
  have hlength : (List.zipWith (· - ·) a b).length = a.length := by
    rw [List.length_zipWith, ← hlen, Nat.min_self]
  refine eq_of_support_sub hlen (eq_zero_of_support hword ?_ ?_)
  · rw [hlength]
    exact hpow
  · rw [card_support_sub]
    exact h

/-- **Half as many errors are corrected**: at most one word of the code is that near. -/
theorem eq_of_near {α : F} {d : Nat} {a b received : List F} (ha : IsWord α d a) (hb : IsWord α d b)
    (hla : a.length = received.length) (hlb : b.length = received.length)
    (hpow : ∀ i < received.length, ∀ j < received.length, α ^ i = α ^ j → i = j)
    (hna : 2 * errors a received ≤ d) (hnb : 2 * errors b received ≤ d) : a = b := by
  refine eq_of_errors_le ha hb (hla.trans hlb.symm) (hla ▸ hpow) ?_
  have := errors_triangle hla hlb.symm
  rw [errors_comm received b] at this
  omega

end Uniqueness
end ScoutingComputer.ReedSolomon
