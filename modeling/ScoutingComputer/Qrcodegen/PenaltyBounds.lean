import Mathlib.Algebra.Order.BigOperators.Group.List
import Mathlib.Algebra.Order.Ring.Nat
import ScoutingComputer.Qrcodegen.Penalty

/-! The bounds that the penalty score asserts.

A finder-like pattern is charged to the light run it ends with and to the dark run before:
the two are at least twice as long as what the pattern scores. So the score of a line is at
most proportional to its length, and what `getPenaltyScore` asserts holds of every grid. -/
namespace ScoutingComputer.Qrcodegen

/-! ### One pattern -/

theorem countPatterns_le (runHistory : List Nat) : finderPenaltyCountPatterns runHistory ≤ 2 := by
  rw [finderPenaltyCountPatterns]
  split <;> split <;> omega

/-- What a pattern scores is covered by the two last runs. -/
theorem countPatterns_charge (runHistory : List Nat) :
    2 * finderPenaltyCountPatterns runHistory ≤ runHistory.getD 0 0 + runHistory.getD 1 0 := by
  rw [finderPenaltyCountPatterns]
  split <;> split <;> omega

theorem countPatterns_zero {runHistory : List Nat} (h : runHistory.getD 1 0 = 0) :
    finderPenaltyCountPatterns runHistory = 0 := by
  simp only [finderPenaltyCountPatterns, h, Nat.lt_irrefl, gt_iff_lt, false_and, if_false]

theorem getD_zero_addHistory (size run : Nat) (runHistory : List Nat) :
    (finderPenaltyAddHistory size run runHistory).getD 0 0 = if runHistory.getD 0 0 = 0 then run + size else run := rfl

theorem getD_one_addHistory (size run : Nat) {runHistory : List Nat} (h : runHistory.length = 7) :
    (finderPenaltyAddHistory size run runHistory).getD 1 0 = runHistory.getD 0 0 := by
  obtain ⟨a, rest, rfl⟩ := List.exists_cons_of_length_eq_add_one h
  obtain ⟨b, rest, rfl⟩ := List.exists_cons_of_length_eq_add_one (Nat.succ.inj h)
  rfl

theorem length_addHistory (size run : Nat) {runHistory : List Nat} (h : runHistory.length = 7) :
    (finderPenaltyAddHistory size run runHistory).length = 7 := by
  rw [finderPenaltyAddHistory, List.length_cons, List.length_dropLast, h]

/-! ### One line -/

/-- The runs that no pattern was charged to so far. -/
def Scan.uncharged (s : Scan) : Nat := if s.runColor then s.run else s.run + s.runHistory.getD 0 0

/-- The scan after `m` modules. -/
structure Scan.Bounded (size m : Nat) (s : Scan) : Prop where
  history : s.runHistory.length = 7
  run : s.run ≤ m
  last : s.runHistory.getD 0 0 ≤ size + m
  begun : s.runHistory.getD 0 0 = 0 ∨ 0 < s.run
  dark : s.runColor = true → 0 < s.runHistory.getD 0 0
  charged : s.result + 20 * s.uncharged ≤ 23 * m

theorem bounded_start (size : Nat) : Scan.Bounded size 0 ⟨0, false, 0, List.replicate 7 0⟩ where
  history := rfl
  run := Nat.le_refl 0
  last := Nat.zero_le _
  begun := .inl rfl
  dark := nofun
  charged := Nat.le_refl 0

theorem Scan.Bounded.next {size m : Nat} {s : Scan} (hsize : 0 < size) (h : s.Bounded size m) (color : Bool) :
    (scanModule size s color).Bounded size (m + 1) := by
  obtain ⟨result, runColor, run, runHistory⟩ := s
  obtain ⟨history, hrun, last, begun, dark, charged⟩ := h
  dsimp only at history hrun last begun dark charged
  have hlength := length_addHistory size run history
  have hzero := getD_zero_addHistory size run runHistory
  have hone := getD_one_addHistory size run history
  by_cases hcolor : color = runColor
  · have hstep : scanModule size ⟨result, runColor, run, runHistory⟩ color = ⟨if run + 1 = 5 then result + 3 else
        if run + 1 > 5 then result + 1 else result, runColor, run + 1, runHistory⟩ := by
      rw [scanModule, if_pos hcolor]
      rfl
    rw [hstep]
    refine ⟨history, Nat.succ_le_succ hrun, Nat.le_succ_of_le last, .inr (Nat.succ_pos run), dark, ?_⟩
    have hresult : (if run + 1 = 5 then result + 3 else if run + 1 > 5 then result + 1 else result) ≤ result + 3 := by
      split
      · exact Nat.le_refl _
      · split <;> omega
    cases runColor
    · simp only [uncharged, Bool.false_eq_true, if_false] at charged ⊢
      omega
    · simp only [uncharged, if_true] at charged ⊢
      omega
  · have hstep : scanModule size ⟨result, runColor, run, runHistory⟩ color =
        ⟨if !runColor then result + finderPenaltyCountPatterns (finderPenaltyAddHistory size run runHistory) * 40
          else result, color, 1, finderPenaltyAddHistory size run runHistory⟩ := by
      rw [scanModule, if_neg hcolor]
      rfl
    rw [hstep]
    cases runColor with
    | false =>
      -- a light run ends; the first one is longer by the border, but then there is no pattern
      have hcharge := countPatterns_charge (finderPenaltyAddHistory size run runHistory)
      have hnone := @countPatterns_zero (finderPenaltyAddHistory size run runHistory)
      have hnew : color = true := by simpa using hcolor
      simp only [uncharged, Bool.false_eq_true, if_false] at charged
      refine ⟨hlength, Nat.succ_le_succ (Nat.zero_le m), ?_, .inr Nat.one_pos, fun _ => ?_, ?_⟩
      · dsimp only
        split at hzero <;> omega
      · dsimp only
        split at hzero <;> omega
      · simp only [uncharged, hnew, Bool.not_false, if_true]
        split at hzero <;> omega
    | true =>
      have hlast := dark rfl
      have hnew : color = false := by simpa using hcolor
      rw [if_neg (by omega)] at hzero
      simp only [uncharged, if_true] at charged
      refine ⟨hlength, Nat.succ_le_succ (Nat.zero_le m), ?_, .inr Nat.one_pos, fun h => ?_, ?_⟩
      · dsimp only
        omega
      · rw [hnew] at h
        cases h
      · simp only [uncharged, hnew, Bool.not_true, Bool.false_eq_true, if_false]
        omega

theorem Scan.Bounded.line {size m : Nat} {s : Scan} (hsize : 0 < size) (h : s.Bounded size m) (line : List Bool) :
    (line.foldl (scanModule size) s).Bounded size (m + line.length) := by
  induction line generalizing m s with
  | nil => exact h
  | cons color line ih =>
    have hrest := ih (h.next hsize color)
    rw [Nat.add_assoc, Nat.add_comm 1] at hrest
    exact hrest

theorem linePenalty_le {size : Nat} (hsize : 0 < size) (line : List Bool) :
    linePenalty size line ≤ 23 * line.length + 80 := by
  have h := ((bounded_start size).line hsize line).charged
  obtain ⟨s, hs⟩ : ∃ s, s = line.foldl (scanModule size) ⟨0, false, 0, List.replicate 7 0⟩ := ⟨_, rfl⟩
  rw [← hs] at h
  have hend : finderPenaltyTerminateAndCount size s.runColor s.run s.runHistory ≤ 2 := by
    rw [finderPenaltyTerminateAndCount]
    exact countPatterns_le _
  rw [linePenalty, ← hs]
  show s.result + finderPenaltyTerminateAndCount size s.runColor s.run s.runHistory * 40 ≤ _
  omega

/-- The run histories in which `finderPenaltyCountPatterns` looks for patterns, from some state of the scan on. -/
def countedHistories (size : Nat) : Scan → List Bool → List (List Nat)
  | s, [] =>
    let (run, runHistory) :=
      if s.runColor then (0, finderPenaltyAddHistory size s.run s.runHistory) else (s.run, s.runHistory)
    [finderPenaltyAddHistory size (run + size) runHistory]
  | s, color :: line =>
    (if color ≠ s.runColor ∧ s.runColor = false then [finderPenaltyAddHistory size s.run s.runHistory] else []) ++
      countedHistories size (scanModule size s color) line

/-- The dark run that a pattern would have to end with is never longer than asserted. -/
theorem countedHistories_le {size m : Nat} {s : Scan} (hsize : 0 < size) (h : s.Bounded size m) {line : List Bool}
    (hline : m + line.length ≤ size) : ∀ runHistory ∈ countedHistories size s line, runHistory.getD 1 0 ≤ size * 3 := by
  induction line generalizing m s with
  | nil =>
    obtain ⟨result, runColor, run, runHistory⟩ := s
    obtain ⟨history, hrun, last, _, dark, _⟩ := h
    dsimp only at history hrun last dark
    rw [List.length_nil] at hline
    intro counted hmem
    rw [List.mem_singleton.mp hmem]
    cases runColor with
    | false =>
      show (finderPenaltyAddHistory size (run + size) runHistory).getD 1 0 ≤ size * 3
      rw [getD_one_addHistory _ _ history]
      omega
    | true =>
      have := dark rfl
      show (finderPenaltyAddHistory size (0 + size) (finderPenaltyAddHistory size run runHistory)).getD 1 0 ≤ size * 3
      rw [getD_one_addHistory _ _ (length_addHistory _ _ history), getD_zero_addHistory, if_neg (by omega)]
      omega
  | cons color line ih =>
    rw [List.length_cons] at hline
    intro runHistory hmem
    rcases List.mem_append.mp hmem with hmem | hmem
    · split at hmem
      · obtain rfl := List.mem_singleton.mp hmem
        have := h.last
        rw [getD_one_addHistory _ _ h.history]
        omega
      · cases hmem
    · exact ih (h.next hsize color) (by omega) runHistory hmem

/-! ### The whole grid -/

theorem sum_range_le {n bound : Nat} {f : Nat → Nat} (h : ∀ i, f i ≤ bound) : ((List.range n).map f).sum ≤ n * bound := by
  have := List.sum_le_card_nsmul ((List.range n).map f) bound (by
    intro v hv
    obtain ⟨i, _, rfl⟩ := List.mem_map.mp hv
    exact h i)
  simpa using this

theorem blockPenalty_le (size : Nat) (module : Nat × Nat → Bool) : blockPenalty size module ≤ (size - 1) * ((size - 1) * 3) := by
  refine sum_range_le fun y => sum_range_le fun x => ?_
  dsimp only
  split
  · exact Nat.le_refl 3
  · exact Nat.zero_le 3

theorem darkModules_le (size : Nat) (module : Nat × Nat → Bool) : darkModules size module ≤ size * (size * 1) :=
  sum_range_le fun _ => sum_range_le fun _ => Bool.toNat_le _

/-- The balance lies between nought and nine: the number of modules is odd. -/
theorem balance_bounds {size : Nat} (hodd : size % 2 = 1) (module : Nat × Nat → Bool) :
    0 ≤ balance size module ∧ balance size module ≤ 9 := by
  have hdark := darkModules_le size module
  obtain ⟨total, htotal⟩ : ∃ total, total = size * size := ⟨_, rfl⟩
  have htotalOdd : total % 2 = 1 := by rw [htotal, Nat.mul_mod, hodd]
  rw [Nat.mul_one, ← htotal] at hdark
  obtain ⟨dark, hdarkq⟩ : ∃ dark, dark = darkModules size module := ⟨_, rfl⟩
  rw [← hdarkq] at hdark
  have hcast : (size : Int) * size = total := by rw [htotal, Int.natCast_mul]
  obtain ⟨off, hoff⟩ : ∃ off : Nat, off = ((dark : Int) * 20 - total * 10).natAbs := ⟨_, rfl⟩
  have hlow : 1 ≤ off := by omega
  have hhigh : off ≤ 10 * total := by omega
  simp only [balance, hcast, ← hdarkq, ← hoff]
  have hnat : ((off : Int) + total - 1).tdiv total = ((off + total - 1) / total : Nat) := by
    have : (off : Int) + total - 1 = ((off + total - 1 : Nat) : Int) := by omega
    rw [this]
    rfl
  rw [hnat]
  have hone : 1 ≤ (off + total - 1) / total := (Nat.le_div_iff_mul_le (by omega)).mpr (by omega)
  have hten : (off + total - 1) / total < 11 := (Nat.div_lt_iff_lt_mul (by omega)).mpr (by omega)
  omega

theorem symbolSize_bounds {version : Nat} (hlow : MIN_VERSION ≤ version) (hhigh : version ≤ MAX_VERSION) :
    21 ≤ symbolSize version ∧ symbolSize version ≤ 177 ∧ symbolSize version % 2 = 1 := by
  have : 1 ≤ version := hlow
  have : version ≤ 40 := hhigh
  show 21 ≤ version * 4 + 17 ∧ version * 4 + 17 ≤ 177 ∧ (version * 4 + 17) % 2 = 1
  omega

theorem getPenaltyScore_bounds {version : Nat} (hlow : MIN_VERSION ≤ version) (hhigh : version ≤ MAX_VERSION)
    (module : Nat × Nat → Bool) :
    0 ≤ getPenaltyScore (symbolSize version) module ∧ getPenaltyScore (symbolSize version) module ≤ 2568888 := by
  obtain ⟨hmin, hmax, hodd⟩ := symbolSize_bounds hlow hhigh
  generalize symbolSize version = size at hmin hmax hodd
  have hbalance := balance_bounds hodd module
  have hline : ∀ cell : Nat → Bool, linePenalty size ((List.range size).map cell) ≤ 4151 := by
    intro cell
    have h := linePenalty_le (by omega : 0 < size) ((List.range size).map cell)
    rw [List.length_map, List.length_range] at h
    omega
  have hrows : ((List.range size).map fun y => linePenalty size ((List.range size).map fun x => module (x, y))).sum ≤
      size * 4151 := sum_range_le fun y => hline _
  have hcolumns : ((List.range size).map fun x => linePenalty size ((List.range size).map fun y => module (x, y))).sum ≤
      size * 4151 := sum_range_le fun x => hline _
  have hblocks : blockPenalty size module ≤ 176 * (176 * 3) := by
    refine (blockPenalty_le size module).trans (Nat.mul_le_mul ?_ (Nat.mul_le_mul_right 3 ?_)) <;> omega
  rw [getPenaltyScore]
  show 0 ≤ (_ : Int) + _ + _ + balance size module * 10 ∧ (_ : Int) + _ + _ + balance size module * 10 ≤ 2568888
  omega

/-- **No assertion of the penalty score fails**, whatever the modules are. -/
theorem getPenaltyScore_asserts {version : Nat} (hlow : MIN_VERSION ≤ version) (hhigh : version ≤ MAX_VERSION)
    (module : Nat × Nat → Bool) :
    let size := symbolSize version
    (0 ≤ balance size module ∧ balance size module ≤ 9) ∧
      (0 ≤ getPenaltyScore size module ∧ getPenaltyScore size module ≤ 2568888) ∧
        ∀ line : List Bool, line.length = size →
          ∀ runHistory ∈ countedHistories size ⟨0, false, 0, List.replicate 7 0⟩ line, runHistory.getD 1 0 ≤ size * 3 := by
  intro size
  have hsize : 21 ≤ size ∧ size ≤ 177 ∧ size % 2 = 1 := symbolSize_bounds hlow hhigh
  exact ⟨balance_bounds hsize.2.2 module, getPenaltyScore_bounds hlow hhigh module,
    fun line hline => countedHistories_le (by omega) (bounded_start size) (by omega)⟩

theorem getPenaltyScore_asserts_dark :
    (0 ≤ balance 177 (fun _ => true) ∧ balance 177 (fun _ => true) ≤ 9) ∧ getPenaltyScore 177 (fun _ => true) ≤ 2568888 := by
  obtain ⟨hbalance, hscore, _⟩ := @getPenaltyScore_asserts 40 (by decide) (by decide) fun _ => true
  exact ⟨hbalance, hscore.2⟩

end ScoutingComputer.Qrcodegen
