import Mathlib.Algebra.BigOperators.Group.Finset.Basic
import Mathlib.Data.Finset.Prod
import Mathlib.Order.Interval.Finset.Nat
import ScoutingComputer.Foundation.Path
import ScoutingComputer.Qrcodegen.FunctionPatterns

/-! Which modules the function patterns take.

The strokes of a version lie inside the symbol, whatever the bits are that are drawn, and
`mem_functionPlaces` says which modules they take. What they leave is exactly
what `getNumRawDataModules` promises to the codewords. -/
namespace ScoutingComputer.Qrcodegen

/-! ### Drawing a list of strokes -/

def Stroke.InRange (size : Nat) (s : Stroke) : Prop :=
  0 ≤ s.1 ∧ s.1 < size ∧ 0 ≤ s.2.1 ∧ s.2.1 < size

def Stroke.place (s : Stroke) : Nat × Nat := (s.1.toNat, s.2.1.toNat)

def Stroke.isDark (s : Stroke) : Bool := s.2.2

theorem setFunctionModule_ok {c : Canvas} {s : Stroke} (h : s.InRange c.size) :
    setFunctionModule c s = .ok
      {c with
        modules := Function.update c.modules s.place s.isDark
        isFunction := Function.update c.isFunction s.place true} := by
  obtain ⟨x, y, isDark⟩ := s
  have hin : 0 ≤ x ∧ x < c.size ∧ 0 ≤ y ∧ y < c.size := h
  rw [setFunctionModule, if_pos hin]
  congr 2
  · funext p
    simp only [Function.update_apply]
    rfl
  · funext p
    simp only [Function.update_apply]
    rfl

/-- Strokes inside the symbol are all drawn. -/
theorem draw_ok {strokes : List Stroke} {c : Canvas} (h : ∀ s ∈ strokes, s.InRange c.size) :
    draw strokes c = .ok
      {c with
        modules := Path.write (strokes.map Stroke.place) (strokes.map Stroke.isDark) c.modules
        isFunction := Path.write (strokes.map Stroke.place) (strokes.map fun _ => true) c.isFunction} := by
  induction strokes generalizing c with
  | nil => rfl
  | cons s strokes ih =>
    rw [draw, setFunctionModule_ok (h s (List.mem_cons_self ..))]
    show draw strokes _ = _
    rw [ih]
    · rfl
    · exact fun s' hs' => h s' (List.mem_cons_of_mem s hs')

/-- What is marked: the places of the strokes and what was marked before. -/
theorem write_true {path : List (Nat × Nat)} {values : List Bool} (hlen : path.length ≤ values.length)
    (htrue : ∀ v ∈ values, v = true) (f : Nat × Nat → Bool) (p : Nat × Nat) :
    Path.write path values f p = (decide (p ∈ path) || f p) := by
  induction path generalizing values f with
  | nil => simp [Path.write]
  | cons q path ih =>
    cases values with
    | nil => simp at hlen
    | cons v values =>
      rw [Path.write, ih (Nat.le_of_succ_le_succ hlen) fun v' hv' => htrue v' (List.mem_cons_of_mem v hv'),
        htrue v (List.mem_cons_self ..)]
      by_cases hq : p = q
      · simp [hq]
      · simp [hq]

/-! ### Where each pattern draws -/

theorem mem_around {n : Nat} {d : Int} : d ∈ around n ↔ -(n : Int) ≤ d ∧ d ≤ n := by
  constructor
  · intro h
    obtain ⟨i, hi, rfl⟩ := List.mem_map.mp h
    have := List.mem_range.mp hi
    omega
  · rintro ⟨hlow, hhigh⟩
    refine List.mem_map.mpr ⟨(d + n).toNat, List.mem_range.mpr (by omega), by omega⟩

/-- Some stroke is at the place. -/
def Touches (strokes : List Stroke) (x y : Int) : Prop := ∃ isDark, (x, y, isDark) ∈ strokes

theorem touches_append {a b : List Stroke} {x y : Int} : Touches (a ++ b) x y ↔ Touches a x y ∨ Touches b x y := by
  simp only [Touches, List.mem_append]
  exact exists_or

theorem touches_timingPattern {size : Nat} {x y : Int} :
    Touches (timingPattern size) x y ↔ (x = 6 ∧ 0 ≤ y ∧ y < size) ∨ (y = 6 ∧ 0 ≤ x ∧ x < size) := by
  constructor
  · rintro ⟨isDark, h⟩
    obtain ⟨i, hi, hs⟩ := List.mem_flatMap.mp h
    have := List.mem_range.mp hi
    simp only [List.mem_cons, List.not_mem_nil, or_false, Prod.mk.injEq] at hs
    omega
  · rintro (⟨rfl, hlow, hhigh⟩ | ⟨rfl, hlow, hhigh⟩)
    · refine ⟨y.toNat % 2 == 0, List.mem_flatMap.mpr ⟨y.toNat, List.mem_range.mpr (by omega), ?_⟩⟩
      rw [Int.toNat_of_nonneg hlow]
      exact List.mem_cons_self ..
    · refine ⟨x.toNat % 2 == 0, List.mem_flatMap.mpr ⟨x.toNat, List.mem_range.mpr (by omega), ?_⟩⟩
      rw [Int.toNat_of_nonneg hlow]
      exact List.mem_cons_of_mem _ (List.mem_cons_self ..)

theorem touches_drawFinderPattern {size : Nat} {cx cy x y : Int} :
    Touches (drawFinderPattern size cx cy) x y ↔
      (0 ≤ x ∧ x < size ∧ 0 ≤ y ∧ y < size) ∧ cx - 4 ≤ x ∧ x ≤ cx + 4 ∧ cy - 4 ≤ y ∧ y ≤ cy + 4 := by
  constructor
  · rintro ⟨isDark, h⟩
    obtain ⟨dy, hdy, h⟩ := List.mem_flatMap.mp h
    obtain ⟨dx, hdx, h⟩ := List.mem_flatMap.mp h
    have hdx := mem_around.mp hdx
    have hdy := mem_around.mp hdy
    dsimp only at h
    split at h
    · rename_i hin
      simp only [List.mem_cons, List.not_mem_nil, or_false, Prod.mk.injEq] at h
      omega
    · cases h
  · rintro ⟨hin, hx, hx', hy, hy'⟩
    refine ⟨max (x - cx).natAbs (y - cy).natAbs != 2 && max (x - cx).natAbs (y - cy).natAbs != 4,
      List.mem_flatMap.mpr ⟨y - cy, mem_around.mpr (by omega), List.mem_flatMap.mpr
        ⟨x - cx, mem_around.mpr (by omega), ?_⟩⟩⟩
    have hxx : cx + (x - cx) = x := by omega
    have hyy : cy + (y - cy) = y := by omega
    simp only [hxx, hyy, if_pos hin, List.mem_singleton]

theorem touches_drawAlignmentPattern {cx cy x y : Int} :
    Touches (drawAlignmentPattern cx cy) x y ↔ cx - 2 ≤ x ∧ x ≤ cx + 2 ∧ cy - 2 ≤ y ∧ y ≤ cy + 2 := by
  constructor
  · rintro ⟨isDark, h⟩
    obtain ⟨dy, hdy, h⟩ := List.mem_flatMap.mp h
    obtain ⟨dx, hdx, h⟩ := List.mem_map.mp h
    have hdx := mem_around.mp hdx
    have hdy := mem_around.mp hdy
    simp only [Prod.mk.injEq] at h
    omega
  · rintro ⟨hx, hx', hy, hy'⟩
    refine ⟨max (x - cx).natAbs (y - cy).natAbs != 1,
      List.mem_flatMap.mpr ⟨y - cy, mem_around.mpr (by omega), List.mem_map.mpr
        ⟨x - cx, mem_around.mpr (by omega), ?_⟩⟩⟩
    have hxx : cx + (x - cx) = x := by omega
    have hyy : cy + (y - cy) = y := by omega
    simp only [hxx, hyy]

/-- The centre of an alignment pattern: any two positions, but not those of a finder. -/
def Centre (numAlign i j : Nat) : Prop :=
  i < numAlign ∧ j < numAlign ∧ ¬ ((i = 0 ∧ j = 0) ∨ (i = 0 ∧ j = numAlign - 1) ∨ (i = numAlign - 1 ∧ j = 0))

instance (numAlign i j : Nat) : Decidable (Centre numAlign i j) := inferInstanceAs (Decidable (_ ∧ _))

theorem touches_alignmentPatterns {positions : List Nat} {x y : Int} :
    Touches (alignmentPatterns positions) x y ↔ ∃ i j, Centre positions.length i j ∧
      (positions.getD i 0 : Nat) - 2 ≤ x ∧ x ≤ (positions.getD i 0 : Nat) + 2 ∧
        (positions.getD j 0 : Nat) - 2 ≤ y ∧ y ≤ (positions.getD j 0 : Nat) + 2 := by
  constructor
  · rintro ⟨isDark, h⟩
    obtain ⟨i, hi, h⟩ := List.mem_flatMap.mp h
    obtain ⟨j, hj, h⟩ := List.mem_flatMap.mp h
    split at h
    · rename_i hcorner
      exact ⟨i, j, ⟨List.mem_range.mp hi, List.mem_range.mp hj, hcorner⟩, touches_drawAlignmentPattern.mp ⟨isDark, h⟩⟩
    · cases h
  · rintro ⟨i, j, ⟨hi, hj, hcorner⟩, hnear⟩
    obtain ⟨isDark, h⟩ := touches_drawAlignmentPattern.mpr hnear
    refine ⟨isDark, List.mem_flatMap.mpr ⟨i, List.mem_range.mpr hi, List.mem_flatMap.mpr ⟨j, List.mem_range.mpr hj, ?_⟩⟩⟩
    rw [if_pos hcorner]
    exact h

theorem touches_drawFormatBits {size bits : Nat} (hsize : 21 ≤ size) {x y : Int} :
    Touches (drawFormatBits size bits) x y ↔
      (x = 8 ∧ 0 ≤ y ∧ (y ≤ 5 ∨ y = 7 ∨ y = 8 ∨ size - 8 ≤ y) ∧ y < size) ∨
        (y = 8 ∧ 0 ≤ x ∧ (x ≤ 5 ∨ x = 7 ∨ size - 8 ≤ x) ∧ x < size) := by
  simp only [drawFormatBits, touches_append]
  constructor
  · rintro (((((⟨isDark, h⟩ | ⟨isDark, h⟩) | ⟨isDark, h⟩) | ⟨isDark, h⟩) | ⟨isDark, h⟩) | ⟨isDark, h⟩)
    · obtain ⟨i, hi, h⟩ := List.mem_map.mp h
      have := List.mem_range.mp hi
      simp only [Prod.mk.injEq] at h
      omega
    · simp only [List.mem_cons, List.not_mem_nil, or_false, Prod.mk.injEq] at h
      omega
    · obtain ⟨i, hi, h⟩ := List.mem_map.mp h
      have := List.mem_range'_1.mp hi
      simp only [Prod.mk.injEq] at h
      omega
    · obtain ⟨i, hi, h⟩ := List.mem_map.mp h
      have := List.mem_range.mp hi
      simp only [Prod.mk.injEq] at h
      omega
    · obtain ⟨i, hi, h⟩ := List.mem_map.mp h
      have := List.mem_range'_1.mp hi
      simp only [Prod.mk.injEq] at h
      omega
    · simp only [List.mem_cons, List.not_mem_nil, or_false, Prod.mk.injEq] at h
      omega
  · rintro (⟨rfl, hlow, hy, hhigh⟩ | ⟨rfl, hlow, hx, hhigh⟩)
    · rcases (by omega : y ≤ 5 ∨ y = 7 ∨ y = 8 ∨ y = size - 8 ∨ size - 7 ≤ y) with h | rfl | rfl | rfl | h
      · refine .inl (.inl (.inl (.inl (.inl ⟨getBit bits y.toNat, List.mem_map.mpr ⟨y.toNat, ?_, ?_⟩⟩))))
        · exact List.mem_range.mpr (by omega)
        · simp only [Prod.mk.injEq, and_true, true_and]
          omega
      · exact .inl (.inl (.inl (.inl (.inr ⟨_, List.mem_cons_self ..⟩))))
      · exact .inl (.inl (.inl (.inl (.inr ⟨_, List.mem_cons_of_mem _ (List.mem_cons_self ..)⟩))))
      · exact .inr ⟨true, List.mem_cons_self ..⟩
      · refine .inl (.inr ⟨getBit bits (y - size + 15).toNat, List.mem_map.mpr ⟨(y - size + 15).toNat, ?_, ?_⟩⟩)
        · exact List.mem_range'_1.mpr (by omega)
        · simp only [Prod.mk.injEq, and_true, true_and]
          omega
    · rcases (by omega : x ≤ 5 ∨ x = 7 ∨ size - 8 ≤ x) with h | rfl | h
      · refine .inl (.inl (.inl (.inr ⟨getBit bits (14 - x).toNat, List.mem_map.mpr ⟨(14 - x).toNat, ?_, ?_⟩⟩)))
        · exact List.mem_range'_1.mpr (by omega)
        · simp only [Prod.mk.injEq, and_true]
          omega
      · exact .inl (.inl (.inl (.inl (.inr ⟨_, List.mem_cons_of_mem _ (List.mem_cons_of_mem _ (List.mem_cons_self ..))⟩))))
      · refine .inl (.inl (.inr ⟨getBit bits (size - 1 - x).toNat, List.mem_map.mpr ⟨(size - 1 - x).toNat, ?_, ?_⟩⟩))
        · exact List.mem_range.mpr (by omega)
        · simp only [Prod.mk.injEq, and_true]
          omega

theorem touches_drawVersion {version size : Nat} (hsize : 21 ≤ size) {x y : Int} :
    Touches (drawVersion version size) x y ↔ 7 ≤ version ∧
      ((size - 11 ≤ x ∧ x ≤ size - 9 ∧ 0 ≤ y ∧ y ≤ 5) ∨ (size - 11 ≤ y ∧ y ≤ size - 9 ∧ 0 ≤ x ∧ x ≤ 5)) := by
  rw [drawVersion]
  constructor
  · rintro ⟨isDark, h⟩
    split at h
    · cases h
    · obtain ⟨i, hi, h⟩ := List.mem_flatMap.mp h
      have := List.mem_range.mp hi
      simp only [List.mem_cons, List.not_mem_nil, or_false, Prod.mk.injEq] at h
      omega
  · rintro ⟨hversion, h⟩
    rw [if_neg (by omega)]
    rcases h with ⟨hlow, hhigh, hy, hy'⟩ | ⟨hlow, hhigh, hx, hx'⟩
    · refine ⟨getBit (versionBits version) (3 * y + (x - size + 11)).toNat,
        List.mem_flatMap.mpr ⟨(3 * y + (x - size + 11)).toNat, List.mem_range.mpr (by omega), ?_⟩⟩
      refine List.mem_cons.mpr (.inl ?_)
      simp only [Prod.mk.injEq, and_true]
      omega
    · refine ⟨getBit (versionBits version) (3 * x + (y - size + 11)).toNat,
        List.mem_flatMap.mpr ⟨(3 * x + (y - size + 11)).toNat, List.mem_range.mpr (by omega), ?_⟩⟩
      refine List.mem_cons_of_mem _ (List.mem_cons.mpr (.inl ?_))
      simp only [Prod.mk.injEq, and_true]
      omega

/-! ### The modules of a version -/

/-- The place lies in an alignment pattern. -/
def Aligned (positions : List Nat) (x y : Nat) : Prop := ∃ i j, Centre positions.length i j ∧
  positions.getD i 0 ≤ x + 2 ∧ x ≤ positions.getD i 0 + 2 ∧ positions.getD j 0 ≤ y + 2 ∧ y ≤ positions.getD j 0 + 2

instance (positions : List Nat) (x y : Nat) : Decidable (Aligned positions x y) :=
  decidable_of_iff (∃ i < positions.length, ∃ j < positions.length, Centre positions.length i j ∧
      positions.getD i 0 ≤ x + 2 ∧ x ≤ positions.getD i 0 + 2 ∧ positions.getD j 0 ≤ y + 2 ∧ y ≤ positions.getD j 0 + 2)
    ⟨fun ⟨i, _, j, _, h⟩ => ⟨i, j, h⟩, fun ⟨i, j, h⟩ => ⟨i, h.1.1, j, h.1.2.1, h⟩⟩

/-- What the alignment positions keep clear of the edge. -/
def Clear (version : Nat) : Prop := ∀ i < (getAlignmentPatternPositions version).length,
  6 ≤ (getAlignmentPatternPositions version).getD i 0 ∧ (getAlignmentPatternPositions version).getD i 0 + 7 ≤ symbolSize version

instance (version : Nat) : Decidable (Clear version) := inferInstanceAs (Decidable (∀ i < _, _))

/-- What holds of every version by looking at each. -/
theorem forall_versions {P : Nat → Bool} (h : ((List.range MAX_VERSION).all fun v => P (v + 1)) = true) {version : Nat}
    (hlow : MIN_VERSION ≤ version) (hhigh : version ≤ MAX_VERSION) : P version = true := by
  have hmin : 1 ≤ version := hlow
  have hversion := List.all_eq_true.mp h (version - 1) (List.mem_range.mpr (by omega))
  rwa [Nat.sub_add_cancel hmin] at hversion

theorem clear_alignment {version : Nat} (hlow : MIN_VERSION ≤ version) (hhigh : version ≤ MAX_VERSION) : Clear version :=
  of_decide_eq_true (@forall_versions (fun version => decide (Clear version)) (by decide +kernel) version hlow hhigh)

/-- The modules that function patterns take, in the symbol of a version. -/
def FunctionAt (version x y : Nat) : Prop :=
  let size := symbolSize version
  x = 6 ∨ y = 6 ∨ (y ≤ 8 ∧ (x ≤ 8 ∨ size ≤ x + 8)) ∨ (x ≤ 8 ∧ size ≤ y + 8) ∨
    (7 ≤ version ∧ ((size ≤ x + 11 ∧ x + 9 ≤ size ∧ y ≤ 5) ∨ (size ≤ y + 11 ∧ y + 9 ≤ size ∧ x ≤ 5))) ∨
    Aligned (getAlignmentPatternPositions version) x y

instance (version x y : Nat) : Decidable (FunctionAt version x y) := inferInstanceAs (Decidable (_ ∨ _))

theorem touches_drawFunctionPatterns {version : Nat} (ecl : Ecc) (hlow : MIN_VERSION ≤ version)
    (hhigh : version ≤ MAX_VERSION) {x y : Int} :
    Touches (drawFunctionPatterns version ecl) x y ↔
      0 ≤ x ∧ x < symbolSize version ∧ 0 ≤ y ∧ y < symbolSize version ∧ FunctionAt version x.toNat y.toNat := by
  have hmin : 1 ≤ version := hlow
  have hsize : 21 ≤ symbolSize version := by rw [symbolSize]; omega
  have hclear := clear_alignment hlow hhigh
  have haligned : Touches (alignmentPatterns (getAlignmentPatternPositions version)) x y ↔
      0 ≤ x ∧ x < symbolSize version ∧ 0 ≤ y ∧ y < symbolSize version ∧
        Aligned (getAlignmentPatternPositions version) x.toNat y.toNat := by
    rw [touches_alignmentPatterns]
    constructor
    · rintro ⟨i, j, hcentre, hnear⟩
      have hi := hclear i hcentre.1
      have hj := hclear j hcentre.2.1
      exact ⟨by omega, by omega, by omega, by omega, i, j, hcentre, by omega, by omega, by omega, by omega⟩
    · rintro ⟨_, _, _, _, i, j, hcentre, hnear⟩
      exact ⟨i, j, hcentre, by omega, by omega, by omega, by omega⟩
  simp only [drawFunctionPatterns, touches_append, touches_timingPattern, touches_drawFinderPattern, haligned,
    touches_drawFormatBits hsize, touches_drawVersion hsize, FunctionAt]
  generalize Aligned (getAlignmentPatternPositions version) x.toNat y.toNat = aligned
  generalize symbolSize version = size at hsize
  constructor
  · rintro ((((((h | h) | h) | h) | h) | h) | h)
    · omega
    · omega
    · omega
    · omega
    · tauto
    · omega
    · omega
  · rintro ⟨hx, hx', hy, hy', h⟩
    rcases h with h | h | h | h | h | h
    · exact .inl (.inl (.inl (.inl (.inl (.inl (by omega))))))
    · exact .inl (.inl (.inl (.inl (.inl (.inl (by omega))))))
    · -- the corners at the top: a finder with its separator, the format bits and the timing patterns' ends
      by_cases hfinder : y ≤ 7 ∧ (x ≤ 7 ∨ size ≤ x + 8)
      · rcases hfinder with ⟨hy7, hx7 | hx7⟩
        · exact .inl (.inl (.inl (.inl (.inl (.inr (by omega))))))
        · exact .inl (.inl (.inl (.inl (.inr (by omega)))))
      · by_cases htiming : x = 6 ∨ y = 6
        · exact .inl (.inl (.inl (.inl (.inl (.inl (by omega))))))
        · exact .inl (.inr (by omega))
    · by_cases hfinder : x ≤ 7
      · exact .inl (.inl (.inl (.inr (by omega))))
      · exact .inl (.inr (by omega))
    · exact .inr (by omega)
    · exact .inl (.inl (.inr ⟨hx, hx', hy, hy', h⟩))

/-- **Every stroke lies inside the symbol**: no module that is set is out of range. -/
theorem inRange_drawFunctionPatterns {version : Nat} (ecl : Ecc) (hlow : MIN_VERSION ≤ version)
    (hhigh : version ≤ MAX_VERSION) : ∀ s ∈ drawFunctionPatterns version ecl, s.InRange (symbolSize version) := by
  rintro ⟨x, y, isDark⟩ hs
  obtain ⟨hx, hx', hy, hy', _⟩ := (touches_drawFunctionPatterns ecl hlow hhigh).mp ⟨isDark, hs⟩
  exact ⟨hx, hx', hy, hy'⟩

theorem mem_places {strokes : List Stroke} {size : Nat} (h : ∀ s ∈ strokes, s.InRange size) {x y : Nat} :
    (x, y) ∈ strokes.map Stroke.place ↔ Touches strokes x y := by
  constructor
  · intro hmem
    obtain ⟨⟨x', y', isDark⟩, hs, hplace⟩ := List.mem_map.mp hmem
    obtain ⟨hx, _, hy, _⟩ := h _ hs
    dsimp only at hx hy
    simp only [Stroke.place, Prod.mk.injEq] at hplace
    refine ⟨isDark, ?_⟩
    rw [← hplace.1, ← hplace.2, Int.toNat_of_nonneg hx, Int.toNat_of_nonneg hy]
    exact hs
  · rintro ⟨isDark, hs⟩
    exact List.mem_map.mpr ⟨_, hs, rfl⟩

theorem mem_functionPlaces {version : Nat} (ecl : Ecc) (hlow : MIN_VERSION ≤ version) (hhigh : version ≤ MAX_VERSION)
    {x y : Nat} : (x, y) ∈ (drawFunctionPatterns version ecl).map Stroke.place ↔
      x < symbolSize version ∧ y < symbolSize version ∧ FunctionAt version x y := by
  rw [mem_places (inRange_drawFunctionPatterns ecl hlow hhigh), touches_drawFunctionPatterns ecl hlow hhigh]
  simp only [Int.toNat_natCast]
  constructor
  · rintro ⟨_, hx, _, hy, h⟩
    exact ⟨by omega, by omega, h⟩
  · rintro ⟨hx, hy, h⟩
    exact ⟨by omega, by omega, by omega, by omega, h⟩

/-! ### How many they are

Off the timing patterns, the corners, the version bits and the alignment patterns are
products of intervals and do not overlap. -/

/-- How the alignment positions lie. -/
structure Spaced (version : Nat) (positions : List Nat) : Prop where
  first : ∀ i < positions.length, i = 0 → positions.getD i 0 = 6
  last : ∀ i < positions.length, i = positions.length - 1 → positions.getD i 0 + 7 = symbolSize version
  apart : ∀ j < positions.length, ∀ i < j, positions.getD i 0 + 7 ≤ positions.getD j 0

instance (version : Nat) (positions : List Nat) : Decidable (Spaced version positions) :=
  decidable_of_iff ((∀ i < positions.length, i = 0 → positions.getD i 0 = 6) ∧
      (∀ i < positions.length, i = positions.length - 1 → positions.getD i 0 + 7 = symbolSize version) ∧
        ∀ j < positions.length, ∀ i < j, positions.getD i 0 + 7 ≤ positions.getD j 0)
    ⟨fun ⟨h₁, h₂, h₃⟩ => ⟨h₁, h₂, h₃⟩, fun ⟨h₁, h₂, h₃⟩ => ⟨h₁, h₂, h₃⟩⟩

/-- The centres of the alignment patterns, by their indices. -/
def centres (numAlign : Nat) : Finset (Nat × Nat) :=
  (Finset.range numAlign ×ˢ Finset.range numAlign).filter fun c => Centre numAlign c.1 c.2

/-- The columns of an alignment pattern beside the timing pattern. -/
def nearby (positions : List Nat) (i : Nat) : Finset Nat :=
  (Finset.Icc (positions.getD i 0 - 2) (positions.getD i 0 + 2)).erase 6

/-- How many they are. -/
def breadth (i : Nat) : Nat := if i = 0 then 4 else 5

/-- The count that `getNumRawDataModules` takes off, from the area beside the timing patterns. -/
def AddsUp (version : Nat) : Prop :=
  getNumRawDataModules version + (192 + (if 7 ≤ version then 36 else 0) +
    ∑ c ∈ centres (getAlignmentPatternPositions version).length, breadth c.1 * breadth c.2) =
      (symbolSize version - 1) * (symbolSize version - 1)

instance (version : Nat) : Decidable (AddsUp version) := inferInstanceAs (Decidable (_ = _))

theorem spaced_alignment {version : Nat} (hlow : MIN_VERSION ≤ version) (hhigh : version ≤ MAX_VERSION) :
    Spaced version (getAlignmentPatternPositions version) :=
  of_decide_eq_true (@forall_versions (fun version => decide (Spaced version (getAlignmentPatternPositions version)))
    (by decide +kernel) version hlow hhigh)

theorem addsUp {version : Nat} (hlow : MIN_VERSION ≤ version) (hhigh : version ≤ MAX_VERSION) : AddsUp version :=
  of_decide_eq_true (@forall_versions (fun version => decide (AddsUp version)) (by decide +kernel) version hlow hhigh)

theorem card_nearby {version : Nat} {positions : List Nat} (h : Spaced version positions) {i : Nat}
    (hi : i < positions.length) : (nearby positions i).card = breadth i := by
  rw [nearby, breadth]
  by_cases hzero : i = 0
  · have hfirst := h.first i hi hzero
    rw [hfirst, if_pos hzero, Finset.card_erase_of_mem (Finset.mem_Icc.mpr (by omega)), Nat.card_Icc]
  · have hapart := h.apart i hi 0 (by omega)
    rw [h.first 0 (by omega) rfl] at hapart
    rw [if_neg hzero, Finset.erase_eq_of_notMem (fun hmem => by have := Finset.mem_Icc.mp hmem; omega), Nat.card_Icc]
    omega

/-- A column belongs to one position. -/
theorem nearby_unique {version : Nat} {positions : List Nat} (h : Spaced version positions) {i i' x : Nat}
    (hi : i < positions.length) (hi' : i' < positions.length) (hx : x ∈ nearby positions i)
    (hx' : x ∈ nearby positions i') : i = i' := by
  have hx := Finset.mem_Icc.mp (Finset.mem_of_mem_erase hx)
  have hx' := Finset.mem_Icc.mp (Finset.mem_of_mem_erase hx')
  rcases Nat.lt_trichotomy i i' with hlt | rfl | hlt
  · have := h.apart i' hi' i hlt
    omega
  · rfl
  · have := h.apart i hi i' hlt
    omega

/-- The alignment patterns beside the timing patterns. -/
def alignedModules (positions : List Nat) : Finset (Nat × Nat) :=
  (centres positions.length).biUnion fun c => nearby positions c.1 ×ˢ nearby positions c.2

theorem mem_centres {numAlign : Nat} {c : Nat × Nat} : c ∈ centres numAlign ↔ Centre numAlign c.1 c.2 := by
  rw [centres, Finset.mem_filter, Finset.mem_product, Finset.mem_range, Finset.mem_range]
  exact ⟨fun h => h.2, fun h => ⟨⟨h.1, h.2.1⟩, h⟩⟩

theorem card_alignedModules {version : Nat} {positions : List Nat} (h : Spaced version positions) :
    (alignedModules positions).card = ∑ c ∈ centres positions.length, breadth c.1 * breadth c.2 := by
  rw [alignedModules, Finset.card_biUnion]
  · refine Finset.sum_congr rfl fun c hc => ?_
    obtain ⟨hi, hj, _⟩ := mem_centres.mp hc
    rw [Finset.card_product, card_nearby h hi, card_nearby h hj]
  · intro c hc c' hc' hne
    obtain ⟨hi, hj, _⟩ := mem_centres.mp hc
    obtain ⟨hi', hj', _⟩ := mem_centres.mp hc'
    show Disjoint (nearby positions c.1 ×ˢ nearby positions c.2) (nearby positions c'.1 ×ˢ nearby positions c'.2)
    rw [Finset.disjoint_left]
    intro p hp hp'
    obtain ⟨hx, hy⟩ := Finset.mem_product.mp hp
    obtain ⟨hx', hy'⟩ := Finset.mem_product.mp hp'
    exact hne (Prod.ext (nearby_unique h hi hi' hx hx') (nearby_unique h hj hj' hy hy'))

theorem mem_alignedModules {version : Nat} {positions : List Nat} (h : Spaced version positions) {x y : Nat} :
    (x, y) ∈ alignedModules positions ↔ x ≠ 6 ∧ y ≠ 6 ∧ Aligned positions x y := by
  rw [alignedModules, Finset.mem_biUnion]
  have hsix : ∀ i < positions.length, 6 ≤ positions.getD i 0 := by
    intro i hi
    by_cases hzero : i = 0
    · rw [h.first i hi hzero]
    · have := h.apart i hi 0 (by omega)
      rw [h.first 0 (by omega) rfl] at this
      omega
  constructor
  · rintro ⟨⟨i, j⟩, hc, hp⟩
    have hcentre := mem_centres.mp hc
    obtain ⟨hx, hy⟩ := Finset.mem_product.mp hp
    obtain ⟨hx6, hx⟩ := Finset.mem_erase.mp hx
    obtain ⟨hy6, hy⟩ := Finset.mem_erase.mp hy
    have hx := Finset.mem_Icc.mp hx
    have hy := Finset.mem_Icc.mp hy
    dsimp only at hx6 hy6 hx hy hcentre
    exact ⟨hx6, hy6, i, j, hcentre, by omega, by omega, by omega, by omega⟩
  · rintro ⟨hx6, hy6, i, j, hcentre, hix, hxi, hjy, hyj⟩
    refine ⟨(i, j), mem_centres.mpr hcentre, Finset.mem_product.mpr ⟨Finset.mem_erase.mpr ⟨hx6, ?_⟩,
      Finset.mem_erase.mpr ⟨hy6, ?_⟩⟩⟩
    · exact Finset.mem_Icc.mpr ⟨by dsimp only; omega, hxi⟩
    · exact Finset.mem_Icc.mpr ⟨by dsimp only; omega, hyj⟩

/-- The finders, their separators and the format bits, beside the timing patterns. -/
def cornerModules (size : Nat) : Finset (Nat × Nat) :=
  let low := (Finset.range 9).erase 6
  let high := Finset.Ico (size - 8) size
  low ×ˢ low ∪ (high ×ˢ low ∪ low ×ˢ high)

def versionModules (version size : Nat) : Finset (Nat × Nat) :=
  if 7 ≤ version then Finset.Ico (size - 11) (size - 8) ×ˢ Finset.range 6 ∪ Finset.range 6 ×ˢ Finset.Ico (size - 11) (size - 8)
  else ∅

theorem mem_cornerModules {size x y : Nat} : (x, y) ∈ cornerModules size ↔
    (x ≤ 8 ∧ x ≠ 6 ∧ y ≤ 8 ∧ y ≠ 6) ∨ (size - 8 ≤ x ∧ x < size ∧ y ≤ 8 ∧ y ≠ 6) ∨
      (x ≤ 8 ∧ x ≠ 6 ∧ size - 8 ≤ y ∧ y < size) := by
  simp only [cornerModules, Finset.mem_union, Finset.mem_product, Finset.mem_erase, Finset.mem_range, Finset.mem_Ico]
  omega

theorem mem_versionModules {version size x y : Nat} : (x, y) ∈ versionModules version size ↔ 7 ≤ version ∧
    ((size - 11 ≤ x ∧ x < size - 8 ∧ y < 6) ∨ (x < 6 ∧ size - 11 ≤ y ∧ y < size - 8)) := by
  by_cases h : 7 ≤ version
  · simp only [versionModules, if_pos h, Finset.mem_union, Finset.mem_product, Finset.mem_range, Finset.mem_Ico]
    omega
  · simp [versionModules, h]

theorem card_cornerModules {size : Nat} (h : 21 ≤ size) : (cornerModules size).card = 192 := by
  have hlow : ((Finset.range 9).erase 6).card = 8 := by decide
  have hhigh : (Finset.Ico (size - 8) size).card = 8 := by
    rw [Nat.card_Ico]
    omega
  rw [cornerModules, Finset.card_union_of_disjoint, Finset.card_union_of_disjoint, Finset.card_product,
    Finset.card_product, Finset.card_product, hlow, hhigh]
  · rw [Finset.disjoint_left]
    rintro ⟨x, y⟩ hp hp'
    simp only [Finset.mem_product, Finset.mem_erase, Finset.mem_range, Finset.mem_Ico] at hp hp'
    omega
  · rw [Finset.disjoint_left]
    rintro ⟨x, y⟩ hp hp'
    simp only [Finset.mem_union, Finset.mem_product, Finset.mem_erase, Finset.mem_range, Finset.mem_Ico] at hp hp'
    omega

theorem card_versionModules {version size : Nat} (h : 21 ≤ size) :
    (versionModules version size).card = if 7 ≤ version then 36 else 0 := by
  rw [versionModules]
  by_cases hversion : 7 ≤ version
  · have hcard : (Finset.Ico (size - 11) (size - 8)).card = 3 := by
      rw [Nat.card_Ico]
      omega
    rw [if_pos hversion, if_pos hversion, Finset.card_union_of_disjoint, Finset.card_product, Finset.card_product, hcard,
      Finset.card_range]
    rw [Finset.disjoint_left]
    rintro ⟨x, y⟩ hp hp'
    simp only [Finset.mem_product, Finset.mem_range, Finset.mem_Ico] at hp hp'
    omega
  · rw [if_neg hversion, if_neg hversion, Finset.card_empty]

/-- An alignment pattern meets neither a corner nor the version bits. -/
theorem aligned_apart {version x y : Nat} {positions : List Nat} (h : Spaced version positions)
    (ha : Aligned positions x y) :
    (x, y) ∉ cornerModules (symbolSize version) ∧ (x, y) ∉ versionModules version (symbolSize version) := by
  obtain ⟨i, j, ⟨hi, hj, hcorner⟩, hix, hxi, hjy, hyj⟩ := ha
  have hlow : ∀ i < positions.length, i ≠ 0 → 13 ≤ positions.getD i 0 := by
    intro i hi hne
    have := h.apart i hi 0 (by omega)
    rw [h.first 0 (by omega) rfl] at this
    exact this
  have hhigh : ∀ i < positions.length, i ≠ positions.length - 1 → positions.getD i 0 + 14 ≤ symbolSize version := by
    intro i hi hne
    have := h.apart (positions.length - 1) (by omega) i (by omega)
    have := h.last (positions.length - 1) (by omega) rfl
    omega
  have hi0 := hlow i hi
  have hj0 := hlow j hj
  have hik := hhigh i hi
  have hjk := hhigh j hj
  rw [mem_cornerModules, mem_versionModules]
  constructor
  · rintro (hin | hin | hin)
    · exact hcorner (.inl (by omega))
    · exact hcorner (.inr (.inr (by omega)))
    · exact hcorner (.inr (.inl (by omega)))
  · rintro ⟨_, hin | hin⟩
    · exact hcorner (.inr (.inr (by omega)))
    · exact hcorner (.inr (.inl (by omega)))

/-- The modules that the function patterns leave. -/
def dataModules (version : Nat) : Finset (Nat × Nat) :=
  (Finset.range (symbolSize version) ×ˢ Finset.range (symbolSize version)).filter fun p => ¬ FunctionAt version p.1 p.2

/-- **The modules left are as many as the library counts on.** -/
theorem card_dataModules {version : Nat} (hlow : MIN_VERSION ≤ version) (hhigh : version ≤ MAX_VERSION) :
    (dataModules version).card = getNumRawDataModules version := by
  have hmin : 1 ≤ version := hlow
  have hsize : 21 ≤ symbolSize version := by rw [symbolSize]; omega
  have hspaced := spaced_alignment hlow hhigh
  have hcount := addsUp hlow hhigh
  rw [AddsUp, ← card_alignedModules hspaced, ← card_versionModules hsize, ← card_cornerModules hsize] at hcount
  obtain ⟨positions, hpositions⟩ : ∃ positions, positions = getAlignmentPatternPositions version := ⟨_, rfl⟩
  obtain ⟨size, hsizeq⟩ : ∃ size, size = symbolSize version := ⟨_, rfl⟩
  rw [← hpositions] at hspaced hcount
  have hapart := fun x y => @aligned_apart version x y positions hspaced
  have hclear := clear_alignment hlow hhigh
  simp only [Clear, ← hpositions, ← hsizeq] at hsize hcount hapart hclear
  let taken := cornerModules size ∪ (versionModules version size ∪ alignedModules positions)
  let area := (Finset.range size).erase 6 ×ˢ (Finset.range size).erase 6
  have hsub : taken ⊆ area := by
    rintro ⟨x, y⟩ hp
    simp only [taken, area, Finset.mem_union, mem_cornerModules, mem_versionModules, mem_alignedModules hspaced,
      Finset.mem_product, Finset.mem_erase, Finset.mem_range] at hp ⊢
    rcases hp with hp | hp | ⟨hx6, hy6, i, j, ⟨hi, hj, _⟩, hnear⟩
    · omega
    · omega
    · have := hclear i hi
      have := hclear j hj
      omega
  have hleft : dataModules version = area \ taken := by
    ext ⟨x, y⟩
    simp only [dataModules, FunctionAt, ← hpositions, ← hsizeq, taken, area, Finset.mem_filter, Finset.mem_sdiff,
      Finset.mem_union, mem_cornerModules, mem_versionModules, mem_alignedModules hspaced, Finset.mem_product,
      Finset.mem_erase, Finset.mem_range]
    by_cases h : Aligned positions x y
    · simp only [h, or_true, not_true, and_false, and_true, false_iff, not_and]
      omega
    · simp only [h, or_false, and_false]
      omega
  have hcard : taken.card = (cornerModules size).card + ((versionModules version size).card + (alignedModules positions).card) := by
    rw [Finset.card_union_of_disjoint, Finset.card_union_of_disjoint]
    · rw [Finset.disjoint_left]
      rintro ⟨x, y⟩ hp hp'
      exact (hapart x y ((mem_alignedModules hspaced).mp hp').2.2).2 hp
    · rw [Finset.disjoint_left]
      rintro ⟨x, y⟩ hp hp'
      rcases Finset.mem_union.mp hp' with hp' | hp'
      · rw [mem_cornerModules] at hp
        rw [mem_versionModules] at hp'
        omega
      · exact (hapart x y ((mem_alignedModules hspaced).mp hp').2.2).1 hp
  have harea : area.card = (size - 1) * (size - 1) := by
    have herase : ((Finset.range size).erase 6).card = size - 1 := by
      rw [Finset.card_erase_of_mem (Finset.mem_range.mpr (by omega)), Finset.card_range]
    rw [Finset.card_product, herase]
  rw [hleft, Finset.card_sdiff_of_subset hsub, hcard, harea]
  omega

end ScoutingComputer.Qrcodegen
