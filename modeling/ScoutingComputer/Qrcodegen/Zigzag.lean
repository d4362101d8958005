import ScoutingComputer.Qrcodegen.Codewords
import ScoutingComputer.Qrcodegen.FunctionModules
import ScoutingComputer.Qrcodegen.ReadSegments

/-! The scan over the codewords' modules.

The zigzag passes every module once, but the column of the vertical timing pattern, which
holds no data. So there is a module for every bit of the codewords, less than eight are left
over, and the bits stand along the scan in their order. -/
namespace ScoutingComputer.Qrcodegen

/-! ### The path -/

/-- The column pairs to the right of the timing pattern, and those to its left. -/
theorem rightColumns_eq (k extra : Nat) :
    rightColumns (k + 4 + extra) (2 * k + 6) = (List.range k).map (fun i => 2 * (k - i) + 6) ++ [5, 3, 1] := by
  induction k with
  | zero =>
    have hstop : rightColumns (extra + 1) 0 = [] := by
      rw [rightColumns, if_neg (by decide)]
    have hfour : 0 + 4 + extra = extra + 1 + 1 + 1 + 1 := by omega
    rw [hfour, rightColumns, if_pos (by decide)]
    show 5 :: rightColumns (extra + 1 + 1 + 1) 3 = _
    rw [rightColumns, if_pos (by decide)]
    show 5 :: 3 :: rightColumns (extra + 1 + 1) 1 = _
    rw [rightColumns, if_pos (by decide)]
    show 5 :: 3 :: 1 :: rightColumns (extra + 1) 0 = _
    rw [hstop]
    rfl
  | succ k ih =>
    have hpasses : k + 1 + 4 + extra = k + 4 + extra + 1 := by omega
    have hnext : 2 * (k + 1) + 6 - 2 = 2 * k + 6 := by omega
    have hne : ¬ 2 * (k + 1) + 6 = 6 := by omega
    rw [hpasses, rightColumns, if_pos (by omega), if_neg hne]
    show (2 * (k + 1) + 6) :: rightColumns (k + 4 + extra) (2 * (k + 1) + 6 - 2) = _
    rw [hnext, ih, List.range_succ_eq_map, List.map_cons, List.map_map, List.cons_append]
    congr 2
    refine List.map_congr_left fun i hi => ?_
    have := List.mem_range.mp hi
    rw [Function.comp_apply]
    omega

theorem rightColumns_version (version : Nat) :
    rightColumns (symbolSize version) (symbolSize version - 1) =
      (List.range (2 * version + 5)).map (fun i => 2 * (2 * version + 5 - i) + 6) ++ [5, 3, 1] := by
  have hpasses : symbolSize version = 2 * version + 5 + 4 + (2 * version + 8) := by rw [symbolSize]; omega
  have hright : symbolSize version - 1 = 2 * (2 * version + 5) + 6 := by rw [symbolSize]; omega
  rw [hright, ← rightColumns_eq _ (2 * version + 8), ← hpasses]

theorem mem_rightColumns {version right : Nat} :
    right ∈ rightColumns (symbolSize version) (symbolSize version - 1) ↔
      (right = 5 ∨ right = 3 ∨ right = 1) ∨ (8 ≤ right ∧ right < symbolSize version ∧ right % 2 = 0) := by
  rw [rightColumns_version, symbolSize, List.mem_append]
  constructor
  · rintro (h | h)
    · obtain ⟨i, hi, rfl⟩ := List.mem_map.mp h
      have := List.mem_range.mp hi
      exact .inr (by omega)
    · exact .inl (by simpa using h)
  · rintro (h | h)
    · exact .inr (by simpa using h)
    · exact .inl (List.mem_map.mpr ⟨2 * version + 5 - (right - 6) / 2, List.mem_range.mpr (by omega), by omega⟩)

/-- **The scan passes every module outside the column of the timing pattern.** -/
theorem mem_zigzag {version x y : Nat} :
    (x, y) ∈ zigzag (symbolSize version) ↔ x < symbolSize version ∧ x ≠ 6 ∧ y < symbolSize version := by
  have hsize : 17 ≤ symbolSize version ∧ symbolSize version % 2 = 1 := by rw [symbolSize]; omega
  constructor
  · intro h
    obtain ⟨right, hright, h⟩ := List.mem_flatMap.mp h
    obtain ⟨vert, hvert, h⟩ := List.mem_flatMap.mp h
    obtain ⟨j, hj, h⟩ := List.mem_map.mp h
    have hright := mem_rightColumns.mp hright
    have := List.mem_range.mp hvert
    have hj : j = 0 ∨ j = 1 := by simpa using hj
    simp only [Prod.mk.injEq] at h
    split at h <;> omega
  · rintro ⟨hx, hx6, hy⟩
    obtain ⟨right, j, hright, hj, hxr⟩ : ∃ right j,
        right ∈ rightColumns (symbolSize version) (symbolSize version - 1) ∧ j ∈ [0, 1] ∧ right - j = x := by
      by_cases hlow : x < 6
      · by_cases hodd : x % 2 = 1
        · exact ⟨x, 0, mem_rightColumns.mpr (.inl (by omega)), by simp, by omega⟩
        · exact ⟨x + 1, 1, mem_rightColumns.mpr (.inl (by omega)), by simp, by omega⟩
      · by_cases heven : x % 2 = 0
        · exact ⟨x, 0, mem_rightColumns.mpr (.inr (by omega)), by simp, by omega⟩
        · exact ⟨x + 1, 1, mem_rightColumns.mpr (.inr (by omega)), by simp, by omega⟩
    refine List.mem_flatMap.mpr ⟨right, hright, List.mem_flatMap.mpr
      ⟨if ((right + 1) &&& 2) == 0 then symbolSize version - 1 - y else y, List.mem_range.mpr ?_,
        List.mem_map.mpr ⟨j, hj, ?_⟩⟩⟩
    · split <;> omega
    · simp only [Prod.mk.injEq]
      refine ⟨hxr, ?_⟩
      split <;> omega

theorem length_zigzag (version : Nat) :
    (zigzag (symbolSize version)).length = (symbolSize version - 1) * symbolSize version := by
  have hcolumns : (rightColumns (symbolSize version) (symbolSize version - 1)).length = 2 * version + 8 := by
    rw [rightColumns_version]
    simp
  have hwide : symbolSize version - 1 = (2 * version + 8) * 2 := by rw [symbolSize]; omega
  have hpairs : (zigzag (symbolSize version)).length = (2 * version + 8) * (symbolSize version * 2) := by
    simp only [zigzag, List.length_flatMap, List.length_map, List.length_cons, List.length_nil, List.map_const',
      List.sum_replicate, List.length_range, hcolumns]
    rfl
  rw [hpairs, hwide, Nat.mul_assoc, Nat.mul_comm (symbolSize version)]

/-- No module is passed twice. -/
theorem nodup_zigzag (version : Nat) : (zigzag (symbolSize version)).Nodup := by
  have harea : (zigzag (symbolSize version)).toFinset =
      (Finset.range (symbolSize version)).erase 6 ×ˢ Finset.range (symbolSize version) := by
    ext ⟨x, y⟩
    rw [List.mem_toFinset, mem_zigzag, Finset.mem_product, Finset.mem_erase, Finset.mem_range, Finset.mem_range]
    exact ⟨fun ⟨hx, h6, hy⟩ => ⟨⟨h6, hx⟩, hy⟩, fun ⟨⟨h6, hx⟩, hy⟩ => ⟨hx, h6, hy⟩⟩
  have hcard : (zigzag (symbolSize version)).toFinset.card = (zigzag (symbolSize version)).length := by
    have hsize : 6 < symbolSize version := by rw [symbolSize]; omega
    rw [harea, Finset.card_product, Finset.card_erase_of_mem (Finset.mem_range.mpr hsize), Finset.card_range,
      length_zigzag]
  exact Multiset.toFinset_card_eq_card_iff_nodup.mp hcard

/-- The modules of the codewords' bits, in the order of the scan. -/
def dataPath (version : Nat) : List (Nat × Nat) :=
  (zigzag (symbolSize version)).filter fun p => ¬ FunctionAt version p.1 p.2

theorem nodup_dataPath (version : Nat) : (dataPath version).Nodup := (nodup_zigzag version).filter _

theorem mem_dataPath {version : Nat} {p : Nat × Nat} :
    p ∈ dataPath version ↔ p.1 < symbolSize version ∧ p.2 < symbolSize version ∧ ¬ FunctionAt version p.1 p.2 := by
  obtain ⟨x, y⟩ := p
  rw [dataPath, List.mem_filter, mem_zigzag, decide_eq_true_eq]
  constructor
  · rintro ⟨⟨hx, _, hy⟩, hf⟩
    exact ⟨hx, hy, hf⟩
  · rintro ⟨hx, hy, hf⟩
    exact ⟨⟨hx, fun h6 => hf (.inl h6), hy⟩, hf⟩

/-- **There are as many modules for data as the library counts on.** -/
theorem length_dataPath {version : Nat} (hlow : MIN_VERSION ≤ version) (hhigh : version ≤ MAX_VERSION) :
    (dataPath version).length = getNumRawDataModules version := by
  have hmodules : (dataPath version).toFinset = dataModules version := by
    ext p
    rw [List.mem_toFinset, mem_dataPath, dataModules, Finset.mem_filter, Finset.mem_product, Finset.mem_range,
      Finset.mem_range]
    exact and_assoc.symm
  rw [← card_dataModules hlow hhigh, ← hmodules, List.toFinset_card_of_nodup (nodup_dataPath version)]

/-! ### Drawing the codewords -/

theorem drawBit_next {data : List UInt8} {c : Canvas} {i : Nat} {p : Nat × Nat} (hp : c.isFunction p = false)
    (hi : i < data.length * 8) : drawBit data (c, i) p = ({c with
      modules := Function.update c.modules p (getBit (data.getD (i >>> 3) 0).toNat (7 - (i &&& 7)))}, i + 1) := by
  simp only [drawBit, hp, Bool.not_false, hi, decide_true, Bool.and_self, if_true]
  congr 2
  funext q
  rw [Function.update_apply]

/-- Each module of the scan that is not a function module takes the next bit. -/
theorem foldl_drawBit (data : List UInt8) (path : List (Nat × Nat)) (c : Canvas) {i : Nat} (hi : i ≤ data.length * 8) :
    (path.foldl (drawBit data) (c, i)).1 = {c with
      modules := Path.write (path.filter fun p => !c.isFunction p) ((codewordBits data).drop i) c.modules} := by
  induction path generalizing c i with
  | nil => rfl
  | cons p path ih =>
    rw [List.foldl_cons]
    by_cases hp : c.isFunction p = true
    · have hstep : drawBit data (c, i) p = (c, i) := by simp [drawBit, hp]
      rw [hstep, ih c hi, List.filter_cons_of_neg (by simp [hp])]
    · have hp : c.isFunction p = false := by simpa using hp
      rw [List.filter_cons_of_pos (by simp [hp])]
      rcases Nat.lt_or_eq_of_le hi with hlt | heq
      · have hlen := length_codewordBits data
        have hbit : (codewordBits data).drop i =
            getBit (data.getD (i >>> 3) 0).toNat (7 - (i &&& 7)) :: (codewordBits data).drop (i + 1) := by
          have hget := getElem?_codewordBits hlt
          rw [List.drop_eq_getElem_cons (by omega)]
          congr 1
          rw [List.getElem?_eq_getElem (by omega)] at hget
          exact Option.some.inj hget
        rw [drawBit_next hp hlt, ih _ hlt, hbit]
        rfl
      · have hstep : drawBit data (c, i) p = (c, i) := by simp [drawBit, heq]
        have hdrop : (codewordBits data).drop i = [] := List.drop_eq_nil_of_le (by rw [length_codewordBits]; omega)
        rw [hstep, ih c hi, hdrop]
        cases path.filter fun p => !c.isFunction p <;> rfl

/-- How far the bits are drawn at the end of the scan. -/
theorem foldl_drawBit_index (data : List UInt8) (path : List (Nat × Nat)) (c : Canvas) {i : Nat} (hi : i ≤ data.length * 8) :
    (path.foldl (drawBit data) (c, i)).2 = min (i + (path.filter fun p => !c.isFunction p).length) (data.length * 8) := by
  induction path generalizing c i with
  | nil => exact (Nat.min_eq_left hi).symm
  | cons p path ih =>
    rw [List.foldl_cons]
    by_cases hp : c.isFunction p = true
    · have hstep : drawBit data (c, i) p = (c, i) := by simp [drawBit, hp]
      rw [hstep, ih c hi, List.filter_cons_of_neg (by simp [hp])]
    · have hp : c.isFunction p = false := by simpa using hp
      rw [List.filter_cons_of_pos (by simp [hp]), List.length_cons]
      rcases Nat.lt_or_eq_of_le hi with hlt | heq
      · rw [drawBit_next hp hlt, ih _ hlt]
        show min (i + 1 + (path.filter fun p => !c.isFunction p).length) _ = _
        omega
      · have hstep : drawBit data (c, i) p = (c, i) := by simp [drawBit, heq]
        rw [hstep, ih c hi]
        omega

end ScoutingComputer.Qrcodegen
