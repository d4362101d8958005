import ScoutingComputer.Qrcodegen.PenaltyBounds
import ScoutingComputer.Qrcodegen.QrCode
import ScoutingComputer.Qrcodegen.ReadBlocks
import ScoutingComputer.Qrcodegen.Zigzag

/-! The symbol that the constructor builds.

Masks leave the function modules alone, and the format bits are function modules: so trying
a mask and taking it off again leaves the data as they were, and every candidate of the
automatic choice is scored as the symbol that would be built with its mask. -/
namespace ScoutingComputer.Qrcodegen

/-! ### Masks -/

def masked (c : Canvas) (msk : Nat) : Canvas :=
  {c with modules := fun p =>
    if p.1 < c.size ∧ p.2 < c.size then c.modules p ^^ (invert msk p.1 p.2 && !c.isFunction p) else c.modules p}

theorem applyMask_ok {msk : Nat} (h : msk ≤ 7) (c : Canvas) : applyMask msk c = .ok (masked c msk) := by
  rw [applyMask, if_neg (by omega)]
  rfl

/-- Taking a mask off again. -/
theorem masked_masked (c : Canvas) (msk : Nat) : masked (masked c msk) msk = c := by
  obtain ⟨size, modules, isFunction⟩ := c
  simp only [masked, Canvas.mk.injEq, and_true, true_and]
  funext p
  by_cases hp : p.1 < size ∧ p.2 < size
  · rw [if_pos hp, if_pos hp, Bool.xor_assoc, Bool.xor_self, Bool.xor_false]
  · rw [if_neg hp, if_neg hp]

theorem masked_function {c : Canvas} {p : Nat × Nat} (h : c.isFunction p = true) (msk : Nat) :
    (masked c msk).modules p = c.modules p := by
  simp [masked, h]

/-! ### Format bits -/

/-- The modules of the format bits. -/
def formatPlaces (size : Nat) : List (Nat × Nat) := (drawFormatBits size 0).map Stroke.place

theorem place_drawFormatBits (size bits : Nat) : (drawFormatBits size bits).map Stroke.place = formatPlaces size := by
  simp only [formatPlaces, drawFormatBits, List.map_append, List.map_map, List.map_cons, List.map_nil]
  rfl

theorem length_drawFormatBits (size bits : Nat) :
    ((drawFormatBits size bits).map Stroke.isDark).length = (formatPlaces size).length := by
  rw [← place_drawFormatBits size bits, List.length_map, List.length_map]

theorem inRange_drawFormatBits {size : Nat} (hsize : 21 ≤ size) (bits : Nat) :
    ∀ s ∈ drawFormatBits size bits, s.InRange size := by
  rintro ⟨x, y, isDark⟩ hs
  rcases (touches_drawFormatBits hsize).mp ⟨isDark, hs⟩ with ⟨rfl, hlow, _, hhigh⟩ | ⟨rfl, hlow, _, hhigh⟩
  · exact ⟨by dsimp only; omega, by dsimp only; omega, hlow, hhigh⟩
  · exact ⟨hlow, hhigh, by dsimp only; omega, by dsimp only; omega⟩

theorem mem_formatPlaces {size : Nat} (hsize : 21 ≤ size) {x y : Nat} :
    (x, y) ∈ formatPlaces size ↔ (x = 8 ∧ (y ≤ 5 ∨ y = 7 ∨ y = 8 ∨ size - 8 ≤ y) ∧ y < size) ∨
      (y = 8 ∧ (x ≤ 5 ∨ x = 7 ∨ size - 8 ≤ x) ∧ x < size) := by
  rw [formatPlaces, mem_places (inRange_drawFormatBits hsize 0), touches_drawFormatBits hsize]
  omega

/-- The grids with the format bits on them. -/
def formatted (c : Canvas) (bits : Nat) : Canvas :=
  {c with modules := Path.write (formatPlaces c.size) ((drawFormatBits c.size bits).map Stroke.isDark) c.modules}

/-- Grids on which a symbol's function modules are marked. -/
structure Marked (version : Nat) (c : Canvas) : Prop where
  size : c.size = symbolSize version
  isFunction : ∀ x y, c.isFunction (x, y) = true ↔
    x < symbolSize version ∧ y < symbolSize version ∧ FunctionAt version x y

theorem size_ge {version : Nat} (hlow : MIN_VERSION ≤ version) : 21 ≤ symbolSize version := by
  have : 1 ≤ version := hlow
  rw [symbolSize]
  omega

theorem Marked.formatPlace {version : Nat} {c : Canvas} (hlow : MIN_VERSION ≤ version) (h : Marked version c) :
    ∀ p ∈ formatPlaces c.size, c.isFunction p = true := by
  have hsize := size_ge hlow
  rintro ⟨x, y⟩ hp
  rw [h.size, mem_formatPlaces hsize] at hp
  refine (h.isFunction x y).mpr ⟨by omega, by omega, ?_⟩
  rw [FunctionAt]
  omega

theorem draw_formatBits {version : Nat} {c : Canvas} (hlow : MIN_VERSION ≤ version) (h : Marked version c) (bits : Nat) :
    draw (drawFormatBits c.size bits) c = .ok (formatted c bits) := by
  have hsize : 21 ≤ c.size := h.size ▸ size_ge hlow
  have hmarks : ∀ values : List Bool, (formatPlaces c.size).length ≤ values.length → (∀ v ∈ values, v = true) →
      Path.write (formatPlaces c.size) values c.isFunction = c.isFunction := by
    intro values hlength htrue
    funext p
    rw [write_true hlength htrue]
    by_cases hp : p ∈ formatPlaces c.size
    · simp [h.formatPlace hlow p hp]
    · simp [hp]
  rw [draw_ok (inRange_drawFormatBits hsize bits), place_drawFormatBits, hmarks]
  · rfl
  · simp [← place_drawFormatBits c.size bits]
  · intro v hv
    obtain ⟨_, _, rfl⟩ := List.mem_map.mp hv
    rfl

/-- Format bits drawn later replace those that were drawn before. -/
theorem formatted_formatted (c : Canvas) (bits bits' : Nat) : formatted (formatted c bits) bits' = formatted c bits' := by
  simp only [formatted, Canvas.mk.injEq, and_true, true_and]
  funext p
  by_cases hp : p ∈ formatPlaces c.size
  · exact Path.write_of_mem (length_drawFormatBits c.size bits').ge hp _ _
  · rw [Path.write_of_notMem hp, Path.write_of_notMem hp, Path.write_of_notMem hp]

/-- The format bits and a mask do not touch the same modules. -/
theorem masked_formatted {version : Nat} {c : Canvas} (hlow : MIN_VERSION ≤ version) (h : Marked version c)
    (bits msk : Nat) : masked (formatted c bits) msk = formatted (masked c msk) bits := by
  simp only [masked, formatted, Canvas.mk.injEq, and_true, true_and]
  funext p
  by_cases hp : p ∈ formatPlaces c.size
  · rw [h.formatPlace hlow p hp, Bool.not_true, Bool.and_false, Bool.xor_false]
    exact (ite_self _).trans (Path.write_of_mem (length_drawFormatBits c.size bits).ge hp _ _)
  · simp only [Path.write_of_notMem hp]

theorem Marked.masked {version : Nat} {c : Canvas} (h : Marked version c) (msk : Nat) : Marked version (masked c msk) := ⟨h.size, h.isFunction⟩

theorem Marked.formatted {version : Nat} {c : Canvas} (h : Marked version c) (bits : Nat) :
    Marked version (formatted c bits) := ⟨h.size, h.isFunction⟩

/-! ### The choice of the mask -/

/-- The grids under a mask, with the format bits that name it. -/
def finished (ecl : Ecc) (c : Canvas) (msk : Nat) : Canvas := formatted (masked c msk) (formatBits ecl msk)

/-- The penalty of the symbol with some mask. -/
def maskPenalty (ecl : Ecc) (c : Canvas) (msk : Nat) : Int :=
  getPenaltyScore c.size (finished ecl c msk).modules

/-- The best of the first `i` masks, or none yet. -/
def BestOf (ecl : Ecc) (c : Canvas) (i : Nat) (msk minPenalty : Int) : Prop :=
  (i = 0 ∧ minPenalty = LONG_MAX) ∨
    ∃ m < i, msk = (m : Nat) ∧ minPenalty = maskPenalty ecl c m ∧
      ∀ j < i, maskPenalty ecl c m ≤ maskPenalty ecl c j ∧ (j < m → maskPenalty ecl c m < maskPenalty ecl c j)

theorem BestOf.next {ecl : Ecc} {c : Canvas} {i : Nat} {msk minPenalty : Int} (h : BestOf ecl c i msk minPenalty)
    (hmax : maskPenalty ecl c i < LONG_MAX) :
    BestOf ecl c (i + 1) (if maskPenalty ecl c i < minPenalty then (i : Int) else msk)
      (if maskPenalty ecl c i < minPenalty then maskPenalty ecl c i else minPenalty) := by
  refine .inr ?_
  by_cases hless : maskPenalty ecl c i < minPenalty
  · rw [if_pos hless, if_pos hless]
    refine ⟨i, Nat.lt_succ_self i, rfl, rfl, fun j hj => ?_⟩
    rcases Nat.lt_succ_iff_lt_or_eq.mp hj with hj | rfl
    · rcases h with ⟨rfl, _⟩ | ⟨m, hm, _, hmin, hbest⟩
      · exact absurd hj (Nat.not_lt_zero j)
      · have := (hbest j hj).1
        exact ⟨by omega, fun _ => by omega⟩
    · exact ⟨le_refl _, fun hlt => absurd hlt (Nat.lt_irrefl j)⟩
  · rw [if_neg hless, if_neg hless]
    rcases h with ⟨_, hmin⟩ | ⟨m, hm, hmsk, hmin, hbest⟩
    · exact absurd (hmin ▸ hmax) hless
    · refine ⟨m, Nat.lt_succ_of_lt hm, hmsk, hmin, fun j hj => ?_⟩
      rcases Nat.lt_succ_iff_lt_or_eq.mp hj with hj | rfl
      · exact hbest j hj
      · exact ⟨by omega, fun hlt => absurd hlt (Nat.lt_asymm hm)⟩

/-- Grids that differ in their format bits only. -/
def SameData (c c' : Canvas) : Prop := c' = c ∨ ∃ bits, c' = formatted c bits

theorem SameData.finished_eq {version : Nat} {c c' : Canvas} (hlow : MIN_VERSION ≤ version) (hmarked : Marked version c)
    (h : SameData c c') (ecl : Ecc) (msk : Nat) : finished ecl c' msk = finished ecl c msk := by
  obtain rfl | ⟨bits, rfl⟩ := h
  · rfl
  · rw [finished, masked_formatted hlow hmarked, formatted_formatted]
    rfl

theorem SameData.marked {version : Nat} {c c' : Canvas} (h : SameData c c') (hmarked : Marked version c) :
    Marked version c' := by
  obtain rfl | ⟨bits, rfl⟩ := h
  · exact hmarked
  · exact hmarked.formatted bits

theorem SameData.formatted {c c' : Canvas} (h : SameData c c') (bits : Nat) : SameData c (formatted c' bits) := by
  obtain rfl | ⟨bits', rfl⟩ := h
  · exact .inr ⟨bits, rfl⟩
  · exact .inr ⟨bits, formatted_formatted c bits' bits⟩

theorem chooseMask_ok {version : Nat} {c : Canvas} (ecl : Ecc) (hlow : MIN_VERSION ≤ version)
    (hhigh : version ≤ MAX_VERSION) (hmarked : Marked version c) {remaining i : Nat} {msk minPenalty : Int} {c' : Canvas}
    (hend : i + remaining = 8) (hsame : SameData c c') (hbest : BestOf ecl c i msk minPenalty) :
    ∃ c'' msk' minPenalty', chooseMask ecl remaining i msk minPenalty c' = .ok (c'', msk') ∧ SameData c c'' ∧
      BestOf ecl c 8 msk' minPenalty' := by
  induction remaining generalizing i msk minPenalty c' with
  | zero =>
    obtain rfl : i = 8 := hend
    exact ⟨c', msk, minPenalty, rfl, hsame, hbest⟩
  | succ remaining ih =>
    have hmax : maskPenalty ecl c i < LONG_MAX := by
      have h := (getPenaltyScore_bounds hlow hhigh (finished ecl c i).modules).2
      rw [maskPenalty, hmarked.size, LONG_MAX]
      omega
    have hmarked' := hsame.marked hmarked
    have hpenalty : getPenaltyScore (formatted (masked c' i) (formatBits ecl i)).size
        (formatted (masked c' i) (formatBits ecl i)).modules = maskPenalty ecl c i := by
      show getPenaltyScore c'.size (finished ecl c' i).modules = _
      rw [hsame.finished_eq hlow hmarked, maskPenalty, hmarked.size, hmarked'.size]
    have hundo : masked (formatted (masked c' i) (formatBits ecl i)) i = formatted c' (formatBits ecl i) := by
      rw [masked_formatted hlow (hmarked'.masked i), masked_masked]
    obtain ⟨c'', msk', minPenalty', hrun, hsame', hbest'⟩ :=
      ih (by omega) (hsame.formatted (formatBits ecl i)) (hbest.next hmax)
    refine ⟨c'', msk', minPenalty', ?_, hsame', hbest'⟩
    rw [← hrun, chooseMask, applyMask_ok (by omega)]
    show (draw (drawFormatBits (masked c' i).size (formatBits ecl i)) (masked c' i)).bind _ = _
    rw [draw_formatBits hlow (hmarked'.masked i)]
    show (applyMask i (formatted (masked c' i) (formatBits ecl i))).bind _ = _
    rw [applyMask_ok (by omega), hundo]
    show chooseMask ecl remaining (i + 1)
      (if getPenaltyScore (formatted (masked c' i) (formatBits ecl i)).size _ < minPenalty then ((i : Int), _)
        else (msk, minPenalty)).1
      (if getPenaltyScore (formatted (masked c' i) (formatBits ecl i)).size _ < minPenalty then ((i : Int), _)
        else (msk, minPenalty)).2 _ = _
    rw [hpenalty]
    split <;> rfl

/-! ### The constructor -/

/-- The grids with the function patterns. -/
def functionGrid (version : Nat) (ecl : Ecc) : Canvas where
  size := symbolSize version
  modules := Path.write ((drawFunctionPatterns version ecl).map Stroke.place)
    ((drawFunctionPatterns version ecl).map Stroke.isDark) fun _ => false
  isFunction := Path.write ((drawFunctionPatterns version ecl).map Stroke.place)
    ((drawFunctionPatterns version ecl).map fun _ => true) fun _ => false

theorem draw_functionPatterns {version : Nat} (ecl : Ecc) (hlow : MIN_VERSION ≤ version) (hhigh : version ≤ MAX_VERSION) :
    draw (drawFunctionPatterns version ecl) (blank version) = .ok (functionGrid version ecl) :=
  draw_ok (c := blank version) (inRange_drawFunctionPatterns ecl hlow hhigh)

theorem marked_functionGrid {version : Nat} (ecl : Ecc) (hlow : MIN_VERSION ≤ version) (hhigh : version ≤ MAX_VERSION) :
    Marked version (functionGrid version ecl) where
  size := rfl
  isFunction := by
    intro x y
    show Path.write ((drawFunctionPatterns version ecl).map Stroke.place)
      ((drawFunctionPatterns version ecl).map fun _ => true) (fun _ => false) (x, y) = true ↔ _
    rw [write_true, Bool.or_false, decide_eq_true_eq, mem_functionPlaces ecl hlow hhigh]
    · rw [List.length_map, List.length_map]
    · intro v hv
      obtain ⟨_, _, rfl⟩ := List.mem_map.mp hv
      rfl

/-- The grids with function patterns and codewords. -/
def dataGrid (version : Nat) (ecl : Ecc) (allCodewords : List UInt8) : Canvas :=
  {functionGrid version ecl with
    modules := Path.write (dataPath version) (codewordBits allCodewords) (functionGrid version ecl).modules}

theorem marked_dataGrid {version : Nat} (ecl : Ecc) (hlow : MIN_VERSION ≤ version) (hhigh : version ≤ MAX_VERSION)
    (allCodewords : List UInt8) : Marked version (dataGrid version ecl allCodewords) := by
  obtain ⟨hsize, hfunction⟩ := marked_functionGrid ecl hlow hhigh
  exact ⟨hsize, hfunction⟩

/-- What the scan finds free. -/
theorem filter_zigzag {version : Nat} (ecl : Ecc) (hlow : MIN_VERSION ≤ version) (hhigh : version ≤ MAX_VERSION) :
    (zigzag (symbolSize version)).filter (fun p => !(functionGrid version ecl).isFunction p) = dataPath version := by
  refine List.filter_congr fun p hp => ?_
  obtain ⟨x, y⟩ := p
  obtain ⟨hx, _, hy⟩ := mem_zigzag.mp hp
  have hmark := (marked_functionGrid ecl hlow hhigh).isFunction x y
  by_cases hf : FunctionAt version x y
  · simp [hf, hmark.mpr ⟨hx, hy, hf⟩]
  · have hlight : (functionGrid version ecl).isFunction (x, y) = false := by
      rw [Bool.eq_false_iff]
      exact fun h => hf (hmark.mp h).2.2
    simp [hf, hlight]

theorem drawCodewords_ok {version : Nat} (ecl : Ecc) (hlow : MIN_VERSION ≤ version) (hhigh : version ≤ MAX_VERSION)
    {allCodewords : List UInt8} (hlen : allCodewords.length = getNumRawDataModules version / 8) :
    drawCodewords version allCodewords (functionGrid version ecl) = .ok (dataGrid version ecl allCodewords) := by
  rw [drawCodewords, if_neg (not_not_intro hlen)]
  show Except.ok ((zigzag (symbolSize version)).foldl (drawBit allCodewords) (functionGrid version ecl, 0)).1 = _
  rw [foldl_drawBit _ _ _ (Nat.zero_le _), filter_zigzag ecl hlow hhigh]
  rfl

/-- The symbol of the codewords, with some mask. -/
def symbol (version : Nat) (ecl : Ecc) (allCodewords : List UInt8) (msk : Nat) : QrCode where
  version := version
  size := symbolSize version
  errorCorrectionLevel := ecl
  mask := msk
  modules := (finished ecl (dataGrid version ecl allCodewords) msk).modules

/-- The constructor up to the choice of the mask. -/
theorem makeQrCode_drawn {version : Nat} {ecl : Ecc} (hlow : MIN_VERSION ≤ version) (hhigh : version ≤ MAX_VERSION)
    {dataCodewords allCodewords : List UInt8} (hall : addEccAndInterleave version ecl dataCodewords = .ok allCodewords)
    {msk : Int} (hmsk : -1 ≤ msk ∧ msk ≤ 7) :
    makeQrCode version ecl dataCodewords msk = do
      let (c, msk) ← if msk = -1 then chooseMask ecl 8 0 msk LONG_MAX (dataGrid version ecl allCodewords)
        else .ok (dataGrid version ecl allCodewords, msk)
      let c ← applyMask msk.toNat c
      let c ← draw (drawFormatBits c.size (formatBits ecl msk.toNat)) c
      return ⟨version, c.size, ecl, msk.toNat, c.modules⟩ := by
  have hlen := length_allCodewords (good_layout ecl hlow hhigh) hall
  rw [makeQrCode, if_neg (by omega), if_neg (by omega), draw_functionPatterns ecl hlow hhigh, hall]
  show (drawCodewords version allCodewords (functionGrid version ecl)).bind _ = _
  rw [drawCodewords_ok ecl hlow hhigh hlen]
  rfl

/-- The end of the constructor, once there is a mask. -/
theorem finish_ok {version : Nat} {ecl : Ecc} (hlow : MIN_VERSION ≤ version) (hhigh : version ≤ MAX_VERSION)
    {allCodewords : List UInt8} {c : Canvas} (hsame : SameData (dataGrid version ecl allCodewords) c) {m : Nat} (hm : m ≤ 7) :
    (do
      let c ← applyMask m c
      let c ← draw (drawFormatBits c.size (formatBits ecl m)) c
      return (⟨version, c.size, ecl, m, c.modules⟩ : QrCode)) = .ok (symbol version ecl allCodewords m) := by
  have hmarked := marked_dataGrid ecl hlow hhigh allCodewords
  have hmarked' := hsame.marked hmarked
  rw [applyMask_ok hm]
  show (draw (drawFormatBits (masked c m).size (formatBits ecl m)) (masked c m)).bind _ = _
  rw [draw_formatBits hlow (hmarked'.masked m)]
  show Except.ok (⟨version, (finished ecl c m).size, ecl, m, (finished ecl c m).modules⟩ : QrCode) = _
  rw [hsame.finished_eq hlow hmarked]
  rfl

/-- A mask that is asked for. -/
theorem makeQrCode_mask {version : Nat} {ecl : Ecc} (hlow : MIN_VERSION ≤ version) (hhigh : version ≤ MAX_VERSION)
    {dataCodewords allCodewords : List UInt8} (hall : addEccAndInterleave version ecl dataCodewords = .ok allCodewords)
    {m : Nat} (hm : m ≤ 7) : makeQrCode version ecl dataCodewords m = .ok (symbol version ecl allCodewords m) := by
  rw [makeQrCode_drawn hlow hhigh hall ⟨by omega, by omega⟩, if_neg (by omega)]
  exact finish_ok hlow hhigh (.inl rfl) hm

/-- The mask that is chosen. -/
theorem makeQrCode_chosen {version : Nat} {ecl : Ecc} (hlow : MIN_VERSION ≤ version) (hhigh : version ≤ MAX_VERSION)
    {dataCodewords allCodewords : List UInt8} (hall : addEccAndInterleave version ecl dataCodewords = .ok allCodewords) :
    ∃ m, m ≤ 7 ∧ makeQrCode version ecl dataCodewords (-1) = .ok (symbol version ecl allCodewords m) ∧
      ∀ j ≤ 7, maskPenalty ecl (dataGrid version ecl allCodewords) m ≤ maskPenalty ecl (dataGrid version ecl allCodewords) j ∧
        (j < m → maskPenalty ecl (dataGrid version ecl allCodewords) m < maskPenalty ecl (dataGrid version ecl allCodewords) j) := by
  have hmarked := marked_dataGrid ecl hlow hhigh allCodewords
  obtain ⟨c, msk, minPenalty, hchoose, hsame, hbest⟩ := chooseMask_ok ecl hlow hhigh hmarked (Nat.zero_add 8) (.inl rfl)
    (.inl ⟨rfl, rfl⟩ : BestOf ecl (dataGrid version ecl allCodewords) 0 (-1) LONG_MAX)
  obtain ⟨h, _⟩ | ⟨m, hm, rfl, _, hleast⟩ := hbest
  · cases h
  · refine ⟨m, Nat.le_of_lt_succ hm, ?_, fun j hj => hleast j (Nat.lt_succ_of_le hj)⟩
    rw [makeQrCode_drawn hlow hhigh hall ⟨by decide, by decide⟩, if_pos rfl, hchoose]
    exact finish_ok hlow hhigh hsame (Nat.le_of_lt_succ hm)

/-- What a symbol that was made is. -/
theorem makeQrCode_symbol {version : Nat} {ecl : Ecc} {dataCodewords : List UInt8} {msk : Int} {qr : QrCode}
    (h : makeQrCode version ecl dataCodewords msk = .ok qr) :
    (MIN_VERSION ≤ version ∧ version ≤ MAX_VERSION) ∧ ∃ allCodewords m,
      addEccAndInterleave version ecl dataCodewords = .ok allCodewords ∧ m ≤ 7 ∧ qr = symbol version ecl allCodewords m := by
  by_cases hversion : version < MIN_VERSION ∨ version > MAX_VERSION
  · rw [makeQrCode, if_pos hversion] at h
    cases h
  · by_cases hmsk : msk < -1 ∨ msk > 7
    · rw [makeQrCode, if_neg hversion, if_pos hmsk] at h
      cases h
    · have hlow : MIN_VERSION ≤ version := by omega
      have hhigh : version ≤ MAX_VERSION := by omega
      refine ⟨⟨hlow, hhigh⟩, ?_⟩
      cases hall : addEccAndInterleave version ecl dataCodewords with
      | error e =>
        rw [makeQrCode, if_neg hversion, if_neg hmsk, draw_functionPatterns ecl hlow hhigh, hall] at h
        cases h
      | ok allCodewords =>
        by_cases hauto : msk = -1
        · obtain ⟨m, hm, hmade, _⟩ := makeQrCode_chosen hlow hhigh hall
          rw [hauto, hmade] at h
          exact ⟨allCodewords, m, rfl, hm, (Except.ok.inj h).symm⟩
        · obtain ⟨m, rfl⟩ : ∃ m : Nat, msk = m := ⟨msk.toNat, by omega⟩
          rw [makeQrCode_mask hlow hhigh hall (by omega)] at h
          exact ⟨allCodewords, m, rfl, by omega, (Except.ok.inj h).symm⟩

/-- **The mask that is chosen scores least**: the symbol is the one that asking for its mask
gives, none of the eight has a smaller penalty, and those before it have a greater one. -/
theorem makeQrCode_least {version : Nat} {ecl : Ecc} {dataCodewords : List UInt8} {qr : QrCode}
    (h : makeQrCode version ecl dataCodewords (-1) = .ok qr) :
    qr.mask ≤ 7 ∧ makeQrCode version ecl dataCodewords qr.mask = .ok qr ∧
      ∀ j ≤ 7, ∃ other, makeQrCode version ecl dataCodewords (j : Nat) = .ok other ∧
        getPenaltyScore qr.size qr.modules ≤ getPenaltyScore other.size other.modules ∧
          (j < qr.mask → getPenaltyScore qr.size qr.modules < getPenaltyScore other.size other.modules) := by
  obtain ⟨⟨hlow, hhigh⟩, allCodewords, _, hall, _, _⟩ := makeQrCode_symbol h
  obtain ⟨m, hm, hmade, hleast⟩ := makeQrCode_chosen hlow hhigh hall
  cases Except.ok.inj (h.symm.trans hmade)
  refine ⟨hm, makeQrCode_mask hlow hhigh hall hm, fun j hj => ?_⟩
  obtain ⟨hle, hlt⟩ := hleast j hj
  exact ⟨symbol version ecl allCodewords j, makeQrCode_mask hlow hhigh hall hj, hle, hlt⟩

/-- A full set of data codewords always gives a symbol. -/
theorem makeQrCode_isOk {version : Nat} {ecl : Ecc} (hlow : MIN_VERSION ≤ version) (hhigh : version ≤ MAX_VERSION)
    {dataCodewords : List UInt8} (hdata : dataCodewords.length = getNumDataCodewords version ecl) :
    ∃ qr, makeQrCode version ecl dataCodewords (-1) = .ok qr ∧ qr.version = version ∧ qr.size = symbolSize version ∧
      qr.errorCorrectionLevel = ecl := by
  obtain ⟨_, allCodewords, _, hall, _, _⟩ := addEccAndInterleave_ok (good_layout ecl hlow hhigh) hdata
  obtain ⟨m, _, hmade, _⟩ := makeQrCode_chosen hlow hhigh hall
  exact ⟨_, hmade, rfl, rfl, rfl⟩

theorem makeQrCode_least_zero : ∃ qr, makeQrCode 1 .low (List.replicate 19 0) (-1) = .ok qr ∧ qr.mask ≤ 7 ∧
    makeQrCode 1 .low (List.replicate 19 0) qr.mask = .ok qr := by
  obtain ⟨qr, hqr, _⟩ := @makeQrCode_isOk 1 .low (by decide) (by decide) (List.replicate 19 0) (by decide)
  obtain ⟨hmask, hsame, _⟩ := makeQrCode_least hqr
  exact ⟨qr, hqr, hmask, hsame⟩

end ScoutingComputer.Qrcodegen
