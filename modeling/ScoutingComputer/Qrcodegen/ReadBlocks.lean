import Mathlib.Data.List.Basic
import ScoutingComputer.Foundation.Path
import ScoutingComputer.Foundation.ReedSolomon
import ScoutingComputer.Qrcodegen.Blocks

/-! Reading the blocks of a symbol.

The reader takes the codewords apart into blocks, corrects each, and puts the data
together. Each block with its check codewords is a word of a Reed-Solomon code, so a reader
that finds the nearest word gets the data back as long as at most half as many codewords
of every block are wrong as it has check codewords (`readBlocks_corrects`). -/
namespace ScoutingComputer.Qrcodegen
open ReedSolomon

/-! ### The check codewords -/

/-- The codewords of a block vanish at the first powers of 2. -/
def IsBlock (eccLen : Nat) (block : List UInt8) : Prop := IsWord GF256.two eccLen (block.map GF256.mk)

theorem multiplyRoot_eq (root : UInt8) (result : List UInt8) :
    (multiplyRoot root result).map GF256.mk = timesRoot ⟨root⟩ (result.map GF256.mk) := by
  induction result with
  | nil => rfl
  | cons c result ih =>
    cases result with
    | nil =>
      have hzero : (⟨c⟩ : GF256) * ⟨root⟩ + 0 = ⟨reedSolomonMultiply c root⟩ := add_zero _
      simp only [multiplyRoot, List.map_cons, List.map_nil, timesRoot, List.headD_nil, hzero]
    | cons c' result =>
      rw [multiplyRoot, List.map_cons, ih]
      rfl

theorem divisorLoop_eq (passes k : Nat) (result : List UInt8) :
    (divisorLoop passes (GF256.two ^ k).byte result).map GF256.mk =
      ((List.range passes).map fun i => GF256.two ^ (k + i)).foldl (fun cs root => timesRoot root cs)
        (result.map GF256.mk) := by
  induction passes generalizing k result with
  | zero => rfl
  | succ passes ih =>
    have hroot : reedSolomonMultiply (GF256.two ^ k).byte 0x02 = (GF256.two ^ (k + 1)).byte := by
      rw [pow_succ]
      rfl
    rw [divisorLoop, hroot, ih, multiplyRoot_eq, List.range_succ_eq_map, List.map_cons, List.foldl_cons, List.map_map,
      Nat.add_zero]
    congr 1
    refine List.map_congr_left fun i _ => ?_
    rw [Function.comp_apply, Nat.succ_eq_add_one, Nat.add_assoc, Nat.add_comm 1]

theorem reedSolomonComputeDivisor_ok {degree : Nat} (hlow : 1 ≤ degree) (hhigh : degree ≤ 255) :
    ∃ rsDiv, reedSolomonComputeDivisor degree = .ok rsDiv ∧
      rsDiv.map GF256.mk = divisor (roots GF256.two degree) := by
  refine ⟨divisorLoop degree 1 (List.replicate (degree - 1) 0 ++ [1]), ?_, ?_⟩
  · rw [reedSolomonComputeDivisor, if_neg (by omega)]
    rfl
  · have hloop := divisorLoop_eq degree 0 (List.replicate (degree - 1) 0 ++ [1])
    have hone : (GF256.two ^ 0).byte = 1 := rfl
    simp only [hone, Nat.zero_add] at hloop
    rw [hloop, divisor, roots, List.length_map, List.length_range, List.map_append, List.map_replicate]
    rfl

theorem divisionStep_eq (rsDiv result : List UInt8) (b : UInt8) :
    (divisionStep rsDiv result b).map GF256.mk = shift (rsDiv.map GF256.mk) (result.map GF256.mk) ⟨b⟩ := by
  have hhead : (result.map GF256.mk).headD 0 = ⟨result.headD 0⟩ := by
    cases result <;> rfl
  rw [divisionStep, shift, hhead, List.map_map, List.map_zipWith, List.zipWith_map_right, ← List.map_tail]
  have hlast : result.tail.map GF256.mk ++ [0] = (result.tail ++ [0]).map GF256.mk := by
    rw [List.map_append]
    rfl
  rw [hlast, List.zipWith_map_left]
  rfl

theorem reedSolomonComputeRemainder_eq (data rsDiv : List UInt8) :
    (reedSolomonComputeRemainder data rsDiv).map GF256.mk = remainder (rsDiv.map GF256.mk) (data.map GF256.mk) := by
  have hfold : ∀ (data result : List UInt8), (data.foldl (divisionStep rsDiv) result).map GF256.mk =
      (data.map GF256.mk).foldl (shift (rsDiv.map GF256.mk)) (result.map GF256.mk) := by
    intro data
    induction data with
    | nil => exact fun _ => rfl
    | cons b data ih =>
      intro result
      rw [List.foldl_cons, ih, divisionStep_eq, List.map_cons, List.foldl_cons]
  rw [reedSolomonComputeRemainder, hfold, remainder, List.length_map, List.map_replicate]
  rfl

/-- A block with the check codewords of its data. -/
def withEcc (rsDiv dat : List UInt8) : List UInt8 := dat ++ reedSolomonComputeRemainder dat rsDiv

theorem length_ecc {eccLen : Nat} (hpos : 1 ≤ eccLen) {rsDiv : List UInt8}
    (hdiv : rsDiv.map GF256.mk = divisor (roots GF256.two eccLen)) (dat : List UInt8) :
    (reedSolomonComputeRemainder dat rsDiv).length = eccLen := by
  have hroots : roots GF256.two eccLen ≠ [] := by
    rw [← List.length_pos_iff, roots, List.length_map, List.length_range]
    exact hpos
  have hlen : (divisor (roots GF256.two eccLen)).length = eccLen := by
    rw [length_divisor hroots, roots, List.length_map, List.length_range]
  have hne : divisor (roots GF256.two eccLen) ≠ [] := by
    rw [← List.length_pos_iff, hlen]
    exact hpos
  rw [← List.length_map (f := GF256.mk), reedSolomonComputeRemainder_eq, hdiv, length_remainder hne, hlen]

/-- **A block is a word of the code.** -/
theorem isBlock_withEcc {eccLen : Nat} (hpos : 1 ≤ eccLen) {rsDiv : List UInt8}
    (hdiv : rsDiv.map GF256.mk = divisor (roots GF256.two eccLen)) (dat : List UInt8) :
    IsBlock eccLen (withEcc rsDiv dat) := by
  rw [IsBlock, withEcc, List.map_append, reedSolomonComputeRemainder_eq, hdiv]
  exact isWord_append_remainder GF256.add_self GF256.two (Nat.ne_of_gt hpos) (dat.map GF256.mk)

theorem errors_map_mk (a b : List UInt8) : errors (a.map GF256.mk) (b.map GF256.mk) = errors a b := by
  induction a generalizing b with
  | nil => rfl
  | cons x a ih =>
    cases b with
    | nil => rfl
    | cons y b =>
      rw [List.map_cons, List.map_cons, errors, errors, ih]
      simp only [GF256.mk.injEq]

/-- At most one block is near to what was received. -/
theorem block_unique {eccLen : Nat} {a b received : List UInt8} (ha : IsBlock eccLen a) (hb : IsBlock eccLen b)
    (hla : a.length = received.length) (hlb : b.length = received.length) (hlen : received.length ≤ 255)
    (hna : 2 * errors a received ≤ eccLen) (hnb : 2 * errors b received ≤ eccLen) : a = b := by
  have heq : a.map GF256.mk = b.map GF256.mk := by
    refine @eq_of_near GF256 _ _ GF256.two eccLen _ _ (received.map GF256.mk) ha hb ?_ ?_ ?_ ?_ ?_
    · rw [List.length_map, List.length_map, hla]
    · rw [List.length_map, List.length_map, hlb]
    · intro i hi j hj hij
      rw [List.length_map] at hi hj
      exact GF256.two_pow_inj (by omega) (by omega) hij
    · rw [errors_map_mk]
      exact hna
    · rw [errors_map_mk]
      exact hnb
  have hinj : Function.Injective GF256.mk := fun x y hxy => by cases hxy; rfl
  exact List.map_injective_iff.mpr hinj heq

/-! ### The reader -/

/-- The codewords of block `j`, without the padding byte of a short one. -/
def blockPlaces (l : Layout) (j : Nat) : List (Nat × Nat) :=
  ((List.range (l.shortBlockLen + 1)).filter fun i => i ≠ l.shortDataLen ∨ j ≥ l.numShortBlocks).map fun i => (i, j)

/-- The blocks that codewords are taken apart into. -/
def receivedBlocks (l : Layout) (codewords : List UInt8) : List (List UInt8) :=
  (List.range l.numBlocks).map fun j =>
    (blockPlaces l j).map fun p => (Path.read (interleaved l (l.shortBlockLen + 1) l.numBlocks) codewords p).getD 0

/-- The data of the blocks, each corrected first. -/
def readBlocks (correct : Nat → List UInt8 → List UInt8) (l : Layout) (codewords : List UInt8) : List UInt8 :=
  ((receivedBlocks l codewords).mapIdx fun j block => (correct l.blockEccLen block).take (l.dataLen j)).flatten

/-- A correction that finds the block within half as many errors as there are check
codewords. -/
def Corrects (correct : Nat → List UInt8 → List UInt8) : Prop :=
  ∀ eccLen block received, IsBlock eccLen block → block.length = received.length → received.length ≤ 255 →
    2 * errors block received ≤ eccLen → correct eccLen received = block

open Classical in
/-- The block within reach, if there is one. -/
noncomputable def nearest (eccLen : Nat) (received : List UInt8) : List UInt8 :=
  if h : ∃ block, IsBlock eccLen block ∧ block.length = received.length ∧ 2 * errors block received ≤ eccLen then h.choose
  else received

theorem nearest_corrects : Corrects nearest := by
  intro eccLen block received hblock hlen hshort hnear
  have h : ∃ block, IsBlock eccLen block ∧ block.length = received.length ∧ 2 * errors block received ≤ eccLen :=
    ⟨block, hblock, hlen, hnear⟩
  obtain ⟨hblock', hlen', hnear'⟩ := h.choose_spec
  rw [nearest, dif_pos h]
  exact block_unique hblock' hblock hlen' hlen hshort hnear' hnear

/-! ### Splitting the data -/

/-- The data of the blocks from block `i` on. -/
def dataBlocks (l : Layout) : (remaining i : Nat) → List UInt8 → List (List UInt8)
  | 0, _, _ => []
  | remaining + 1, i, data => data.take (l.dataLen i) :: dataBlocks l remaining (i + 1) (data.drop (l.dataLen i))

/-- How many data codewords these blocks have. -/
def totalData (l : Layout) : (remaining i : Nat) → Nat
  | 0, _ => 0
  | remaining + 1, i => l.dataLen i + totalData l remaining (i + 1)

theorem length_dataBlocks (l : Layout) (remaining i : Nat) (data : List UInt8) :
    (dataBlocks l remaining i data).length = remaining := by
  induction remaining generalizing i data with
  | zero => rfl
  | succ remaining ih => rw [dataBlocks, List.length_cons, ih]

theorem flatten_dataBlocks (l : Layout) {remaining i : Nat} {data : List UInt8}
    (h : data.length = totalData l remaining i) : (dataBlocks l remaining i data).flatten = data := by
  induction remaining generalizing i data with
  | zero => exact (List.length_eq_zero_iff.mp h).symm
  | succ remaining ih =>
    rw [totalData] at h
    rw [dataBlocks, List.flatten_cons, ih (by rw [List.length_drop]; omega), List.take_append_drop]

theorem length_dataBlock (l : Layout) {remaining i j : Nat} {data dat : List UInt8}
    (h : data.length = totalData l remaining i) (hdat : (dataBlocks l remaining i data)[j]? = some dat) :
    dat.length = l.dataLen (i + j) := by
  induction remaining generalizing i j data with
  | zero => simp [dataBlocks] at hdat
  | succ remaining ih =>
    rw [totalData] at h
    cases j with
    | zero =>
      cases hdat
      rw [List.length_take, Nat.add_zero]
      omega
    | succ j =>
      rw [dataBlocks, List.getElem?_cons_succ] at hdat
      rw [ih (by rw [List.length_drop]; omega) hdat, Nat.add_right_comm, Nat.add_assoc]

/-- A block as it is stored before interleaving. -/
def stored (l : Layout) (rsDiv : List UInt8) (j : Nat) (dat : List UInt8) : List UInt8 :=
  (if j < l.numShortBlocks then dat ++ [0] else dat) ++ reedSolomonComputeRemainder dat rsDiv

theorem makeBlocks_eq (l : Layout) (rsDiv : List UInt8) (remaining i : Nat) (data : List UInt8) :
    makeBlocks l rsDiv remaining i data = (dataBlocks l remaining i data).mapIdx fun j dat => stored l rsDiv (i + j) dat := by
  induction remaining generalizing i data with
  | zero => rfl
  | succ remaining ih =>
    rw [makeBlocks, dataBlocks, List.mapIdx_cons, ih]
    congr 1
    simp only [Nat.add_assoc, Nat.add_comm 1]

theorem map_getD_range (b : List UInt8) : ((List.range b.length).map fun i => b.getD i 0) = b := by
  apply List.ext_getElem?
  intro i
  rw [List.getElem?_map]
  by_cases hi : i < b.length
  · rw [List.getElem?_range hi, List.getElem?_eq_getElem hi, Option.map_some, List.getD_eq_getElem?_getD,
      List.getElem?_eq_getElem hi, Option.getD_some]
  · rw [List.getElem?_eq_none (by rw [List.length_range]; omega), List.getElem?_eq_none (by omega), Option.map_none]

/-- Leaving out the place behind the data leaves out what stands there. -/
theorem map_getD_filter (dat ecc : List UInt8) (x : UInt8) :
    (((List.range (dat ++ x :: ecc).length).filter fun i => i ≠ dat.length).map fun i => (dat ++ x :: ecc).getD i 0) =
      dat ++ ecc := by
  have hsplit : List.range (dat ++ x :: ecc).length =
      List.range dat.length ++ dat.length :: (List.range ecc.length).map (dat.length + 1 + ·) := by
    rw [List.length_append, List.length_cons, List.range_add, Nat.add_comm ecc.length, List.range_add, List.map_append,
      List.map_map]
    simp [Function.comp_def, Nat.add_assoc, Nat.add_comm 1]
  have hfront : (List.range dat.length).filter (fun i => i ≠ dat.length) = List.range dat.length := by
    rw [List.filter_eq_self]
    intro i hi
    have := List.mem_range.mp hi
    simp only [decide_eq_true_eq]
    omega
  have hback : ((List.range ecc.length).map (dat.length + 1 + ·)).filter (fun i => i ≠ dat.length) =
      (List.range ecc.length).map (dat.length + 1 + ·) := by
    rw [List.filter_eq_self]
    intro i hi
    obtain ⟨k, _, rfl⟩ := List.mem_map.mp hi
    simp only [decide_eq_true_eq]
    omega
  rw [hsplit, List.filter_append, hfront, List.filter_cons_of_neg (by simp), hback, List.map_append, List.map_map]
  congr 1
  · refine Eq.trans (List.map_congr_left fun i hi => ?_) (map_getD_range dat)
    have := List.mem_range.mp hi
    rw [List.getD_eq_getElem?_getD, List.getElem?_append_left this, ← List.getD_eq_getElem?_getD]
  · refine Eq.trans (List.map_congr_left fun i hi => ?_) (map_getD_range ecc)
    have hindex : dat.length + 1 + i - dat.length = i + 1 := by omega
    rw [Function.comp_apply, List.getD_eq_getElem?_getD, List.getElem?_append_right (by omega), hindex,
      List.getElem?_cons_succ, ← List.getD_eq_getElem?_getD]

/-- What stands in a stored block at the places that are pushed. -/
theorem blockPlaces_stored {l : Layout} (hlen : l.blockEccLen ≤ l.shortBlockLen) {rsDiv : List UInt8} {j : Nat}
    {dat : List UInt8} (hdat : dat.length = l.dataLen j)
    (hecc : (reedSolomonComputeRemainder dat rsDiv).length = l.blockEccLen) :
    (blockPlaces l j).map (fun p => (stored l rsDiv j dat).getD p.1 0) = withEcc rsDiv dat := by
  rw [Layout.dataLen] at hdat
  have hshort : l.shortDataLen + l.blockEccLen = l.shortBlockLen := by
    rw [Layout.shortDataLen]
    omega
  rw [blockPlaces, List.map_map]
  by_cases hj : j < l.numShortBlocks
  · rw [if_pos hj, Nat.add_zero] at hdat
    have hstored : stored l rsDiv j dat = dat ++ 0 :: reedSolomonComputeRemainder dat rsDiv := by
      rw [stored, if_pos hj, List.append_assoc, List.singleton_append]
    have hsize : l.shortBlockLen + 1 = (stored l rsDiv j dat).length := by
      rw [hstored, List.length_append, List.length_cons, hecc]
      omega
    have hcond : ∀ i, (decide (i ≠ l.shortDataLen ∨ j ≥ l.numShortBlocks)) = decide (i ≠ dat.length) := by
      intro i
      rw [hdat]
      have : ¬ j ≥ l.numShortBlocks := by omega
      simp only [this, or_false]
    simp only [hcond, hsize]
    rw [hstored]
    exact map_getD_filter dat (reedSolomonComputeRemainder dat rsDiv) 0
  · rw [if_neg hj] at hdat
    have hstored : stored l rsDiv j dat = withEcc rsDiv dat := by rw [stored, if_neg hj, withEcc]
    have hsize : l.shortBlockLen + 1 = (withEcc rsDiv dat).length := by
      rw [withEcc, List.length_append, hecc]
      omega
    have hall : (List.range (l.shortBlockLen + 1)).filter (fun i => i ≠ l.shortDataLen ∨ j ≥ l.numShortBlocks) =
        List.range (l.shortBlockLen + 1) := by
      rw [List.filter_eq_self]
      intro i _
      simp only [decide_eq_true_eq]
      exact .inr (Nat.not_lt.mp hj)
    rw [hall, hsize, hstored]
    exact map_getD_range (withEcc rsDiv dat)

theorem mem_interleaved {l : Layout} {j : Nat} (hj : j < l.numBlocks) {p : Nat × Nat} (hp : p ∈ blockPlaces l j) :
    p ∈ interleaved l (l.shortBlockLen + 1) l.numBlocks := by
  obtain ⟨i, hi, rfl⟩ := List.mem_map.mp hp
  obtain ⟨hi, hcond⟩ := List.mem_filter.mp hi
  refine List.mem_flatMap.mpr ⟨i, hi, List.mem_map.mpr ⟨j, List.mem_filter.mpr ⟨List.mem_range.mpr hj, hcond⟩, rfl⟩⟩

/-! ### The blocks of a version and level -/

/-- What the tables have for every version and level. -/
structure Good (version : Nat) (ecl : Ecc) (l : Layout) : Prop where
  eccLow : 1 ≤ l.blockEccLen
  eccHigh : l.blockEccLen ≤ l.shortBlockLen
  blocks : 1 ≤ l.numBlocks
  short : 1 ≤ l.numShortBlocks
  small : l.shortBlockLen < 255
  data : totalData l l.numBlocks 0 = getNumDataCodewords version ecl

instance (version : Nat) (ecl : Ecc) (l : Layout) : Decidable (Good version ecl l) :=
  decidable_of_iff (1 ≤ l.blockEccLen ∧ l.blockEccLen ≤ l.shortBlockLen ∧ 1 ≤ l.numBlocks ∧ 1 ≤ l.numShortBlocks ∧
      l.shortBlockLen < 255 ∧ totalData l l.numBlocks 0 = getNumDataCodewords version ecl)
    ⟨fun ⟨h₁, h₂, h₃, h₄, h₅, h₆⟩ => ⟨h₁, h₂, h₃, h₄, h₅, h₆⟩,
      fun ⟨h₁, h₂, h₃, h₄, h₅, h₆⟩ => ⟨h₁, h₂, h₃, h₄, h₅, h₆⟩⟩

theorem good_layout {version : Nat} (ecl : Ecc) (hlow : MIN_VERSION ≤ version) (hhigh : version ≤ MAX_VERSION) :
    Good version ecl (layout version ecl) :=
  of_decide_eq_true (@forall_tables (fun version ecl => decide (Good version ecl (layout version ecl))) (by decide +kernel)
    version ecl hlow hhigh)

theorem length_filter_ge (n k : Nat) : ((List.range n).filter fun j => j ≥ k).length = n - k := by
  induction n with
  | zero => exact (Nat.zero_sub k).symm
  | succ n ih =>
    rw [List.range_succ, List.filter_append, List.length_append, ih]
    by_cases h : n ≥ k
    · rw [List.filter_cons_of_pos (by simpa using h), List.filter_nil, List.length_singleton]
      omega
    · rw [List.filter_cons_of_neg (by simpa using h), List.filter_nil, List.length_nil]
      omega

/-- What each index of the blocks contributes. -/
theorem length_interleaved_upto (l : Layout) (n : Nat) :
    (interleaved l n l.numBlocks).length =
      n * l.numBlocks - if l.shortDataLen < n then min l.numShortBlocks l.numBlocks else 0 := by
  induction n with
  | zero => simp [interleaved]
  | succ n ih =>
    rw [interleaved, List.range_succ, List.flatMap_append, List.length_append, ← interleaved, ih, List.flatMap_cons,
      List.flatMap_nil, List.append_nil, List.length_map, Nat.succ_mul]
    by_cases hn : n = l.shortDataLen
    · have hcond : ∀ j, decide (n ≠ l.shortDataLen ∨ j ≥ l.numShortBlocks) = decide (j ≥ l.numShortBlocks) := by
        intro j
        simp [hn]
      simp only [hcond]
      rw [length_filter_ge, if_neg (by omega), if_pos (by omega)]
      omega
    · have hall : (List.range l.numBlocks).filter (fun j => n ≠ l.shortDataLen ∨ j ≥ l.numShortBlocks) =
          List.range l.numBlocks := by
        rw [List.filter_eq_self]
        intro j _
        simp [hn]
      rw [hall, List.length_range]
      by_cases hlt : l.shortDataLen < n
      · have hpos : l.numBlocks ≤ n * l.numBlocks := Nat.le_mul_of_pos_left _ (by omega)
        rw [if_pos hlt, if_pos (by omega)]
        omega
      · rw [if_neg hlt, if_neg (by omega)]
        omega

/-- The codewords that are pushed are all there is room for. -/
theorem length_interleaved {version : Nat} {ecl : Ecc} (h : Good version ecl (layout version ecl)) :
    (interleaved (layout version ecl) ((layout version ecl).shortBlockLen + 1) (layout version ecl).numBlocks).length =
      getNumRawDataModules version / 8 := by
  have hlt : (layout version ecl).shortDataLen < (layout version ecl).shortBlockLen + 1 := by
    rw [Layout.shortDataLen]
    omega
  rw [length_interleaved_upto, if_pos hlt]
  have hblocks := h.blocks
  have hdivide : ∀ raw numBlocks, 1 ≤ numBlocks →
      (raw / numBlocks + 1) * numBlocks - min (numBlocks - raw % numBlocks) numBlocks = raw := by
    intro raw numBlocks hpos
    have hmod := Nat.mod_lt raw hpos
    have hdiv := Nat.div_add_mod' raw numBlocks
    rw [Nat.min_eq_left (Nat.sub_le _ _), Nat.succ_mul]
    omega
  exact hdivide _ _ hblocks

/-- The blocks with their check codewords. -/
def blocksOf (version : Nat) (ecl : Ecc) (rsDiv data : List UInt8) : List (List UInt8) :=
  (dataBlocks (layout version ecl) (layout version ecl).numBlocks 0 data).map (withEcc rsDiv)

theorem addEccAndInterleave_ok {version : Nat} {ecl : Ecc} (hgood : Good version ecl (layout version ecl))
    {data : List UInt8} (hdata : data.length = getNumDataCodewords version ecl) :
    ∃ rsDiv codewords, rsDiv.map GF256.mk = divisor (roots GF256.two (layout version ecl).blockEccLen) ∧
      addEccAndInterleave version ecl data = .ok codewords ∧
      codewords.length = getNumRawDataModules version / 8 ∧
      receivedBlocks (layout version ecl) codewords = blocksOf version ecl rsDiv data := by
  obtain ⟨l, hl⟩ : ∃ l, l = layout version ecl := ⟨_, rfl⟩
  have hraw := length_interleaved hgood
  simp only [blocksOf, ← hl] at hgood hraw ⊢
  have hsmall := hgood.small
  have heccHigh := hgood.eccHigh
  obtain ⟨rsDiv, hcompute, hdiv⟩ := reedSolomonComputeDivisor_ok hgood.eccLow (by omega)
  have hecc := length_ecc hgood.eccLow hdiv
  have htotal : data.length = totalData l l.numBlocks 0 := hdata.trans hgood.data.symm
  have hblock : ∀ j dat, (dataBlocks l l.numBlocks 0 data)[j]? = some dat → dat.length = l.dataLen j := by
    intro j dat hdat
    have := length_dataBlock l htotal hdat
    rwa [Nat.zero_add] at this
  obtain ⟨blocks, hblocks⟩ : ∃ blocks, blocks = makeBlocks l rsDiv l.numBlocks 0 data := ⟨_, rfl⟩
  have hget : ∀ j dat, (dataBlocks l l.numBlocks 0 data)[j]? = some dat → blocks.getD j [] = stored l rsDiv j dat := by
    intro j dat hdat
    rw [hblocks, makeBlocks_eq, List.getD_eq_getElem?_getD, List.getElem?_mapIdx, hdat]
    simp
  have hcount : blocks.length = l.numBlocks := by
    rw [hblocks, makeBlocks_eq, List.length_mapIdx, length_dataBlocks]
  have hsize : (blocks.headD []).length = l.shortBlockLen + 1 := by
    obtain ⟨dat, hdat⟩ : ∃ dat, (dataBlocks l l.numBlocks 0 data)[0]? = some dat :=
      ⟨_, List.getElem?_eq_getElem (by rw [length_dataBlocks]; exact hgood.blocks)⟩
    have hlen := hblock 0 dat hdat
    have hfirst : blocks.headD [] = stored l rsDiv 0 dat := by
      rw [← hget 0 dat hdat]
      cases blocks <;> rfl
    have hshort : 0 < l.numShortBlocks := hgood.short
    rw [Layout.dataLen, if_pos hshort, Nat.add_zero, Layout.shortDataLen] at hlen
    rw [hfirst, stored, if_pos hshort, List.length_append, List.length_append, hecc, List.length_singleton]
    omega
  refine ⟨rsDiv, interleave l blocks, hdiv, ?_, ?_, ?_⟩
  · rw [addEccAndInterleave, if_neg (not_not.mpr hdata), ← hl]
    show (reedSolomonComputeDivisor l.blockEccLen).bind _ = _
    rw [hcompute, hblocks]
    rfl
  · rw [interleave, List.length_map, hsize, hcount, hraw]
  · apply List.ext_getElem?
    intro j
    rw [receivedBlocks, List.getElem?_map, List.getElem?_map]
    by_cases hj : j < l.numBlocks
    · obtain ⟨dat, hdat⟩ : ∃ dat, (dataBlocks l l.numBlocks 0 data)[j]? = some dat :=
        ⟨_, List.getElem?_eq_getElem (by rw [length_dataBlocks]; exact hj)⟩
      rw [List.getElem?_range hj, hdat, Option.map_some, Option.map_some]
      congr 1
      rw [← blockPlaces_stored heccHigh (hblock j dat hdat) (hecc dat)]
      refine List.map_congr_left fun p hp => ?_
      have hpj : p.2 = j := by
        obtain ⟨i, _, rfl⟩ := List.mem_map.mp hp
        rfl
      rw [interleave, hsize, hcount]
      have hread := Path.read_map (fun q : Nat × Nat => (blocks.getD q.2 []).getD q.1 0) (mem_interleaved hj hp)
      show (Path.read _ (List.map (fun q : Nat × Nat => (blocks.getD q.2 []).getD q.1 0) _) p).getD 0 = _
      rw [hread, Option.getD_some, hpj, hget j dat hdat]
    · rw [List.getElem?_eq_none (by rw [List.length_range]; omega),
        List.getElem?_eq_none (by rw [length_dataBlocks]; omega), Option.map_none, Option.map_none]

theorem length_allCodewords {version : Nat} {ecl : Ecc} (hgood : Good version ecl (layout version ecl))
    {data codewords : List UInt8} (hok : addEccAndInterleave version ecl data = .ok codewords) :
    codewords.length = getNumRawDataModules version / 8 := by
  have hdata : data.length = getNumDataCodewords version ecl := by
    by_contra hne
    rw [addEccAndInterleave, if_pos hne] at hok
    cases hok
  obtain ⟨_, codewords', _, hok', hlen, _⟩ := addEccAndInterleave_ok hgood hdata
  rw [Except.ok.inj (hok.symm.trans hok')]
  exact hlen

/-- **The data comes back from damaged codewords**: as long as in every block at most half
as many codewords are wrong as it has check codewords, a reader that corrects reads the
data that was encoded. -/
theorem readBlocks_corrects {version : Nat} {ecl : Ecc} (hgood : Good version ecl (layout version ecl))
    {data codewords received : List UInt8} (hok : addEccAndInterleave version ecl data = .ok codewords)
    {correct : Nat → List UInt8 → List UInt8} (hcorrect : Corrects correct)
    (hnear : ∀ j, 2 * errors ((receivedBlocks (layout version ecl) codewords).getD j [])
      ((receivedBlocks (layout version ecl) received).getD j []) ≤ (layout version ecl).blockEccLen) :
    readBlocks correct (layout version ecl) received = data := by
  have hdata : data.length = getNumDataCodewords version ecl := by
    by_contra hne
    rw [addEccAndInterleave, if_pos hne] at hok
    cases hok
  obtain ⟨rsDiv, codewords', hdiv, hok', _, hblocks⟩ := addEccAndInterleave_ok hgood hdata
  cases Except.ok.inj (hok.symm.trans hok')
  rw [hblocks] at hnear
  obtain ⟨l, hl⟩ : ∃ l, l = layout version ecl := ⟨_, rfl⟩
  simp only [blocksOf, ← hl] at hgood hnear hdiv hblocks ⊢
  have htotal : data.length = totalData l l.numBlocks 0 := hdata.trans hgood.data.symm
  have hsplit : (receivedBlocks l received).mapIdx (fun j block => (correct l.blockEccLen block).take (l.dataLen j)) =
      dataBlocks l l.numBlocks 0 data := by
    apply List.ext_getElem?
    intro j
    rw [List.getElem?_mapIdx]
    by_cases hj : j < l.numBlocks
    · obtain ⟨dat, hdat⟩ : ∃ dat, (dataBlocks l l.numBlocks 0 data)[j]? = some dat :=
        ⟨_, List.getElem?_eq_getElem (by rw [length_dataBlocks]; exact hj)⟩
      obtain ⟨block, hblock⟩ : ∃ block, (receivedBlocks l received)[j]? = some block :=
        ⟨_, List.getElem?_eq_getElem (by rw [receivedBlocks, List.length_map, List.length_range]; exact hj)⟩
      have hlen := length_dataBlock l htotal hdat
      rw [Nat.zero_add] at hlen
      have hplaces : block.length = (blockPlaces l j).length := by
        rw [receivedBlocks, List.getElem?_map, List.getElem?_range hj] at hblock
        rw [← Option.some.inj hblock, List.length_map]
      have hword : (withEcc rsDiv dat).length = block.length := by
        rw [hplaces, ← blockPlaces_stored hgood.eccHigh hlen (length_ecc hgood.eccLow hdiv dat), List.length_map]
      have hsmall := hgood.small
      have hshort : block.length ≤ 255 := by
        rw [hplaces, blockPlaces, List.length_map]
        refine (List.length_filter_le _ _).trans ?_
        rw [List.length_range]
        omega
      have hnear := hnear j
      rw [List.getD_eq_getElem?_getD, List.getD_eq_getElem?_getD, List.getElem?_map, hdat, hblock] at hnear
      rw [hblock, hdat, Option.map_some,
        hcorrect l.blockEccLen (withEcc rsDiv dat) block (isBlock_withEcc hgood.eccLow hdiv dat) hword hshort hnear,
        withEcc, ← hlen, List.take_left' rfl]
    · rw [List.getElem?_eq_none (by rw [receivedBlocks, List.length_map, List.length_range]; omega),
        List.getElem?_eq_none (by rw [length_dataBlocks]; omega), Option.map_none]
  rw [readBlocks, hsplit, flatten_dataBlocks l htotal]

end ScoutingComputer.Qrcodegen
