import ScoutingComputer.Qrcodegen.ReadSegments
import ScoutingComputer.Qrcodegen.Symbol

/-! Reading a symbol.

The reader takes the level and the mask from the format bits, takes the mask off, collects
the codewords along the scan, corrects the blocks and reads the segments. A text that was
encoded comes back from the symbol even when modules are damaged: up to three of the format
bits, and in every block as many codewords as the level corrects (`encodeText_read`). -/
namespace ScoutingComputer.Qrcodegen
open ReedSolomon

/-! ### The format bits -/

/-- The modules of the first copy, from the lowest bit on. -/
def formatModules : List (Nat × Nat) :=
  [(8, 0), (8, 1), (8, 2), (8, 3), (8, 4), (8, 5), (8, 7), (8, 8), (7, 8), (5, 8), (4, 8), (3, 8), (2, 8), (1, 8), (0, 8)]

def formatWord (f : Ecc × Nat) : List Bool := (List.range 15).map (getBit (formatBits f.1 f.2))

def formats : List (Ecc × Nat) := allEcc.flatMap fun ecl => (List.range 8).map fun msk => (ecl, msk)

/-- What is there differs from the level and mask in three bits at most. -/
def nearFormat (received : Nat × Nat → Bool) (f : Ecc × Nat) : Bool :=
  decide (errors (formatWord f) (formatModules.map received) ≤ 3)

def readFormat (received : Nat × Nat → Bool) : Option (Ecc × Nat) := formats.find? (nearFormat received)

theorem mem_formats {f : Ecc × Nat} : f ∈ formats ↔ f.2 ≤ 7 := by
  obtain ⟨ecl, msk⟩ := f
  rw [formats, List.mem_flatMap]
  constructor
  · rintro ⟨ecl', _, h⟩
    obtain ⟨msk', hmsk, heq⟩ := List.mem_map.mp h
    cases heq
    exact Nat.le_of_lt_succ (List.mem_range.mp hmsk)
  · intro h
    exact ⟨ecl, mem_allEcc ecl, List.mem_map.mpr ⟨msk, List.mem_range.mpr (Nat.lt_succ_of_le h), rfl⟩⟩

/-- Any two format words differ in seven bits at least. -/
theorem formats_apart : (formats.all fun f => formats.all fun g =>
    f == g || decide (7 ≤ errors (formatWord f) (formatWord g))) = true := by decide +kernel

theorem length_formatWord (f : Ecc × Nat) : (formatWord f).length = 15 := by
  rw [formatWord, List.length_map, List.length_range]

/-- Three wrong format bits do not matter. -/
theorem readFormat_near {received : Nat × Nat → Bool} {f : Ecc × Nat} (hf : f.2 ≤ 7)
    (h : errors (formatWord f) (formatModules.map received) ≤ 3) : readFormat received = some f := by
  have hmem := mem_formats.mpr hf
  rw [readFormat]
  obtain ⟨g, hg⟩ : ∃ g, formats.find? (nearFormat received) = some g :=
    Option.isSome_iff_exists.mp (List.find?_isSome.mpr ⟨f, hmem, decide_eq_true h⟩)
  have hgmem := List.mem_of_find?_eq_some hg
  have hgnear := List.find?_some hg
  rw [nearFormat, decide_eq_true_eq] at hgnear
  have hlength : (formatModules.map received).length = 15 := by rw [List.length_map]; rfl
  by_cases heq : f = g
  · rw [hg, heq]
  · have hapart := List.all_eq_true.mp (List.all_eq_true.mp formats_apart f hmem) g hgmem
    rw [beq_false_of_ne heq, Bool.false_or, decide_eq_true_eq] at hapart
    have htriangle := @errors_triangle Bool _ (formatWord f) (formatModules.map received) (formatWord g)
      (by rw [length_formatWord, hlength]) (by rw [length_formatWord, hlength])
    rw [errors_comm (formatModules.map received)] at htriangle
    omega

/-- The strokes of the first copy. -/
def firstCopy (bits : Nat) : List Stroke :=
  (List.range 6).map (fun i : Nat => (8, (i : Int), getBit bits i)) ++
  [(8, 7, getBit bits 6), (8, 8, getBit bits 7), (7, 8, getBit bits 8)] ++
  (List.range' 9 6).map (fun i : Nat => (14 - (i : Int), 8, getBit bits i))

/-- The strokes of the second copy, with the module that is always dark. -/
def secondCopy (size bits : Nat) : List Stroke :=
  (List.range 8).map (fun i : Nat => ((size : Int) - 1 - i, 8, getBit bits i)) ++
  ((List.range' 8 7).map (fun i : Nat => (8, (size : Int) - 15 + i, getBit bits i)) ++ [(8, (size : Int) - 8, true)])

theorem drawFormatBits_eq (size bits : Nat) : drawFormatBits size bits = firstCopy bits ++ secondCopy size bits := by
  simp only [drawFormatBits, firstCopy, secondCopy, List.append_assoc]

theorem apart_secondCopy {size bits : Nat} (hsize : 21 ≤ size) :
    ∀ p ∈ (secondCopy size bits).map Stroke.place, 9 ≤ p.1 ∨ 9 ≤ p.2 := by
  intro p hp
  obtain ⟨s, hs, rfl⟩ := List.mem_map.mp hp
  rcases List.mem_append.mp hs with hs | hs
  · obtain ⟨i, hi, rfl⟩ := List.mem_map.mp hs
    have := List.mem_range.mp hi
    simp only [Stroke.place]
    omega
  · rcases List.mem_append.mp hs with hs | hs
    · obtain ⟨i, hi, rfl⟩ := List.mem_map.mp hs
      have := List.mem_range'_1.mp hi
      simp only [Stroke.place]
      omega
    · rw [List.mem_singleton.mp hs]
      simp only [Stroke.place]
      omega

/-- The first copy on the grid. -/
theorem map_formatted {c : Canvas} (hsize : 21 ≤ c.size) (f : Ecc × Nat) :
    formatModules.map (formatted c (formatBits f.1 f.2)).modules = formatWord f := by
  have hplaces : formatPlaces c.size = formatModules ++ (secondCopy c.size (formatBits f.1 f.2)).map Stroke.place := by
    rw [← place_drawFormatBits _ (formatBits f.1 f.2), drawFormatBits_eq, List.map_append]
    rfl
  have hbits : (drawFormatBits c.size (formatBits f.1 f.2)).map Stroke.isDark =
      formatWord f ++ (secondCopy c.size (formatBits f.1 f.2)).map Stroke.isDark := by
    rw [drawFormatBits_eq, List.map_append]
    rfl
  have hfirst := Path.map_write (by decide : formatModules.Nodup) (length_formatWord f).le c.modules
  have hrest : formatModules.drop (formatWord f).length = [] := by
    rw [length_formatWord]
    rfl
  rw [hrest, List.map_nil, List.append_nil] at hfirst
  rw [← hfirst]
  refine List.map_congr_left fun p hp => ?_
  have hnear : p.1 ≤ 8 ∧ p.2 ≤ 8 := (by decide : ∀ p ∈ formatModules, p.1 ≤ 8 ∧ p.2 ≤ 8) p hp
  show Path.write (formatPlaces c.size) _ c.modules p = _
  rw [hplaces, hbits, Path.write_append (by rw [length_formatWord]; rfl), Path.write_of_notMem]
  intro hmem
  have := apart_secondCopy hsize p hmem
  omega

/-! ### The codewords -/

/-- The codewords on the modules, once the mask is taken off. -/
def gridCodewords (version msk : Nat) (received : Nat × Nat → Bool) : List UInt8 :=
  packBits (((dataPath version).map fun p => received p ^^ invert msk p.1 p.2).take (getNumRawDataModules version / 8 * 8))

/-- What a symbol of this version says. -/
def readSymbol (correct : Nat → List UInt8 → List UInt8) (version : Nat) (received : Nat × Nat → Bool) :
    Option (List UInt8) := do
  let (ecl, msk) ← readFormat received
  readCodewords version (readBlocks correct (layout version ecl) (gridCodewords version msk received))

theorem codewordBits_inj {a b : List UInt8} (h : codewordBits a = codewordBits b) : a = b := by
  have hlength : a.length = b.length := by
    have := congrArg List.length h
    rw [length_codewordBits, length_codewordBits] at this
    omega
  induction a generalizing b with
  | nil => exact (List.length_eq_zero_iff.mp hlength.symm).symm
  | cons x a ih =>
    cases b with
    | nil => cases hlength
    | cons y b =>
      obtain ⟨hfirst, hrest⟩ := List.append_inj h (by rw [BigEndian.length_bits, BigEndian.length_bits])
      have hxy : x = y := UInt8.toNat_inj.mp (BigEndian.bits_inj x.toNat_lt y.toNat_lt hfirst)
      rw [hxy, ih hrest (Nat.succ.inj hlength)]

theorem packBits_codewordBits (codewords : List UInt8) : packBits (codewordBits codewords) = codewords :=
  codewordBits_inj (codewordBits_packBits (length_codewordBits codewords ▸ Nat.dvd_mul_left 8 _))

/-- The codewords of an undamaged symbol. -/
theorem gridCodewords_symbol {version : Nat} {ecl : Ecc} (hlow : MIN_VERSION ≤ version) (hhigh : version ≤ MAX_VERSION)
    {allCodewords : List UInt8} (hlen : allCodewords.length = getNumRawDataModules version / 8) (msk : Nat) :
    gridCodewords version msk (symbol version ecl allCodewords msk).modules = allCodewords := by
  have hmarked := marked_dataGrid ecl hlow hhigh allCodewords
  have hmodules : ((dataPath version).map fun p => (symbol version ecl allCodewords msk).modules p ^^ invert msk p.1 p.2) =
      (dataPath version).map
        (Path.write (dataPath version) (codewordBits allCodewords) (functionGrid version ecl).modules) := by
    refine List.map_congr_left fun p hp => ?_
    obtain ⟨x, y⟩ := p
    obtain ⟨hx, hy, hdata⟩ := mem_dataPath.mp hp
    have hlight : (dataGrid version ecl allCodewords).isFunction (x, y) = false := by
      rw [Bool.eq_false_iff]
      exact fun h => hdata ((hmarked.isFunction x y).mp h).2.2
    have hformat : (x, y) ∉ formatPlaces (masked (dataGrid version ecl allCodewords) msk).size := by
      intro hmem
      exact hdata ((hmarked.isFunction x y).mp (hmarked.formatPlace hlow _ hmem)).2.2
    show ((Path.write _ _ (masked (dataGrid version ecl allCodewords) msk).modules (x, y)) ^^ (invert msk x y)) = _
    rw [Path.write_of_notMem hformat]
    show ((if x < symbolSize version ∧ y < symbolSize version then (dataGrid version ecl allCodewords).modules (x, y) ^^
      (invert msk x y && !(dataGrid version ecl allCodewords).isFunction (x, y)) else _) ^^ invert msk x y) = _
    rw [if_pos ⟨hx, hy⟩, hlight, Bool.not_false, Bool.and_true, Bool.xor_assoc, Bool.xor_self, Bool.xor_false]
    rfl
  have hbits := length_codewordBits allCodewords
  rw [gridCodewords, hmodules, Path.map_write (nodup_dataPath version), List.take_left' (by rw [hbits, hlen]),
    packBits_codewordBits]
  rw [hbits, hlen, length_dataPath hlow hhigh]
  exact Nat.div_mul_le_self _ 8

/-! ### The whole -/

/-- Damage that the format bits and the blocks of a symbol allow. -/
structure Readable (qr : QrCode) (received : Nat × Nat → Bool) : Prop where
  format : (formatModules.countP fun p => qr.modules p ≠ received p) ≤ 3
  blocks : ∀ j, 2 * errors
      ((receivedBlocks (layout qr.version qr.errorCorrectionLevel) (gridCodewords qr.version qr.mask qr.modules)).getD j [])
      ((receivedBlocks (layout qr.version qr.errorCorrectionLevel) (gridCodewords qr.version qr.mask received)).getD j []) ≤
    (layout qr.version qr.errorCorrectionLevel).blockEccLen

theorem errors_self {F : Type} [DecidableEq F] (as : List F) : errors as as = 0 := by
  induction as with
  | nil => rfl
  | cons a as ih => rw [errors, if_pos rfl, ih]

/-- A symbol that is not damaged. -/
theorem readable_self (qr : QrCode) : Readable qr qr.modules where
  format := by simp
  blocks := by
    intro j
    rw [errors_self]
    exact Nat.zero_le _

theorem Readable.congr {qr : QrCode} {version : Nat} (hversion : qr.version = version) (hlow : MIN_VERSION ≤ version)
    {received received' : Nat × Nat → Bool}
    (hagree : ∀ x < symbolSize version, ∀ y < symbolSize version, received' (x, y) = received (x, y))
    (h : Readable qr received) : Readable qr received' := by
  have hsize := size_ge hlow
  have hformat : ∀ p ∈ formatModules, received' p = received p := by
    rintro ⟨x, y⟩ hp
    have hnear := (by decide : ∀ p ∈ formatModules, p.1 ≤ 8 ∧ p.2 ≤ 8) _ hp
    exact hagree x (by dsimp only at hnear; omega) y (by dsimp only at hnear; omega)
  have hgrid : gridCodewords qr.version qr.mask received' = gridCodewords qr.version qr.mask received := by
    have hpath : ((dataPath qr.version).map fun p => received' p ^^ invert qr.mask p.1 p.2) =
        (dataPath qr.version).map fun p => received p ^^ invert qr.mask p.1 p.2 := by
      refine List.map_congr_left fun p hp => ?_
      obtain ⟨x, y⟩ := p
      rw [hversion] at hp
      obtain ⟨hx, hy, _⟩ := mem_dataPath.mp hp
      rw [hagree x hx y hy]
    rw [gridCodewords, hpath]
    rfl
  constructor
  · have hcount : (formatModules.countP fun p => qr.modules p ≠ received' p) =
        formatModules.countP fun p => qr.modules p ≠ received p := by
      refine List.countP_congr fun p hp => ?_
      rw [hformat p hp]
    exact hcount ▸ h.format
  · rw [hgrid]
    exact h.blocks

/-- The data codewords come back from a damaged symbol. -/
theorem makeQrCode_read {version : Nat} {ecl : Ecc} {dataCodewords : List UInt8} {msk : Int} {qr : QrCode}
    (h : makeQrCode version ecl dataCodewords msk = .ok qr) {received : Nat × Nat → Bool} (hreadable : Readable qr received)
    {correct : Nat → List UInt8 → List UInt8} (hcorrect : Corrects correct) :
    readSymbol correct qr.version received = readCodewords version dataCodewords := by
  obtain ⟨⟨hlow, hhigh⟩, allCodewords, m, hall, hm, rfl⟩ := makeQrCode_symbol h
  have hgood := good_layout ecl hlow hhigh
  have hlen : allCodewords.length = getNumRawDataModules version / 8 := length_allCodewords hgood hall
  have hsize : 21 ≤ (masked (dataGrid version ecl allCodewords) m).size := size_ge hlow
  have hformat : readFormat received = some (ecl, m) := by
    refine readFormat_near hm ?_
    rw [← map_formatted hsize (ecl, m), errors_map]
    exact hreadable.format
  have hblocks := hreadable.blocks
  rw [show (symbol version ecl allCodewords m).version = version from rfl,
    show (symbol version ecl allCodewords m).errorCorrectionLevel = ecl from rfl,
    show (symbol version ecl allCodewords m).mask = m from rfl, gridCodewords_symbol hlow hhigh hlen] at hblocks
  have hdata := readBlocks_corrects hgood hall hcorrect hblocks
  rw [readSymbol, hformat]
  show readCodewords version (readBlocks correct (layout version ecl) (gridCodewords version m received)) = _
  rw [hdata]

/-- What `encodeText` does when it does not throw. -/
theorem encodeText_made {text : Text} {ecl : Ecc} {qr : QrCode} (h : encodeText text ecl = .ok qr) :
    ∃ segs version level dataCodewords, QrSegment.makeSegments (cString text) = .ok segs ∧
      encodeData segs ecl 1 40 (-1) true = .ok (version, level, dataCodewords) ∧
        makeQrCode version level dataCodewords (-1) = .ok qr := by
  cases hsegs : QrSegment.makeSegments (cString text) with
  | error e =>
    rw [encodeText, hsegs] at h
    cases h
  | ok segs =>
    rw [encodeText, hsegs] at h
    replace h : encodeSegments segs ecl 1 40 (-1) true = .ok qr := h
    cases hdata : encodeData segs ecl 1 40 (-1) true with
    | error e =>
      rw [encodeSegments, hdata] at h
      cases h
    | ok data =>
      obtain ⟨version, level, dataCodewords⟩ := data
      rw [encodeSegments, hdata] at h
      exact ⟨segs, version, level, dataCodewords, rfl, hdata, h⟩

/-- A text that fits some version has a symbol, of this version at most. -/
theorem encodeText_isOk {text : Text} {ecl : Ecc} {segs : List QrSegment} {v dataUsedBits : Nat}
    (hsegs : QrSegment.makeSegments (cString text) = .ok segs) (hlow : 1 ≤ v) (hhigh : v ≤ 40)
    (hfits : fits segs ecl v = some dataUsedBits) :
    ∃ qr, encodeText text ecl = .ok qr ∧ 1 ≤ qr.version ∧ qr.version ≤ v ∧ qr.size = symbolSize qr.version ∧
      ecl.ordinal ≤ qr.errorCorrectionLevel.ordinal := by
  obtain ⟨version, level, dataCodewords, hdata⟩ := @encodeData_isOk segs ecl 1 40 v dataUsedBits (-1) true
    ⟨⟨by decide, by decide, by decide⟩, by decide, by decide⟩ hlow hhigh hfits
  obtain ⟨texts, hencodes, _⟩ := QrSegment.makeSegments_encodes hsegs
  obtain ⟨⟨hmin, hmax, _, hfirst⟩, hlevel, _⟩ := encodeData_minimal hdata
  obtain ⟨qr, hqr, hversion, hsize, hecl⟩ := makeQrCode_isOk hmin hmax (encodeData_reads hencodes hdata).1
  refine ⟨qr, ?_, hversion ▸ hmin, ?_, hversion ▸ hsize, hecl ▸ hlevel⟩
  · rw [encodeText, hsegs]
    show encodeSegments segs ecl 1 40 (-1) true = _
    rw [encodeSegments, hdata]
    exact hqr
  · rw [hversion]
    by_contra hgt
    have hnone := hfirst v hlow (Nat.not_le.mp hgt)
    rw [hnone] at hfits
    cases hfits

/-- **The symbol is as small as it can be, and then as strong as it can be**: a text has a
symbol exactly if some version holds its bits at the level asked for, the symbol is of the first
such version, and no level above the symbol's fits in it. -/
theorem encodeText_minimal {text : Text} {segs : List QrSegment}
    (hsegs : QrSegment.makeSegments (cString text) = .ok segs) (ecl : Ecc) :
    ((∃ qr, encodeText text ecl = .ok qr) ↔ ∃ v, 1 ≤ v ∧ v ≤ 40 ∧ (fits segs ecl v).isSome) ∧
      ∀ qr, encodeText text ecl = .ok qr →
        ((fits segs ecl qr.version).isSome ∧ ∀ v, 1 ≤ v → v < qr.version → fits segs ecl v = none) ∧
          ecl.ordinal ≤ qr.errorCorrectionLevel.ordinal ∧ (fits segs qr.errorCorrectionLevel qr.version).isSome ∧
            ∀ higher, qr.errorCorrectionLevel.ordinal < higher.ordinal → fits segs higher qr.version = none := by
  have hmade : ∀ qr, encodeText text ecl = .ok qr → (1 ≤ qr.version ∧ qr.version ≤ 40) ∧
      ((fits segs ecl qr.version).isSome ∧ ∀ v, 1 ≤ v → v < qr.version → fits segs ecl v = none) ∧
        ecl.ordinal ≤ qr.errorCorrectionLevel.ordinal ∧ (fits segs qr.errorCorrectionLevel qr.version).isSome ∧
          ∀ higher, qr.errorCorrectionLevel.ordinal < higher.ordinal → fits segs higher qr.version = none := by
    intro qr h
    obtain ⟨segs', version, level, dataCodewords, hsegs', hdata, hqr⟩ := encodeText_made h
    cases Except.ok.inj (hsegs.symm.trans hsegs')
    obtain ⟨_, _, _, _, _, rfl⟩ := makeQrCode_symbol hqr
    obtain ⟨⟨hlow, hhigh, hfits, hmin⟩, hlevel, hroom, hnone⟩ := encodeData_minimal hdata
    exact ⟨⟨hlow, hhigh⟩, ⟨hfits, hmin⟩, hlevel, hroom, hnone⟩
  refine ⟨⟨?_, ?_⟩, fun qr h => (hmade qr h).2⟩
  · intro ⟨qr, h⟩
    obtain ⟨⟨hlow, hhigh⟩, ⟨hfits, _⟩, _⟩ := hmade qr h
    exact ⟨qr.version, hlow, hhigh, hfits⟩
  · intro ⟨v, hlow, hhigh, hfits⟩
    obtain ⟨dataUsedBits, hfits⟩ := Option.isSome_iff_exists.mp hfits
    obtain ⟨qr, hqr, _⟩ := encodeText_isOk hsegs hlow hhigh hfits
    exact ⟨qr, hqr⟩

theorem encodeText_minimal_digits : ∃ qr, encodeText "1138".toList .low = .ok qr ∧
    (fits [⟨.numeric, 4, BigEndian.bits 113 10 ++ BigEndian.bits 8 4⟩] .low qr.version).isSome := by
  obtain ⟨hiff, hall⟩ := @encodeText_minimal "1138".toList [⟨.numeric, 4, BigEndian.bits 113 10 ++ BigEndian.bits 8 4⟩] rfl .low
  obtain ⟨qr, hqr⟩ := hiff.mpr ⟨1, by decide, by decide, by decide⟩
  exact ⟨qr, hqr, (hall qr hqr).1.1⟩

theorem readSymbol_encodeText {text : Text} {ecl : Ecc} {qr : QrCode} (h : encodeText text ecl = .ok qr)
    {received : Nat × Nat → Bool} (hreadable : Readable qr received) {correct : Nat → List UInt8 → List UInt8}
    (hcorrect : Corrects correct) : readSymbol correct qr.version received = some (toBytes (cString text)) := by
  obtain ⟨segs, version, level, dataCodewords, hsegs, hdata, hmade⟩ := encodeText_made h
  obtain ⟨texts, hencodes, htexts⟩ := QrSegment.makeSegments_encodes hsegs
  rw [makeQrCode_read hmade hreadable hcorrect, (encodeData_reads hencodes hdata).2, htexts]

/-- **A text comes back from its symbol**, even from a damaged one; and no damage makes it the
symbol of another text. -/
theorem encodeText_read {text : Text} {ecl : Ecc} {qr : QrCode} (h : encodeText text ecl = .ok qr)
    {received : Nat × Nat → Bool} (hreadable : Readable qr received) {correct : Nat → List UInt8 → List UInt8}
    (hcorrect : Corrects correct) :
    readSymbol correct qr.version received = some (toBytes (cString text)) ∧
      ∀ text' ecl' qr', encodeText text' ecl' = .ok qr' → qr'.version = qr.version → Readable qr' received →
        toBytes (cString text') = toBytes (cString text) := by
  have hread := readSymbol_encodeText h hreadable hcorrect
  refine ⟨hread, fun text' ecl' qr' h' hversion hreadable' => ?_⟩
  have hread' := readSymbol_encodeText h' hreadable' hcorrect
  rw [hversion, hread] at hread'
  exact (Option.some.inj hread').symm

theorem encodeText_read_digits : ∃ qr, encodeText "1138".toList .low = .ok qr ∧
    readSymbol nearest qr.version qr.modules = some (toBytes "1138".toList) := by
  have hsegs : QrSegment.makeSegments (cString "1138".toList) =
      .ok [⟨.numeric, 4, BigEndian.bits 113 10 ++ BigEndian.bits 8 4⟩] := by rfl
  have hfits : fits [⟨.numeric, 4, BigEndian.bits 113 10 ++ BigEndian.bits 8 4⟩] .low 1 = some 28 := by decide
  obtain ⟨qr, hqr, _⟩ := encodeText_isOk hsegs (Nat.le_refl 1) (by decide) hfits
  exact ⟨qr, hqr, (encodeText_read hqr (readable_self qr) nearest_corrects).1⟩

end ScoutingComputer.Qrcodegen
