import ScoutingComputer.Bluetooth.Address
import ScoutingComputer.GuiHandler.QrCodeHandler

/-! From the screen to the listener.

The computer shows its address and port as a QR code. Whatever they are, there is a symbol
for them, and a tablet that reads it gets them back: from the symbol when it is damaged,
and from the picture when the picture is large enough. -/
namespace ScoutingComputer.Bluetooth
open Qrcodegen

theorem length_pairingText (localAddr : UInt64) (port : UInt32) : (pairingText localAddr port).length ≤ 29 := by
  obtain ⟨hlow, hhigh⟩ := getLocalPort_bounds port
  have := length_decimal hlow hhigh
  have := length_getMacStr localAddr
  simp only [pairingText, List.length_append, List.length_singleton]
  omega

theorem cString_pairingText (localAddr : UInt64) (port : UInt32) :
    cString (pairingText localAddr port) = pairingText localAddr port :=
  (cString_eq_self_iff _).mpr fun h => (pairingText_chars localAddr port _ h).1 rfl

/-- The semicolon makes it a segment of bytes. -/
theorem makeSegments_pairingText (localAddr : UInt64) (port : UInt32) :
    ∃ seg, QrSegment.makeSegments (pairingText localAddr port) = .ok [seg] ∧ seg.mode = .byte ∧ seg.numChars ≤ 29 ∧
      seg.data.length = 8 * seg.numChars := by
  have hsemicolon : ';' ∈ pairingText localAddr port := by simp [pairingText]
  have hlen := length_pairingText localAddr port
  have hnumeric : QrSegment.isNumeric (pairingText localAddr port) = false := by
    rw [Bool.eq_false_iff]
    exact fun h => (QrSegment.isNumeric_iff _).mp h ';' hsemicolon (by decide)
  have halphanumeric : QrSegment.isAlphanumeric (pairingText localAddr port) = false := by
    rw [Bool.eq_false_iff]
    exact fun h => absurd ((QrSegment.isAlphanumeric_iff _).mp h ';' hsemicolon) (by decide)
  have hbytes : (toBytes (pairingText localAddr port)).length = (pairingText localAddr port).length := List.length_map ..
  refine ⟨⟨.byte, (toBytes (pairingText localAddr port)).length,
    (toBytes (pairingText localAddr port)).flatMap fun b => BigEndian.bits b.toNat 8⟩, ?_, rfl, ?_, ?_⟩
  · have hmade : QrSegment.makeBytes (toBytes (pairingText localAddr port)) =
        .ok ⟨.byte, (toBytes (pairingText localAddr port)).length,
          (toBytes (pairingText localAddr port)).flatMap fun b => BigEndian.bits b.toNat 8⟩ := by
      rw [QrSegment.makeBytes, if_neg (by rw [hbytes, INT_MAX]; omega), QrSegment.pushBytes_ok, List.nil_append]
      rfl
    rw [QrSegment.makeSegments, if_neg (List.ne_nil_of_mem hsemicolon), hnumeric, halphanumeric]
    show (do return [← QrSegment.makeBytes (toBytes (pairingText localAddr port))]) = _
    rw [hmade]
    rfl
  · rw [hbytes]
    exact hlen
  · dsimp only
    rw [List.length_flatMap]
    simp only [BigEndian.length_bits, List.map_const', List.sum_replicate]
    exact Nat.mul_comm _ 8

/-- There is always a symbol for the listener, of the third version at most, at the level
asked for or the one above it. -/
theorem pairing_symbol (localAddr : UInt64) (port : UInt32) :
    ∃ qr, encodeText (pairingText localAddr port) .quartile = .ok qr ∧ 1 ≤ qr.version ∧ qr.version ≤ 3 ∧
      qr.size = symbolSize qr.version ∧ (qr.errorCorrectionLevel = .quartile ∨ qr.errorCorrectionLevel = .high) := by
  obtain ⟨⟨mode, numChars, data⟩, hsegs, rfl, hnum, hdata⟩ := makeSegments_pairingText localAddr port
  dsimp only at hnum hdata
  have hfits : fits [⟨.byte, numChars, data⟩] .quartile 3 = some (4 + 8 + data.length) := by
    have htotal : QrSegment.getTotalBits [⟨.byte, numChars, data⟩] 3 = some (4 + 8 + data.length) := by
      have hcc : Mode.byte.numCharCountBits 3 = 8 := by decide
      simp only [QrSegment.getTotalBits, QrSegment.addTotalBits, hcc, INT_MAX]
      rw [if_neg (by omega), if_neg (by omega), if_neg (by omega), Nat.zero_add]
    have hcapacity : getNumDataCodewords 3 .quartile * 8 = 272 := by decide
    rw [fits, htotal]
    dsimp only
    rw [hcapacity, if_pos (by omega)]
  have hsegs' := hsegs
  rw [← cString_pairingText] at hsegs'
  obtain ⟨qr, hqr, hlow, hhigh, hsize, hlevel⟩ := encodeText_isOk hsegs' (by decide : 1 ≤ 3) (by decide) hfits
  refine ⟨qr, hqr, hlow, hhigh, hsize, ?_⟩
  cases hecl : qr.errorCorrectionLevel <;> rw [hecl] at hlevel
  case low | medium => exact absurd hlevel (by decide)
  case quartile => exact .inl rfl
  case high => exact .inr rfl

/-- What a reader of the symbol gets. -/
theorem pairing_read {localAddr : UInt64} {port : UInt32} {qr : QrCode}
    (h : encodeText (pairingText localAddr port) .quartile = .ok qr) {received : Nat × Nat → Bool}
    (hreadable : Readable qr received) {correct : Nat → List UInt8 → List UInt8} (hcorrect : Corrects correct) :
    (readSymbol correct qr.version received).map (fun bytes => readPairing (ofBytes bytes)) =
      some (localAddr.toNat % 2 ^ 48, getLocalPort port) := by
  rw [readSymbol_encodeText h hreadable hcorrect, cString_pairingText, Option.map_some,
    ofBytes_toBytes fun c hc => (pairingText_chars localAddr port c hc).2, readPairing_pairingText]

/-- The picture reads as the symbol. -/
theorem readable_pixel {qr : QrCode} (hlow : 1 ≤ qr.version) (hhigh : qr.version ≤ 3) (hqr : qr.size = symbolSize qr.version)
    {rnd : Rat → Rat} (hrnd : QrCodeHandler.Rounds rnd) {size : Rat} (hmin : 60 ≤ size) (hmax : size ≤ 2 ^ 30) :
    let shown : QrCodeHandler := ⟨qr, size⟩
    Readable qr fun p => shown.pixel rnd (shown.samplePixel p.1) (shown.samplePixel p.2) := by
  intro shown
  have hmodules : qr.size ≤ 29 := by
    rw [hqr, symbolSize]
    omega
  have hfits : shown.Fits := by
    have hcast : (qr.size : Rat) ≤ 29 := by exact_mod_cast hmodules
    refine ⟨⟨?_, Nat.le_trans hmodules (by decide)⟩, ?_, hmax⟩
    · show 1 ≤ qr.size
      rw [hqr, symbolSize]
      omega
    · show 2 * (qr.size : Rat) ≤ size - 2
      linarith
  refine Readable.congr rfl hlow (fun x hx y hy => ?_) (readable_self qr)
  exact QrCodeHandler.pixel_samplePixel hrnd hfits (hqr ▸ hx) (hqr ▸ hy)

/-- **What is on the screen leads to the listener**: whatever the address and the port are,
there is a symbol for them, of the third version at most; it gives them back when it is
damaged, and so does its picture, sampled once a module, however the program rounds. -/
theorem pairing_shown (localAddr : UInt64) (port : UInt32) {rnd : Rat → Rat} (hrnd : QrCodeHandler.Rounds rnd)
    {size : Rat} (hmin : 60 ≤ size) (hmax : size ≤ 2 ^ 30) {correct : Nat → List UInt8 → List UInt8}
    (hcorrect : Corrects correct) :
    ∃ qr, encodeText (pairingText localAddr port) .quartile = .ok qr ∧ qr.version ≤ 3 ∧
      let shown : QrCodeHandler := ⟨qr, size⟩
      let read (received : Nat × Nat → Bool) :=
        (readSymbol correct qr.version received).map fun bytes => readPairing (ofBytes bytes)
      (∀ received, Readable qr received → read received = some (localAddr.toNat % 2 ^ 48, getLocalPort port)) ∧
        read (fun p => shown.pixel rnd (shown.samplePixel p.1) (shown.samplePixel p.2)) =
          some (localAddr.toNat % 2 ^ 48, getLocalPort port) := by
  obtain ⟨qr, hqr, hlow, hhigh, hsize, _⟩ := pairing_symbol localAddr port
  refine ⟨qr, hqr, hhigh, fun received hreadable => pairing_read hqr hreadable hcorrect, ?_⟩
  exact pairing_read hqr (readable_pixel hlow hhigh hsize hrnd hmin hmax) hcorrect

theorem pairing_shown_window : ∃ qr, encodeText (pairingText 0x0012345678AB 6) .quartile = .ok qr ∧
    (readSymbol nearest qr.version fun p => QrCodeHandler.pixel id ⟨qr, 400⟩ (QrCodeHandler.samplePixel ⟨qr, 400⟩ p.1)
      (QrCodeHandler.samplePixel ⟨qr, 400⟩ p.2)).map (fun bytes => readPairing (ofBytes bytes)) = some (0x12345678AB, 6) := by
  have hexact : QrCodeHandler.Rounds id := by
    intro x hlow _
    rw [id, sub_self, abs_zero, QrCodeHandler.precision]
    have : (0 : Rat) < 1 / 2 ^ 40 := by norm_num
    have : 0 ≤ x := by linarith
    positivity
  obtain ⟨qr, hqr, _, _, hshown⟩ := pairing_shown 0x0012345678AB 6 hexact (by norm_num : (60 : Rat) ≤ 400) (by norm_num)
    nearest_corrects
  exact ⟨qr, hqr, hshown⟩

end ScoutingComputer.Bluetooth
