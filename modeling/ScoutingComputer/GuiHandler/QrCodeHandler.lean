import Mathlib.Algebra.Order.Floor.Ring
import Mathlib.Tactic.GCongr
import Mathlib.Tactic.Linarith
import Mathlib.Tactic.NormNum
import Mathlib.Tactic.Positivity
import Mathlib.Tactic.Ring
import ScoutingComputer.GuiHandler.VerticalScrollable
import ScoutingComputer.Qrcodegen.ReadSymbol

/-! The picture of a symbol.

Each pixel shows the module that its place is scaled to, in `long double` arithmetic. The
rounding is a parameter: whatever it does within its precision, a picture with two pixels
to a module shows every module, a quarter of a module behind its edge. -/
namespace ScoutingComputer
open Qrcodegen

structure QrCodeHandler where
  qrData : QrCode
  /-- The value of the `ShouldScale` when it is read. -/
  size : Rat

namespace QrCodeHandler

/-- `qrData.getSize() * (j/(size-2))`, passed as an `int`. -/
def moduleAt (rnd : Rat → Rat) (h : QrCodeHandler) (j : Nat) : Int :=
  toInt (rnd (h.qrData.size * rnd (j / rnd (h.size - 2))))

/-- The pixel `(j, i)` of the texture after `draw`: `true` is black. -/
def pixel (rnd : Rat → Rat) (h : QrCodeHandler) (j i : Nat) : Bool :=
  if (i : Rat) < rnd (h.size - 1) ∧ (j : Rat) < rnd (h.size - 1) then
    if j = 0 ∨ i = 0 then false
    else h.qrData.getModule (h.moduleAt rnd j) (h.moduleAt rnd i)
  else false  -- the background

/-- How far the rounding of a `long double` may be off. -/
def precision : Rat := 1 / 2 ^ 50

/-- Rounding within the precision, for numbers that are neither tiny nor huge. -/
def Rounds (rnd : Rat → Rat) : Prop := ∀ x, 1 / 2 ^ 40 ≤ x → x ≤ 2 ^ 40 → |rnd x - x| ≤ x * precision

/-- The pixel a quarter of a module behind the edge of module `k`. -/
def samplePixel (h : QrCodeHandler) (k : Nat) : Nat := ⌈(h.size - 2) * (k + 1 / 4) / h.qrData.size⌉₊

/-- Enough pixels for the modules, but not too many. -/
structure Fits (h : QrCodeHandler) : Prop where
  modules : 1 ≤ h.qrData.size ∧ h.qrData.size ≤ 177
  low : 2 * (h.qrData.size : Rat) ≤ h.size - 2
  high : h.size ≤ 2 ^ 30

theorem samplePixel_bounds {h : QrCodeHandler} (hfits : h.Fits) (k : Nat) :
    (h.size - 2) * (k + 1 / 4) ≤ h.qrData.size * h.samplePixel k ∧
      h.qrData.size * h.samplePixel k ≤ (h.size - 2) * (k + 3 / 4) := by
  have hn : (0 : Rat) < h.qrData.size := by exact_mod_cast hfits.modules.1
  have hw : 0 ≤ h.size - 2 := by linarith [hfits.low]
  have hplace : 0 ≤ (h.size - 2) * ((k : Rat) + 1 / 4) / h.qrData.size := by positivity
  have hlow := Nat.le_ceil ((h.size - 2) * ((k : Rat) + 1 / 4) / h.qrData.size)
  have hhigh := Nat.ceil_lt_add_one hplace
  rw [← samplePixel] at hlow hhigh
  rw [div_le_iff₀ hn] at hlow
  rw [← sub_lt_iff_lt_add, lt_div_iff₀ hn] at hhigh
  constructor
  · linarith
  · linarith [hfits.low]

theorem rounds_between {rnd : Rat → Rat} (h : Rounds rnd) {x lo hi : Rat} (hlo : lo ≤ x) (hhi : x ≤ hi)
    (hlow : 1 / 2 ^ 40 ≤ lo) (hhigh : hi ≤ 2 ^ 40) :
    lo * (1 - precision) ≤ rnd x ∧ rnd x ≤ hi * (1 + precision) := by
  have hx := h x (hlow.trans hlo) (hhi.trans hhigh)
  have hp : (0 : Rat) < precision ∧ precision < 1 := by
    rw [precision]
    norm_num
  obtain ⟨hdown, hup⟩ := abs_le.mp hx
  constructor
  · calc lo * (1 - precision) ≤ x * (1 - precision) := by
          have : 0 ≤ 1 - precision := by linarith [hp.2]
          gcongr
      _ ≤ rnd x := by linarith
  · calc rnd x ≤ x * (1 + precision) := by linarith
      _ ≤ hi * (1 + precision) := by
          have : 0 ≤ 1 + precision := by linarith [hp.1]
          gcongr

/-- What three roundings do to a quotient, at most. -/
theorem scaled_between {rnd : Rat → Rat} (h : Rounds rnd) {n w j q : Rat} (hn : 1 ≤ n ∧ n ≤ 177)
    (hw : 1 ≤ w ∧ w ≤ 2 ^ 30) (hq : n * j = q * w) (hlow : 1 / 4 ≤ q) (hhigh : q ≤ 177) :
    q * (1 - 1 / 2 ^ 20) ≤ rnd (n * rnd (j / rnd w)) ∧ rnd (n * rnd (j / rnd w)) ≤ q * (1 + 1 / 2 ^ 20) := by
  have hwpos : 0 < w := by linarith
  have hnpos : 0 < n := by linarith
  -- the quotient before any rounding
  obtain ⟨r, hr⟩ : ∃ r, r = j / w := ⟨_, rfl⟩
  have hnr : n * r = q := by rw [hr, mul_div_assoc', hq, mul_div_cancel_right₀ _ hwpos.ne']
  have hrlow : 1 / 1000 ≤ r := by nlinarith
  have hrhigh : r ≤ 177 := by nlinarith
  have hj : j = r * w := by rw [hr, div_mul_cancel₀ _ hwpos.ne']
  have hrw : 0 ≤ r * w := by positivity
  -- the divisor
  obtain ⟨hwdown, hwup⟩ := rounds_between h (le_refl w) (le_refl w) (by linarith) (by linarith)
  obtain ⟨W, hW⟩ : ∃ W, W = rnd w := ⟨_, rfl⟩
  rw [← hW, precision] at hwdown hwup
  rw [← hW]
  have hWpos : 0 < W := by linarith
  have hdown : r * (1 - 1 / 2 ^ 40) ≤ j / W := by
    rw [le_div_iff₀ hWpos, hj]
    calc r * (1 - 1 / 2 ^ 40) * W ≤ r * (1 - 1 / 2 ^ 40) * (w * (1 + 1 / 2 ^ 50)) := by gcongr
      _ = r * w * ((1 - 1 / 2 ^ 40) * (1 + 1 / 2 ^ 50)) := by ring
      _ ≤ r * w * 1 := by gcongr; norm_num
      _ = r * w := mul_one _
  have hup : j / W ≤ r * (1 + 1 / 2 ^ 40) := by
    rw [div_le_iff₀ hWpos, hj]
    calc r * w = r * w * 1 := (mul_one _).symm
      _ ≤ r * w * ((1 + 1 / 2 ^ 40) * (1 - 1 / 2 ^ 50)) := by gcongr; norm_num
      _ = r * (1 + 1 / 2 ^ 40) * (w * (1 - 1 / 2 ^ 50)) := by ring
      _ ≤ r * (1 + 1 / 2 ^ 40) * W := by gcongr
  -- the quotient
  obtain ⟨hddown, hdup⟩ := rounds_between h hdown hup (by linarith) (by linarith)
  obtain ⟨D, hD⟩ : ∃ D, D = rnd (j / W) := ⟨_, rfl⟩
  rw [← hD, precision] at hddown hdup
  rw [← hD]
  have hnlow : q * ((1 - 1 / 2 ^ 40) * (1 - 1 / 2 ^ 50)) ≤ n * D := by
    calc q * ((1 - 1 / 2 ^ 40) * (1 - 1 / 2 ^ 50)) = n * (r * (1 - 1 / 2 ^ 40) * (1 - 1 / 2 ^ 50)) := by rw [← hnr]; ring
      _ ≤ n * D := by gcongr
  have hnhigh : n * D ≤ q * ((1 + 1 / 2 ^ 40) * (1 + 1 / 2 ^ 50)) := by
    calc n * D ≤ n * (r * (1 + 1 / 2 ^ 40) * (1 + 1 / 2 ^ 50)) := by gcongr
      _ = q * ((1 + 1 / 2 ^ 40) * (1 + 1 / 2 ^ 50)) := by rw [← hnr]; ring
  -- the product
  obtain ⟨hvdown, hvup⟩ := rounds_between h hnlow hnhigh (by linarith) (by linarith)
  rw [precision] at hvdown hvup
  constructor
  · linarith
  · linarith

/-- The module that the sample pixel is scaled to. -/
theorem moduleAt_samplePixel {rnd : Rat → Rat} (hrnd : Rounds rnd) {h : QrCodeHandler} (hfits : h.Fits) {k : Nat}
    (hk : k < h.qrData.size) : h.moduleAt rnd (h.samplePixel k) = k := by
  obtain ⟨hlow, hhigh⟩ := samplePixel_bounds hfits k
  have hn : (1 : Rat) ≤ h.qrData.size ∧ (h.qrData.size : Rat) ≤ 177 :=
    ⟨by exact_mod_cast hfits.modules.1, by exact_mod_cast hfits.modules.2⟩
  have hkn : (k : Rat) + 1 ≤ h.qrData.size := by exact_mod_cast hk
  have hk0 : (0 : Rat) ≤ k := Nat.cast_nonneg k
  have hw : 1 ≤ h.size - 2 ∧ h.size - 2 ≤ 2 ^ 30 := ⟨by linarith [hfits.low], by linarith [hfits.high]⟩
  have hwpos : 0 < h.size - 2 := by linarith
  obtain ⟨q, hq⟩ : ∃ q, q = h.qrData.size * h.samplePixel k / (h.size - 2) := ⟨_, rfl⟩
  have hmul : (h.qrData.size : Rat) * h.samplePixel k = q * (h.size - 2) := by rw [hq, div_mul_cancel₀ _ hwpos.ne']
  have hqlow : (k : Rat) + 1 / 4 ≤ q := by
    rw [hq, le_div_iff₀ hwpos]
    linarith
  have hqhigh : q ≤ (k : Rat) + 3 / 4 := by
    rw [hq, div_le_iff₀ hwpos]
    linarith
  obtain ⟨hdown, hup⟩ := scaled_between hrnd hn hw hmul (by linarith) (by linarith)
  have hfloor : ⌊rnd (h.qrData.size * rnd (h.samplePixel k / rnd (h.size - 2)))⌋ = (k : Int) := by
    rw [Int.floor_eq_iff]
    constructor
    · rw [Int.cast_natCast]
      linarith
    · rw [Int.cast_natCast]
      linarith
  rw [moduleAt, toInt_of_nonneg (by linarith), hfloor]

/-- **Every module is in the picture**: at its sample pixel, whatever the rounding. -/
theorem pixel_samplePixel {rnd : Rat → Rat} (hrnd : Rounds rnd) {h : QrCodeHandler} (hfits : h.Fits) {x y : Nat}
    (hx : x < h.qrData.size) (hy : y < h.qrData.size) :
    h.pixel rnd (h.samplePixel x) (h.samplePixel y) = h.qrData.modules (x, y) := by
  have hwpos : 0 < h.size - 2 := by
    have : (1 : Rat) ≤ h.qrData.size := by exact_mod_cast hfits.modules.1
    linarith [hfits.low]
  have hnpos : (0 : Rat) < h.qrData.size := by exact_mod_cast hfits.modules.1
  have hinside : ∀ k < h.qrData.size, (h.samplePixel k : Rat) < rnd (h.size - 1) ∧ h.samplePixel k ≠ 0 := by
    intro k hk
    obtain ⟨hlow, hhigh⟩ := samplePixel_bounds hfits k
    have hkn : (k : Rat) + 1 ≤ h.qrData.size := by exact_mod_cast hk
    have hk0 : (0 : Rat) ≤ k := Nat.cast_nonneg k
    constructor
    · have hleft : (h.samplePixel k : Rat) ≤ h.size - 2 := by
        have hmul : h.qrData.size * (h.samplePixel k : Rat) ≤ h.qrData.size * (h.size - 2) := by
          calc h.qrData.size * (h.samplePixel k : Rat) ≤ (h.size - 2) * (k + 3 / 4) := hhigh
            _ ≤ (h.size - 2) * h.qrData.size := by gcongr; linarith
            _ = h.qrData.size * (h.size - 2) := mul_comm _ _
        exact le_of_mul_le_mul_left hmul hnpos
      obtain ⟨hdown, _⟩ := rounds_between hrnd (le_refl (h.size - 1)) (le_refl (h.size - 1)) (by linarith)
        (by linarith [hfits.high])
      rw [precision] at hdown
      linarith [hfits.high]
    · intro hzero
      rw [hzero, Nat.cast_zero, mul_zero] at hlow
      have : 0 < (h.size - 2) * ((k : Rat) + 1 / 4) := by positivity
      linarith
  obtain ⟨hxin, hx0⟩ := hinside x hx
  obtain ⟨hyin, hy0⟩ := hinside y hy
  rw [pixel, if_pos ⟨hyin, hxin⟩, if_neg (by omega), moduleAt_samplePixel hrnd hfits hx,
    moduleAt_samplePixel hrnd hfits hy, QrCode.getModule]
  have hrange : (0 : Int) ≤ x ∧ (x : Int) < h.qrData.size ∧ (0 : Int) ≤ y ∧ (y : Int) < h.qrData.size := by omega
  rw [decide_eq_true hrange, Bool.true_and, Int.toNat_natCast, Int.toNat_natCast]

end QrCodeHandler
end ScoutingComputer
