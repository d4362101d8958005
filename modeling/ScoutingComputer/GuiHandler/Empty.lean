import Mathlib.Data.Rat.Floor
import Mathlib.Tactic.Linarith
import Mathlib.Tactic.Ring
import ScoutingComputer.GuiHandler.VerticalScrollable

/-! The container that draws each child at one of nine places.

A child at an exact place is drawn at the pixel of it. The container has to start from its
own corner for that; one of the nine places leaves it out in `x`, and the call with four
numbers draws everything from `x` in both directions. -/
namespace ScoutingComputer

inductive DISPLAYPOS where
  | TOPLEFT
  | CENTERLEFT
  | BOTTOMLEFT
  | TOPCENTERED
  | CENTERED
  | BOTTOMCENTERED
  | TOPRIGHT
  | CENTERRIGHT
  | BOTTOMRIGHT
  deriving DecidableEq, Repr

/-- What the container asks of a `Drawable`. -/
structure Child where
  getDisplayPos : DISPLAYPOS
  getWidth : Rat
  getHeight : Rat
  deriving DecidableEq, Repr

structure Empty where
  thingsToDraw : List Child
  x : Rat
  y : Rat
  width : Rat
  height : Rat

namespace Empty

/-- `xPos` and `yPos` of a child. -/
def position (e : Empty) (current : Child) : Int × Int :=
  match current.getDisplayPos with
  | .BOTTOMCENTERED =>
    (toInt (e.x + (e.width / 2 - current.getWidth / 2)), toInt ((e.y + e.height) - current.getHeight))
  | .BOTTOMLEFT => (toInt e.x, toInt ((e.y + e.height) - current.getHeight))
  | .BOTTOMRIGHT => (toInt (e.width - current.getWidth), toInt ((e.y + e.height) - current.getHeight))
  | .CENTERED =>
    (toInt (e.x + (e.width / 2 - current.getWidth / 2)), toInt ((e.y + e.height / 2) - current.getHeight / 2))
  | .CENTERLEFT => (toInt e.x, toInt ((e.y + e.height / 2) - current.getHeight / 2))
  | .CENTERRIGHT =>
    (toInt ((e.x + e.width) - current.getWidth), toInt ((e.y + e.height / 2) - current.getHeight / 2))
  | .TOPCENTERED => (toInt (e.x + (e.width / 2 - current.getWidth / 2)), toInt e.y)
  | .TOPLEFT => (toInt e.x, toInt e.y)
  | .TOPRIGHT => (toInt ((e.x + e.width) - current.getWidth), toInt e.y)

/-- The calls of `draw` of the children. -/
def draw (x y : Int) (e : Empty) : List (Child × Int × Int) :=
  let e := {e with x := x, y := y}
  e.thingsToDraw.map fun current => (current, e.position current)

/-- With a rectangle. -/
def updateAndDraw (size : Rectangle) (e : Empty) : List (Child × Int × Int) :=
  draw (toInt size.x) (toInt size.y) {e with width := size.width, height := size.height}

/-- With four numbers. -/
def updateAndDrawNumbers (x _y width height : Rat) (e : Empty) : List (Child × Int × Int) :=
  draw (toInt x) (toInt x) {e with width := width, height := height}

end Empty

/-! ### Where a child belongs -/

/-- Where a child is held in one direction. -/
inductive Hold where
  | near
  | middle
  | far

def DISPLAYPOS.horizontal : DISPLAYPOS → Hold
  | .TOPLEFT | .CENTERLEFT | .BOTTOMLEFT => .near
  | .TOPCENTERED | .CENTERED | .BOTTOMCENTERED => .middle
  | .TOPRIGHT | .CENTERRIGHT | .BOTTOMRIGHT => .far

def DISPLAYPOS.vertical : DISPLAYPOS → Hold
  | .TOPLEFT | .TOPCENTERED | .TOPRIGHT => .near
  | .CENTERLEFT | .CENTERED | .CENTERRIGHT => .middle
  | .BOTTOMLEFT | .BOTTOMCENTERED | .BOTTOMRIGHT => .far

/-- The distance from the near edge, of what the child leaves free. -/
def Hold.gap (hold : Hold) (free : Rat) : Rat :=
  match hold with
  | .near => 0
  | .middle => free / 2
  | .far => free

/-- The child lies between the edges of the container, at the pixel of the place where it
is flush with its edge or centred. -/
structure Anchored (hold : Hold) (origin : Int) (size : Rat) (childSize : Rat) (pos : Int) : Prop where
  near : origin ≤ pos
  far : (pos + childSize : Rat) ≤ origin + size
  flush : (pos : Rat) ≤ origin + hold.gap (size - childSize) ∧ (origin + hold.gap (size - childSize) : Rat) < pos + 1

theorem Hold.gap_nonneg (hold : Hold) {free : Rat} (h : 0 ≤ free) : 0 ≤ hold.gap free := by
  cases hold with
  | near => exact le_rfl
  | middle => exact div_nonneg h (by norm_num)
  | far => exact h

theorem Hold.gap_le (hold : Hold) {free : Rat} (h : 0 ≤ free) : hold.gap free ≤ free := by
  cases hold with
  | near => exact h
  | middle => exact div_le_self h (by norm_num)
  | far => exact le_rfl

/-- There is one pixel where a child belongs. -/
theorem anchored_iff_floor {hold : Hold} {origin : Int} {size childSize : Rat} (h : childSize ≤ size) {pos : Int} :
    Anchored hold origin size childSize pos ↔ pos = ⌊(origin : Rat) + hold.gap (size - childSize)⌋ := by
  have hfree : 0 ≤ size - childSize := sub_nonneg.mpr h
  have hnonneg := hold.gap_nonneg hfree
  have hle := hold.gap_le hfree
  rw [eq_comm, Int.floor_eq_iff]
  constructor
  · exact fun hanchored => hanchored.flush
  · intro hflush
    refine ⟨?_, by linarith [hflush.1], hflush⟩
    have hlt : (origin : Rat) < pos + 1 := by linarith [hflush.2]
    exact Int.lt_add_one_iff.mp (by exact_mod_cast hlt)

/-! ### Where a child is drawn -/

/-- A place counted from `used` instead of `origin` is at the same pixel: the fraction is
dropped towards zero. -/
def SamePixel (used origin : Int) (gap : Rat) : Prop :=
  (used = origin ∧ (0 ≤ origin + gap ∨ ∃ whole : Int, gap = whole)) ∨
    (used + 1 = origin ∧ used + gap < 0 ∧ ¬ ∃ whole : Int, gap = whole)

theorem toInt_eq_floor_iff {used origin : Int} {gap : Rat} (h : 0 ≤ gap) :
    toInt (used + gap) = ⌊(origin : Rat) + gap⌋ ↔ SamePixel used origin gap := by
  rw [Int.floor_intCast_add]
  by_cases hsign : 0 ≤ (used : Rat) + gap
  · rw [toInt_of_nonneg hsign, Int.floor_intCast_add]
    constructor
    · intro heq
      obtain rfl : used = origin := by omega
      exact .inl ⟨rfl, .inl hsign⟩
    · rintro (⟨rfl, _⟩ | ⟨_, hneg, _⟩)
      · rfl
      · exact absurd hsign (not_le.mpr hneg)
  · rw [toInt_of_nonpos (le_of_not_ge hsign), Int.ceil_intCast_add]
    by_cases hwhole : ∃ whole : Int, gap = whole
    · obtain ⟨whole, rfl⟩ := hwhole
      rw [Int.ceil_intCast, Int.floor_intCast]
      constructor
      · intro heq
        exact .inl ⟨by omega, .inr ⟨whole, rfl⟩⟩
      · rintro (⟨rfl, _⟩ | ⟨_, _, hno⟩)
        · rfl
        · exact absurd ⟨whole, rfl⟩ hno
    · have hceil : ⌈gap⌉ = ⌊gap⌋ + 1 := by
        rw [Int.ceil_eq_floor_add_one_iff_notMem]
        rintro ⟨whole, heq⟩
        exact hwhole ⟨whole, heq.symm⟩
      rw [hceil]
      constructor
      · intro heq
        exact .inr ⟨by omega, lt_of_not_ge hsign, hwhole⟩
      · rintro (⟨rfl, hnonneg | hno⟩ | ⟨rfl, _⟩)
        · exact absurd hnonneg hsign
        · exact absurd hno hwhole
        · omega

/-- What `xPos` is counted from. -/
def originX (displayPos : DISPLAYPOS) (x : Int) : Int := if displayPos = .BOTTOMRIGHT then 0 else x

theorem position_eq (things : List Child) (x y : Int) (width height : Rat) (current : Child) :
    (Empty.mk things x y width height).position current =
      (toInt (originX current.getDisplayPos x + current.getDisplayPos.horizontal.gap (width - current.getWidth)),
        toInt (y + current.getDisplayPos.vertical.gap (height - current.getHeight))) := by
  have hmiddle : ∀ size childSize : Rat, size / 2 - childSize / 2 = (size - childSize) / 2 := fun _ _ => by ring
  unfold Empty.position originX
  cases current.getDisplayPos <;>
    simp only [DISPLAYPOS.horizontal, DISPLAYPOS.vertical, Hold.gap, add_sub_assoc, hmiddle, add_zero, if_true,
      reduceCtorEq, if_false, Int.cast_zero, zero_add]

/-- How the container is drawn. -/
inductive Overload where
  | rectangle
  | numbers
  deriving DecidableEq, Repr

namespace Overload

def updateAndDraw (overload : Overload) (x y : Int) (width height : Rat) (e : Empty) : List (Child × Int × Int) :=
  match overload with
  | .rectangle => e.updateAndDraw ⟨x, y, width, height⟩
  | .numbers => e.updateAndDrawNumbers x y width height

/-- What `yPos` is counted from. -/
def originY (overload : Overload) (x y : Int) : Int :=
  match overload with
  | .rectangle => y
  | .numbers => x

theorem updateAndDraw_eq (overload : Overload) (x y : Int) (width height : Rat) (e : Empty) :
    overload.updateAndDraw x y width height e = e.thingsToDraw.map fun current => (current,
      toInt (originX current.getDisplayPos x + current.getDisplayPos.horizontal.gap (width - current.getWidth)),
      toInt (overload.originY x y + current.getDisplayPos.vertical.gap (height - current.getHeight))) := by
  cases overload with
  | rectangle =>
    simp only [updateAndDraw, Empty.updateAndDraw, Empty.draw, toInt_intCast, position_eq]
    rfl
  | numbers =>
    simp only [updateAndDraw, Empty.updateAndDrawNumbers, Empty.draw, toInt_intCast, position_eq]
    rfl

end Overload

/-- Each child is drawn where it belongs, and no other child has a part in that. -/
structure Anchors (overload : Overload) (x y : Int) (width height : Rat) (e : Empty) : Prop where
  alone : ∃ place : Child → Int × Int, ∀ things,
    overload.updateAndDraw x y width height {e with thingsToDraw := things} = things.map fun c => (c, place c)
  anchored : ∀ d ∈ overload.updateAndDraw x y width height e,
    Anchored d.1.getDisplayPos.horizontal x width d.1.getWidth d.2.1 ∧
      Anchored d.1.getDisplayPos.vertical y height d.1.getHeight d.2.2

/-- **The children are anchored** exactly when each of them is counted from the corner of
the container. -/
theorem anchors_iff (overload : Overload) (x y : Int) (width height : Rat) (e : Empty)
    (hsizes : ∀ c ∈ e.thingsToDraw, c.getWidth ≤ width ∧ c.getHeight ≤ height) :
    Anchors overload x y width height e ↔ ∀ c ∈ e.thingsToDraw,
      SamePixel (originX c.getDisplayPos x) x (c.getDisplayPos.horizontal.gap (width - c.getWidth)) ∧
        SamePixel (overload.originY x y) y (c.getDisplayPos.vertical.gap (height - c.getHeight)) := by
  have hchild : ∀ c ∈ e.thingsToDraw,
      (Anchored c.getDisplayPos.horizontal x width c.getWidth
          (toInt (originX c.getDisplayPos x + c.getDisplayPos.horizontal.gap (width - c.getWidth))) ∧
        Anchored c.getDisplayPos.vertical y height c.getHeight
          (toInt (overload.originY x y + c.getDisplayPos.vertical.gap (height - c.getHeight)))) ↔
      SamePixel (originX c.getDisplayPos x) x (c.getDisplayPos.horizontal.gap (width - c.getWidth)) ∧
        SamePixel (overload.originY x y) y (c.getDisplayPos.vertical.gap (height - c.getHeight)) := by
    intro c hc
    obtain ⟨hwidth, hheight⟩ := hsizes c hc
    rw [anchored_iff_floor hwidth, anchored_iff_floor hheight,
      toInt_eq_floor_iff (Hold.gap_nonneg _ (sub_nonneg.mpr hwidth)),
      toInt_eq_floor_iff (Hold.gap_nonneg _ (sub_nonneg.mpr hheight))]
  constructor
  · intro h c hc
    refine (hchild c hc).mp (h.anchored (c, _, _) ?_)
    rw [Overload.updateAndDraw_eq]
    exact List.mem_map_of_mem hc
  · intro h
    refine ⟨⟨_, fun things => overload.updateAndDraw_eq x y width height {e with thingsToDraw := things}⟩, ?_⟩
    intro d hd
    rw [Overload.updateAndDraw_eq] at hd
    obtain ⟨c, hc, rfl⟩ := List.mem_map.mp hd
    exact (hchild c hc).mpr (h c hc)

/-- Two children in opposite corners. -/
def corners : Empty := ⟨[⟨.TOPLEFT, 20, 10⟩, ⟨.BOTTOMRIGHT, 20, 10⟩], 0, 0, 0, 0⟩

theorem anchors_iff_corners : Anchors .rectangle 0 50 100 80 corners := by
  have hsizes : ∀ c ∈ corners.thingsToDraw, c.getWidth ≤ 100 ∧ c.getHeight ≤ 80 := by
    decide +kernel
  refine (anchors_iff .rectangle 0 50 100 80 corners hsizes).mpr ?_
  have hsame : ∀ (origin : Int) (gap : Rat), 0 ≤ origin + gap → SamePixel origin origin gap :=
    fun _ _ h => .inl ⟨rfl, .inl h⟩
  refine List.forall_mem_cons.mpr ⟨⟨hsame _ _ ?_, hsame _ _ ?_⟩,
    List.forall_mem_singleton.mpr ⟨hsame _ _ ?_, hsame _ _ ?_⟩⟩
  all_goals decide +kernel

/-- Counted from `x` alone, and from no corner. -/
theorem drawn_off_the_corner :
    ¬ Anchors .numbers 0 50 100 80 corners ∧ ¬ Anchors .rectangle 10 50 100 80 corners := by
  constructor
  · intro h
    have hnear := (h.anchored (⟨.TOPLEFT, 20, 10⟩, 0, 0) (by decide +kernel)).2.near
    revert hnear
    decide
  · intro h
    have hflush := (h.anchored (⟨.BOTTOMRIGHT, 20, 10⟩, 80, 120) (by decide +kernel)).1.flush.2
    revert hflush
    decide +kernel

end ScoutingComputer
