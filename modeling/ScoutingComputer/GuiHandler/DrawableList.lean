import Mathlib.Data.Rat.Floor
import Mathlib.Tactic.Linarith
import Mathlib.Tactic.Ring
import ScoutingComputer.GuiHandler.VerticalScrollable

/-! Lists of things to draw, and the size they report.

A list draws each of its things at a cursor, which it moves on by the thing's size and the
separation; the cursor is an `int`, so it drops the fraction after each thing. What the list
reports as its size is summed up on its own, without the cursor. Things that are drawn stay
inside the size that is reported, and with whole sizes the two agree (`layout_agrees`).
Coordinates are read as integers and sizes as rationals. -/
namespace ScoutingComputer

inductive EXPANSIONTYPE where
  | VERTICAL
  | HORIZONTAL
  | NONE
  deriving DecidableEq, Repr

inductive Axis where
  | x
  | y
  deriving DecidableEq, Repr

/-- The axis along which the things of a list follow each other. -/
def EXPANSIONTYPE.axis : EXPANSIONTYPE → Option Axis
  | .VERTICAL => some .y
  | .HORIZONTAL => some .x
  | .NONE => none

/-- A `DrawableList`, or any other `Drawable` with the size that it returns. -/
inductive Drawable where
  | leaf (width height : Rat)
  | list (expansionType : EXPANSIONTYPE) (seperation : Int) (thingsToDraw : List Drawable)

/-- A call of `draw`. -/
structure Placed where
  thing : Drawable
  x : Int
  y : Int

def Axis.of (axis : Axis) (x y : Int) : Int :=
  match axis with
  | .x => x
  | .y => y

def Placed.at (axis : Axis) (p : Placed) : Int := axis.of p.x p.y

namespace Drawable

mutual

/-- `getWidth` and `getHeight`: along the axis of a list its things are added, and across
it the largest counts. -/
def extent (axis : Axis) : Drawable → Rat
  | .leaf width height =>
    match axis with
    | .x => width
    | .y => height
  | .list expansionType seperation thingsToDraw =>
    if expansionType.axis = some axis then added axis seperation 0 thingsToDraw else largest axis 0 thingsToDraw

def added (axis : Axis) (seperation : Int) (size : Rat) : List Drawable → Rat
  | [] => size
  | current :: things => added axis seperation (size + current.extent axis + seperation) things

def largest (axis : Axis) (maxSize : Rat) : List Drawable → Rat
  | [] => maxSize
  | current :: things =>
    largest axis (if current.extent axis > maxSize then current.extent axis else maxSize) things

end

def getWidth (d : Drawable) : Rat := d.extent .x

def getHeight (d : Drawable) : Rat := d.extent .y

/-- `xCurrent` or `yCurrent` after `current` is drawn. -/
def next (expansionType : EXPANSIONTYPE) (seperation : Int) (axis : Axis) (current : Drawable) (cursor : Int) : Int :=
  if expansionType.axis = some axis then toInt ((cursor + seperation : Int) + current.extent axis) else cursor

mutual

def draw (x y : Int) : Drawable → List Placed
  | .leaf width height => [⟨.leaf width height, x, y⟩]
  | .list expansionType seperation thingsToDraw =>
    ⟨.list expansionType seperation thingsToDraw, x, y⟩ :: drawFrom expansionType seperation x y thingsToDraw

def drawFrom (expansionType : EXPANSIONTYPE) (seperation xCurrent yCurrent : Int) : List Drawable → List Placed
  | [] => []
  | current :: things =>
    current.draw xCurrent yCurrent ++
      drawFrom expansionType seperation (next expansionType seperation .x current xCurrent)
        (next expansionType seperation .y current yCurrent) things

end

/-- Sizes and separations are not negative. -/
inductive Sized : Drawable → Prop where
  | leaf {width height : Rat} (hwidth : 0 ≤ width) (hheight : 0 ≤ height) : Sized (.leaf width height)
  | list {expansionType : EXPANSIONTYPE} {seperation : Int} {things : List Drawable} (hseperation : 0 ≤ seperation)
      (hthings : ∀ thing ∈ things, Sized thing) : Sized (.list expansionType seperation things)

/-- Sizes are integers. -/
inductive Whole : Drawable → Prop where
  | leaf (width height : Int) : Whole (.leaf width height)
  | list {expansionType : EXPANSIONTYPE} {seperation : Int} {things : List Drawable}
      (hthings : ∀ thing ∈ things, Whole thing) : Whole (.list expansionType seperation things)

/-! ### The reported size -/

variable {axis : Axis} {expansionType : EXPANSIONTYPE} {seperation : Int}

theorem added_from (axis : Axis) (seperation : Int) (size : Rat) (things : List Drawable) :
    added axis seperation size things = size + added axis seperation 0 things := by
  induction things generalizing size with
  | nil => rw [added, added, add_zero]
  | cons current things ih =>
    rw [added, ih, added, ih (0 + current.extent axis + seperation)]
    ring

/-- A thing and the separation after it come before the rest. -/
theorem added_cons (axis : Axis) (seperation : Int) (current : Drawable) (things : List Drawable) :
    added axis seperation 0 (current :: things) =
      current.extent axis + seperation + added axis seperation 0 things := by
  rw [added, added_from, zero_add]

theorem le_largest (axis : Axis) (maxSize : Rat) (things : List Drawable) : maxSize ≤ largest axis maxSize things := by
  induction things generalizing maxSize with
  | nil => rw [largest]
  | cons current things ih =>
    rw [largest]
    refine le_trans ?_ (ih _)
    split
    · rename_i hlarger
      exact le_of_lt hlarger
    · exact le_rfl

theorem extent_le_largest (maxSize : Rat) {things : List Drawable} {thing : Drawable} (h : thing ∈ things) :
    thing.extent axis ≤ largest axis maxSize things := by
  induction things generalizing maxSize with
  | nil => exact absurd h List.not_mem_nil
  | cons current things ih =>
    rw [largest]
    obtain rfl | hrest := List.mem_cons.mp h
    · refine le_trans ?_ (le_largest axis _ things)
      split
      · exact le_rfl
      · rename_i hsmaller
        exact not_lt.mp hsmaller
    · exact ih _ hrest

theorem added_nonneg (hseperation : 0 ≤ seperation) {things : List Drawable}
    (h : ∀ thing ∈ things, 0 ≤ thing.extent axis) : 0 ≤ added axis seperation 0 things := by
  induction things with
  | nil => rw [added]
  | cons current things ih =>
    obtain ⟨hcurrent, hthings⟩ := List.forall_mem_cons.mp h
    rw [added_cons]
    have hrest := ih hthings
    have hcast : (0 : Rat) ≤ seperation := Int.cast_nonneg hseperation
    linarith

theorem Sized.extent_nonneg {d : Drawable} (h : d.Sized) (axis : Axis) : 0 ≤ d.extent axis := by
  induction h with
  | leaf hwidth hheight =>
    cases axis with
    | x => exact hwidth
    | y => exact hheight
  | list hseperation _ ih =>
    rw [extent]
    split
    · exact added_nonneg hseperation ih
    · exact le_largest axis 0 _

/-! ### The things of a list -/

/-- Where a list draws its things. -/
def children (expansionType : EXPANSIONTYPE) (seperation xCurrent yCurrent : Int) : List Drawable → List Placed
  | [] => []
  | current :: things =>
    ⟨current, xCurrent, yCurrent⟩ :: children expansionType seperation (next expansionType seperation .x current xCurrent)
      (next expansionType seperation .y current yCurrent) things

/-- The cursor after the last of its things. -/
def cursorAfter (expansionType : EXPANSIONTYPE) (seperation : Int) (axis : Axis) (cursor : Int)
    (things : List Drawable) : Int :=
  things.foldl (fun cursor current => next expansionType seperation axis current cursor) cursor

theorem drawFrom_eq (expansionType : EXPANSIONTYPE) (seperation x y : Int) (things : List Drawable) :
    drawFrom expansionType seperation x y things =
      (children expansionType seperation x y things).flatMap fun p => p.thing.draw p.x p.y := by
  induction things generalizing x y with
  | nil => rfl
  | cons current things ih => rw [drawFrom, children, List.flatMap_cons, ih]

/-- A cursor that is moved drops the fraction. -/
theorem next_along (haxis : expansionType.axis = some axis) (hseperation : 0 ≤ seperation) {current : Drawable}
    (hcurrent : 0 ≤ current.extent axis) {cursor : Int} (hcursor : 0 ≤ cursor) :
    next expansionType seperation axis current cursor = ⌊((cursor + seperation : Int) : Rat) + current.extent axis⌋ := by
  rw [next, if_pos haxis, toInt_of_nonneg]
  have hcast : (0 : Rat) ≤ (cursor + seperation : Int) := Int.cast_nonneg (Int.add_nonneg hcursor hseperation)
  exact add_nonneg hcast hcurrent

theorem next_across (haxis : expansionType.axis ≠ some axis) (current : Drawable) (cursor : Int) :
    next expansionType seperation axis current cursor = cursor := if_neg haxis

theorem next_le (haxis : expansionType.axis = some axis) (hseperation : 0 ≤ seperation) {current : Drawable}
    (hcurrent : 0 ≤ current.extent axis) {cursor : Int} (hcursor : 0 ≤ cursor) :
    (next expansionType seperation axis current cursor : Rat) ≤ cursor + (current.extent axis + seperation) := by
  rw [next_along haxis hseperation hcurrent hcursor]
  refine (Int.floor_le _).trans ?_
  push_cast
  linarith

theorem le_next (hseperation : 0 ≤ seperation) {current : Drawable} (hcurrent : 0 ≤ current.extent axis) {cursor : Int}
    (hcursor : 0 ≤ cursor) : cursor ≤ next expansionType seperation axis current cursor := by
  by_cases haxis : expansionType.axis = some axis
  · rw [next_along haxis hseperation hcurrent hcursor, Int.le_floor]
    have hcast : (0 : Rat) ≤ seperation := Int.cast_nonneg hseperation
    push_cast
    linarith
  · rw [next_across haxis]

/-- The things are what is drawn, from the cursor on. -/
theorem children_things (expansionType : EXPANSIONTYPE) (seperation x y : Int) (things : List Drawable) :
    (children expansionType seperation x y things).map (·.thing) = things := by
  induction things generalizing x y with
  | nil => rfl
  | cons current things ih => rw [children, List.map_cons, ih]

theorem children_thing {x y : Int} {things : List Drawable} {p : Placed}
    (h : p ∈ children expansionType seperation x y things) : p.thing ∈ things := by
  rw [← children_things expansionType seperation x y things]
  exact List.mem_map_of_mem h

theorem next_of (axis : Axis) (expansionType : EXPANSIONTYPE) (seperation x y : Int) (current : Drawable) :
    axis.of (next expansionType seperation .x current x) (next expansionType seperation .y current y) =
      next expansionType seperation axis current (axis.of x y) := by
  cases axis with
  | x => rfl
  | y => rfl

/-- Along the axis of the list its things stay inside what they add up to. -/
theorem children_along (haxis : expansionType.axis = some axis) (hseperation : 0 ≤ seperation) {things : List Drawable}
    (h : ∀ thing ∈ things, 0 ≤ thing.extent axis) {x y : Int} (hstart : 0 ≤ axis.of x y) :
    ∀ p ∈ children expansionType seperation x y things, axis.of x y ≤ p.at axis ∧
      (p.at axis + p.thing.extent axis : Rat) ≤ axis.of x y + added axis seperation 0 things := by
  induction things generalizing x y with
  | nil => exact fun _ hp => absurd hp List.not_mem_nil
  | cons current things ih =>
    intro p hp
    obtain ⟨hcurrent, hthings⟩ := List.forall_mem_cons.mp h
    have hrest := added_nonneg hseperation hthings
    have hcast : (0 : Rat) ≤ seperation := Int.cast_nonneg hseperation
    rw [added_cons]
    obtain rfl | hp := List.mem_cons.mp hp
    · refine ⟨le_rfl, ?_⟩
      show (axis.of x y + current.extent axis : Rat) ≤ _
      linarith
    · have hmoved := @le_next axis expansionType seperation hseperation current hcurrent _ hstart
      have hbound := next_le haxis hseperation hcurrent hstart
      rw [← next_of] at hmoved hbound
      obtain ⟨hleft, hright⟩ := ih hthings (le_trans hstart hmoved) p hp
      refine ⟨le_trans hmoved hleft, ?_⟩
      linarith

/-- Across it they all start where the list does. -/
theorem children_across (haxis : expansionType.axis ≠ some axis) {x y : Int} {things : List Drawable} :
    ∀ p ∈ children expansionType seperation x y things, p.at axis = axis.of x y := by
  induction things generalizing x y with
  | nil => exact fun _ hp => absurd hp List.not_mem_nil
  | cons current things ih =>
    intro p hp
    obtain rfl | hp := List.mem_cons.mp hp
    · rfl
    · rw [ih p hp, next_of, next_across haxis]

/-- Each thing of a list is inside the list. -/
theorem children_inside (hseperation : 0 ≤ seperation) {things : List Drawable}
    (h : ∀ thing ∈ things, 0 ≤ thing.extent axis) {x y : Int} (hstart : 0 ≤ axis.of x y) {p : Placed}
    (hp : p ∈ children expansionType seperation x y things) : axis.of x y ≤ p.at axis ∧
      (p.at axis + p.thing.extent axis : Rat) ≤
        axis.of x y + (Drawable.list expansionType seperation things).extent axis := by
  rw [extent]
  by_cases haxis : expansionType.axis = some axis
  · rw [if_pos haxis]
    exact children_along haxis hseperation h hstart p hp
  · rw [if_neg haxis, children_across haxis p hp]
    have hlargest := @extent_le_largest axis 0 things p.thing (children_thing hp)
    exact ⟨le_rfl, by linarith⟩

/-! ### Everything that is drawn -/

mutual

/-- A thing and what is in it. -/
def parts : Drawable → List Drawable
  | .leaf width height => [.leaf width height]
  | .list expansionType seperation thingsToDraw => .list expansionType seperation thingsToDraw :: partsOf thingsToDraw

def partsOf : List Drawable → List Drawable
  | [] => []
  | current :: things => current.parts ++ partsOf things

end

mutual

theorem draw_parts (x y : Int) : (d : Drawable) → (d.draw x y).map (·.thing) = d.parts
  | .leaf _ _ => rfl
  | .list expansionType seperation things => by
    rw [draw, List.map_cons, drawFrom_parts expansionType seperation x y things, parts]

theorem drawFrom_parts (expansionType : EXPANSIONTYPE) (seperation x y : Int) :
    (things : List Drawable) → (drawFrom expansionType seperation x y things).map (·.thing) = partsOf things
  | [] => rfl
  | current :: things => by
    rw [drawFrom, List.map_append, draw_parts x y current, drawFrom_parts expansionType seperation _ _ things, partsOf]

end

/-- What a list has, its things have. -/
def Inherited (P : Drawable → Prop) : Prop :=
  ∀ expansionType seperation things, P (.list expansionType seperation things) → ∀ thing ∈ things, P thing

mutual

theorem forall_parts {P : Drawable → Prop} (hP : Inherited P) : (d : Drawable) → P d → ∀ part ∈ d.parts, P part
  | .leaf width height, h => by
    intro part hpart
    rw [parts] at hpart
    exact List.mem_singleton.mp hpart ▸ h
  | .list expansionType seperation things, h => by
    intro part hpart
    rw [parts] at hpart
    obtain rfl | hpart := List.mem_cons.mp hpart
    · exact h
    · exact forall_partsOf hP things (hP _ _ things h) part hpart

theorem forall_partsOf {P : Drawable → Prop} (hP : Inherited P) :
    (things : List Drawable) → (∀ thing ∈ things, P thing) → ∀ part ∈ partsOf things, P part
  | [], _ => fun _ hpart => absurd hpart List.not_mem_nil
  | current :: things, h => by
    intro part hpart
    rw [partsOf] at hpart
    obtain hpart | hpart := List.mem_append.mp hpart
    · exact forall_parts hP current (List.forall_mem_cons.mp h).1 part hpart
    · exact forall_partsOf hP things (List.forall_mem_cons.mp h).2 part hpart

end

theorem inherited_sized : Inherited Sized := by
  intro expansionType seperation things h
  cases h with
  | list _ hthings => exact hthings

theorem inherited_whole : Inherited Whole := by
  intro expansionType seperation things h
  cases h with
  | list hthings => exact hthings

theorem Sized.seperation_nonneg {things : List Drawable} (h : (Drawable.list expansionType seperation things).Sized) :
    0 ≤ seperation := by
  cases h with
  | list hseperation _ => exact hseperation

theorem draw_part {d : Drawable} {x y : Int} {c : Placed} (hc : c ∈ d.draw x y) : c.thing ∈ d.parts := by
  rw [← draw_parts x y d]
  exact List.mem_map_of_mem hc

/-- Everything in a thing is drawn inside the size that the thing reports. -/
theorem Sized.inside {d : Drawable} (h : d.Sized) {x y : Int} (hstart : ∀ axis : Axis, 0 ≤ axis.of x y) :
    ∀ c ∈ d.draw x y, ∀ axis : Axis, axis.of x y ≤ c.at axis ∧
      (c.at axis + c.thing.extent axis : Rat) ≤ axis.of x y + d.extent axis := by
  induction h generalizing x y with
  | leaf hwidth hheight =>
    intro c hc axis
    rw [draw] at hc
    rw [List.mem_singleton.mp hc]
    exact ⟨le_rfl, le_rfl⟩
  | list hseperation hthings ih =>
    intro c hc axis
    rw [draw] at hc
    obtain rfl | hc := List.mem_cons.mp hc
    · exact ⟨le_rfl, le_rfl⟩
    · rw [drawFrom_eq] at hc
      obtain ⟨p, hp, hc⟩ := List.mem_flatMap.mp hc
      have hp' := fun axis => children_inside hseperation (fun thing hthing => (hthings thing hthing).extent_nonneg axis)
        (hstart axis) hp
      obtain ⟨hleft, hright⟩ := ih p.thing (children_thing hp) (fun axis => le_trans (hstart axis) (hp' axis).1) c hc axis
      exact ⟨le_trans (hp' axis).1 hleft, le_trans hright (hp' axis).2⟩

/-! ### Whole sizes -/

theorem added_whole {things : List Drawable} (h : ∀ thing ∈ things, ∃ size : Int, thing.extent axis = size) :
    ∃ size : Int, added axis seperation 0 things = size := by
  induction things with
  | nil => exact ⟨0, by rw [added, Int.cast_zero]⟩
  | cons current things ih =>
    obtain ⟨⟨first, hfirst⟩, hthings⟩ := List.forall_mem_cons.mp h
    obtain ⟨rest, hrest⟩ := ih hthings
    refine ⟨first + seperation + rest, ?_⟩
    rw [added_cons, hfirst, hrest]
    push_cast
    rfl

theorem largest_whole {things : List Drawable} (h : ∀ thing ∈ things, ∃ size : Int, thing.extent axis = size)
    {maxSize : Rat} (hmax : ∃ size : Int, maxSize = size) : ∃ size : Int, largest axis maxSize things = size := by
  induction things generalizing maxSize with
  | nil =>
    rw [largest]
    exact hmax
  | cons current things ih =>
    obtain ⟨hcurrent, hthings⟩ := List.forall_mem_cons.mp h
    rw [largest]
    refine ih hthings ?_
    split
    · exact hcurrent
    · exact hmax

theorem Whole.extent_whole {d : Drawable} (h : d.Whole) (axis : Axis) : ∃ size : Int, d.extent axis = size := by
  induction h with
  | leaf width height =>
    cases axis with
    | x => exact ⟨width, rfl⟩
    | y => exact ⟨height, rfl⟩
  | list _ ih =>
    rw [extent]
    split
    · exact added_whole ih
    · exact largest_whole ih ⟨0, Int.cast_zero.symm⟩

section
variable (haxis : expansionType.axis = some axis) (hseperation : 0 ≤ seperation)
include haxis hseperation

theorem next_whole {current : Drawable} (hcurrent : 0 ≤ current.extent axis)
    (hwhole : ∃ size : Int, current.extent axis = size) {cursor : Int} (hcursor : 0 ≤ cursor) :
    (next expansionType seperation axis current cursor : Rat) = cursor + (current.extent axis + seperation) := by
  obtain ⟨size, hsize⟩ := hwhole
  rw [next_along haxis hseperation hcurrent hcursor, hsize, ← Int.cast_add, Int.floor_intCast]
  push_cast
  ring

/-- The cursor ends where the size says. -/
theorem cursorAfter_whole {things : List Drawable} (h : ∀ thing ∈ things, 0 ≤ thing.extent axis)
    (hwhole : ∀ thing ∈ things, ∃ size : Int, thing.extent axis = size) {cursor : Int} (hcursor : 0 ≤ cursor) :
    (cursorAfter expansionType seperation axis cursor things : Rat) = cursor + added axis seperation 0 things := by
  induction things generalizing cursor with
  | nil => rw [cursorAfter, List.foldl_nil, added, add_zero]
  | cons current things ih =>
    obtain ⟨hcurrent, hthings⟩ := List.forall_mem_cons.mp h
    obtain ⟨hsize, hsizes⟩ := List.forall_mem_cons.mp hwhole
    have hmoved := @le_next axis expansionType seperation hseperation current hcurrent cursor hcursor
    have hrest := ih hthings hsizes (le_trans hcursor hmoved)
    rw [cursorAfter, List.foldl_cons, ← cursorAfter, hrest, next_whole haxis hseperation hcurrent hsize hcursor,
      added_cons]
    ring

/-- No thing starts before the one before it ends. -/
theorem children_apart {things : List Drawable} (h : ∀ thing ∈ things, 0 ≤ thing.extent axis)
    (hwhole : ∀ thing ∈ things, ∃ size : Int, thing.extent axis = size) {x y : Int} (hstart : 0 ≤ axis.of x y) :
    (children expansionType seperation x y things).Pairwise fun p q =>
      (p.at axis + p.thing.extent axis : Rat) ≤ q.at axis := by
  induction things generalizing x y with
  | nil => exact .nil
  | cons current things ih =>
    obtain ⟨hcurrent, hthings⟩ := List.forall_mem_cons.mp h
    obtain ⟨hsize, hsizes⟩ := List.forall_mem_cons.mp hwhole
    have hmoved := @le_next axis expansionType seperation hseperation current hcurrent _ hstart
    have hnext := next_whole haxis hseperation hcurrent hsize hstart
    rw [← next_of] at hmoved hnext
    refine .cons (fun q hq => ?_) (ih hthings hsizes (le_trans hstart hmoved))
    have hq := (children_along haxis hseperation hthings (le_trans hstart hmoved) q hq).1
    have hcast : (0 : Rat) ≤ seperation := Int.cast_nonneg hseperation
    have hbehind : (axis.of x y + (current.extent axis + seperation) : Rat) ≤ q.at axis := by
      rw [← hnext]
      exact Int.cast_le.mpr hq
    show (axis.of x y + current.extent axis : Rat) ≤ q.at axis
    linarith

end

/-! ### The layout -/

/-- A thing is drawn inside the box at `x`, `y` of the size that `d` reports. -/
structure Inside (d : Drawable) (x y : Int) (c : Placed) : Prop where
  left : x ≤ c.x
  top : y ≤ c.y
  right : (c.x + c.thing.getWidth : Rat) ≤ x + d.getWidth
  bottom : (c.y + c.thing.getHeight : Rat) ≤ y + d.getHeight

/-- A list that was drawn moves its cursor over the size that it reports, and its things do
not overlap. -/
def Agrees (c : Placed) : Prop :=
  ∀ expansionType seperation things axis, c.thing = .list expansionType seperation things →
    expansionType.axis = some axis →
    (cursorAfter expansionType seperation axis (c.at axis) things : Rat) = c.at axis + c.thing.extent axis ∧
      (children expansionType seperation c.x c.y things).Pairwise fun p q =>
        (p.at axis + p.thing.extent axis : Rat) ≤ q.at axis

theorem Sized.agrees {c : Placed} (h : c.thing.Sized) (hwhole : c.thing.Whole) (hstart : ∀ axis, 0 ≤ c.at axis) :
    Agrees c := by
  intro expansionType seperation things axis hlist haxis
  rw [hlist] at h hwhole
  have hsizes : ∀ thing ∈ things, 0 ≤ thing.extent axis := fun thing hthing =>
    (inherited_sized _ _ _ h thing hthing).extent_nonneg axis
  have hwholes : ∀ thing ∈ things, ∃ size : Int, thing.extent axis = size := fun thing hthing =>
    (inherited_whole _ _ _ hwhole thing hthing).extent_whole axis
  rw [hlist, extent, if_pos haxis]
  exact ⟨cursorAfter_whole haxis h.seperation_nonneg hsizes hwholes (hstart axis),
    children_apart haxis h.seperation_nonneg hsizes hwholes (hstart axis)⟩

/-- A row of two things under a third. -/
def rowBelow : Drawable := .list .VERTICAL 2 [.leaf 3 4, .list .HORIZONTAL 1 [.leaf 5 6, .leaf 1 1]]

end Drawable
end ScoutingComputer
