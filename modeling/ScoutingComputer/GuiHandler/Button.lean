import Mathlib.Data.Rat.Defs
import ScoutingComputer.Foundation.Edge

/-! A button of the interface, as far as being pressed and being released go.

A button counts as released in the frame in which the mouse button goes up over it,
when in the frame before it was down over it. It counts as pressed when the mouse button is
down over it and was not when it was last asked. Coordinates are read as rationals. -/
namespace ScoutingComputer

structure Mouse where
  x : Rat
  y : Rat
  /-- `IsMouseButtonDown` and `IsMouseButtonReleased` of the left button. -/
  down : Bool
  released : Bool

structure Button where
  /-- Where it was last drawn. -/
  lastX : Rat
  lastY : Rat
  width : Rat
  height : Rat
  lastClickState : Bool
  disabled : Bool

namespace Button

def isHovering (b : Button) (mouse : Mouse) : Bool :=
  decide (b.lastX ≤ mouse.x ∧ mouse.x < b.lastX + b.width ∧ b.lastY ≤ mouse.y ∧ mouse.y < b.lastY + b.height)

/-- The answer, and the button after the call. -/
def isReleased (b : Button) (mouse : Mouse) : Bool × Button :=
  if b.disabled then (false, b)
  else
    let down := b.isHovering mouse && mouse.down
    let up := b.isHovering mouse && mouse.released
    (up && b.lastClickState, {b with lastClickState := down})

def isPressed (b : Button) (mouse : Mouse) : Bool × Button :=
  if b.disabled then (false, b)
  else
    let clickState := b.isHovering mouse && mouse.down
    (clickState && !b.lastClickState, {b with lastClickState := clickState})

/-- What a button sees when it is asked whether it is pressed. -/
def sample (b : Button) (mouse : Mouse) : Option Bool :=
  if b.disabled then none else some (b.isHovering mouse && mouse.down)

theorem isPressed_eq (b : Button) (mouse : Mouse) : b.isPressed mouse =
    ((Edge.poll b.lastClickState (b.sample mouse)).1,
      {b with lastClickState := (Edge.poll b.lastClickState (b.sample mouse)).2}) := by
  rw [isPressed, sample]
  by_cases h : b.disabled = true
  · rw [if_pos h, if_pos h]
    rfl
  · rw [if_neg h, if_neg h]
    rfl

end Button
end ScoutingComputer
