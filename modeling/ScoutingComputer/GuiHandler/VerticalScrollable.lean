import Mathlib.Data.Rat.Floor
import ScoutingComputer.GuiHandler.Button

/-! The scroll list, as far as it decides where its entries are.

Each entry is drawn below the one before it, from the top of the list shifted by what was
scrolled. Neither the offset nor the entries are held inside the list: what lies outside is
laid out all the same and only not painted. -/
namespace ScoutingComputer

structure Rectangle where
  x : Rat
  y : Rat
  width : Rat
  height : Rat
  deriving DecidableEq, Repr

/-- `CheckCollisionPointRec` of `GetMousePosition`. -/
def Rectangle.holds (r : Rectangle) (mouse : Mouse) : Bool :=
  decide (r.x ≤ mouse.x ∧ mouse.x < r.x + r.width ∧ r.y ≤ mouse.y ∧ mouse.y < r.y + r.height)

def Button.rect (b : Button) : Rectangle := ⟨b.lastX, b.lastY, b.width, b.height⟩

theorem Button.isHovering_eq (b : Button) (mouse : Mouse) : b.isHovering mouse = b.rect.holds mouse := rfl

/-- A `double` passed as an `int`: the fraction is dropped. -/
def toInt (q : Rat) : Int := q.num.tdiv q.den

theorem toInt_of_nonneg {q : Rat} (h : 0 ≤ q) : toInt q = ⌊q⌋ := by
  rw [toInt, Rat.floor_def', Int.tdiv_eq_ediv_of_nonneg (Rat.num_nonneg.mpr h)]

theorem toInt_of_nonpos {q : Rat} (h : q ≤ 0) : toInt q = ⌈q⌉ := by
  have hneg : 0 ≤ -q.num := Int.neg_nonneg_of_nonpos (Rat.num_nonpos.mpr h)
  rw [Rat.ceil_def', ← Int.tdiv_eq_ediv_of_nonneg hneg, Int.neg_tdiv, Int.neg_neg, toInt]

@[simp] theorem toInt_intCast (n : Int) : toInt n = n := by
  rw [toInt, Rat.num_intCast, Rat.den_intCast]
  exact Int.tdiv_one n

/-- What the sizes of the list are in the window. -/
structure ListSizes where
  width : Rat
  height : Rat
  scrollMultiple : Rat

structure VerticalScrollable (α : Type) where
  thingsToDraw : List α
  lastX : Int
  lastY : Int
  scrollPx : Rat

namespace VerticalScrollable
variable {α : Type}

/-- The rectangle that entries are clipped to. -/
def rect (sizes : ListSizes) (v : VerticalScrollable α) : Rectangle := ⟨v.lastX, v.lastY, sizes.width, sizes.height⟩

def isHovering (sizes : ListSizes) (mouse : Mouse) (v : VerticalScrollable α) : Bool := (v.rect sizes).holds mouse

/-- The start of `draw`: the place is remembered, and the wheel moves the list under the mouse. -/
def scroll (sizes : ListSizes) (mouse : Mouse) (wheel : Rat) (x y : Int) (v : VerticalScrollable α) :
    VerticalScrollable α :=
  let v := {v with lastX := x, lastY := y}
  if v.isHovering sizes mouse then {v with scrollPx := v.scrollPx + wheel * sizes.scrollMultiple} else v

end VerticalScrollable
end ScoutingComputer
