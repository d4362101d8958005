import Mathlib.Algebra.Ring.Int.Defs
import ScoutingComputer.Foundation.EditBuffer
import ScoutingComputer.Foundation.Run
import ScoutingComputer.GuiHandler.VerticalScrollable
import ScoutingComputer.Types

/-! The text box, and the line it keeps.

The text lies in `sizeLimit + 1` bytes that are never moved, with a zero behind the last
character. A frame takes the first key before it looks at the backspace, and each further
key after it has stored the one before; what is behind the zero is left from before. The
box is a bounded line that is edited at its end (`textBox_refines`). -/
namespace ScoutingComputer

structure TextBox where
  text : List UInt8
  selected : Bool
  sizeLimit : Int
  currentChar : Int
  lastX : Int
  lastY : Int
  deriving DecidableEq, Repr

/-- What a frame brings to a box. -/
structure BoxFrame where
  /-- Where the box is drawn, and its size. -/
  x : Int
  y : Int
  width : Rat
  height : Rat
  mouse : Mouse
  /-- `IsKeyPressed(KEY_BACKSPACE)`. -/
  backspace : Bool
  /-- The keys that `GetCharPressed` returns one after another. -/
  queue : List Int

/-- `text[i] = byte`, inside the memory. -/
def store (text : List UInt8) (i : Int) (byte : UInt8) : Option (List UInt8) :=
  if 0 ≤ i ∧ i < text.length then some (text.set i.toNat byte) else none

/-- The next key, 0 when there is none. -/
def getCharPressed : List Int → Int × List Int
  | [] => (0, [])
  | key :: queue => (key, queue)

/-- An `int` as a `char`. -/
def keyByte (key : Int) : UInt8 := UInt8.ofNat key.toNat

namespace TextBox

/-- The constructor; `memory` is whether `calloc` finds the memory. -/
def new (memory : Bool) (sizeLimit : Int) : Option TextBox :=
  if sizeLimit + 1 < 2 ^ 31 ∧ memory then
    some
      { text := List.replicate (sizeLimit + 1).toNat 0
        selected := false
        sizeLimit := sizeLimit
        currentChar := 0
        lastX := 0
        lastY := 0 }
  else none

def isHovering (f : BoxFrame) (box : TextBox) : Bool :=
  (Rectangle.mk box.lastX box.lastY f.width f.height).holds f.mouse

/-- The backspace of `updateText`. -/
def backspace (box : TextBox) : Option TextBox := do
  let currentChar := if box.currentChar - 1 < 0 then 0 else box.currentChar - 1
  let text ← store box.text currentChar 0
  return {box with text := text, currentChar := currentChar}

/-- The loop of `updateText`, with the key at hand. -/
def typeKeys (key : Int) (queue : List Int) (box : TextBox) : Option TextBox :=
  if (31 < key ∧ key < 123) ∧ box.currentChar < box.sizeLimit then do
    let text ← store box.text box.currentChar (keyByte key)
    let text ← store text (box.currentChar + 1) 0
    let box := {box with text := text, currentChar := box.currentChar + 1}
    match queue with
    -- the next key is 0, which ends the loop
    | [] => return box
    | key :: queue => typeKeys key queue box
  else some box

/-- The mouse button selects the box under the mouse, and leaves it elsewhere. -/
def select (f : BoxFrame) (box : TextBox) : TextBox :=
  if f.mouse.down then {box with selected := box.isHovering f} else box

def updateText (f : BoxFrame) (box : TextBox) : Option TextBox :=
  let box := box.select f
  if box.selected then do
    let (key, queue) := getCharPressed f.queue
    let box ← (if f.backspace then box.backspace else some box)
    typeKeys key queue box
  else some box

/-- `std::string(this->text)`, which needs a zero. -/
def getText (box : TextBox) : Option Text :=
  if 0 ∈ box.text then some (ofBytes (box.text.takeWhile (· ≠ 0))) else none

/-- `draw`: the box is updated and its text is read. -/
def draw (box : TextBox) (f : BoxFrame) : Option TextBox := do
  let box ← updateText f {box with lastX := f.x, lastY := f.y}
  let _ ← box.getText
  return box

end TextBox

/-! ### The line in the memory -/

/-- The keys that a box takes. -/
def acceptedKey (key : Int) : Bool := decide (31 < key ∧ key < 123)

theorem keyByte_ne_zero {key : Int} (h : acceptedKey key = true) : keyByte key ≠ 0 := by
  obtain ⟨hlow, hhigh⟩ := of_decide_eq_true h
  intro hzero
  have hnat := congrArg UInt8.toNat hzero
  rw [keyByte, UInt8.toNat_ofNat', Nat.mod_eq_of_lt (by omega)] at hnat
  simp only [UInt8.toNat_zero] at hnat
  omega

/-- The memory holds the line, then a zero, then what was left from before. -/
structure Holds (limit : Nat) (line : List Int) (box : TextBox) : Prop where
  sizeLimit : box.sizeLimit = limit
  currentChar : box.currentChar = line.length
  size : box.text.length = limit + 1
  text : ∃ left, box.text = line.map keyByte ++ 0 :: left
  accepted : ∀ key ∈ line, acceptedKey key = true

/-- The byte behind a line is in the memory. -/
theorem store_behind (line : List Int) (after : List UInt8) (old new : UInt8) :
    store (line.map keyByte ++ old :: after) line.length new = some (line.map keyByte ++ new :: after) := by
  have hin : (0 : Int) ≤ line.length ∧ (line.length : Int) < (line.map keyByte ++ old :: after).length := by
    simp only [List.length_append, List.length_map, List.length_cons]
    omega
  rw [store, if_pos hin, Int.toNat_natCast, List.set_append_right _ _ (by rw [List.length_map]), List.length_map,
    Nat.sub_self, List.set_cons_zero]

theorem Holds.new {memory : Bool} {sizeLimit : Int} {box : TextBox} (hlimit : 0 ≤ sizeLimit)
    (hnew : TextBox.new memory sizeLimit = some box) : Holds sizeLimit.toNat [] box ∧ box.selected = false := by
  unfold TextBox.new at hnew
  split at hnew
  · cases hnew
    have hsize : (sizeLimit + 1).toNat = sizeLimit.toNat + 1 := by omega
    refine ⟨⟨(Int.toNat_of_nonneg hlimit).symm, rfl, ?_, ⟨List.replicate sizeLimit.toNat 0, ?_⟩, ?_⟩, rfl⟩
    · rw [List.length_replicate, hsize]
    · rw [hsize]
      rfl
    · exact fun _ h => absurd h List.not_mem_nil
  · cases hnew

variable {limit : Nat}

theorem Holds.backspace {line : List Int} {box : TextBox} (h : Holds limit line box) :
    ∃ box', box.backspace = some box' ∧ Holds limit line.dropLast box' ∧ box'.selected = box.selected := by
  obtain ⟨left, htext⟩ := h.text
  rcases List.eq_nil_or_concat' line with rfl | ⟨line, last, rfl⟩
  · have hchar : (if box.currentChar - 1 < 0 then 0 else box.currentChar - 1) = (0 : Int) := by
      rw [h.currentChar]
      rfl
    have hstore : store box.text 0 0 = some box.text := by
      rw [htext]
      exact store_behind [] left 0 0
    refine ⟨{box with currentChar := 0}, ?_, ⟨h.sizeLimit, rfl, h.size, ⟨left, htext⟩, h.accepted⟩, rfl⟩
    simp only [TextBox.backspace, hchar, hstore]
    rfl
  · have hchar : (if box.currentChar - 1 < 0 then 0 else box.currentChar - 1) = (line.length : Int) := by
      rw [h.currentChar, List.length_append, List.length_singleton, if_neg (by omega)]
      omega
    rw [List.map_append, List.append_assoc] at htext
    have hstore : store box.text line.length 0 = some (line.map keyByte ++ 0 :: 0 :: left) := by
      rw [htext]
      exact store_behind line (0 :: left) (keyByte last) 0
    have hsize : (line.map keyByte ++ 0 :: 0 :: left).length = limit + 1 := by
      rw [← h.size, htext]
      simp
    rw [List.dropLast_concat]
    refine ⟨{box with text := line.map keyByte ++ 0 :: 0 :: left, currentChar := line.length}, ?_,
      ⟨h.sizeLimit, rfl, hsize, ⟨0 :: left, rfl⟩, fun key hkey => h.accepted key (List.mem_append_left _ hkey)⟩, rfl⟩
    simp only [TextBox.backspace, hchar, hstore]
    rfl

/-- A line with room takes one more key. -/
theorem Holds.store {line : List Int} {box : TextBox} (h : Holds limit line box) {key : Int}
    (hkey : acceptedKey key = true) (hroom : line.length < limit) :
    ∃ text text', store box.text box.currentChar (keyByte key) = some text ∧
      store text (box.currentChar + 1) 0 = some text' ∧
      Holds limit (line ++ [key]) {box with text := text', currentChar := box.currentChar + 1} := by
  obtain ⟨left, htext⟩ := h.text
  have hsize := h.size
  cases left with
  | nil =>
    rw [htext] at hsize
    simp only [List.length_append, List.length_map, List.length_singleton] at hsize
    omega
  | cons old left =>
    have hfirst : ScoutingComputer.store box.text box.currentChar (keyByte key) =
        some ((line ++ [key]).map keyByte ++ old :: left) := by
      rw [htext, h.currentChar, store_behind, List.map_append, List.append_assoc]
      rfl
    have hchar : box.currentChar + 1 = ((line ++ [key]).length : Int) := by
      rw [h.currentChar, List.length_append, List.length_singleton]
      rfl
    refine ⟨_, _, hfirst, ?_, h.sizeLimit, hchar, ?_, ⟨left, rfl⟩, ?_⟩
    · rw [hchar]
      exact store_behind (line ++ [key]) left old 0
    · rw [← hsize, htext]
      simp
    · intro key' hkey'
      obtain hold | hnew := List.mem_append.mp hkey'
      · exact h.accepted key' hold
      · rw [List.mem_singleton.mp hnew]
        exact hkey

/-- One pass of the loop. -/
theorem Holds.typeKey {line : List Int} {box : TextBox} (h : Holds limit line box) {key : Int}
    (hkey : acceptedKey key = true) (hroom : line.length < limit) :
    ∃ box', Holds limit (line ++ [key]) box' ∧ box'.selected = box.selected ∧
      ∀ queue, box.typeKeys key queue = match queue with
        | [] => some box'
        | next :: queue => box'.typeKeys next queue := by
  obtain ⟨text, text', hfirst, hsecond, hholds⟩ := h.store hkey hroom
  have hcond : (31 < key ∧ key < 123) ∧ box.currentChar < box.sizeLimit := by
    refine ⟨of_decide_eq_true hkey, ?_⟩
    rw [h.currentChar, h.sizeLimit]
    exact Int.ofNat_lt.mpr hroom
  refine ⟨_, hholds, rfl, fun queue => ?_⟩
  cases queue with
  | nil =>
    rw [TextBox.typeKeys, if_pos hcond, hfirst]
    simp only [bind, Option.bind, hsecond]
    rfl
  | cons next queue =>
    rw [TextBox.typeKeys, if_pos hcond, hfirst]
    simp only [bind, Option.bind, hsecond]

/-- The loop ends at a key that is not taken, and at the limit. -/
theorem Holds.typeKeys_stop {line : List Int} {box : TextBox} (h : Holds limit line box) {key : Int}
    (hstop : acceptedKey key = false ∨ limit ≤ line.length) (queue : List Int) : box.typeKeys key queue = some box := by
  have hcond : ¬ ((31 < key ∧ key < 123) ∧ box.currentChar < box.sizeLimit) := by
    rintro ⟨hkey, hroom⟩
    rw [h.currentChar, h.sizeLimit, Int.ofNat_lt] at hroom
    obtain hno | hfull := hstop
    · exact of_decide_eq_false hno hkey
    · omega
  unfold TextBox.typeKeys
  rw [if_neg hcond]

/-- The loop types the key at hand and the queue behind it. -/
theorem Holds.typeKeys (queue : List Int) {key : Int} {box : TextBox} {line : EditBuffer Int limit}
    (h : Holds limit line.content box) :
    ∃ box', box.typeKeys key queue = some box' ∧ Holds limit (line.type acceptedKey (key :: queue)).content box' ∧
      box'.selected = box.selected := by
  induction queue generalizing key box line with
  | nil =>
    obtain ⟨hkey, hroom⟩ | hstop := line.taken_or_stops acceptedKey key
    · obtain ⟨box', hholds, hselected, htyped⟩ := h.typeKey hkey hroom
      refine ⟨box', htyped [], ?_, hselected⟩
      rw [EditBuffer.type_cons acceptedKey hkey [] line hroom, EditBuffer.type_nil]
      exact hholds
    · refine ⟨box, h.typeKeys_stop hstop [], ?_, rfl⟩
      rw [EditBuffer.type_stop acceptedKey [] hstop]
      exact h
  | cons next queue ih =>
    obtain ⟨hkey, hroom⟩ | hstop := line.taken_or_stops acceptedKey key
    · obtain ⟨box', hholds, hselected, htyped⟩ := h.typeKey hkey hroom
      obtain ⟨box'', hrest, hholds', hselected'⟩ := @ih next box' (line.append key hroom) hholds
      refine ⟨box'', (htyped (next :: queue)).trans hrest, ?_, hselected'.trans hselected⟩
      rw [EditBuffer.type_cons acceptedKey hkey (next :: queue) line hroom]
      exact hholds'
    · refine ⟨box, h.typeKeys_stop hstop (next :: queue), ?_, rfl⟩
      rw [EditBuffer.type_stop acceptedKey (next :: queue) hstop]
      exact h

/-! ### Frames -/

/-- What a frame is to the line: the mouse button selects it or leaves it. -/
def BoxFrame.input (f : BoxFrame) : EditInput Int where
  select := if f.mouse.down then some ((Rectangle.mk f.x f.y f.width f.height).holds f.mouse) else none
  backspace := f.backspace
  typed := f.queue

/-- The box keeps the line of the editor. -/
structure KeepsLine (editor : Editor Int limit) (box : TextBox) : Prop where
  selected : box.selected = editor.selected
  holds : Holds limit editor.buffer.content box

theorem Holds.backspaced {box : TextBox} {line : EditBuffer Int limit} (h : Holds limit line.content box) (pressed : Bool) :
    ∃ box', (if pressed then box.backspace else some box) = some box' ∧
      Holds limit (if pressed then line.backspace else line).content box' ∧ box'.selected = box.selected := by
  cases pressed with
  | false => exact ⟨box, rfl, h, rfl⟩
  | true => exact h.backspace

/-- The first key of the queue is at hand, or 0. -/
theorem Holds.typeQueue {box : TextBox} {line : EditBuffer Int limit} (h : Holds limit line.content box)
    (queue : List Int) :
    ∃ box', box.typeKeys (getCharPressed queue).1 (getCharPressed queue).2 = some box' ∧
      Holds limit (line.type acceptedKey queue).content box' ∧ box'.selected = box.selected := by
  cases queue with
  | nil =>
    refine ⟨box, h.typeKeys_stop (.inl (by decide)) [], ?_, rfl⟩
    rw [EditBuffer.type_nil]
    exact h
  | cons key queue => exact h.typeKeys queue

theorem KeepsLine.select {editor : Editor Int limit} {box : TextBox} (h : KeepsLine editor box) {f : BoxFrame}
    (hplace : box.lastX = f.x ∧ box.lastY = f.y) :
    (box.select f).selected = f.input.select.getD editor.selected ∧
      Holds limit editor.buffer.content (box.select f) := by
  unfold TextBox.select BoxFrame.input
  cases f.mouse.down with
  | false => exact ⟨h.selected, h.holds⟩
  | true =>
    have hhover : box.isHovering f = (Rectangle.mk f.x f.y f.width f.height).holds f.mouse := by
      rw [TextBox.isHovering, hplace.1, hplace.2]
    exact ⟨hhover, h.holds.sizeLimit, h.holds.currentChar, h.holds.size, h.holds.text, h.holds.accepted⟩

theorem KeepsLine.updateText {editor : Editor Int limit} {box : TextBox} (h : KeepsLine editor box) {f : BoxFrame}
    (hplace : box.lastX = f.x ∧ box.lastY = f.y) :
    ∃ box', box.updateText f = some box' ∧ KeepsLine (editor.step acceptedKey f.input) box' := by
  obtain ⟨hflag, hholds⟩ := h.select hplace
  unfold TextBox.updateText Editor.step
  rw [← hflag]
  by_cases hselected : (box.select f).selected = true
  · obtain ⟨box₁, hbackspace, hholds₁, hselected₁⟩ := hholds.backspaced f.backspace
    obtain ⟨box₂, htyped, hholds₂, hselected₂⟩ := hholds₁.typeQueue f.queue
    refine ⟨box₂, ?_, ?_, ?_⟩
    · rw [if_pos hselected]
      show (if f.backspace then (box.select f).backspace else some (box.select f)) >>= _ = _
      rw [hbackspace]
      exact htyped
    · exact hselected₂.trans hselected₁
    · simp only [if_pos hselected]
      exact hholds₂
  · refine ⟨box.select f, if_neg hselected, rfl, ?_⟩
    simp only [if_neg hselected]
    exact hholds

/-- What the box shows of its line. -/
def keyChar (key : Int) : Char := Char.ofNat (keyByte key).toNat

theorem Holds.getText {line : List Int} {box : TextBox} (h : Holds limit line box) :
    box.getText = some (line.map keyChar) := by
  obtain ⟨left, htext⟩ := h.text
  have hzero : 0 ∈ box.text := by
    rw [htext]
    exact List.mem_append_right _ List.mem_cons_self
  have hline : box.text.takeWhile (· ≠ 0) = line.map keyByte := by
    rw [htext, List.takeWhile_append_of_pos]
    · simp
    · intro byte hbyte
      obtain ⟨key, hkey, rfl⟩ := List.mem_map.mp hbyte
      exact decide_eq_true (keyByte_ne_zero (h.accepted key hkey))
  rw [TextBox.getText, if_pos hzero, hline, ofBytes, List.map_map]
  rfl

/-- A frame of the box is a frame of its line. -/
theorem KeepsLine.draw {editor : Editor Int limit} {box : TextBox} (h : KeepsLine editor box) (f : BoxFrame) :
    ∃ box', box.draw f = some box' ∧ KeepsLine (editor.step acceptedKey f.input) box' := by
  have hplaced : KeepsLine editor {box with lastX := f.x, lastY := f.y} :=
    ⟨h.selected, h.holds.sizeLimit, h.holds.currentChar, h.holds.size, h.holds.text, h.holds.accepted⟩
  obtain ⟨box', hupdate, hkeeps⟩ := hplaced.updateText (f := f) ⟨rfl, rfl⟩
  refine ⟨box', ?_, hkeeps⟩
  rw [TextBox.draw, hupdate]
  show (box'.getText >>= fun _ => some box') = some box'
  rw [hkeeps.holds.getText]
  rfl

theorem KeepsLine.run {editor : Editor Int limit} {box : TextBox} (h : KeepsLine editor box) (frames : List BoxFrame) :
    ∃ box', Machine.run TextBox.draw box frames = some box' ∧
      KeepsLine ((frames.map BoxFrame.input).foldl (Editor.step acceptedKey) editor) box' := by
  induction frames generalizing editor box with
  | nil => exact ⟨box, rfl, h⟩
  | cons f frames ih =>
    obtain ⟨box₁, hdraw, hkeeps⟩ := h.draw f
    obtain ⟨box₂, hrun, hkeeps'⟩ := ih hkeeps
    refine ⟨box₂, ?_, hkeeps'⟩
    rw [Machine.run, hdraw]
    exact hrun

/-- What a box should be after any frames. -/
structure WellFormed (sizeLimit : Int) (box : TextBox) : Prop where
  size : (box.text.length : Int) = sizeLimit + 1
  currentChar_nonneg : 0 ≤ box.currentChar
  currentChar_le : box.currentChar ≤ sizeLimit
  nonzero : ∀ byte ∈ box.text.take box.currentChar.toNat, byte ≠ 0
  terminated : box.text[box.currentChar.toNat]? = some 0

theorem Holds.wellFormed {line : List Int} {box : TextBox} (h : Holds limit line box) : WellFormed limit box := by
  obtain ⟨left, htext⟩ := h.text
  have hchar : box.currentChar.toNat = line.length := by
    rw [h.currentChar, Int.toNat_natCast]
  have hsize := h.size
  have hlength : line.length ≤ limit := by
    rw [htext, List.length_append, List.length_map, List.length_cons] at hsize
    omega
  refine ⟨by rw [hsize]; rfl, by rw [h.currentChar]; omega, by rw [h.currentChar]; omega, ?_, ?_⟩
  · rw [hchar, htext, List.take_left' (List.length_map _)]
    intro byte hbyte
    obtain ⟨key, hkey, rfl⟩ := List.mem_map.mp hbyte
    exact keyByte_ne_zero (h.accepted key hkey)
  · rw [hchar, htext, List.getElem?_append_right (by rw [List.length_map]), List.length_map, Nat.sub_self]
    rfl

/-- **A text box is a bounded line** that is edited at its end, and never writes outside its
memory. -/
theorem textBox_refines (memory : Bool) (sizeLimit : Int) (hlimit : 0 ≤ sizeLimit) (box : TextBox)
    (hnew : TextBox.new memory sizeLimit = some box) (frames : List BoxFrame) :
    ∃ box', Machine.run TextBox.draw box frames = some box' ∧ WellFormed sizeLimit box' ∧
      box'.getText = some
        (((Editor.run acceptedKey (frames.map BoxFrame.input) : Editor Int sizeLimit.toNat).buffer.content).map
          keyChar) := by
  obtain ⟨hholds, hselected⟩ := Holds.new hlimit hnew
  have hstart : KeepsLine (⟨false, .empty⟩ : Editor Int sizeLimit.toNat) box := ⟨hselected, hholds⟩
  obtain ⟨box', hrun, hkeeps⟩ := hstart.run frames
  have hformed := hkeeps.holds.wellFormed
  rw [Int.toNat_of_nonneg hlimit] at hformed
  exact ⟨box', hrun, hformed, hkeeps.holds.getText⟩

/-- The mouse is pressed over the box, and the keys `ab`, then a backspace with `c`. -/
def typedFrames : List BoxFrame :=
  [⟨0, 0, 10, 10, ⟨5, 5, true, false⟩, false, [97, 98]⟩, ⟨0, 0, 10, 10, ⟨5, 5, false, false⟩, true, [99]⟩]

theorem textBox_refines_typed :
    ∃ box box', TextBox.new true 2 = some box ∧ Machine.run TextBox.draw box typedFrames = some box' ∧
      WellFormed 2 box' ∧ box'.getText = some ['a', 'c'] := by
  obtain ⟨box', hrun, hformed, htext⟩ := textBox_refines true 2 (by decide) _ rfl typedFrames
  refine ⟨_, box', rfl, hrun, hformed, htext.trans ?_⟩
  decide +kernel

end ScoutingComputer
