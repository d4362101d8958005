import Mathlib.Algebra.Order.Field.Rat

/-! Sizes that scale with the window.

The size of a tile is kept and computed anew only when the window has another size than it
had at the last question. `sizes_follow_window` says that this is never noticed: whatever
sizes the window had in between, an answer is the one for the window as it is now, so a
window that is brought back to a size shows what it showed before.
Numbers are read as rationals, and the square root as any function of the two sides. -/
namespace ScoutingComputer.SizeScaling

inductive SHOULDSCALEDEPENDENCIES where
  | XDEPENDENT
  | YDEPENDENT
  | DIAGDEPENDENT
  | NODEPENDENCY
  deriving DecidableEq, Repr

structure Vector3 where
  x : Rat
  y : Rat
  z : Rat
  deriving DecidableEq, Repr

/-- The width and the height of the window. -/
abbrev Screen := Nat × Nat

structure State where
  tileSizePx : Vector3
  numOfTiles : Vector3
  lastScreenSize : Screen
  deriving DecidableEq, Repr

structure ShouldScale where
  data : Rat
  shouldScale : Bool
  dependency : SHOULDSCALEDEPENDENCIES
  scalingMult : Rat
  deriving DecidableEq, Repr

variable (diagonal : Nat → Nat → Rat)

def init (screen : Screen) : State where
  tileSizePx := ⟨1, 1, 1⟩
  numOfTiles := ⟨screen.1 / 1, screen.2 / 1, diagonal screen.1 screen.2 / 1⟩
  lastScreenSize := screen

def update (screen : Screen) (s : State) : State :=
  if screen = s.lastScreenSize then s
  else
    {s with
      tileSizePx := ⟨screen.1 / s.numOfTiles.x, screen.2 / s.numOfTiles.y, diagonal screen.1 screen.2 / s.numOfTiles.z⟩
      lastScreenSize := screen}

def xMult (screen : Screen) (s : State) : Rat × State :=
  let s := update diagonal screen s
  (s.tileSizePx.x, s)

def yMult (screen : Screen) (s : State) : Rat × State :=
  let s := update diagonal screen s
  (s.tileSizePx.y, s)

def diagMult (screen : Screen) (s : State) : Rat × State :=
  let s := update diagonal screen s
  (s.tileSizePx.z, s)

/-- `getData` with the window as it is. -/
def getData (screen : Screen) (size : ShouldScale) (s : State) : Rat × State :=
  if size.shouldScale then
    match size.dependency with
    | .XDEPENDENT =>
      let (mult, s) := xMult diagonal screen s
      (size.data * (mult * size.scalingMult), s)
    | .YDEPENDENT =>
      let (mult, s) := yMult diagonal screen s
      (size.data * (mult * size.scalingMult), s)
    | .DIAGDEPENDENT =>
      let (mult, s) := diagMult diagonal screen s
      (size.data * (mult * size.scalingMult), s)
    | .NODEPENDENCY => (size.data, s)
  else (size.data, s)

/-- The answers to some questions, each with the window as it is then. -/
def answers : State → List (Screen × ShouldScale) → List Rat
  | _, [] => []
  | s, (screen, size) :: rest => (getData diagonal screen size s).1 :: answers (getData diagonal screen size s).2 rest

/-! ### Without keeping anything -/

/-- A tile of a window that was `first`. -/
def tile (first screen : Screen) : Vector3 :=
  ⟨screen.1 / first.1, screen.2 / first.2, diagonal screen.1 screen.2 / diagonal first.1 first.2⟩

/-- The size for the window as it is. -/
def scaled (first : Screen) (q : Screen × ShouldScale) : Rat :=
  if q.2.shouldScale then
    match q.2.dependency with
    | .XDEPENDENT => q.2.data * ((tile diagonal first q.1).x * q.2.scalingMult)
    | .YDEPENDENT => q.2.data * ((tile diagonal first q.1).y * q.2.scalingMult)
    | .DIAGDEPENDENT => q.2.data * ((tile diagonal first q.1).z * q.2.scalingMult)
    | .NODEPENDENCY => q.2.data
  else q.2.data

/-- The tile that is kept is that of the last size. -/
structure Kept (first : Screen) (s : State) : Prop where
  tiles : s.numOfTiles = ⟨first.1, first.2, diagonal first.1 first.2⟩
  tile : s.tileSizePx = tile diagonal first s.lastScreenSize

variable {diagonal}

theorem kept_init {first : Screen} (hx : first.1 ≠ 0) (hy : first.2 ≠ 0) (hz : diagonal first.1 first.2 ≠ 0) :
    Kept diagonal first (init diagonal first) where
  tiles := by simp [init]
  tile := by simp [init, tile, hx, hy, hz]

theorem Kept.update {first : Screen} {s : State} (h : Kept diagonal first s) (screen : Screen) :
    Kept diagonal first (update diagonal screen s) ∧
      (SizeScaling.update diagonal screen s).tileSizePx = SizeScaling.tile diagonal first screen := by
  obtain ⟨htiles, htile⟩ := h
  rw [SizeScaling.update]
  split
  · rename_i hsame
    rw [hsame]
    exact ⟨⟨htiles, htile⟩, htile⟩
  · have hnew : (⟨screen.1 / s.numOfTiles.x, screen.2 / s.numOfTiles.y, diagonal screen.1 screen.2 / s.numOfTiles.z⟩ : Vector3) =
        SizeScaling.tile diagonal first screen := by rw [htiles, SizeScaling.tile]
    exact ⟨⟨htiles, hnew⟩, hnew⟩

theorem Kept.getData {first : Screen} {s : State} (h : Kept diagonal first s) (screen : Screen) (size : ShouldScale) :
    Kept diagonal first (getData diagonal screen size s).2 ∧
      (SizeScaling.getData diagonal screen size s).1 = scaled diagonal first (screen, size) := by
  obtain ⟨hkept, htile⟩ := h.update screen
  rw [SizeScaling.getData, scaled]
  cases size.shouldScale with
  | false => exact ⟨h, rfl⟩
  | true =>
    cases size.dependency with
    | NODEPENDENCY => exact ⟨h, rfl⟩
    | XDEPENDENT => exact ⟨hkept, by rw [← htile]; rfl⟩
    | YDEPENDENT => exact ⟨hkept, by rw [← htile]; rfl⟩
    | DIAGDEPENDENT => exact ⟨hkept, by rw [← htile]; rfl⟩

/-- **Sizes follow the window alone**: whatever was asked before, and with whatever windows,
every answer is the size for the window as it is. -/
theorem sizes_follow_window (diagonal : Nat → Nat → Rat) (first : Screen) (hx : first.1 ≠ 0) (hy : first.2 ≠ 0)
    (hz : diagonal first.1 first.2 ≠ 0) (questions : List (Screen × ShouldScale)) :
    answers diagonal (init diagonal first) questions = questions.map (scaled diagonal first) := by
  have hall : ∀ {s}, Kept diagonal first s → answers diagonal s questions = questions.map (scaled diagonal first) := by
    induction questions with
    | nil => exact fun _ => rfl
    | cons q questions ih =>
      intro s h
      obtain ⟨hkept, hvalue⟩ := h.getData q.1 q.2
      rw [answers, List.map_cons, ih hkept, hvalue]
  exact hall (kept_init hx hy hz)

/-- A window of sides 3 and 4 that is twice as large for a while. -/
theorem sizes_follow_window_back :
    answers (fun w h => Nat.sqrt (w * w + h * h)) (init (fun w h => Nat.sqrt (w * w + h * h)) (3, 4))
        [((6, 8), ⟨10, true, .XDEPENDENT, 1⟩), ((3, 4), ⟨10, true, .DIAGDEPENDENT, 1⟩)] =
      [((6, 8), ⟨10, true, .XDEPENDENT, 1⟩), ((3, 4), ⟨10, true, .DIAGDEPENDENT, 1⟩)].map
        (scaled (fun w h => Nat.sqrt (w * w + h * h)) (3, 4)) :=
  sizes_follow_window (fun w h => Nat.sqrt (w * w + h * h)) (3, 4) (by decide) (by decide) (by decide +kernel) _

end ScoutingComputer.SizeScaling
