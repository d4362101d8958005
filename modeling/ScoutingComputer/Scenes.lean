import Mathlib.Logic.Function.Basic
import ScoutingComputer.Foundation.Run
import ScoutingComputer.GuiHandler.Button
import ScoutingComputer.Types

/-! The loop of `main`: scenes, tabs and buttons.

In each frame the tabs are asked first, then the buttons of the scene, then everything of the
scene is drawn. The tab of the scene that is shown is disabled; in the game all tabs are. -/
namespace ScoutingComputer.Scenes

inductive SCENES where
  | SCANNING
  | DATABASE
  | BLUETOOTH
  | PONG
  deriving DecidableEq, Repr

/-- The buttons that `main` asks. -/
inductive ButtonName where
  | mainTab
  | databaseTab
  | bluetoothTab
  | AmplifyBlue
  | AmplifyRed
  | rest
  | DB
  | scouterUpdate
  | uploadBatchButton
  | tbaDataUpdate
  | disconnectAllTabs
  | pong
  | pongback
  | pongreset
  deriving DecidableEq, Repr

def isTab : ButtonName → Bool
  | .mainTab | .databaseTab | .bluetoothTab => true
  | _ => false

/-- A call of `isPressed`: what the button saw and what it answered. -/
structure Poll where
  button : ButtonName
  scene : SCENES
  sample : Option Bool
  answer : Bool
  deriving DecidableEq, Repr

/-- The state of the loop, with the calls of `isPressed` so far. -/
structure State where
  currentScene : SCENES
  buttons : ButtonName → Button
  polls : List Poll

/-- What a frame finds and what the window makes of it. -/
structure Frame where
  mouse : Mouse
  /-- The sizes that the scaled buttons have in this frame. -/
  size : ButtonName → Rat × Rat
  /-- Where buttons are drawn. -/
  place : ButtonName → Rat × Rat
  tabSize : Rat × Rat
  /-- The text of `uploadBatchNum`, and the number that the server gives. -/
  batch : Text
  backendNum : Text

def State.setButton (s : State) (name : ButtonName) (b : Button) : State :=
  {s with buttons := Function.update s.buttons name b}

def State.disable (s : State) (name : ButtonName) : State := s.setButton name {s.buttons name with disabled := true}

def State.enable (s : State) (name : ButtonName) : State := s.setButton name {s.buttons name with disabled := false}

/-- `isPressed` of a button. -/
def State.ask (s : State) (f : Frame) (name : ButtonName) : Bool × State :=
  let (pressed, b) := (s.buttons name).isPressed f.mouse
  (pressed, {s.setButton name b with
    polls := s.polls ++ [⟨name, s.currentScene, (s.buttons name).sample f.mouse, pressed⟩]})

/-- Scaled sizes follow the window. -/
def State.resize (s : State) (f : Frame) : State :=
  {s with buttons := fun name =>
    if isTab name then s.buttons name else {s.buttons name with width := (f.size name).1, height := (f.size name).2}}

/-- `draw`, and for the tabs `drawTab`. -/
def State.draw (s : State) (f : Frame) (names : List ButtonName) : State :=
  {s with buttons := fun name =>
    if name ∉ names then s.buttons name
    else
      let b := {s.buttons name with lastX := (f.place name).1, lastY := (f.place name).2}
      if isTab name then {b with width := f.tabSize.1, height := f.tabSize.2} else b}

def showScanning (s : State) : State :=
  ((({s with currentScene := .SCANNING} : State).disable .mainTab).enable .databaseTab).enable .bluetoothTab

def showDatabase (s : State) : State :=
  ((({s with currentScene := .DATABASE} : State).enable .mainTab).disable .databaseTab).enable .bluetoothTab

def showBluetooth (s : State) : State :=
  ((({s with currentScene := .BLUETOOTH} : State).enable .mainTab).enable .databaseTab).disable .bluetoothTab

/-- The tabs, each asked only if those before it were not pressed. -/
def askTabs (f : Frame) (s : State) : State :=
  match s.ask f .mainTab with
  | (true, s) => showScanning s
  | (false, s) =>
    match s.ask f .databaseTab with
    | (true, s) => showDatabase s
    | (false, s) =>
      match s.ask f .bluetoothTab with
      | (true, s) => showBluetooth s
      | (false, s) => s

def scanning (f : Frame) (s : State) : State :=
  let (_, s) := s.ask f .AmplifyBlue
  let (_, s) := s.ask f .AmplifyRed
  s.draw f [.AmplifyBlue, .AmplifyRed]

/-- A blank batch for which the server has no number. -/
def Frame.stops (f : Frame) : Bool := (f.batch == [] || f.batch == ['0']) && f.backendNum == []

/-- The scene of the database, and whether the frame goes on to the tabs. -/
def database (f : Frame) (s : State) : State × Bool :=
  let (_, s) := s.ask f .rest
  let (_, s) := s.ask f .DB
  let (_, s) := s.ask f .scouterUpdate
  let (upload, s) := s.ask f .uploadBatchButton
  if upload && f.stops then (s, false)  -- continue
  else
    let (_, s) := s.ask f .tbaDataUpdate
    (s.draw f [.DB, .uploadBatchButton, .scouterUpdate, .rest, .tbaDataUpdate], true)

def bluetooth (f : Frame) (s : State) : State :=
  let (_, s) := s.ask f .disconnectAllTabs
  let (pressed, s) := s.ask f .pong
  let s := if pressed then {s with currentScene := .PONG} else s
  s.draw f [.pong, .disconnectAllTabs]

def game (f : Frame) (s : State) : State :=
  let s := ((s.disable .mainTab).disable .databaseTab).disable .bluetoothTab
  let (pressed, s) := s.ask f .pongback
  let s := if pressed then showBluetooth s else s
  let (_, s) := s.ask f .pongreset
  s.draw f [.pongback, .pongreset]

def drawTabs (f : Frame) (s : State) : State :=
  if s.currentScene ≠ .PONG then s.draw f [.mainTab, .databaseTab, .bluetoothTab] else s

/-- One turn of the loop. -/
def frame (s : State) (f : Frame) : State :=
  let s := askTabs f (s.resize f)
  match s.currentScene with
  | .SCANNING => drawTabs f (scanning f s)
  | .DATABASE =>
    match database f s with
    | (s, true) => drawTabs f s
    | (s, false) => s
  | .BLUETOOTH => drawTabs f (bluetooth f s)
  | .PONG => drawTabs f (game f s)

/-- The buttons as `main` makes them; the main tab is disabled. -/
def start (place : ButtonName → Rat × Rat × Rat × Rat) : State where
  currentScene := .SCANNING
  buttons name :=
    let (x, y, w, h) := place name
    ⟨x, y, w, h, false, name == .mainTab⟩
  polls := []

/-! ### What the presses say -/

/-- The scene that a pressed button leads to. -/
def target : ButtonName → SCENES → SCENES
  | .mainTab, _ => .SCANNING
  | .databaseTab, _ => .DATABASE
  | .bluetoothTab, _ | .pongback, _ => .BLUETOOTH
  | .pong, _ => .PONG
  | _, scene => scene

/-- The scene after a call of `isPressed`. -/
def navigate (scene : SCENES) (p : Poll) : SCENES := if p.answer then target p.button scene else scene

/-- The scene that the presses so far lead to. -/
def State.told (s : State) : SCENES := s.polls.foldl navigate .SCANNING

/-- Where a button may be asked. The reset button of the game is asked once more in the
frame in which the game is left. -/
def Home : ButtonName → SCENES → Prop
  | .mainTab, _ | .databaseTab, _ | .bluetoothTab, _ => True
  | .AmplifyBlue, scene | .AmplifyRed, scene => scene = .SCANNING
  | .rest, scene | .DB, scene | .scouterUpdate, scene | .uploadBatchButton, scene | .tbaDataUpdate, scene => scene = .DATABASE
  | .disconnectAllTabs, scene | .pong, scene => scene = .BLUETOOTH
  | .pongback, scene => scene = .PONG
  | .pongreset, scene => scene = .PONG ∨ scene = .BLUETOOTH

/-- The calls of `isPressed` of one button. -/
def pollsOf (polls : List Poll) (name : ButtonName) : List Poll := polls.filter (·.button = name)

/-- The calls so far are those of buttons that answer presses only, each in its scene. -/
structure Logged (s : State) : Prop where
  home : ∀ p ∈ s.polls, Home p.button p.scene
  answers : ∀ name, (pollsOf s.polls name).map Poll.answer = Edge.answers false ((pollsOf s.polls name).map Poll.sample)
  level : ∀ name, (s.buttons name).lastClickState = Edge.level false ((pollsOf s.polls name).map Poll.sample)

/-- The tabs that are disabled in a scene. In the game they are all, from the first frame on
that is drawn of it. -/
def Match (scene : SCENES) (tabs : Bool × Bool × Bool) : Prop :=
  match scene with
  | .SCANNING => tabs = (true, false, false)
  | .DATABASE => tabs = (false, true, false)
  | .BLUETOOTH => tabs = (false, false, true)
  | .PONG => tabs = (false, false, true) ∨ tabs = (true, true, true)

/-- Which tabs are disabled. -/
def State.tabs (s : State) : Bool × Bool × Bool :=
  ((s.buttons .mainTab).disabled, (s.buttons .databaseTab).disabled, (s.buttons .bluetoothTab).disabled)

/-- The loop between two frames. -/
structure Settled (s : State) : Prop where
  logged : Logged s
  scene : s.currentScene = s.told
  tabs : Match s.currentScene s.tabs

/-! ### What the operations leave alone -/

/-- Another state with the same presses behind it. -/
theorem Logged.same {s s' : State} (h : Logged s) (hpolls : s'.polls = s.polls)
    (hlevel : ∀ name, (s'.buttons name).lastClickState = (s.buttons name).lastClickState) : Logged s' := by
  obtain ⟨home, answers, level⟩ := h
  refine ⟨hpolls ▸ home, hpolls ▸ answers, fun name => ?_⟩
  rw [hlevel, level, hpolls]

theorem told_same {s s' : State} (hpolls : s'.polls = s.polls) : s'.told = s.told := by
  rw [State.told, State.told, hpolls]

theorem resize_same (s : State) (f : Frame) : (s.resize f).polls = s.polls ∧ (s.resize f).currentScene = s.currentScene ∧
    ∀ name, ((s.resize f).buttons name).lastClickState = (s.buttons name).lastClickState ∧
      ((s.resize f).buttons name).disabled = (s.buttons name).disabled := by
  refine ⟨rfl, rfl, fun name => ?_⟩
  rw [State.resize]
  dsimp only
  split <;> exact ⟨rfl, rfl⟩

theorem draw_same (s : State) (f : Frame) (names : List ButtonName) :
    (s.draw f names).polls = s.polls ∧ (s.draw f names).currentScene = s.currentScene ∧
      ∀ name, ((s.draw f names).buttons name).lastClickState = (s.buttons name).lastClickState ∧
        ((s.draw f names).buttons name).disabled = (s.buttons name).disabled := by
  refine ⟨rfl, rfl, fun name => ?_⟩
  rw [State.draw]
  dsimp only
  split
  · exact ⟨rfl, rfl⟩
  · split <;> exact ⟨rfl, rfl⟩

theorem setButton_same {s : State} {name : ButtonName} {b : Button}
    (hb : b.lastClickState = (s.buttons name).lastClickState) (other : ButtonName) :
    ((s.setButton name b).buttons other).lastClickState = (s.buttons other).lastClickState := by
  show (Function.update s.buttons name b other).lastClickState = _
  by_cases h : other = name
  · rw [h, Function.update_self, hb]
  · rw [Function.update_of_ne h]

theorem disable_same (s : State) (name other : ButtonName) :
    ((s.disable name).buttons other).lastClickState = (s.buttons other).lastClickState := by
  rw [State.disable]
  exact setButton_same (by rfl) other

theorem enable_same (s : State) (name other : ButtonName) :
    ((s.enable name).buttons other).lastClickState = (s.buttons other).lastClickState := by
  rw [State.enable]
  exact setButton_same (by rfl) other

/-- Showing another scene. -/
theorem Logged.shown {s : State} (h : Logged s) :
    Logged (showScanning s) ∧ Logged (showDatabase s) ∧ Logged (showBluetooth s) := by
  refine ⟨h.same rfl fun name => ?_, h.same rfl fun name => ?_, h.same rfl fun name => ?_⟩
  · rw [showScanning, enable_same, enable_same, disable_same]
  · rw [showDatabase, enable_same, disable_same, enable_same]
  · rw [showBluetooth, disable_same, enable_same, enable_same]

/-! ### Asking a button -/

theorem ask_eq (s : State) (f : Frame) (name : ButtonName) : s.ask f name =
    (((s.buttons name).isPressed f.mouse).1, {s.setButton name ((s.buttons name).isPressed f.mouse).2 with
      polls := s.polls ++ [⟨name, s.currentScene, (s.buttons name).sample f.mouse,
        ((s.buttons name).isPressed f.mouse).1⟩]}) := rfl

theorem disabled_ask (s : State) (f : Frame) (name other : ButtonName) :
    ((s.ask f name).2.buttons other).disabled = (s.buttons other).disabled := by
  rw [ask_eq, Button.isPressed_eq]
  show (Function.update s.buttons name _ other).disabled = _
  by_cases h : other = name
  · rw [h, Function.update_self]
  · rw [Function.update_of_ne h]

/-- Only the button that is asked takes note of what it saw. -/
theorem Logged.ask {s : State} (h : Logged s) (f : Frame) {name : ButtonName} (hhome : Home name s.currentScene) :
    Logged (s.ask f name).2 := by
  obtain ⟨home, answers, level⟩ := h
  rw [ask_eq, Button.isPressed_eq]
  refine ⟨fun p hp => ?_, fun other => ?_, fun other => ?_⟩
  · rcases List.mem_append.mp hp with hp | hp
    · exact home p hp
    · rw [List.mem_singleton.mp hp]
      exact hhome
  · by_cases hother : name = other
    · subst hother
      simp only [pollsOf, List.filter_append, List.map_append, Edge.answers_append]
      rw [← pollsOf, answers, ← level]
      simp [Edge.answers]
    · simpa [pollsOf, List.filter_append, hother] using answers other
  · show (Function.update s.buttons name _ other).lastClickState = _
    by_cases hother : other = name
    · subst hother
      simp only [pollsOf, List.filter_append, List.map_append, Edge.level_append]
      rw [← pollsOf, ← level, Function.update_self]
      simp [Edge.level]
    · have hname : ¬ name = other := fun h => hother h.symm
      rw [Function.update_of_ne hother, level]
      simp [pollsOf, List.filter_append, hname]

/-- What becomes of a button that is asked. -/
theorem ask_cases (s : State) (f : Frame) (name : ButtonName) : ∃ s', s'.currentScene = s.currentScene ∧ s'.tabs = s.tabs ∧
    (∀ other, (s'.buttons other).disabled = (s.buttons other).disabled) ∧
    (Logged s → Home name s.currentScene → Logged s') ∧
      ((s.ask f name = (true, s') ∧ s'.told = target name s.told ∧ (s.buttons name).disabled = false) ∨
        (s.ask f name = (false, s') ∧ s'.told = s.told)) := by
  have hdisabled := disabled_ask s f name
  have htabs : (s.ask f name).2.tabs = s.tabs := by
    rw [State.tabs, hdisabled, hdisabled, hdisabled]
    rfl
  refine ⟨(s.ask f name).2, rfl, htabs, hdisabled, fun h hhome => h.ask f hhome, ?_⟩
  have htold : (s.ask f name).2.told = if (s.ask f name).1 then target name s.told else s.told := by
    rw [ask_eq, State.told, List.foldl_append]
    rfl
  cases hpressed : (s.ask f name).1 with
  | false =>
    rw [hpressed] at htold
    exact .inr ⟨Prod.ext hpressed rfl, htold⟩
  | true =>
    rw [hpressed] at htold
    refine .inl ⟨Prod.ext hpressed rfl, htold, ?_⟩
    rw [Bool.eq_false_iff]
    intro h
    rw [ask_eq, Button.isPressed, if_pos h] at hpressed
    cases hpressed

/-! ### One frame -/

/-- Operations that change neither presses nor scene nor tabs. -/
theorem Settled.same {s s' : State} (h : Settled s) (hsame : s'.polls = s.polls ∧ s'.currentScene = s.currentScene ∧
    ∀ name, (s'.buttons name).lastClickState = (s.buttons name).lastClickState ∧
      (s'.buttons name).disabled = (s.buttons name).disabled) : Settled s' := by
  obtain ⟨hpolls, hscene, hbuttons⟩ := hsame
  obtain ⟨logged, scene, tabs⟩ := h
  refine ⟨logged.same hpolls fun name => (hbuttons name).1, ?_, ?_⟩
  · rw [hscene, scene, told_same hpolls]
  · rw [hscene, State.tabs, (hbuttons _).2, (hbuttons _).2, (hbuttons _).2]
    exact tabs

/-- Asking a button that leads nowhere. -/
theorem Settled.ask {s : State} (h : Settled s) (f : Frame) (name : ButtonName) (hhome : Home name s.currentScene)
    (hstays : ∀ scene, target name scene = scene) :
    Settled (s.ask f name).2 ∧ (s.ask f name).2.currentScene = s.currentScene := by
  obtain ⟨logged, scene, tabs⟩ := h
  obtain ⟨s', hscene, htabs, _, hlogged, ⟨hask, htold, _⟩ | ⟨hask, htold⟩⟩ := ask_cases s f name
  · rw [hask]
    refine ⟨⟨hlogged logged hhome, ?_, ?_⟩, hscene⟩
    · rw [hscene, htold, hstays, scene]
    · rw [hscene, htabs]
      exact tabs
  · rw [hask]
    refine ⟨⟨hlogged logged hhome, ?_, ?_⟩, hscene⟩
    · rw [hscene, htold, scene]
    · rw [hscene, htabs]
      exact tabs

theorem Settled.drawTabs {s : State} (h : Settled s) (f : Frame) : Settled (drawTabs f s) := by
  rw [Scenes.drawTabs]
  split
  · exact h.same (draw_same ..)
  · exact h

theorem Settled.askTabs {s : State} (h : Settled s) (f : Frame) : Settled (askTabs f s) := by
  obtain ⟨logged, scene, tabs⟩ := h
  rw [Scenes.askTabs]
  obtain ⟨s₁, hscene₁, htabs₁, _, hlogged₁, ⟨hask₁, htold₁, _⟩ | ⟨hask₁, htold₁⟩⟩ := ask_cases s f .mainTab
  · rw [hask₁]
    exact ⟨(hlogged₁ logged trivial).shown.1, htold₁.symm, rfl⟩
  rw [hask₁]
  dsimp only
  obtain ⟨s₂, hscene₂, htabs₂, _, hlogged₂, ⟨hask₂, htold₂, _⟩ | ⟨hask₂, htold₂⟩⟩ := ask_cases s₁ f .databaseTab
  · rw [hask₂]
    exact ⟨(hlogged₂ (hlogged₁ logged trivial) trivial).shown.2.1, htold₂.symm, rfl⟩
  rw [hask₂]
  dsimp only
  obtain ⟨s₃, hscene₃, htabs₃, _, hlogged₃, ⟨hask₃, htold₃, _⟩ | ⟨hask₃, htold₃⟩⟩ := ask_cases s₂ f .bluetoothTab
  · rw [hask₃]
    exact ⟨(hlogged₃ (hlogged₂ (hlogged₁ logged trivial) trivial) trivial).shown.2.2, htold₃.symm, rfl⟩
  rw [hask₃]
  refine ⟨hlogged₃ (hlogged₂ (hlogged₁ logged trivial) trivial) trivial, ?_, ?_⟩
  · rw [hscene₃, hscene₂, hscene₁, htold₃, htold₂, htold₁, scene]
  · rw [hscene₃, hscene₂, hscene₁, htabs₃, htabs₂, htabs₁]
    exact tabs

theorem Settled.scanning {s : State} (h : Settled s) (f : Frame) (hscene : s.currentScene = .SCANNING) :
    Settled (scanning f s) := by
  obtain ⟨h₁, hscene₁⟩ := h.ask f .AmplifyBlue hscene fun _ => rfl
  obtain ⟨h₂, _⟩ := h₁.ask f .AmplifyRed (hscene₁.trans hscene) fun _ => rfl
  exact h₂.same (draw_same ..)

theorem Settled.database {s : State} (h : Settled s) (f : Frame) (hscene : s.currentScene = .DATABASE) :
    Settled (database f s).1 := by
  obtain ⟨h₁, hscene₁⟩ := h.ask f .rest hscene fun _ => rfl
  obtain ⟨h₂, hscene₂⟩ := h₁.ask f .DB (hscene₁.trans hscene) fun _ => rfl
  obtain ⟨h₃, hscene₃⟩ := h₂.ask f .scouterUpdate (hscene₂.trans (hscene₁.trans hscene)) fun _ => rfl
  have hscene₃ := hscene₃.trans (hscene₂.trans (hscene₁.trans hscene))
  obtain ⟨h₄, hscene₄⟩ := h₃.ask f .uploadBatchButton hscene₃ fun _ => rfl
  rw [Scenes.database]
  dsimp only
  split
  · exact h₄
  · obtain ⟨h₅, _⟩ := h₄.ask f .tbaDataUpdate (hscene₄.trans hscene₃) fun _ => rfl
    exact h₅.same (draw_same ..)

theorem Settled.bluetooth {s : State} (h : Settled s) (f : Frame) (hscene : s.currentScene = .BLUETOOTH) :
    Settled (bluetooth f s) := by
  obtain ⟨⟨logged, scene, tabs⟩, hscene₁⟩ := h.ask f .disconnectAllTabs hscene fun _ => rfl
  rw [Scenes.bluetooth]
  dsimp only
  generalize (s.ask f .disconnectAllTabs).2 = s₁ at logged scene tabs hscene₁
  have hhome : Home .pong s₁.currentScene := hscene₁.trans hscene
  obtain ⟨s₂, hscene₂, htabs₂, _, hlogged₂, ⟨hask₂, htold₂, _⟩ | ⟨hask₂, htold₂⟩⟩ := ask_cases s₁ f .pong
  · -- the game is entered with the tabs of this scene
    rw [hask₂]
    refine Settled.same (s := {s₂ with currentScene := .PONG}) ⟨(hlogged₂ logged hhome).same rfl fun _ => rfl, htold₂.symm, ?_⟩
      (draw_same ..)
    rw [hscene₁, hscene] at tabs
    exact .inl (htabs₂.trans tabs)
  · rw [hask₂]
    refine Settled.same (s := s₂) ⟨hlogged₂ logged hhome, ?_, ?_⟩ (draw_same ..)
    · rw [hscene₂, htold₂, scene]
    · rw [hscene₂, htabs₂]
      exact tabs

theorem Settled.game {s : State} (h : Settled s) (f : Frame) (hscene : s.currentScene = .PONG) : Settled (game f s) := by
  obtain ⟨logged, scene, _⟩ := h
  rw [Scenes.game]
  dsimp only
  obtain ⟨s₁, hs₁⟩ : ∃ s₁, s₁ = ((s.disable .mainTab).disable .databaseTab).disable .bluetoothTab := ⟨_, rfl⟩
  have hscene₁ : s₁.currentScene = .PONG := by rw [hs₁]; exact hscene
  have htabs₁ : s₁.tabs = (true, true, true) := by rw [hs₁]; rfl
  have htold₁ : s₁.told = s.told := by rw [hs₁]; rfl
  have hlogged₁ : Logged s₁ := by
    rw [hs₁]
    refine logged.same rfl fun name => ?_
    rw [disable_same, disable_same, disable_same]
  rw [← hs₁]
  obtain ⟨s₂, hscene₂, htabs₂, _, hlogged₂, ⟨hask₂, htold₂, _⟩ | ⟨hask₂, htold₂⟩⟩ := ask_cases s₁ f .pongback
  · rw [hask₂]
    have hback : Settled (showBluetooth s₂) := ⟨(hlogged₂ hlogged₁ hscene₁).shown.2.2, htold₂.symm, rfl⟩
    obtain ⟨hreset, _⟩ := hback.ask f .pongreset (.inr rfl) fun _ => rfl
    exact hreset.same (draw_same ..)
  · rw [hask₂]
    have hstays : Settled s₂ := by
      refine ⟨hlogged₂ hlogged₁ hscene₁, ?_, ?_⟩
      · rw [hscene₂, hscene₁, htold₂, htold₁, ← scene, hscene]
      · rw [hscene₂, hscene₁, htabs₂, htabs₁]
        exact .inr rfl
    obtain ⟨hreset, _⟩ := hstays.ask f .pongreset (.inl (hscene₂.trans hscene₁)) fun _ => rfl
    exact hreset.same (draw_same ..)

theorem Settled.frame {s : State} (h : Settled s) (f : Frame) : Settled (frame s f) := by
  have hasked := (h.same (resize_same s f)).askTabs f
  rw [Scenes.frame]
  generalize Scenes.askTabs f (s.resize f) = s₁ at hasked
  cases hscene : s₁.currentScene with
  | SCANNING => exact (hasked.scanning f hscene).drawTabs f
  | DATABASE =>
    have hshown := hasked.database f hscene
    dsimp only
    generalize Scenes.database f s₁ = shown at hshown
    obtain ⟨s₂, goesOn⟩ := shown
    cases goesOn with
    | false => exact hshown
    | true => exact hshown.drawTabs f
  | BLUETOOTH => exact (hasked.bluetooth f hscene).drawTabs f
  | PONG => exact (hasked.game f hscene).drawTabs f

theorem settled_start (place : ButtonName → Rat × Rat × Rat × Rat) : Settled (start place) where
  logged := ⟨fun _ h => absurd h List.not_mem_nil, fun _ => rfl, fun _ => rfl⟩
  scene := rfl
  tabs := rfl

/-! ### Whole runs -/

/-- The loop after some frames. -/
def after (place : ButtonName → Rat × Rat × Rat × Rat) (frames : List Frame) : State := frames.foldl frame (start place)

theorem settled_after (place : ButtonName → Rat × Rat × Rat × Rat) (frames : List Frame) : Settled (after place frames) := by
  have hrun : ∀ {s}, Settled s → Settled (frames.foldl frame s) := by
    induction frames with
    | nil => exact fun h => h
    | cons f frames ih => exact fun h => ih (h.frame f)
  exact hrun (settled_start place)

/-- **The scene is where the presses lead**: after any frames the scene is the one that the
last press of a tab or of a button of the game leads to, the disabled tabs are those of the
scene, and every button was asked in its own scene only. -/
theorem scene_after (place : ButtonName → Rat × Rat × Rat × Rat) (frames : List Frame) :
    (after place frames).currentScene = (after place frames).polls.foldl navigate .SCANNING ∧
      Match (after place frames).currentScene (after place frames).tabs ∧
        ∀ p ∈ (after place frames).polls, Home p.button p.scene := by
  obtain ⟨logged, scene, tabs⟩ := settled_after place frames
  exact ⟨scene, tabs, logged.home⟩

/-- **A click counts once**: in any run a button that is asked answers exactly when the mouse
is down over it and was not when it was last asked while enabled; so between two answers it
was asked with the mouse not down over it. -/
theorem pressed_after (place : ButtonName → Rat × Rat × Rat × Rat) (frames : List Frame) (name : ButtonName) :
    let polls := pollsOf (after place frames).polls name
    (∀ i, (polls.map Poll.answer)[i]? = some true ↔ (polls.map Poll.sample)[i]? = some (some true) ∧
        ((polls.map Poll.sample).take i).reduceOption.getLastD false = false) ∧
      ∀ i j : Nat, i < j → (polls.map Poll.answer)[i]? = some true → (polls.map Poll.answer)[j]? = some true →
        ∃ k, i < k ∧ k < j ∧ (polls.map Poll.sample)[k]? = some (some false) := by
  have h := (settled_after place frames).logged.answers name
  intro polls
  refine ⟨fun i => ?_, fun i j hij hi hj => ?_⟩
  · rw [h]
    exact Edge.answers_iff false _ i
  · rw [h] at hi hj
    exact Edge.low_between hij hi hj

/-! ### The game -/

/-- In the game the tab of the scene before it is disabled; where all are, none answers. -/
theorem askTabs_game {s : State} (hscene : s.currentScene = .PONG) (htabs : Match .PONG s.tabs) (f : Frame) :
    (askTabs f s).currentScene ≠ .BLUETOOTH ∧
      (s.tabs = (true, true, true) → (askTabs f s).currentScene = .PONG) := by
  have hbluetooth : (s.buttons .bluetoothTab).disabled = true := by
    obtain h | h := htabs
    · exact congrArg (·.2.2) h
    · exact congrArg (·.2.2) h
  have hlive : s.tabs = (true, true, true) →
      (s.buttons .mainTab).disabled = true ∧ (s.buttons .databaseTab).disabled = true :=
    fun h => ⟨congrArg (·.1) h, congrArg (·.2.1) h⟩
  rw [askTabs]
  obtain ⟨s₁, hscene₁, _, hother₁, _, ⟨hask₁, _, hmain⟩ | ⟨hask₁, _⟩⟩ := ask_cases s f .mainTab
  · rw [hask₁]
    refine ⟨nofun, fun h => ?_⟩
    rw [(hlive h).1] at hmain
    cases hmain
  rw [hask₁]
  dsimp only
  obtain ⟨s₂, hscene₂, _, hother₂, _, ⟨hask₂, _, hdatabase⟩ | ⟨hask₂, _⟩⟩ := ask_cases s₁ f .databaseTab
  · rw [hask₂]
    refine ⟨nofun, fun h => ?_⟩
    rw [hother₁, (hlive h).2] at hdatabase
    cases hdatabase
  rw [hask₂]
  dsimp only
  obtain ⟨s₃, hscene₃, _, _, _, ⟨_, _, hthird⟩ | ⟨hask₃, _⟩⟩ := ask_cases s₂ f .bluetoothTab
  · rw [hother₂, hother₁, hbluetooth] at hthird
    cases hthird
  · rw [hask₃]
    have hstays : s₃.currentScene = .PONG := by rw [hscene₃, hscene₂, hscene₁, hscene]
    rw [hstays]
    exact ⟨nofun, fun _ => rfl⟩

theorem tabs_same {s s' : State} (h : ∀ name, (s'.buttons name).disabled = (s.buttons name).disabled) : s'.tabs = s.tabs := by
  rw [State.tabs, h, h, h]
  rfl

/-- What a frame of the game ends with. -/
theorem game_cases (f : Frame) (s : State) :
    ((game f s).currentScene = s.currentScene ∧ (game f s).tabs = (true, true, true)) ∨
      (game f s).currentScene = .BLUETOOTH := by
  rw [game]
  dsimp only
  obtain ⟨s₁, hs₁⟩ : ∃ s₁, s₁ = ((s.disable .mainTab).disable .databaseTab).disable .bluetoothTab := ⟨_, rfl⟩
  have hscene₁ : s₁.currentScene = s.currentScene := by rw [hs₁]; rfl
  have htabs₁ : s₁.tabs = (true, true, true) := by rw [hs₁]; rfl
  rw [← hs₁]
  obtain ⟨s₂, hscene₂, htabs₂, _, _, ⟨hask₂, _⟩ | ⟨hask₂, _⟩⟩ := ask_cases s₁ f .pongback
  · rw [hask₂]
    exact .inr rfl
  · rw [hask₂]
    refine .inl ⟨hscene₂.trans hscene₁, ?_⟩
    rw [tabs_same fun name => ((draw_same ..).2.2 name).2]
    show (s₂.ask f .pongreset).2.tabs = _
    rw [tabs_same (disabled_ask s₂ f .pongreset), htabs₂, htabs₁]

/-- **The way out of the game**: the tabs can be pressed in the first frame only; once a frame
of the game has been drawn, the next one shows the game or the scene it was entered from. -/
theorem game_after (place : ButtonName → Rat × Rat × Rat × Rat) (frames : List Frame) (f : Frame)
    (hscene : (after place frames).currentScene = .PONG) :
    ((frame (after place frames) f).currentScene = .PONG → (frame (after place frames) f).tabs = (true, true, true)) ∧
      ((after place frames).tabs = (true, true, true) →
        (frame (after place frames) f).currentScene = .PONG ∨ (frame (after place frames) f).currentScene = .BLUETOOTH) := by
  have htabs := (settled_after place frames).tabs
  generalize after place frames = s at hscene htabs
  rw [hscene] at htabs
  have hresized : (s.resize f).tabs = s.tabs := tabs_same fun name => ((resize_same s f).2.2 name).2
  obtain ⟨hnot, honly⟩ := askTabs_game (s := s.resize f) hscene (hresized ▸ htabs) f
  rw [hresized] at honly
  rw [frame]
  generalize askTabs f (s.resize f) = s₁ at hnot honly
  have hdrawn : ∀ s : State, (drawTabs f s).currentScene = s.currentScene ∧ (drawTabs f s).tabs = s.tabs := by
    intro s
    rw [drawTabs]
    split
    · exact ⟨rfl, tabs_same fun name => ((draw_same ..).2.2 name).2⟩
    · exact ⟨rfl, rfl⟩
  cases hshown : s₁.currentScene with
  | SCANNING =>
    have hstays : (drawTabs f (scanning f s₁)).currentScene = .SCANNING := (hdrawn _).1.trans hshown
    dsimp only
    rw [hstays]
    refine ⟨nofun, fun h => ?_⟩
    rw [hshown] at honly
    cases honly h
  | DATABASE =>
    have hstays : (database f s₁).1.currentScene = .DATABASE := by
      rw [database]
      dsimp only
      split <;> exact hshown
    dsimp only
    generalize database f s₁ = shown at hstays
    obtain ⟨s₂, goesOn⟩ := shown
    rw [hshown] at honly
    cases goesOn with
    | false =>
      dsimp only at hstays ⊢
      rw [hstays]
      exact ⟨nofun, fun h => nomatch honly h⟩
    | true =>
      dsimp only at hstays ⊢
      rw [(hdrawn s₂).1, hstays]
      exact ⟨nofun, fun h => nomatch honly h⟩
  | BLUETOOTH => exact absurd hshown hnot
  | PONG =>
    dsimp only
    rw [(hdrawn _).1, (hdrawn _).2]
    obtain ⟨hstays, htabs'⟩ | hback := game_cases f s₁
    · exact ⟨fun _ => htabs', fun _ => .inl (hstays.trans hshown)⟩
    · rw [hback]
      exact ⟨nofun, fun _ => .inr rfl⟩

theorem game_after_first :
    let place : ButtonName → Rat × Rat × Rat × Rat := fun name => if name = .bluetoothTab then (0, 0, 1, 1) else (0, 0, 0, 0)
    let f : Frame := ⟨⟨0, 0, true, false⟩, fun _ => (1, 1), fun _ => (0, 0), (1, 1), [], []⟩
    (after place [f]).currentScene = .PONG ∧
      ((frame (after place [f]) f).currentScene = .PONG → (frame (after place [f]) f).tabs = (true, true, true)) ∧
        ((after place [f]).tabs = (true, true, true) →
          (frame (after place [f]) f).currentScene = .PONG ∨ (frame (after place [f]) f).currentScene = .BLUETOOTH) :=
  ⟨by decide +kernel, game_after _ _ _ (by decide +kernel)⟩

end ScoutingComputer.Scenes
