import ScoutingComputer.Bluetooth.Frames

/-! The list of names is consistent.

A call of `getNameList` returns after one removal at most, of a tablet whose own button is
released. In the main loop the sockets are those of open connections, so they are
different, and a button that is released was pressed in an earlier poll; the list is filled
just before it is drawn, so each pointer in it can be used. -/
namespace ScoutingComputer.Bluetooth

/-- The button was pressed when it was last polled, and the mouse is released over it. -/
structure Clicked (mouse : Mouse) (tab : BtTabObj) : Prop where
  enabled : tab.killButton.disabled = false
  pressed : tab.killButton.lastClickState = true
  hovering : tab.killButton.isHovering mouse = true
  released : mouse.released = true

theorem released_iff (mouse : Mouse) (tab : BtTabObj) : tab.released mouse = true ↔ Clicked mouse tab := by
  unfold BtTabObj.released Button.isReleased
  by_cases hdisabled : tab.killButton.disabled = true
  · rw [if_pos hdisabled]
    exact ⟨fun h => (Bool.false_ne_true h).elim, fun h => absurd hdisabled (h.enabled ▸ Bool.false_ne_true)⟩
  · rw [if_neg hdisabled]
    constructor
    · intro h
      obtain ⟨hup, hpressed⟩ := Bool.and_eq_true_iff.mp h
      obtain ⟨hhover, hreleased⟩ := Bool.and_eq_true_iff.mp hup
      exact ⟨eq_false_of_ne_true hdisabled, hpressed, hhover, hreleased⟩
    · intro h
      simp [h.pressed, h.hovering, h.released]

/-- What a call should do to the tablets and the list. -/
structure Consistent (mouse : Mouse) (l l' : Listing) : Prop where
  /-- A name and a button for each tablet, in order. -/
  listed : Listed l'
  live : ∀ e ∈ l'.nameList.thingsToDraw, e.Live l'
  /-- At most one tablet is removed, the one whose button is clicked. -/
  removed : l'.tablets = l.tablets.map (BtTabObj.polled mouse) ∨
    ∃ (i : Nat) (tab : BtTabObj), l.tablets[i]? = some tab ∧ Clicked mouse tab ∧
      l'.tablets = (l.tablets.map (BtTabObj.polled mouse)).eraseIdx i

theorem Returns.consistent {mouse : Mouse} {l l' : Listing} (hdistinct : (l.tablets.map (·.socket)).Nodup)
    (h : Returns mouse l l') : Consistent mouse l l' := by
  refine ⟨h.listed, h.listed.live, ?_⟩
  obtain ⟨hall, _⟩ | ⟨i, j, tab, tab', hi, hreleased, hj, hsocket, hone⟩ := h.tablets
  · exact .inl hall
  · have hplace : i = j := place_unique hdistinct hi hj hsocket.symm
    exact .inr ⟨i, tab, hi, (released_iff mouse tab).mp hreleased, hplace ▸ hone⟩

/-- **The list is consistent**: after every call, and in every frame that draws it. -/
theorem nameList_consistent (server : Server) (parseJson : Text → Option Json) (readWholeFile : String → Text) :
    (∀ (mouse : Mouse) (l : Listing), (mouse.released = true → mouse.down = false) →
      (l.tablets.map (·.socket)).Nodup →
      ∃ l', (∀ fuel, 2 ≤ fuel → l.getNameList mouse fuel = .ok (some l')) ∧ Consistent mouse l l') ∧
    ∀ (table : Table) (lastX lastY : Int) (frames : List Frame) (l l₁ l₂ : Listing) (f : Frame) (s : Shown),
      Machine.run (Listing.frameStep server parseJson readWholeFile) (Listing.start table lastX lastY) frames = some l →
      f.shown = some s → f.updates.foldlM (Listing.update server parseJson readWholeFile) l = .ok l₁ →
      l₁.called s = .ok l₂ →
      (l₂.tablets.map (·.socket)).Nodup ∧
      (∀ tab ∈ l₂.tablets, tab.killButton.lastClickState = true → tab.connection ∈ l₂.pressed) ∧
      ∀ l₃, l₂.filled s = .ok l₃ →
        Listed l₃ ∧ (∀ e ∈ l₃.nameList.thingsToDraw, e.Live l₃) ∧ ∃ l₄, l₃.draw s = .ok l₄ := by
  constructor
  · intro mouse l hraylib hdistinct
    obtain ⟨l', hreturned, hreturns⟩ := getNameList_returns hraylib l
    exact ⟨l', hreturned, hreturns.consistent hdistinct⟩
  · intro table lastX lastY frames l l₁ l₂ f s hrun _ hupdates hcalled
    have hknown := known_updates.called (known_updates.updates (run_known hrun) hupdates) hcalled
    refine ⟨hknown.distinct.sockets, hknown.pressed, fun l₃ hfilled => ?_⟩
    obtain ⟨_, hlisted⟩ := hknown.filled hfilled
    exact ⟨hlisted, hlisted.live, _, draw_listed s hlisted⟩

/-- The list as it is drawn in a window of 1280 by 720, with names 25 high. -/
def windowSizes : Sizes := ⟨⟨600, 200, 3⟩, 100, 40, fun _ => 25⟩

/-- A frame in which the mouse button is down, or released, over a point. -/
def mouseAt (x y : Rat) (down : Bool) (wheel : Rat) : Shown :=
  { disconnect := none
    mouse := ⟨x, y, down, !down⟩
    released_up := by
      cases down with
      | false => exact fun _ => rfl
      | true => exact fun h => by cases h
    work := []
    x := 340
    y := 520
    wheel := wheel
    sizes := windowSizes }

/-- A tablet joins. -/
def tabletJoins : Update := .acceptConn (some 10) "00:11:22:33:44:55".toList 1 0 0 100 40

/-- A tablet joins, and its button is pressed. -/
def pressFrames : List Frame := [⟨[tabletJoins], some (mouseAt 0 0 false 0)⟩, ⟨[], some (mouseAt 350 560 true 0)⟩]

theorem nameList_consistent_released :
    ∃ l l₂ l' : Listing, Machine.run (Listing.frameStep plainServer (fun _ => none) fun _ => [])
        (Listing.start ⟨[], 0⟩ 0 0) pressFrames = some l ∧
      l.called (mouseAt 350 560 false 0) = .ok l₂ ∧ l₂.tablets.length = 1 ∧ l₂.pressed = [0] ∧
      l₂.getNameList (mouseAt 350 560 false 0).mouse 2 = .ok (some l') ∧ l'.tablets.length = 0 ∧
      Consistent (mouseAt 350 560 false 0).mouse l₂ l' := by
  have hruns : ((Machine.run (Listing.frameStep plainServer (fun _ => none) fun _ => [])
      (Listing.start ⟨[], 0⟩ 0 0) pressFrames).bind fun l => (l.called (mouseAt 350 560 false 0)).toOption.bind fun l₂ =>
        (l₂.getNameList (mouseAt 350 560 false 0).mouse 2).toOption.map fun l' =>
          (l₂.tablets.length, l₂.pressed, l'.map (·.tablets.length))) = some (1, [0], some 0) := by
    decide +kernel
  obtain ⟨l, hrun, hruns⟩ := Option.bind_eq_some_iff.mp hruns
  obtain ⟨l₂, hcalled, hruns⟩ := Option.bind_eq_some_iff.mp hruns
  obtain ⟨returned, hreturned, hruns⟩ := Option.map_eq_some_iff.mp hruns
  obtain ⟨hone, hruns⟩ := Prod.mk.inj hruns
  obtain ⟨hpressed, hreturn⟩ := Prod.mk.inj hruns
  obtain ⟨l', rfl, hnone⟩ := Option.map_eq_some_iff.mp hreturn
  have hconsistent := nameList_consistent plainServer (fun _ => none) fun _ => []
  obtain ⟨hdistinct, _⟩ := hconsistent.2 ⟨[], 0⟩ 0 0 pressFrames l l l₂ ⟨[], some (mouseAt 350 560 false 0)⟩
    (mouseAt 350 560 false 0) hrun rfl rfl (Machine.toOption_eq_some hcalled)
  obtain ⟨l₃, hreturns, hl₃⟩ := hconsistent.1 (mouseAt 350 560 false 0).mouse l₂ (fun _ => rfl) hdistinct
  have hsame := (hreturns 2 le_rfl).symm.trans (Machine.toOption_eq_some hreturned)
  cases hsame
  exact ⟨l, l₂, l', hrun, Machine.toOption_eq_some hcalled, hone, hpressed, hreturns 2 le_rfl, hnone, hl₃⟩

end ScoutingComputer.Bluetooth
