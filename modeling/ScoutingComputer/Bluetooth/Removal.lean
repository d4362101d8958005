import ScoutingComputer.Bluetooth.LiveList

/-! Where a button can be that removes a tablet.

A button looks for the mouse where it was last drawn, and the list lays its entries out
above and below its own rectangle too. What a press and a release find is what the last draw
laid out: a button that remembers a press has been drawn since, so its place is the one
in that draw (`Placed`). -/
namespace ScoutingComputer.Bluetooth
open Machine (bind_eq_ok)

/-- The rectangle in which a button that was laid out is hit. -/
def Laid.rect (sizes : Sizes) (p : Laid) : Rectangle := ⟨p.x, p.y, sizes.buttonWidth, sizes.buttonHeight⟩

/-- The call of a frame removes a tablet. -/
def CallRemoves (s : Shown) (l : Listing) : Bool :=
  match l.getNameList s.mouse 2 with
  | .ok (some l') => decide (l'.tablets.length < l.tablets.length)
  | _ => false

/-- The mouse is inside the rectangle of the list. -/
def InView (s : Shown) (l : Listing) : Bool := l.nameList.isHovering s.sizes.list s.mouse

/-- The mouse is released outside the list, over the place where the last draw put the
button of a tablet that was pressed there. -/
def OutOfView (s : Shown) (l : Listing) : Prop :=
  s.mouse.released = true ∧ InView s l = false ∧
    ∃ p ∈ l.laid, (p.rect s.sizes).holds s.mouse = true ∧
      ∃ tab ∈ l.tablets, tab.connection = p.connection ∧ tab.killButton.disabled = false ∧
        tab.killButton.lastClickState = true

section
variable (server : Server) (parseJson : Text → Option Json) (readWholeFile : String → Text)

/-- The call of `getNameList` in a frame, with the state it is made in. -/
def call (l : Listing) (f : Frame) : List (Listing × Shown) :=
  match f.shown with
  | none => []
  | some s =>
    match f.updates.foldlM (Listing.update server parseJson readWholeFile) l >>= Listing.called s with
    | .ok l => [(l, s)]
    | .error _ => []

/-- The calls of a run. -/
def calls (l : Listing) (frames : List Frame) : List (Listing × Shown) :=
  Machine.notes (Listing.frameStep server parseJson readWholeFile) (call server parseJson readWholeFile) l frames

end

/-! ### Places -/

/-- A button that remembers a press is where the last draw put it. -/
structure Placed (l : Listing) : Prop where
  buttons : ∀ tab ∈ l.tablets, tab.killButton.lastClickState = true →
    ∃ p ∈ l.laid, p.connection = tab.connection ∧ tab.killButton.lastX = p.x ∧ tab.killButton.lastY = p.y
  distinct : (l.laid.map (·.connection)).Nodup

theorem Placed.of_old {l l' : Listing} (h : Placed l) (hlaid : l'.laid = l.laid)
    (hold : ∀ tab ∈ l'.tablets, tab.killButton.lastClickState = true → ∃ old ∈ l.tablets,
      old.killButton.lastClickState = true ∧ old.connection = tab.connection ∧
        old.killButton.lastX = tab.killButton.lastX ∧ old.killButton.lastY = tab.killButton.lastY) : Placed l' := by
  refine ⟨fun tab htab hstate => ?_, hlaid ▸ h.distinct⟩
  obtain ⟨old, hmem, hclick, hconnection, hx, hy⟩ := hold tab htab hstate
  obtain ⟨p, hp, hpc, hpx, hpy⟩ := h.buttons old hmem hclick
  exact ⟨p, hlaid ▸ hp, hpc.trans hconnection, hx ▸ hpx, hy ▸ hpy⟩

theorem Placed.descends {l : Listing} {bt : State} (h : Placed l) (hbt : Descends l.bt bt) :
    Placed {l with bt := bt} := by
  refine h.of_old rfl fun tab htab hstate => ?_
  obtain ⟨old, hold, hface⟩ := hbt.old htab
  obtain ⟨hconnection, hrest⟩ := Prod.mk.inj hface
  obtain ⟨_, hbutton⟩ := Prod.mk.inj hrest
  exact ⟨old, hold, hbutton ▸ hstate, hconnection, hbutton ▸ rfl, hbutton ▸ rfl⟩

theorem Placed.joined {l : Listing} {a : Accept} {peer : Nat} (h : Placed l)
    (hnew : a.killButton.lastClickState = false) : Placed (l.joined a peer) := by
  refine h.of_old rfl fun tab htab hstate => ?_
  rw [joined_tablets] at htab
  obtain hold | hlast := List.mem_append.mp htab
  · exact ⟨tab, hold, hstate, rfl, rfl, rfl⟩
  · rw [List.mem_singleton.mp hlast] at hstate
    exact absurd (hnew.symm.trans hstate) Bool.false_ne_true

theorem Placed.resized {l : Listing} (h : Placed l) (sizes : Sizes) : Placed (l.resized sizes) := by
  refine h.of_old rfl fun tab htab hstate => ?_
  obtain ⟨old, hold, rfl⟩ := List.mem_map.mp htab
  exact ⟨old, hold, hstate, rfl, rfl, rfl⟩

theorem placed_updates : KeptByUpdates Placed where
  descends := Placed.descends
  joined := fun h hnew _ => h.joined hnew
  resized := Placed.resized

theorem called_sizes {l l' : Listing} {s : Shown} (hok : l.called s = .ok l') :
    ∀ tab ∈ l'.tablets, tab.killButton.width = s.sizes.buttonWidth ∧ tab.killButton.height = s.sizes.buttonHeight := by
  obtain ⟨bt, _, rfl⟩ := called_parts hok
  intro tab htab
  obtain ⟨old, _, rfl⟩ := List.mem_map.mp htab
  exact ⟨rfl, rfl⟩

theorem layout_connections (sizes : Sizes) (x : Int) (currentY : Rat) (tablets : List BtTabObj) :
    (layout sizes x currentY tablets).map (·.connection) = tablets.map (·.connection) := by
  induction tablets generalizing currentY with
  | nil => rfl
  | cons tab tablets ih => rw [layout, List.map_cons, ih, List.map_cons]

theorem mem_place (sizes : Sizes) (x : Int) (currentY : Rat) (tablets : List BtTabObj) :
    ∀ tab ∈ List.zipWith Laid.place (layout sizes x currentY tablets) tablets,
      ∃ p ∈ layout sizes x currentY tablets, p.connection = tab.connection ∧ tab.killButton.lastX = p.x ∧
        tab.killButton.lastY = p.y := by
  induction tablets generalizing currentY with
  | nil => exact fun _ h => absurd h List.not_mem_nil
  | cons tab tablets ih =>
    intro tab' htab'
    rw [layout, List.zipWith_cons_cons] at htab'
    obtain rfl | hrest := List.mem_cons.mp htab'
    · exact ⟨_, List.mem_cons_self, rfl, rfl, rfl⟩
    · obtain ⟨p, hp, hplace⟩ := ih _ tab' hrest
      exact ⟨p, List.mem_cons_of_mem _ hp, hplace⟩

/-- After a draw every button is where it was laid out. -/
theorem draw_placed (s : Shown) {l : Listing} (h : Known l) :
    Placed ((l.scrolled s).withPlaces (List.zipWith Laid.place (l.layout s) l.tablets) (l.layout s)) := by
  have hlaid : ((l.scrolled s).withPlaces (List.zipWith Laid.place (l.layout s) l.tablets) (l.layout s)).laid =
      l.layout s := List.nil_append _
  constructor
  · intro tab htab _
    rw [hlaid]
    exact mem_place _ _ _ _ tab htab
  · rw [hlaid, Listing.layout, layout_connections]
    exact h.distinct.connections

/-! ### Calls -/

/-- A call removes a tablet exactly when a button is clicked. -/
theorem callRemoves_iff (s : Shown) (l : Listing) :
    CallRemoves s l = true ↔ ∃ tab ∈ l.tablets, Clicked s.mouse tab := by
  obtain ⟨l', hreturned, hreturns⟩ := getNameList_returns s.released_up l
  have hcall : CallRemoves s l = decide (l'.tablets.length < l.tablets.length) := by
    rw [CallRemoves, hreturned 2 le_rfl]
  rw [hcall, decide_eq_true_iff]
  obtain ⟨hall, hnone⟩ | ⟨i, j, tab, tab', hi, hreleased, hj, _, hone⟩ := hreturns.tablets
  · rw [hall, List.length_map]
    constructor
    · intro h
      exact absurd h (Nat.lt_irrefl _)
    · rintro ⟨tab, htab, hclicked⟩
      exact absurd ((hnone tab htab).symm.trans ((released_iff _ _).mpr hclicked)) Bool.false_ne_true
  · have hlt := (List.getElem?_eq_some_iff.mp hj).1
    rw [hone, List.length_eraseIdx_of_lt (by rwa [List.length_map]), List.length_map]
    exact ⟨fun _ => ⟨tab, List.mem_of_getElem? hi, (released_iff _ _).mp hreleased⟩, fun _ => by omega⟩

/-- The place of a button that remembers a press, by its connection. -/
theorem Placed.rect_eq {l : Listing} (h : Placed l) {s : Shown} {p : Laid} {tab : BtTabObj} (hp : p ∈ l.laid)
    (htab : tab ∈ l.tablets) (hconnection : tab.connection = p.connection)
    (hstate : tab.killButton.lastClickState = true)
    (hsizes : tab.killButton.width = s.sizes.buttonWidth ∧ tab.killButton.height = s.sizes.buttonHeight) :
    p.rect s.sizes = tab.killButton.rect := by
  obtain ⟨q, hq, hqc, hx, hy⟩ := h.buttons tab htab hstate
  have hsame : q = p := List.inj_on_of_nodup_map h.distinct hq hp (hqc.trans hconnection)
  rw [hsame] at hx hy
  rw [Laid.rect, Button.rect, hx, hy, hsizes.1, hsizes.2]

theorem removal_iff {l : Listing} {s : Shown} (h : Placed l)
    (hsizes : ∀ tab ∈ l.tablets, tab.killButton.width = s.sizes.buttonWidth ∧ tab.killButton.height = s.sizes.buttonHeight) :
    (CallRemoves s l = true → InView s l = true) ↔ ¬ OutOfView s l := by
  rw [callRemoves_iff]
  constructor
  · rintro hinside ⟨hreleased, hout, p, hp, hholds, tab, htab, hconnection, henabled, hstate⟩
    have hrect := h.rect_eq hp htab hconnection hstate (hsizes tab htab)
    have hhover : tab.killButton.isHovering s.mouse = true := by
      rw [Button.isHovering_eq, ← hrect]
      exact hholds
    exact Bool.false_ne_true (hout.symm.trans (hinside ⟨tab, htab, henabled, hstate, hhover, hreleased⟩))
  · rintro hno ⟨tab, htab, hclicked⟩
    by_contra hout
    obtain ⟨p, hp, hconnection, _⟩ := h.buttons tab htab hclicked.pressed
    have hrect := h.rect_eq hp htab hconnection.symm hclicked.pressed (hsizes tab htab)
    refine hno ⟨hclicked.released, eq_false_of_ne_true hout, p, hp, ?_, tab, htab, hconnection.symm,
      hclicked.enabled, hclicked.pressed⟩
    rw [hrect, ← Button.isHovering_eq]
    exact hclicked.hovering

section
variable {server : Server} {parseJson : Text → Option Json} {readWholeFile : String → Text}

theorem frame_placed {l l' : Listing} {f : Frame} (h : Known l ∧ Placed l)
    (hok : l.frame server parseJson readWholeFile f = .ok l') : Known l' ∧ Placed l' := by
  refine (known_updates.and placed_updates).frame (fun h₁ hfilled hdraw => ?_) h hok
  refine ⟨h₁.1.drawn hfilled hdraw, ?_⟩
  obtain ⟨hknown, hlisted⟩ := h₁.1.filled hfilled
  rw [draw_listed _ hlisted] at hdraw
  cases hdraw
  exact draw_placed _ hknown

/-- Each call of a frame. -/
theorem call_removal_iff {l : Listing} (f : Frame) (h : Placed l) :
    ∀ c ∈ call server parseJson readWholeFile l f,
      (CallRemoves c.2 c.1 = true → InView c.2 c.1 = true) ↔ ¬ OutOfView c.2 c.1 := by
  intro c hc
  unfold call at hc
  split at hc
  · exact absurd hc List.not_mem_nil
  · split at hc
    · rename_i l₂ hok
      cases List.mem_singleton.mp hc
      obtain ⟨l₁, hupdates, hcalled⟩ := bind_eq_ok hok
      exact removal_iff (placed_updates.called (placed_updates.updates h hupdates) hcalled) (called_sizes hcalled)
    · exact absurd hc List.not_mem_nil

end

theorem start_placed (table : Table) (lastX lastY : Int) : Placed (Listing.start table lastX lastY) :=
  ⟨fun _ h => absurd h List.not_mem_nil, List.nodup_nil⟩

/-- **A tablet is removed inside the list** in every call of a run exactly when no call meets
a release outside the list over a button that was laid out and pressed there. -/
theorem removal_in_view_iff (server : Server) (parseJson : Text → Option Json) (readWholeFile : String → Text)
    (table : Table) (lastX lastY : Int) (frames : List Frame) :
    (∀ c ∈ calls server parseJson readWholeFile (Listing.start table lastX lastY) frames,
      CallRemoves c.2 c.1 = true → InView c.2 c.1 = true) ↔
    ∀ c ∈ calls server parseJson readWholeFile (Listing.start table lastX lastY) frames, ¬ OutOfView c.2 c.1 := by
  have heach : ∀ c ∈ calls server parseJson readWholeFile (Listing.start table lastX lastY) frames,
      ((CallRemoves c.2 c.1 = true → InView c.2 c.1 = true) ↔ ¬ OutOfView c.2 c.1) :=
    Machine.notes_forall (I := fun l => Known l ∧ Placed l)
      (fun _ _ _ hl hstep => frame_placed hl (Machine.toOption_eq_some hstep))
      (fun _ f hl => call_removal_iff f hl.2) ⟨start_known table lastX lastY, start_placed table lastX lastY⟩
  exact forall₂_congr heach

/-- One tablet; the list is scrolled by 20 notches, and the button is clicked above it. -/
def scrolledFrames : List Frame :=
  [⟨[tabletJoins], some (mouseAt 0 0 false 0)⟩, ⟨[], some (mouseAt 350 600 false (-20))⟩,
    ⟨[], some (mouseAt 350 500 true 0)⟩, ⟨[], some (mouseAt 350 500 false 0)⟩]

theorem removed_above_the_list :
    ¬ ∀ c ∈ calls plainServer (fun _ => none) (fun _ => []) (Listing.start ⟨[], 0⟩ 0 0) scrolledFrames,
      CallRemoves c.2 c.1 = true → InView c.2 c.1 = true := by
  have hsome : (calls plainServer (fun _ => none) (fun _ => []) (Listing.start ⟨[], 0⟩ 0 0) scrolledFrames).any
      (fun c => CallRemoves c.2 c.1 && !InView c.2 c.1) = true := by
    decide +kernel
  obtain ⟨c, hc, hboth⟩ := List.any_eq_true.mp hsome
  obtain ⟨hremoves, hout⟩ := Bool.and_eq_true_iff.mp hboth
  intro hall
  rw [hall c hc hremoves] at hout
  cases hout

end ScoutingComputer.Bluetooth
