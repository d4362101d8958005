import ScoutingComputer.Bluetooth.NameList
import ScoutingComputer.Bluetooth.Request

/-! The frames of the main loop, as far as the list is concerned.

A frame updates the component. In the scene of the tablets it then fills the list and draws
it from the pointers, with nothing in between that moves a tablet or a text; in the other
scenes the list is neither filled nor drawn. What is drawn decides where the buttons will
look for the mouse in the next frame. -/
namespace ScoutingComputer.Bluetooth
open Socket
open Machine (bind_eq_ok)

/-! ### Updates -/

/-- A button as it is constructed; its place is not set. -/
def newButton (lastX lastY width height : Rat) : Button := ⟨lastX, lastY, width, height, false, false⟩

/-- What `updateAllBt` calls, and what the threads of the tasks do. -/
inductive Update where
  | acceptConn (peer : Option Nat) (addrStr : Text) (growth : Nat) (lastX lastY width height : Rat)
  | handleReadyConnections (visits : Nat → Visit)
  | handleRunningTransactions (handlings : Nat → Handling)
  | progress (i : Nat) (p : Progress)

def Update.event : Update → Event
  | .acceptConn peer addrStr growth lastX lastY width height =>
    .acceptConn ⟨peer, addrStr, growth, newButton lastX lastY width height⟩
  | .handleReadyConnections visits => .handleReadyConnections visits
  | .handleRunningTransactions handlings => .handleRunningTransactions handlings
  | .progress i p => .progress i p

/-! ### Drawing -/

/-- What the sizes are in the window of a frame. -/
structure Sizes where
  list : ListSizes
  buttonWidth : Rat
  buttonHeight : Rat
  nameHeight : Text → Rat

/-- The frame in the scene of the tablets. -/
structure Shown where
  /-- The answers to the transfers that are waited for, when all tablets are disconnected. -/
  disconnect : Option (Nat → List Answer)
  mouse : Mouse
  /-- The mouse button is not down in the frame in which it is released. -/
  released_up : mouse.released = true → mouse.down = false
  /-- What threads do before the list is drawn. -/
  work : List (Nat × Progress)
  /-- Where the list is drawn. -/
  x : Int
  y : Int
  wheel : Rat
  sizes : Sizes

structure Frame where
  updates : List Update
  shown : Option Shown

namespace Listing

/-- Each button has the size of the frame. -/
def resized (sizes : Sizes) (l : Listing) : Listing :=
  {l with bt := {l.bt with connectedTablets := {l.bt.connectedTablets with
    elements := l.tablets.map fun tab => {tab with killButton := {tab.killButton with
      width := sizes.buttonWidth
      height := sizes.buttonHeight}}}}}

/-- The loop of `draw`, from the entry at `currentY` on. -/
def drawFrom (sizes : Sizes) (x : Int) : Rat → List Entry → Listing → Checked Listing
  | _, [], l => .ok l
  | currentY, .name text :: entries, l =>
    match l.names.deref text with
    | none => .error .undefined
    | some name => drawFrom sizes x (currentY + sizes.nameHeight name) entries l
  | currentY, .killButton tablet :: entries, l =>
    match l.bt.connectedTablets.deref tablet with
    | none => .error .undefined
    | some tab =>
      drawFrom sizes x (currentY + sizes.buttonHeight) entries
        {l with
          bt := l.bt.modify tablet.slot fun tab => {tab with killButton := {tab.killButton with
            lastX := x
            lastY := toInt currentY}}
          laid := l.laid ++ [⟨tab.connection, x, toInt currentY⟩]}

def draw (s : Shown) (l : Listing) : Checked Listing :=
  let nameList := l.nameList.scroll s.sizes.list s.mouse s.wheel s.x s.y
  drawFrom s.sizes s.x (s.y + nameList.scrollPx) nameList.thingsToDraw {l with nameList := nameList, laid := []}

/-! ### Frames -/

section
variable (server : Server) (parseJson : Text → Option Json) (readWholeFile : String → Text)

def update (l : Listing) (u : Update) : Checked Listing := do
  let bt ← perform server parseJson readWholeFile l.bt u.event
  return {l with bt := bt}

/-- The state in which `getNameList` is called. -/
def called (s : Shown) (l : Listing) : Checked Listing := do
  let bt ← s.disconnect.elim (.ok l.bt) fun waited => l.bt.killAllSockets waited
  return ({l with bt := bt} : Listing).resized s.sizes

/-- A thread goes on. -/
def work (l : Listing) (step : Nat × Progress) : Checked Listing := do
  let bt ← l.bt.progress step.1 step.2
  return {l with bt := bt}

/-- The state in which the list is drawn. -/
def filled (s : Shown) (l : Listing) : Checked Listing := do
  match ← l.getNameList s.mouse (l.tablets.length + 2) with
  | none => .error .blocked
  | some l => s.work.foldlM work l

def frame (l : Listing) (f : Frame) : Checked Listing := do
  let l ← f.updates.foldlM (update server parseJson readWholeFile) l
  match f.shown with
  | none => return l
  | some s =>
    let l ← l.called s
    let l ← l.filled s
    l.draw s

/-- One step of the main loop; an exception or an undefined operation ends it. -/
def frameStep (l : Listing) (f : Frame) : Option Listing := (l.frame server parseJson readWholeFile f).toOption

end

/-- Before the first frame; the place of the list is not set. -/
def start (table : Table) (lastX lastY : Int) : Listing :=
  { bt := emptyState table
    names := ⟨0, 0, []⟩
    nameList := ⟨[], lastX, lastY, 0⟩
    pressed := []
    laid := [] }

end Listing

/-! ### What the operations leave of a tablet -/

/-- Who a tablet is, and its button. -/
def BtTabObj.face (tab : BtTabObj) : Nat × Nat × Button := (tab.connection, tab.socket, tab.killButton)

/-- Tablets are at most removed. -/
structure Descends (s s' : State) : Prop where
  faces : (s'.connectedTablets.elements.map BtTabObj.face).Sublist (s.connectedTablets.elements.map BtTabObj.face)
  accepted : s'.accepted = s.accepted

theorem Descends.refl (s : State) : Descends s s := ⟨.refl _, rfl⟩

theorem Descends.trans {s₁ s₂ s₃ : State} (h : Descends s₁ s₂) (h' : Descends s₂ s₃) : Descends s₁ s₃ :=
  ⟨h'.faces.trans h.faces, h'.accepted.trans h.accepted⟩

theorem descends_modify {s : State} {i : Nat} {f : BtTabObj → BtTabObj}
    (h : ∀ tab, s.connectedTablets.elements[i]? = some tab → (f tab).face = tab.face) : Descends s (s.modify i f) := by
  refine ⟨?_, rfl⟩
  rw [map_modify h]

theorem descends_work : KeptByWork Descends where
  refl := Descends.refl
  trans := Descends.trans
  record := fun _ _ _ => descends_modify fun _ _ => rfl
  info := fun _ _ _ => descends_modify fun _ _ => rfl
  flag := fun _ _ _ => descends_modify fun _ _ => rfl
  table := fun _ _ => ⟨.refl _, rfl⟩
  running := fun _ _ => ⟨.refl _, rfl⟩

theorem killSocket_descends (s : State) (deleteSock : Nat) : Descends s (s.killSocket deleteSock).1 := by
  obtain ⟨i, _, _, _, _, hkill⟩ | ⟨_, hkill⟩ := killSocket_cases s deleteSock
  · rw [hkill]
    exact ⟨(List.eraseIdx_sublist ..).map _, rfl⟩
  · rw [hkill]
    exact .refl s

/-- A request changes the record of the tablet only. -/
theorem initReadyTransaction_face (server : Server) (readWholeFile : String → Text) (visit : Visit) (self : Pointer)
    (t : Table) (tab : BtTabObj) : (initReadyTransaction server readWholeFile visit self t tab).1.face = tab.face := by
  unfold initReadyTransaction
  simp only
  split
  · rfl
  · split
    · split <;> rfl
    · rfl

section
variable {server : Server} {parseJson : Text → Option Json} {readWholeFile : String → Text}

theorem requestTransaction_descends {s s' : State} {i : Nat} {visit : Visit}
    (h : s.requestTransaction server readWholeFile i visit = .ok (some s')) : Descends s s' := by
  unfold State.requestTransaction at h
  split at h
  · cases h
  · rename_i old hi
    split at h
    · cases h
    · obtain ⟨tab, hread, h⟩ := bind_eq_ok h
      obtain ⟨s₁, hprogress, h⟩ := bind_eq_ok h
      cases h
      refine Descends.trans ?_ (descends_work.progressAll hprogress)
      have hface : tab.face = old.face := by
        obtain ⟨_, _, _, rfl⟩ := readTransactionData_spec hread
        rfl
      have hmodify : Descends s (s.modify i fun _ =>
          (initReadyTransaction server readWholeFile visit (s.connectedTablets.pointer i) s.table tab).1) := by
        refine descends_modify fun tab' hi' => ?_
        rw [hi] at hi'
        cases hi'
        exact (initReadyTransaction_face ..).trans hface
      exact ⟨hmodify.faces, hmodify.accepted⟩

theorem handleReadyConnections_descends {visits : Nat → Visit} {s s' : State}
    (h : s.handleReadyConnections server parseJson readWholeFile visits = .ok s') : Descends s s' := by
  refine Machine.invariant_run (I := Descends s) (fun s₁ i s₂ hs₁ _ hstep => ?_) (.refl s) (Machine.meets_true _ _)
    (Machine.run_of_foldlM h)
  exact hs₁.trans (descends_work.visitConnection (fun _ => requestTransaction_descends) killSocket_descends
    (Machine.toOption_eq_some hstep))

theorem killAllSockets_descends {waited : Nat → List Answer} {s s' : State} (h : s.killAllSockets waited = .ok s') :
    Descends s s' := by
  obtain ⟨s₁, hawait, h⟩ := bind_eq_ok h
  have haccepted := (descends_work.awaitAll hawait).accepted
  cases h
  exact ⟨List.nil_sublist _, haccepted⟩

end

/-! ### Drawing a list that is filled -/

/-- Where the buttons of tablets are drawn, from `currentY` on. -/
def layout (sizes : Sizes) (x : Int) : Rat → List BtTabObj → List Laid
  | _, [] => []
  | currentY, tab :: tablets =>
    let top := currentY + sizes.nameHeight tab.info.tabScoutingName
    ⟨tab.connection, x, toInt top⟩ :: layout sizes x (top + sizes.buttonHeight) tablets

/-- The button is drawn there. -/
def Laid.place (p : Laid) (tab : BtTabObj) : BtTabObj :=
  {tab with killButton := {tab.killButton with lastX := p.x, lastY := p.y}}

/-- The list with the tablets `placed`, after the buttons at `laid` were drawn. -/
def Listing.withPlaces (l : Listing) (placed : List BtTabObj) (laid : List Laid) : Listing :=
  {l with
    bt := {l.bt with connectedTablets := {l.bt.connectedTablets with elements := placed}}
    laid := l.laid ++ laid}

theorem drawFrom_entries (sizes : Sizes) (x : Int) (currentY : Rat) (before after : List BtTabObj) {l : Listing}
    (htablets : l.tablets = before ++ after)
    (hnames : l.names.elements = l.tablets.map (·.info.tabScoutingName)) :
    Listing.drawFrom sizes x currentY ((List.range' before.length after.length).flatMap l.entries) l =
      .ok (l.withPlaces (before ++ List.zipWith Laid.place (layout sizes x currentY after) after)
        (layout sizes x currentY after)) := by
  induction after generalizing before currentY l with
  | nil =>
    have hsame : l.withPlaces (before ++ []) [] = l := by
      rw [Listing.withPlaces, ← htablets, List.append_nil]
      rfl
    exact congrArg Except.ok hsame.symm
  | cons tab after ih =>
    have htab : l.bt.connectedTablets.elements[before.length]? = some tab := by
      show l.tablets[before.length]? = some tab
      rw [htablets]
      simp
    have hname : l.names.deref (l.names.pointer before.length) = some tab.info.tabScoutingName := by
      rw [Buffer.deref_pointer, hnames, htablets]
      simp
    have hderef : l.bt.connectedTablets.deref (l.bt.connectedTablets.pointer before.length) = some tab := by
      rw [Buffer.deref_pointer, htab]
    rw [List.length_cons, List.range'_succ, List.flatMap_cons]
    show Listing.drawFrom sizes x currentY (.name _ :: .killButton _ :: _) l = _
    simp only [Listing.drawFrom, hname, hderef]
    let p : Laid := ⟨tab.connection, x, toInt (currentY + sizes.nameHeight tab.info.tabScoutingName)⟩
    have hmodify : l.bt.connectedTablets.elements.modify before.length p.place = before ++ p.place tab :: after := by
      rw [show l.bt.connectedTablets.elements = _ from htablets, modify_append_cons]
    have hnext : ({l with
        bt := l.bt.modify before.length p.place
        laid := l.laid ++ [p]} : Listing) = l.withPlaces (before ++ p.place tab :: after) [p] := by
      rw [Listing.withPlaces, ← hmodify]
      rfl
    have hrest := ih (currentY + sizes.nameHeight tab.info.tabScoutingName + sizes.buttonHeight) (before ++ [p.place tab])
      (l := l.withPlaces (before ++ p.place tab :: after) [p]) (by simp [Listing.tablets, Listing.withPlaces])
      (by
        show l.names.elements = (before ++ p.place tab :: after).map _
        rw [hnames, htablets, List.map_append, List.map_append]
        rfl)
    rw [List.length_append, List.length_singleton] at hrest
    show Listing.drawFrom sizes x _ _ ({l with
        bt := l.bt.modify before.length p.place
        laid := l.laid ++ [p]} : Listing) = _
    rw [hnext]
    refine hrest.trans (congrArg Except.ok ?_)
    simp only [Listing.withPlaces, layout, List.zipWith_cons_cons, List.append_assoc, List.singleton_append]
    rfl

/-- The list at its new place, before its entries are drawn. -/
def Listing.scrolled (s : Shown) (l : Listing) : Listing :=
  {l with nameList := l.nameList.scroll s.sizes.list s.mouse s.wheel s.x s.y, laid := []}

/-- Where a frame draws the buttons. -/
def Listing.layout (s : Shown) (l : Listing) : List Laid :=
  Bluetooth.layout s.sizes s.x (s.y + (l.scrolled s).nameList.scrollPx) l.tablets

/-- A list that is filled is drawn, and every button remembers where. -/
theorem draw_listed (s : Shown) {l : Listing} (h : Listed l) :
    l.draw s = .ok ((l.scrolled s).withPlaces (List.zipWith Laid.place (l.layout s) l.tablets) (l.layout s)) := by
  have hentries := drawFrom_entries s.sizes s.x (s.y + (l.scrolled s).nameList.scrollPx) [] l.tablets
    (l := l.scrolled s) rfl h.names
  rw [List.length_nil, ← List.range_eq_range'] at hentries
  have hlist : (l.scrolled s).nameList.thingsToDraw = (List.range l.tablets.length).flatMap (l.scrolled s).entries := by
    have hkept : (l.scrolled s).nameList.thingsToDraw = l.nameList.thingsToDraw := by
      unfold Listing.scrolled VerticalScrollable.scroll
      simp only
      split <;> rfl
    rw [hkept, h.entries]
    rfl
  rw [← hlist] at hentries
  exact hentries

/-- Drawing leaves what does not depend on the place. -/
theorem map_place {α : Type} {g : BtTabObj → α} (hg : ∀ (p : Laid) (tab : BtTabObj), g (p.place tab) = g tab)
    (sizes : Sizes) (x : Int) (currentY : Rat) (tablets : List BtTabObj) :
    (List.zipWith Laid.place (layout sizes x currentY tablets) tablets).map g = tablets.map g := by
  induction tablets generalizing currentY with
  | nil => rfl
  | cons tab tablets ih =>
    rw [layout, List.zipWith_cons_cons, List.map_cons, ih, hg, List.map_cons]

/-! ### What is kept up to the call -/

/-- The list when a tablet joins. -/
def Listing.joined (a : Accept) (peer : Nat) (l : Listing) : Listing :=
  {l with bt := {l.bt with
    connectedTablets := l.bt.connectedTablets.push a.growth (a.joining peer l.bt.accepted)
    accepted := l.bt.accepted + 1}}

theorem joined_tablets (a : Accept) (peer : Nat) (l : Listing) :
    (l.joined a peer).tablets = l.tablets ++ [a.joining peer l.bt.accepted] := Buffer.push_elements ..

/-- What holds although tablets leave, one joins that was not pressed, or the buttons get
other sizes. -/
structure KeptByUpdates (I : Listing → Prop) : Prop where
  descends : ∀ {l : Listing} {bt : State}, I l → Descends l.bt bt → I {l with bt := bt}
  joined : ∀ {l : Listing} {a : Accept} {peer : Nat}, I l → a.killButton.lastClickState = false →
    (∀ tab ∈ l.tablets, tab.socket ≠ peer) → I (l.joined a peer)
  resized : ∀ {l : Listing}, I l → ∀ sizes, I (l.resized sizes)

theorem called_parts {l l' : Listing} {s : Shown} (hok : l.called s = .ok l') :
    ∃ bt, Descends l.bt bt ∧ l' = ({l with bt := bt} : Listing).resized s.sizes := by
  obtain ⟨bt, hbt, hok⟩ := bind_eq_ok hok
  cases hok
  cases hdisconnect : s.disconnect with
  | none =>
    rw [hdisconnect] at hbt
    cases hbt
    exact ⟨l.bt, .refl _, rfl⟩
  | some waited =>
    rw [hdisconnect] at hbt
    exact ⟨bt, killAllSockets_descends hbt, rfl⟩

namespace KeptByUpdates
variable {server : Server} {parseJson : Text → Option Json} {readWholeFile : String → Text}
variable {I J : Listing → Prop} {l l' : Listing}

theorem and (hI : KeptByUpdates I) (hJ : KeptByUpdates J) : KeptByUpdates fun l => I l ∧ J l where
  descends := fun h hbt => ⟨hI.descends h.1 hbt, hJ.descends h.2 hbt⟩
  joined := fun h hnew hsocket => ⟨hI.joined h.1 hnew hsocket, hJ.joined h.2 hnew hsocket⟩
  resized := fun h sizes => ⟨hI.resized h.1 sizes, hJ.resized h.2 sizes⟩

theorem update (hI : KeptByUpdates I) {u : Update} (h : I l)
    (hok : l.update server parseJson readWholeFile u = .ok l') : I l' := by
  obtain ⟨bt, hbt, hok⟩ := bind_eq_ok hok
  cases hok
  cases u with
  | acceptConn peer addrStr growth lastX lastY width height =>
    obtain ⟨_, rfl⟩ | ⟨peer, _, hsocket, rfl⟩ := acceptConn_cases hbt
    · exact h
    · exact hI.joined h rfl hsocket
  | handleReadyConnections visits => exact hI.descends h (handleReadyConnections_descends hbt)
  | handleRunningTransactions handlings => exact hI.descends h (descends_work.runningPasses _ hbt)
  | progress i p => exact hI.descends h (descends_work.progress hbt)

theorem updates (hI : KeptByUpdates I) {us : List Update} (h : I l)
    (hok : us.foldlM (Listing.update server parseJson readWholeFile) l = .ok l') : I l' :=
  Machine.invariant_run (I := I) (fun _ _ _ hl _ hstep => hI.update hl (Machine.toOption_eq_some hstep)) h
    (Machine.meets_true _ _) (Machine.run_of_foldlM hok)

theorem called (hI : KeptByUpdates I) {s : Shown} (h : I l) (hok : l.called s = .ok l') : I l' := by
  obtain ⟨bt, hbt, rfl⟩ := called_parts hok
  exact hI.resized (hI.descends h hbt) s.sizes

/-- A frame keeps what filling and drawing the list keep. -/
theorem frame (hI : KeptByUpdates I) {f : Frame}
    (hdrawn : ∀ {s : Shown} {l₁ l₂ l₃ : Listing}, I l₁ → l₁.filled s = .ok l₂ → l₂.draw s = .ok l₃ → I l₃)
    (h : I l) (hok : l.frame server parseJson readWholeFile f = .ok l') : I l' := by
  obtain ⟨l₁, hupdates, hok⟩ := bind_eq_ok hok
  have hupdated := hI.updates h hupdates
  cases hs : f.shown with
  | none =>
    rw [hs] at hok
    cases hok
    exact hupdated
  | some s =>
    rw [hs] at hok
    obtain ⟨l₂, hcalled, hok⟩ := bind_eq_ok hok
    obtain ⟨l₃, hfilled, hdraw⟩ := bind_eq_ok hok
    exact hdrawn (hI.called hupdated hcalled) hfilled hdraw

end KeptByUpdates

/-! ### What is known of the tablets between frames -/

/-- Who a tablet is. -/
def BtTabObj.identity (tab : BtTabObj) : Nat × Nat := (tab.connection, tab.socket)

/-- The tablets are distinct, and a button that remembers a press was found pressed by a poll. -/
structure Known (l : Listing) : Prop where
  distinct : Distinct l.tablets l.bt.accepted
  pressed : ∀ tab ∈ l.tablets, tab.killButton.lastClickState = true → tab.connection ∈ l.pressed

theorem Distinct.sublist {tablets tablets' : List BtTabObj} {accepted : Nat} (h : Distinct tablets accepted)
    (hsub : (tablets'.map BtTabObj.identity).Sublist (tablets.map BtTabObj.identity)) : Distinct tablets' accepted := by
  have hconnections := hsub.map Prod.fst
  have hsockets := hsub.map Prod.snd
  rw [List.map_map, List.map_map] at hconnections hsockets
  refine ⟨hsockets.nodup h.sockets, hconnections.nodup h.connections, fun tab htab => ?_⟩
  obtain ⟨old, hold, heq⟩ := List.mem_map.mp (hconnections.subset (List.mem_map_of_mem htab))
  have hfresh := h.fresh old hold
  rwa [show old.connection = tab.connection from heq] at hfresh

theorem Known.of_sublist {l l' : Listing} (h : Known l)
    (hsub : (l'.tablets.map BtTabObj.identity).Sublist (l.tablets.map BtTabObj.identity))
    (haccepted : l'.bt.accepted = l.bt.accepted)
    (hpressed : ∀ tab ∈ l'.tablets, tab.killButton.lastClickState = true → tab.connection ∈ l'.pressed) : Known l' :=
  ⟨haccepted ▸ h.distinct.sublist hsub, hpressed⟩

/-- A tablet of the later state was one of the earlier, with the same button. -/
theorem Descends.old {s s' : State} (h : Descends s s') {tab : BtTabObj} (htab : tab ∈ s'.connectedTablets.elements) :
    ∃ old ∈ s.connectedTablets.elements, old.face = tab.face :=
  List.mem_map.mp (h.faces.subset (List.mem_map_of_mem htab))

theorem Descends.identities {s s' : State} (h : Descends s s') :
    (s'.connectedTablets.elements.map BtTabObj.identity).Sublist (s.connectedTablets.elements.map BtTabObj.identity) := by
  have hsub := h.faces.map fun face => (face.1, face.2.1)
  rwa [List.map_map, List.map_map] at hsub

theorem Known.descends {l : Listing} {bt : State} (h : Known l) (hbt : Descends l.bt bt) : Known {l with bt := bt} := by
  refine h.of_sublist hbt.identities hbt.accepted fun tab htab hstate => ?_
  obtain ⟨old, hold, hface⟩ := hbt.old htab
  obtain ⟨hconnection, hrest⟩ := Prod.mk.inj hface
  obtain ⟨_, hbutton⟩ := Prod.mk.inj hrest
  rw [← hbutton] at hstate
  exact hconnection ▸ h.pressed old hold hstate

/-- A tablet that joins has a button that was not pressed. -/
theorem Known.joined {l : Listing} {a : Accept} {peer : Nat} (h : Known l) (hnew : a.killButton.lastClickState = false)
    (hsocket : ∀ tab ∈ l.tablets, tab.socket ≠ peer) : Known (l.joined a peer) := by
  refine ⟨h.distinct.push a.growth hsocket rfl, fun tab htab hstate => ?_⟩
  rw [joined_tablets] at htab
  obtain hold | hlast := List.mem_append.mp htab
  · exact h.pressed tab hold hstate
  · rw [List.mem_singleton.mp hlast] at hstate
    exact absurd (hnew.symm.trans hstate) Bool.false_ne_true

theorem resized_map {α : Type} {g : BtTabObj → α}
    (hg : ∀ (tab : BtTabObj) (width height : Rat),
      g {tab with killButton := {tab.killButton with width := width, height := height}} = g tab)
    (sizes : Sizes) (l : Listing) : (l.resized sizes).tablets.map g = l.tablets.map g := by
  show (l.tablets.map _).map g = _
  rw [List.map_map]
  exact List.map_congr_left fun tab _ => hg tab _ _

/-- What a change of the place or the size of the buttons keeps. -/
theorem Known.of_map {l l' : Listing} (h : Known l)
    (hmap : ∀ {α : Type} (g : BtTabObj → α), (∀ (tab : BtTabObj) (lastX lastY width height : Rat),
      g {tab with killButton := {tab.killButton with
        lastX := lastX, lastY := lastY, width := width, height := height}} = g tab) →
      l'.tablets.map g = l.tablets.map g)
    (haccepted : l'.bt.accepted = l.bt.accepted) (hpressed : l'.pressed = l.pressed) : Known l' := by
  have hidentity := hmap BtTabObj.identity fun _ _ _ _ _ => rfl
  have hstates := hmap (fun tab => (tab.connection, tab.killButton.lastClickState)) fun _ _ _ _ _ => rfl
  refine h.of_sublist (hidentity ▸ .refl _) haccepted fun tab htab hstate => ?_
  obtain ⟨old, hold, heq⟩ := List.mem_map.mp (hstates ▸ List.mem_map_of_mem htab)
  obtain ⟨hconnection, hclick⟩ := Prod.mk.inj heq
  rw [hpressed, ← hconnection]
  exact h.pressed old hold (hclick.trans hstate)

theorem Known.resized {l : Listing} (h : Known l) (sizes : Sizes) : Known (l.resized sizes) :=
  h.of_map (fun _ hg => resized_map (fun tab => hg tab _ _) sizes l) rfl rfl

theorem known_updates : KeptByUpdates Known where
  descends := Known.descends
  joined := Known.joined
  resized := Known.resized

theorem polled_pressed {mouse : Mouse} {tab : BtTabObj}
    (h : (tab.polled mouse).killButton.lastClickState = true) :
    tab.killButton.lastClickState = true ∨ tab.pressedBy mouse = true := by
  unfold BtTabObj.polled Button.isReleased at h
  by_cases hdisabled : tab.killButton.disabled = true
  · rw [if_pos hdisabled] at h
    exact .inl h
  · rw [if_neg hdisabled] at h
    refine .inr ?_
    simp only at h
    rw [BtTabObj.pressedBy, eq_false_of_ne_true hdisabled, Bool.not_false, Bool.true_and]
    exact h

theorem Returns.old {mouse : Mouse} {l l' : Listing} (h : Returns mouse l l') {tab : BtTabObj} (htab : tab ∈ l'.tablets) :
    ∃ old ∈ l.tablets, old.polled mouse = tab := by
  obtain ⟨hall, _⟩ | ⟨i, j, _, _, _, _, _, _, hone⟩ := h.tablets
  · exact List.mem_map.mp (hall ▸ htab)
  · exact List.mem_map.mp (List.mem_of_mem_eraseIdx (hone ▸ htab))

theorem Known.returns {mouse : Mouse} {l l' : Listing} (h : Known l) (hreturns : Returns mouse l l') : Known l' := by
  have hpolled : (l.tablets.map (BtTabObj.polled mouse)).map BtTabObj.identity = l.tablets.map BtTabObj.identity := by
    rw [List.map_map]
    rfl
  refine h.of_sublist ?_ hreturns.accepted fun tab htab hstate => ?_
  · obtain ⟨hall, _⟩ | ⟨i, j, _, _, _, _, _, _, hone⟩ := hreturns.tablets
    · rw [hall, hpolled]
    · rw [hone, ← hpolled]
      exact (List.eraseIdx_sublist ..).map _
  · obtain ⟨old, hold, rfl⟩ := hreturns.old htab
    obtain hbefore | hnow := polled_pressed hstate
    · exact hreturns.pressed.1 (h.pressed old hold hbefore)
    · exact hreturns.pressed.2 old hold hnow

theorem Known.draw {l : Listing} (h : Known l) (s : Shown) :
    Known ((l.scrolled s).withPlaces (List.zipWith Laid.place (l.layout s) l.tablets) (l.layout s)) :=
  h.of_map (fun _ hg => map_place (fun p tab => hg tab p.x p.y _ _) _ _ _ _) rfl rfl

/-! ### Threads between the call and the draw -/

/-- No tablet moves, and none gets another name. -/
structure InPlace (s s' : State) : Prop where
  identity : s'.connectedTablets.identity = s.connectedTablets.identity
  infos : s'.connectedTablets.elements.map (·.info) = s.connectedTablets.elements.map (·.info)

theorem inPlace_records : KeptByRecords InPlace where
  refl := fun _ => ⟨rfl, rfl⟩
  trans := fun h h' => ⟨h'.identity.trans h.identity, h'.infos.trans h.infos⟩
  record := fun _ _ _ => ⟨rfl, map_modify fun _ _ => rfl⟩

theorem Listed.inPlace {l : Listing} {bt : State} (h : Listed l) (hbt : InPlace l.bt bt) : Listed {l with bt := bt} := by
  have hlength : bt.connectedTablets.elements.length = l.tablets.length := by
    simpa [Listing.tablets] using congrArg List.length hbt.infos
  constructor
  · show l.nameList.thingsToDraw = (List.range bt.connectedTablets.elements.length).flatMap fun i =>
      [.name (l.names.pointer i), .killButton ⟨bt.connectedTablets.identity, i⟩]
    rw [hlength, hbt.identity]
    exact h.entries
  · have hnames := congrArg (List.map (·.tabScoutingName)) hbt.infos
    rw [List.map_map, List.map_map] at hnames
    exact h.names.trans hnames.symm

theorem work_keeps {l l' : Listing} {steps : List (Nat × Progress)} (h : Known l ∧ Listed l)
    (hok : steps.foldlM Listing.work l = .ok l') : Known l' ∧ Listed l' := by
  refine Machine.invariant_run (I := fun l => Known l ∧ Listed l) (fun l₁ step l₂ hl₁ _ hstep => ?_) h
    (Machine.meets_true _ _) (Machine.run_of_foldlM hok)
  obtain ⟨bt, hbt, hok⟩ := bind_eq_ok (Machine.toOption_eq_some hstep)
  cases hok
  exact ⟨hl₁.1.descends (descends_work.progress hbt), hl₁.2.inPlace (inPlace_records.progress hbt)⟩

/-- What is drawn is the list that was filled. -/
theorem Known.filled {l l' : Listing} {s : Shown} (h : Known l) (hok : l.filled s = .ok l') : Known l' ∧ Listed l' := by
  obtain ⟨l₁, hreturned, hreturns⟩ := getNameList_returns s.released_up l
  rw [Listing.filled, hreturned _ (Nat.le_add_left ..)] at hok
  exact work_keeps ⟨h.returns hreturns, hreturns.listed⟩ hok

theorem Known.drawn {l l₁ l' : Listing} {s : Shown} (h : Known l) (hfilled : l.filled s = .ok l₁)
    (hdraw : l₁.draw s = .ok l') : Known l' := by
  obtain ⟨hknown, hlisted⟩ := h.filled hfilled
  rw [draw_listed s hlisted] at hdraw
  cases hdraw
  exact hknown.draw s

theorem start_known (table : Table) (lastX lastY : Int) : Known (Listing.start table lastX lastY) :=
  ⟨⟨List.nodup_nil, List.nodup_nil, fun _ h => absurd h List.not_mem_nil⟩, fun _ h => absurd h List.not_mem_nil⟩

theorem run_known {server : Server} {parseJson : Text → Option Json} {readWholeFile : String → Text} {table : Table}
    {lastX lastY : Int} {frames : List Frame} {l : Listing}
    (hrun : Machine.run (Listing.frameStep server parseJson readWholeFile) (Listing.start table lastX lastY) frames =
      some l) : Known l :=
  Machine.invariant_run (I := Known)
    (fun _ _ _ hl _ hstep => known_updates.frame Known.drawn hl (Machine.toOption_eq_some hstep))
    (start_known table lastX lastY) (Machine.meets_true _ _) hrun

end ScoutingComputer.Bluetooth
