import ScoutingComputer.Bluetooth.Operations
import ScoutingComputer.GuiHandler.VerticalScrollable

/-! The list of names, with the pointers that it is drawn from.

`getNameList` fills a vector with pointers: to the texts, which lie in a vector of their own
that grows while it is filled, and to the buttons inside the tablets. The room for the texts
is reserved first. A button that is released has its tablet removed, which moves the tablets
behind it, and the function calls itself; the first pass has changed the state of every
button, so in the second none is released. -/
namespace ScoutingComputer.Bluetooth
open Machine (bind_eq_ok)

/-- A pointer in `thingsToDraw`. -/
inductive Entry where
  | name (text : Pointer)
  | killButton (tablet : Pointer)
  deriving DecidableEq, Repr

/-- Where a draw put the button of a connection. -/
structure Laid where
  connection : Nat
  x : Int
  y : Int
  deriving DecidableEq, Repr

/-- The component and its list. Of an element of `names` only the text is kept. -/
structure Listing where
  bt : State
  names : Buffer Text
  nameList : VerticalScrollable Entry
  /-- The connections whose button some poll found pressed; the program does not note them. -/
  pressed : List Nat
  /-- Where the last draw put the buttons; each button also remembers its own place. -/
  laid : List Laid

/-- What the button of a tablet answers to a poll. -/
def BtTabObj.released (mouse : Mouse) (tab : BtTabObj) : Bool := (tab.killButton.isReleased mouse).1

/-- The tablet after a poll. -/
def BtTabObj.polled (mouse : Mouse) (tab : BtTabObj) : BtTabObj :=
  {tab with killButton := (tab.killButton.isReleased mouse).2}

/-- The poll finds the button pressed. -/
def BtTabObj.pressedBy (mouse : Mouse) (tab : BtTabObj) : Bool :=
  !tab.killButton.disabled && tab.killButton.isHovering mouse && mouse.down

namespace Listing

def tablets (l : Listing) : List BtTabObj := l.bt.connectedTablets.elements

/-- The vectors are emptied, and there is room for the texts. -/
def emptied (l : Listing) : Listing :=
  {l with
    names := l.names.clear.reserve l.tablets.length
    nameList := {l.nameList with thingsToDraw := []}}

/-- One pass of the loop of `getNameList`. -/
def pollTablet (mouse : Mouse) : Listing × Option Nat → Nat → Checked (Listing × Option Nat)
  | (l, killIndex), i =>
    match l.tablets[i]? with
    | none => .error (.threw .outOfRange)
    | some tab =>
      let names := l.names.push 0 tab.info.tabScoutingName
      match names.elements[i]? with
      | none => .error (.threw .outOfRange)
      | some _ =>
        let polled :=
          {l with
            bt := l.bt.modify i (BtTabObj.polled mouse)
            names := names
            nameList := {l.nameList with thingsToDraw := l.nameList.thingsToDraw ++
              [.name (names.pointer i), .killButton (l.bt.connectedTablets.pointer i)]}
            pressed := if tab.pressedBy mouse then l.pressed ++ [tab.connection] else l.pressed}
        .ok (polled, if tab.released mouse then some i else killIndex)

/-- The loop of `getNameList`. -/
def scan (mouse : Mouse) (l : Listing) : Checked (Listing × Option Nat) :=
  (List.range l.tablets.length).foldlM (pollTablet mouse) (l.emptied, none)

/-- `getNameList`, which is called at most `fuel` times. -/
def getNameList (mouse : Mouse) : Nat → Listing → Checked (Option Listing)
  | 0, _ => .ok none
  | fuel + 1, l => do
    match ← l.scan mouse with
    | (l, none) => return some l
    | (l, some killIndex) =>
      match l.tablets[killIndex]? with
      | none => .error (.threw .outOfRange)
      | some tab => getNameList mouse fuel {l with bt := (l.bt.killSocket tab.socket).1}

end Listing

/-! ### What the list holds -/

/-- The entry can be used. -/
def Entry.Live (l : Listing) : Entry → Prop
  | .name text => ∃ a, l.names.deref text = some a
  | .killButton tablet => ∃ tab, l.bt.connectedTablets.deref tablet = some tab

/-- The two entries of tablet `i`. -/
def Listing.entries (l : Listing) (i : Nat) : List Entry :=
  [.name (l.names.pointer i), .killButton (l.bt.connectedTablets.pointer i)]

/-- A name and a button for each tablet, in their order. -/
structure Listed (l : Listing) : Prop where
  entries : l.nameList.thingsToDraw = (List.range l.tablets.length).flatMap l.entries
  names : l.names.elements = l.tablets.map (·.info.tabScoutingName)

theorem Listed.live {l : Listing} (h : Listed l) : ∀ e ∈ l.nameList.thingsToDraw, e.Live l := by
  intro e he
  rw [h.entries] at he
  obtain ⟨i, hi, he⟩ := List.mem_flatMap.mp he
  have hlt : i < l.tablets.length := List.mem_range.mp hi
  obtain rfl | rfl : e = .name (l.names.pointer i) ∨ e = .killButton (l.bt.connectedTablets.pointer i) := by
    simpa [Listing.entries] using he
  · have hname : i < l.names.elements.length := by rwa [h.names, List.length_map]
    exact ⟨_, (Buffer.deref_pointer _ i).trans (List.getElem?_eq_getElem hname)⟩
  · exact ⟨_, (Buffer.deref_pointer _ i).trans (List.getElem?_eq_getElem hlt)⟩

/-! ### One pass over the tablets -/

/-- The last tablet whose button is released. -/
def lastReleased (mouse : Mouse) (tablets : List BtTabObj) : Option Nat :=
  ((List.range tablets.length).filter fun i => tablets[i]?.any (BtTabObj.released mouse)).getLast?

theorem lastReleased_snoc (mouse : Mouse) (tablets : List BtTabObj) (tab : BtTabObj) :
    lastReleased mouse (tablets ++ [tab]) =
      if tab.released mouse then some tablets.length else lastReleased mouse tablets := by
  have hbefore : (List.range tablets.length).filter (fun i => (tablets ++ [tab])[i]?.any (BtTabObj.released mouse)) =
      (List.range tablets.length).filter fun i => tablets[i]?.any (BtTabObj.released mouse) := by
    apply List.filter_congr
    intro i hi
    rw [List.getElem?_append_left (List.mem_range.mp hi)]
  unfold lastReleased
  rw [List.length_append, List.length_singleton, List.range_succ, List.filter_append, hbefore]
  by_cases h : tab.released mouse
  · simp [h]
  · simp [h]

theorem lastReleased_eq_some {mouse : Mouse} {tablets : List BtTabObj} {i : Nat}
    (h : lastReleased mouse tablets = some i) : ∃ tab, tablets[i]? = some tab ∧ tab.released mouse = true := by
  have hmem := List.mem_of_getLast? h
  obtain ⟨_, hany⟩ := List.mem_filter.mp hmem
  cases hi : tablets[i]? with
  | none => simp [hi] at hany
  | some tab => exact ⟨tab, rfl, by simpa [hi] using hany⟩

theorem lastReleased_eq_none_iff {mouse : Mouse} {tablets : List BtTabObj} :
    lastReleased mouse tablets = none ↔ ∀ tab ∈ tablets, tab.released mouse = false := by
  unfold lastReleased
  rw [List.getLast?_eq_none_iff, List.filter_eq_nil_iff]
  constructor
  · intro h tab htab
    obtain ⟨i, hi⟩ := List.mem_iff_getElem?.mp htab
    have hlt := (List.getElem?_eq_some_iff.mp hi).1
    simpa [hi] using h i (List.mem_range.mpr hlt)
  · intro h i _ hany
    cases hi : tablets[i]? with
    | none => simp [hi] at hany
    | some tab => simp [hi, h tab (List.mem_of_getElem? hi)] at hany

/-- After `k` passes. -/
def Listing.scanned (mouse : Mouse) (l : Listing) (k : Nat) : Listing :=
  {l with
    bt := {l.bt with connectedTablets := {l.bt.connectedTablets with
      elements := (l.tablets.take k).map (BtTabObj.polled mouse) ++ l.tablets.drop k}}
    names := {l.emptied.names with elements := (l.tablets.take k).map (·.info.tabScoutingName)}
    nameList := {l.nameList with thingsToDraw := (List.range k).flatMap l.emptied.entries}
    pressed := l.pressed ++ ((l.tablets.take k).filter (BtTabObj.pressedBy mouse)).map (·.connection)}

theorem modify_append_cons {α : Type} (f : α → α) (before after : List α) (a : α) :
    (before ++ a :: after).modify before.length f = before ++ f a :: after := by
  induction before with
  | nil => rfl
  | cons b before ih => rw [List.cons_append, List.length_cons, List.modify_succ_cons, ih, List.cons_append]

theorem modify_next {α : Type} (f : α → α) {as : List α} {k : Nat} {a : α} (hk : as[k]? = some a) :
    ((as.take k).map f ++ as.drop k).modify k f = (as.take (k + 1)).map f ++ as.drop (k + 1) := by
  obtain ⟨hlt, rfl⟩ := List.getElem?_eq_some_iff.mp hk
  have hlength : ((as.take k).map f).length = k := by
    rw [List.length_map, List.length_take]
    omega
  have hmodify := modify_append_cons f ((as.take k).map f) (as.drop (k + 1)) as[k]
  rw [hlength, ← List.drop_eq_getElem_cons hlt] at hmodify
  rw [hmodify, List.take_add_one, hk, List.map_append, List.append_assoc]
  rfl

theorem pollTablet_scanned (mouse : Mouse) {l : Listing} {k : Nat} {tab : BtTabObj} (hk : l.tablets[k]? = some tab) :
    Listing.pollTablet mouse (l.scanned mouse k, lastReleased mouse (l.tablets.take k)) k =
      .ok (l.scanned mouse (k + 1), lastReleased mouse (l.tablets.take (k + 1))) := by
  obtain ⟨hlt, _⟩ := List.getElem?_eq_some_iff.mp hk
  have hlength : (l.tablets.take k).length = k := by
    rw [List.length_take]
    omega
  have htake : l.tablets.take (k + 1) = l.tablets.take k ++ [tab] := by
    rw [List.take_add_one, hk]
    rfl
  have htab : (l.scanned mouse k).tablets[k]? = some tab := by
    show ((l.tablets.take k).map _ ++ l.tablets.drop k)[k]? = _
    rw [List.getElem?_append_right (by rw [List.length_map, hlength]), List.length_map, hlength, Nat.sub_self,
      List.getElem?_drop, Nat.add_zero, hk]
  have hroom : (l.scanned mouse k).names.elements.length < (l.scanned mouse k).names.capacity := by
    show ((l.tablets.take k).map _).length < l.emptied.names.capacity
    rw [List.length_map, hlength]
    exact Nat.lt_of_lt_of_le hlt (Buffer.reserve_room _ _)
  have hname : ((l.scanned mouse k).names.push 0 tab.info.tabScoutingName).elements[k]? =
      some tab.info.tabScoutingName := by
    rw [Buffer.push_elements]
    show ((l.tablets.take k).map _ ++ [_])[k]? = _
    rw [List.getElem?_append_right (by rw [List.length_map, hlength]), List.length_map, hlength, Nat.sub_self]
    rfl
  have htablets := modify_next (BtTabObj.polled mouse) hk
  rw [Listing.pollTablet, htab]
  simp only [hname]
  rw [htake, lastReleased_snoc, hlength]
  refine congrArg (fun polled => Except.ok (polled, _)) ?_
  rw [Buffer.push_of_room hroom]
  unfold Listing.scanned
  rw [← htablets]
  refine Listing.mk.injEq .. ▸ ⟨rfl, ?_, ?_, ?_, rfl⟩
  · rw [htake, List.map_append]
    rfl
  · rw [List.range_succ, List.flatMap_append]
    simp only [List.flatMap_singleton]
    rfl
  · rw [htake, List.filter_append, List.map_append]
    by_cases hpressed : tab.pressedBy mouse <;> simp [hpressed]

theorem scanned_zero (mouse : Mouse) (l : Listing) : l.scanned mouse 0 = l.emptied := by
  have hnames : l.emptied.names.elements = [] := Buffer.reserve_elements _ _
  unfold Listing.scanned
  refine Listing.mk.injEq .. ▸ ⟨rfl, ?_, rfl, by simp, rfl⟩
  rw [List.take_zero, List.map_nil, ← hnames]
  rfl

/-- The loop as a whole: every button is polled, and the accesses are in range. -/
theorem scan_eq (mouse : Mouse) (l : Listing) :
    l.scan mouse = .ok (l.scanned mouse l.tablets.length, lastReleased mouse l.tablets) := by
  have hpasses : ∀ k ≤ l.tablets.length, (List.range k).foldlM (Listing.pollTablet mouse) (l.emptied, none) =
      .ok (l.scanned mouse k, lastReleased mouse (l.tablets.take k)) := by
    intro k hk
    induction k with
    | zero => rw [scanned_zero]; rfl
    | succ k ih =>
      rw [List.range_succ, List.foldlM_append, ih (by omega)]
      show (List.foldlM (Listing.pollTablet mouse) (l.scanned mouse k, _) [k]) = _
      rw [List.foldlM_cons, pollTablet_scanned mouse (List.getElem?_eq_getElem (Nat.lt_of_succ_le hk))]
      rfl
  have hall := hpasses _ le_rfl
  rwa [List.take_length] at hall

/-- The tablets after a poll of all buttons. -/
theorem scanned_tablets (mouse : Mouse) (l : Listing) :
    (l.scanned mouse l.tablets.length).tablets = l.tablets.map (BtTabObj.polled mouse) := by
  show (l.tablets.take _).map _ ++ l.tablets.drop _ = _
  rw [List.take_length, List.drop_length, List.append_nil]

theorem scanned_listed (mouse : Mouse) (l : Listing) : Listed (l.scanned mouse l.tablets.length) := by
  constructor
  · rw [scanned_tablets, List.length_map]
    rfl
  · rw [scanned_tablets, List.map_map]
    show (l.tablets.take _).map _ = _
    rw [List.take_length]
    rfl

/-! ### The second pass -/

/-- While the mouse stays as it is, no button is released twice. -/
theorem polled_not_released {mouse : Mouse} (hraylib : mouse.released = true → mouse.down = false) (tab : BtTabObj) :
    (tab.polled mouse).released mouse = false := by
  unfold BtTabObj.polled BtTabObj.released Button.isReleased
  by_cases hdisabled : tab.killButton.disabled
  · simp [hdisabled]
  · cases hreleased : mouse.released with
    | false => simp [hdisabled]
    | true => simp [hdisabled, hraylib hreleased]

theorem polled_polled (mouse : Mouse) (tab : BtTabObj) : (tab.polled mouse).polled mouse = tab.polled mouse := by
  unfold BtTabObj.polled Button.isReleased
  by_cases hdisabled : tab.killButton.disabled
  · simp [hdisabled]
  · simp only [hdisabled, Bool.false_eq_true, if_false]
    rfl

theorem getNameList_succ (mouse : Mouse) (fuel : Nat) (l : Listing) :
    l.getNameList mouse (fuel + 1) =
      match lastReleased mouse l.tablets with
      | none => .ok (some (l.scanned mouse l.tablets.length))
      | some killIndex =>
        match (l.scanned mouse l.tablets.length).tablets[killIndex]? with
        | none => .error (.threw .outOfRange)
        | some tab => Listing.getNameList mouse fuel
          {l.scanned mouse l.tablets.length with bt := ((l.scanned mouse l.tablets.length).bt.killSocket tab.socket).1} := by
  rw [Listing.getNameList, scan_eq]
  simp only [bind, Except.bind]
  cases lastReleased mouse l.tablets with
  | none => rfl
  | some killIndex => rfl

/-- Without a released button the list is filled and returned. -/
theorem getNameList_none {mouse : Mouse} {l : Listing} (h : ∀ tab ∈ l.tablets, tab.released mouse = false) (fuel : Nat) :
    l.getNameList mouse (fuel + 1) = .ok (some (l.scanned mouse l.tablets.length)) := by
  rw [getNameList_succ, lastReleased_eq_none_iff.mpr h]

/-- What a call of `getNameList` does: all buttons are polled, and the tablet with the socket
of one whose button is released is removed. -/
structure Returns (mouse : Mouse) (l l' : Listing) : Prop where
  listed : Listed l'
  tablets : (l'.tablets = l.tablets.map (BtTabObj.polled mouse) ∧ ∀ tab ∈ l.tablets, tab.released mouse = false) ∨
    ∃ (i j : Nat) (tab tab' : BtTabObj), l.tablets[i]? = some tab ∧ tab.released mouse = true ∧ l.tablets[j]? = some tab' ∧
      tab'.socket = tab.socket ∧ l'.tablets = (l.tablets.map (BtTabObj.polled mouse)).eraseIdx j
  accepted : l'.bt.accepted = l.bt.accepted
  laid : l'.laid = l.laid
  pressed : l.pressed ⊆ l'.pressed ∧ ∀ tab ∈ l.tablets, tab.pressedBy mouse = true → tab.connection ∈ l'.pressed

theorem scanned_pressed (mouse : Mouse) (l : Listing) :
    l.pressed ⊆ (l.scanned mouse l.tablets.length).pressed ∧
      ∀ tab ∈ l.tablets, tab.pressedBy mouse = true → tab.connection ∈ (l.scanned mouse l.tablets.length).pressed := by
  refine ⟨fun _ h => List.mem_append_left _ h, fun tab htab hpressed => List.mem_append_right _ ?_⟩
  rw [List.take_length]
  exact List.mem_map_of_mem (List.mem_filter.mpr ⟨htab, hpressed⟩)

/-- The pass after a removal: no button is released, and polling them again changes none. -/
theorem getNameList_polled {mouse : Mouse} (hraylib : mouse.released = true → mouse.down = false) {l : Listing}
    (h : ∀ tab ∈ l.tablets, ∃ old : BtTabObj, old.polled mouse = tab) :
    (∀ fuel, l.getNameList mouse (fuel + 1) = .ok (some (l.scanned mouse l.tablets.length))) ∧
      (l.scanned mouse l.tablets.length).tablets = l.tablets := by
  have hnone : ∀ tab ∈ l.tablets, tab.released mouse = false := by
    intro tab htab
    obtain ⟨old, rfl⟩ := h tab htab
    exact polled_not_released hraylib old
  have hsame : ∀ tab ∈ l.tablets, tab.polled mouse = tab := by
    intro tab htab
    obtain ⟨old, rfl⟩ := h tab htab
    exact polled_polled mouse old
  refine ⟨getNameList_none hnone, ?_⟩
  rw [scanned_tablets, List.map_congr_left hsame, List.map_id']

/-- The call returns, after one removal at most. -/
theorem getNameList_returns {mouse : Mouse} (hraylib : mouse.released = true → mouse.down = false) (l : Listing) :
    ∃ l', (∀ fuel, 2 ≤ fuel → l.getNameList mouse fuel = .ok (some l')) ∧ Returns mouse l l' := by
  have hpressed := scanned_pressed mouse l
  cases hlast : lastReleased mouse l.tablets with
  | none =>
    have hnone := lastReleased_eq_none_iff.mp hlast
    refine ⟨_, fun fuel hfuel => ?_, scanned_listed mouse l, .inl ⟨scanned_tablets mouse l, hnone⟩, rfl, rfl, hpressed⟩
    obtain ⟨fuel, rfl⟩ := Nat.exists_eq_add_of_le' hfuel
    exact getNameList_none hnone _
  | some i =>
    obtain ⟨tab, hi, hreleased⟩ := lastReleased_eq_some hlast
    have hpolled : (l.scanned mouse l.tablets.length).tablets[i]? = some (tab.polled mouse) := by
      rw [scanned_tablets, List.getElem?_map, hi]
      rfl
    obtain ⟨j, _, hj, hsocket, hkill⟩ := killSocket_erases hpolled
    have helements : (l.scanned mouse l.tablets.length).bt.connectedTablets.elements =
        l.tablets.map (BtTabObj.polled mouse) := scanned_tablets mouse l
    rw [helements, List.getElem?_map] at hj
    obtain ⟨tab', htab', rfl⟩ := Option.map_eq_some_iff.mp hj
    generalize hsecond : ({l.scanned mouse l.tablets.length with
      bt := ((l.scanned mouse l.tablets.length).bt.killSocket (tab.polled mouse).socket).1} : Listing) = second
    have htablets : second.tablets = (l.tablets.map (BtTabObj.polled mouse)).eraseIdx j := by
      rw [← hsecond, hkill, ← helements]
      rfl
    obtain ⟨hreturns, hsame⟩ := getNameList_polled hraylib (l := second) fun tab htab => by
      rw [htablets] at htab
      obtain ⟨old, _, hold⟩ := List.mem_map.mp (List.mem_of_mem_eraseIdx htab)
      exact ⟨old, hold⟩
    refine ⟨second.scanned mouse second.tablets.length, fun fuel hfuel => ?_, scanned_listed mouse second,
      .inr ⟨i, j, tab, tab', hi, hreleased, htab', hsocket, hsame.trans htablets⟩, ?_, ?_, ?_⟩
    · obtain ⟨fuel, rfl⟩ := Nat.exists_eq_add_of_le' hfuel
      rw [getNameList_succ, hlast]
      simp only [hpolled, hsecond]
      exact hreturns fuel
    · show second.bt.accepted = _
      rw [← hsecond, hkill]
      rfl
    · show second.laid = _
      rw [← hsecond]
      rfl
    · have hfirst : second.pressed = (l.scanned mouse l.tablets.length).pressed := by rw [← hsecond]
      have hmore := (scanned_pressed mouse second).1
      rw [hfirst] at hmore
      exact ⟨fun _ h => hmore (hpressed.1 h), fun tab htab h => hmore (hpressed.2 tab htab h)⟩

/-! ### The list without its pointers -/

/-- A name is known by its place. -/
def Entry.plain : Entry → NameListEntry
  | .name text => .name text.slot
  | .killButton tablet => .killButton tablet

/-- The component as the other operations know it. -/
def Listing.plain (l : Listing) : State :=
  {l.bt with names := l.names.elements, nameList := l.nameList.thingsToDraw.map Entry.plain}

theorem scanned_plain (mouse : Mouse) (l : Listing) :
    l.plain.scanNames mouse = ((l.scanned mouse l.tablets.length).plain, lastReleased mouse l.tablets) := by
  refine Prod.ext ?_ rfl
  unfold Listing.plain Listing.scanned State.scanNames
  simp only [List.take_length, List.drop_length, List.append_nil, List.map_flatMap]
  rfl

theorem killAt_plain {l : Listing} {i : Nat} {tab : BtTabObj} (hi : l.tablets[i]? = some tab) :
    l.plain.killAt i = Listing.plain {l with bt := (l.bt.killSocket tab.socket).1} := by
  have hi' : l.plain.connectedTablets.elements[i]? = some tab := hi
  unfold State.killAt
  simp only [hi']
  unfold State.killSocket Listing.plain
  split <;> rename_i hfind <;> simp only [hfind]

theorem getNameList_plain {mouse : Mouse} {fuel : Nat} {l l' : Listing}
    (h : l.getNameList mouse (fuel + 1) = .ok (some l')) : l.plain.getNameListFrom mouse fuel = l'.plain := by
  induction fuel generalizing l with
  | zero =>
    rw [getNameList_succ] at h
    unfold State.getNameListFrom
    rw [scanned_plain]
    cases hlast : lastReleased mouse l.tablets with
    | none =>
      rw [hlast] at h
      cases h
      rfl
    | some i =>
      rw [hlast] at h
      simp only at h
      split at h <;> cases h
  | succ fuel ih =>
    rw [getNameList_succ] at h
    unfold State.getNameListFrom
    rw [scanned_plain]
    cases hlast : lastReleased mouse l.tablets with
    | none =>
      rw [hlast] at h
      cases h
      rfl
    | some i =>
      rw [hlast] at h
      simp only at h ⊢
      split at h
      · cases h
      · rename_i tab htab
        rw [killAt_plain htab]
        exact ih h

/-- The call does what `State.getNameList` says. -/
theorem getNameList_state {mouse : Mouse} (hraylib : mouse.released = true → mouse.down = false) (l : Listing) :
    ∃ l', (∀ fuel, 2 ≤ fuel → l.getNameList mouse fuel = .ok (some l')) ∧ l.plain.getNameList mouse = l'.plain := by
  obtain ⟨l', hreturned, hreturns⟩ := getNameList_returns hraylib l
  refine ⟨l', hreturned, ?_⟩
  show l.plain.getNameListFrom mouse l.tablets.length = l'.plain
  cases hlength : l.tablets.length with
  | zero =>
    have hnone : ∀ tab ∈ l.tablets, tab.released mouse = false := by
      rw [List.length_eq_zero_iff.mp hlength]
      exact fun _ h => absurd h List.not_mem_nil
    have hsame := hreturned 2 le_rfl
    rw [getNameList_none hnone] at hsame
    exact getNameList_plain ((getNameList_none hnone 0).trans hsame)
  | succ n => exact getNameList_plain (hreturned (n + 2) (Nat.le_add_left ..))

end ScoutingComputer.Bluetooth
