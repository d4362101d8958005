import Mathlib.Data.List.Nodup
import ScoutingComputer.Bluetooth.Bluetooth

/-! The invariant of the component.

Every running transaction points to the record of a busy tablet, whose parent field and
task point to the same tablet, and every other tablet is idle. `Sound` is about the list
of running transactions and the vector alone; the lemmas say what each kind of change
asks for. A push without room and an erase before a running transaction are the changes
that do not keep it. -/
namespace ScoutingComputer.Bluetooth

/-- A change that leaves the tablet the one it was. -/
def Same (tab tab' : BtTabObj) : Prop := tab'.socket = tab.socket ∧ tab'.connection = tab.connection

/-- No two tablets have one socket or connection. -/
structure Distinct (tablets : List BtTabObj) (accepted : Nat) : Prop where
  sockets : (tablets.map (·.socket)).Nodup
  connections : (tablets.map (·.connection)).Nodup
  fresh : ∀ tab ∈ tablets, tab.connection < accepted

/-- No transaction of the tablet is running. -/
def Idle (tab : BtTabObj) : Prop :=
  tab.transactionState = false ∧ ∀ task, tab.currTrans.data = some task → task.state.ready = true

/-- The tablet is busy with this entry, and all pointers of the transaction are to it. -/
structure Carries (e : Running) (tab : BtTabObj) : Prop where
  connection : tab.connection = e.connection
  busy : tab.transactionState = true
  parent : tab.currTrans.parent = some e.trans
  data : ∃ task, tab.currTrans.data = some task ∧ task.self = e.trans ∧ task.connection = e.connection

structure Sound (running : List Running) (b : Buffer BtTabObj) (accepted : Nat) : Prop where
  distinct : Distinct b.elements accepted
  carried : ∀ e ∈ running, ∃ tab, b.deref e.trans = some tab ∧ Carries e tab
  places : (running.map (·.trans.slot)).Nodup
  rest : ∀ i tab, b.elements[i]? = some tab → Idle tab ∨ ∃ e ∈ running, e.trans.slot = i

variable {running : List Running} {b b' : Buffer BtTabObj} {accepted : Nat}

/-! ### Tablets that stay the ones they were -/

theorem map_eq_of_same {α : Type} {f : BtTabObj → α} (hf : ∀ tab tab', Same tab tab' → f tab' = f tab)
    {tablets tablets' : List BtTabObj} (hlength : tablets'.length = tablets.length)
    (hsame : ∀ (i : Nat) tab tab', tablets[i]? = some tab → tablets'[i]? = some tab' → Same tab tab') :
    tablets'.map f = tablets.map f := by
  refine List.ext_getElem (by simpa using hlength) fun i h' h => ?_
  rw [List.getElem_map, List.getElem_map]
  simp only [List.length_map] at h h'
  exact hf _ _ (hsame i _ _ (List.getElem?_eq_getElem h) (List.getElem?_eq_getElem h'))

theorem Distinct.of_same {tablets tablets' : List BtTabObj} (h : Distinct tablets accepted)
    (hlength : tablets'.length = tablets.length)
    (hsame : ∀ (i : Nat) tab tab', tablets[i]? = some tab → tablets'[i]? = some tab' → Same tab tab') :
    Distinct tablets' accepted := by
  refine ⟨?_, ?_, fun tab' hmem => ?_⟩
  · rw [map_eq_of_same (f := (·.socket)) (fun _ _ h => h.1) hlength hsame]
    exact h.sockets
  · rw [map_eq_of_same (f := (·.connection)) (fun _ _ h => h.2) hlength hsame]
    exact h.connections
  · obtain ⟨i, hi, rfl⟩ := List.mem_iff_getElem.mp hmem
    have hold : i < tablets.length := by omega
    have := (hsame i _ _ (List.getElem?_eq_getElem hold) (List.getElem?_eq_getElem hi)).2
    rw [this]
    exact h.fresh _ (List.getElem_mem hold)

theorem Distinct.modify {i : Nat} {tab tab' : BtTabObj} (h : Distinct b.elements accepted)
    (hi : b.elements[i]? = some tab) (hsame : Same tab tab') :
    Distinct (b.modify i fun _ => tab').elements accepted := by
  refine h.of_same (List.length_modify ..) fun j t t' ht ht' => ?_
  rw [Buffer.modify_getElem?] at ht'
  split at ht'
  · rename_i hij
    subst hij
    rw [hi] at ht ht'
    cases ht
    cases ht'
    exact hsame
  · rw [ht] at ht'
    cases ht'
    exact ⟨rfl, rfl⟩

/-- Tablets that differ in a value have different places. -/
theorem place_unique {α : Type} {f : BtTabObj → α} {tablets : List BtTabObj} (h : (tablets.map f).Nodup) {i j : Nat}
    {tab tab' : BtTabObj} (hi : tablets[i]? = some tab) (hj : tablets[j]? = some tab') (heq : f tab = f tab') :
    i = j := by
  have hlt : i < (tablets.map f).length := by
    rw [List.length_map]
    exact (List.getElem?_eq_some_iff.mp hi).1
  apply (List.getElem?_inj hlt h).mp
  rw [List.getElem?_map, List.getElem?_map, hi, hj, Option.map_some, Option.map_some, heq]

/-- The tablet with a socket is found at its place. -/
theorem Distinct.findIdx? {tablets : List BtTabObj} (h : Distinct tablets accepted) {i : Nat} {tab : BtTabObj}
    (hi : tablets[i]? = some tab) : tablets.findIdx? (·.socket = tab.socket) = some i := by
  obtain ⟨hlt, rfl⟩ := List.getElem?_eq_some_iff.mp hi
  refine List.findIdx?_eq_some_iff_getElem.mpr ⟨hlt, by simp, fun j hj heq => ?_⟩
  have hlt' : j < tablets.length := by omega
  have := place_unique h.sockets (List.getElem?_eq_getElem hlt') hi (by simpa using heq)
  omega

/-! ### Changes -/

theorem Sound.slot_lt (h : Sound running b accepted) {e : Running} (he : e ∈ running) :
    e.trans.slot < b.elements.length := by
  obtain ⟨tab, htab, _⟩ := h.carried e he
  exact (List.getElem?_eq_some_iff.mp (Buffer.deref_iff.mp htab).2).1

theorem Sound.pointer (h : Sound running b accepted) {e : Running} (he : e ∈ running) :
    e.trans = b.pointer e.trans.slot := by
  obtain ⟨tab, htab, _⟩ := h.carried e he
  rw [Buffer.pointer, ← (Buffer.deref_iff.mp htab).1]

/-- An idle tablet has no entry. -/
theorem Sound.no_entry (h : Sound running b accepted) {i : Nat} {tab : BtTabObj}
    (hi : b.elements[i]? = some tab) (hidle : tab.transactionState = false) :
    ∀ e ∈ running, e.trans.slot ≠ i := by
  intro e he heq
  obtain ⟨tab', htab, hcarries⟩ := h.carried e he
  have hslot := (Buffer.deref_iff.mp htab).2
  rw [heq, hi] at hslot
  cases hslot
  rw [hcarries.busy] at hidle
  cases hidle

/-- A change of a tablet without an entry. -/
theorem Sound.modify_idle (h : Sound running b accepted) {i : Nat} {tab tab' : BtTabObj}
    (hi : b.elements[i]? = some tab) (hno : ∀ e ∈ running, e.trans.slot ≠ i) (hsame : Same tab tab')
    (hidle : Idle tab') : Sound running (b.modify i fun _ => tab') accepted := by
  refine ⟨h.distinct.modify hi hsame, fun e he => ?_, h.places, fun j t ht => ?_⟩
  · rw [Buffer.deref_modify_other (Ne.symm (hno e he))]
    exact h.carried e he
  · rw [Buffer.modify_getElem?] at ht
    split at ht
    · rw [Option.map_eq_some_iff] at ht
      obtain ⟨_, _, rfl⟩ := ht
      exact .inl hidle
    · exact h.rest j t ht

/-- A change of a busy tablet that keeps its entry. -/
theorem Sound.modify_carried (h : Sound running b accepted) {e : Running} (he : e ∈ running) {tab tab' : BtTabObj}
    (htab : b.deref e.trans = some tab) (hsame : Same tab tab') (hcarries : Carries e tab') :
    Sound running (b.modify e.trans.slot fun _ => tab') accepted := by
  refine ⟨h.distinct.modify (Buffer.deref_iff.mp htab).2 hsame, fun e' he' => ?_, h.places, fun j t ht => ?_⟩
  · by_cases hslot : e.trans.slot = e'.trans.slot
    · have hsame' : e' = e := List.inj_on_of_nodup_map h.places he' he hslot.symm
      subst hsame'
      exact ⟨tab', Buffer.deref_modify_self htab _, hcarries⟩
    · rw [Buffer.deref_modify_other hslot]
      exact h.carried e' he'
  · rw [Buffer.modify_getElem?] at ht
    split at ht
    · rename_i hslot
      exact .inr ⟨e, he, hslot⟩
    · exact h.rest j t ht

/-- A transaction starts running. -/
theorem Sound.enter (h : Sound running b accepted) {i : Nat} {tab tab' : BtTabObj}
    (hi : b.elements[i]? = some tab) (hno : ∀ e ∈ running, e.trans.slot ≠ i) (hsame : Same tab tab')
    (hcarries : Carries ⟨b.pointer i, tab.connection⟩ tab') :
    Sound (running ++ [⟨b.pointer i, tab.connection⟩]) (b.modify i fun _ => tab') accepted := by
  refine ⟨h.distinct.modify hi hsame, fun e he => ?_, ?_, fun j t ht => ?_⟩
  · rcases List.mem_append.mp he with he | he
    · rw [Buffer.deref_modify_other (Ne.symm (hno e he))]
      exact h.carried e he
    · cases List.mem_singleton.mp he
      have hself : b.deref (b.pointer i) = some tab := by rw [Buffer.deref_pointer, hi]
      exact ⟨tab', Buffer.deref_modify_self hself _, hcarries⟩
  · rw [List.map_append, List.nodup_append]
    refine ⟨h.places, by simp, fun j hj k hk => ?_⟩
    obtain ⟨e, he, rfl⟩ := List.mem_map.mp hj
    cases List.mem_singleton.mp hk
    exact hno e he
  · rw [Buffer.modify_getElem?] at ht
    split at ht
    · rename_i hslot
      exact .inr ⟨⟨b.pointer i, tab.connection⟩, by simp, hslot⟩
    · rcases h.rest j t ht with hidle | ⟨e, he, hslot⟩
      · exact .inl hidle
      · exact .inr ⟨e, List.mem_append_left _ he, hslot⟩

/-- A transaction ends and its entry goes. -/
theorem Sound.leave {before after : List Running} {e : Running} (h : Sound (before ++ e :: after) b accepted)
    {tab tab' : BtTabObj} (htab : b.deref e.trans = some tab) (hsame : Same tab tab') (hidle : Idle tab') :
    Sound (before ++ after) (b.modify e.trans.slot fun _ => tab') accepted := by
  have hsub : (before ++ after).Sublist (before ++ e :: after) :=
    List.Sublist.append_left (List.sublist_cons_self e after) before
  have hplaces : (e.trans.slot :: (before ++ after).map (·.trans.slot)).Nodup := by
    have := h.places
    rw [List.map_append, List.map_cons, List.nodup_middle] at this
    rwa [List.map_append]
  have hno : ∀ e' ∈ before ++ after, e'.trans.slot ≠ e.trans.slot := by
    intro e' he' heq
    exact (List.nodup_cons.mp hplaces).1 (heq ▸ List.mem_map_of_mem he')
  refine ⟨h.distinct.modify (Buffer.deref_iff.mp htab).2 hsame, fun e' he' => ?_,
    (List.nodup_cons.mp hplaces).2, fun j t ht => ?_⟩
  · rw [Buffer.deref_modify_other (Ne.symm (hno e' he'))]
    exact h.carried e' (hsub.subset he')
  · rw [Buffer.modify_getElem?] at ht
    split at ht
    · rw [Option.map_eq_some_iff] at ht
      obtain ⟨_, _, rfl⟩ := ht
      exact .inl hidle
    · rename_i hslot
      rcases h.rest j t ht with hidle' | ⟨e', he', hslot'⟩
      · exact .inl hidle'
      · have hmem : e' ∈ before ++ after := by
          rcases List.mem_append.mp he' with hb | ha
          · exact List.mem_append_left _ hb
          · rcases List.mem_cons.mp ha with rfl | ha
            · exact absurd hslot' hslot
            · exact List.mem_append_right _ ha
        exact .inr ⟨e', hmem, hslot'⟩

/-- A tablet behind all running transactions is removed. -/
theorem Sound.erase (h : Sound running b accepted) {i : Nat} (hplaces : ∀ e ∈ running, e.trans.slot < i) :
    Sound running (b.erase i) accepted := by
  have hsub : (b.erase i).elements.Sublist b.elements := List.eraseIdx_sublist ..
  refine ⟨⟨?_, ?_, fun tab htab => h.distinct.fresh tab (hsub.subset htab)⟩, fun e he => ?_, h.places, fun j t ht => ?_⟩
  · exact h.distinct.sockets.sublist (hsub.map _)
  · exact h.distinct.connections.sublist (hsub.map _)
  · rw [Buffer.deref_erase (hplaces e he)]
    exact h.carried e he
  · have hidx : (b.elements.eraseIdx i)[j]? = some t := ht
    rw [List.getElem?_eraseIdx] at hidx
    split at hidx
    · exact h.rest j t hidx
    · rcases h.rest (j + 1) t hidx with hidle | ⟨e, he, hslot⟩
      · exact .inl hidle
      · have := hplaces e he
        omega

/-- A tablet is added where no pointer is lost. -/
theorem Distinct.push (h : Distinct b.elements accepted) {new : BtTabObj} (growth : Nat)
    (hsocket : ∀ tab ∈ b.elements, tab.socket ≠ new.socket) (hconnection : new.connection = accepted) :
    Distinct (b.push growth new).elements (accepted + 1) := by
  rw [Buffer.push_elements]
  refine ⟨?_, ?_, fun tab htab => ?_⟩
  · rw [List.map_append, List.nodup_append]
    refine ⟨h.sockets, by simp, fun s hs t ht => ?_⟩
    obtain ⟨tab, htab, rfl⟩ := List.mem_map.mp hs
    cases List.mem_singleton.mp ht
    exact hsocket tab htab
  · rw [List.map_append, List.nodup_append]
    refine ⟨h.connections, by simp, fun s hs t ht => ?_⟩
    obtain ⟨tab, htab, rfl⟩ := List.mem_map.mp hs
    cases List.mem_singleton.mp ht
    intro heq
    have hlt := h.fresh tab htab
    have hsame : tab.connection = new.connection := heq
    omega
  · obtain htab | htab := List.mem_append.mp htab
    · exact Nat.lt_succ_of_lt (h.fresh tab htab)
    · cases List.mem_singleton.mp htab
      omega

theorem Sound.push (h : Sound running b accepted) {new : BtTabObj} (growth : Nat)
    (hroom : running = [] ∨ b.elements.length < b.capacity) (hsocket : ∀ tab ∈ b.elements, tab.socket ≠ new.socket)
    (hconnection : new.connection = accepted) (hidle : Idle new) :
    Sound running (b.push growth new) (accepted + 1) := by
  refine ⟨h.distinct.push growth hsocket hconnection, fun e he => ?_, h.places, fun j t ht => ?_⟩
  · rcases hroom with rfl | hroom
    · cases he
    · obtain ⟨tab, htab, hcarries⟩ := h.carried e he
      exact ⟨tab, Buffer.deref_push htab hroom growth new, hcarries⟩
  · rw [Buffer.push_elements, List.getElem?_append] at ht
    split at ht
    · exact h.rest j t ht
    · have hnew : t = new := by
        have := List.mem_of_getElem? ht
        exact List.mem_singleton.mp this
      rw [hnew]
      exact .inl hidle

/-- A change of things that transactions do not look at. -/
def Unseen (tab tab' : BtTabObj) : Prop :=
  Same tab tab' ∧ tab'.transactionState = tab.transactionState ∧ tab'.currTrans = tab.currTrans

/-- Such a change of every tablet. -/
structure Alike (b b' : Buffer BtTabObj) : Prop where
  identity : b'.identity = b.identity
  length : b'.elements.length = b.elements.length
  tablets : ∀ (i : Nat) tab tab', b.elements[i]? = some tab → b'.elements[i]? = some tab' → Unseen tab tab'

theorem mapIdx_alike {f : Nat → BtTabObj → BtTabObj} (h : ∀ i tab, Unseen tab (f i tab)) :
    Alike b {b with elements := b.elements.mapIdx f} where
  identity := rfl
  length := List.length_mapIdx
  tablets := by
    intro i tab tab' hi hi'
    rw [List.getElem?_mapIdx, hi] at hi'
    cases hi'
    exact h i tab

theorem map_alike {f : BtTabObj → BtTabObj} (h : ∀ tab, Unseen tab (f tab)) :
    Alike b {b with elements := b.elements.map f} where
  identity := rfl
  length := List.length_map ..
  tablets := by
    intro i tab tab' hi hi'
    rw [List.getElem?_map, hi] at hi'
    cases hi'
    exact h tab

theorem modify_alike {f : BtTabObj → BtTabObj} (h : ∀ tab, Unseen tab (f tab)) (i : Nat) : Alike b (b.modify i f) where
  identity := rfl
  length := List.length_modify ..
  tablets := by
    intro j tab tab' hj hj'
    rw [Buffer.modify_getElem?, hj] at hj'
    split at hj'
    · cases hj'
      exact h tab
    · cases hj'
      exact ⟨⟨rfl, rfl⟩, rfl, rfl⟩

theorem Sound.of_alike (h : Sound running b accepted) (halike : Alike b b') : Sound running b' accepted := by
  refine ⟨h.distinct.of_same halike.length fun i t t' ht ht' => (halike.tablets i t t' ht ht').1, fun e he => ?_,
    h.places, fun j t' ht' => ?_⟩
  · obtain ⟨tab, htab, hcarries⟩ := h.carried e he
    obtain ⟨hbuffer, hslot⟩ := Buffer.deref_iff.mp htab
    have hlt : e.trans.slot < b'.elements.length := by
      rw [halike.length]
      exact h.slot_lt he
    obtain ⟨hsame, hstate, htrans⟩ := halike.tablets _ _ _ hslot (List.getElem?_eq_getElem hlt)
    refine ⟨_, Buffer.deref_iff.mpr ⟨hbuffer.trans halike.identity.symm, List.getElem?_eq_getElem hlt⟩, ?_⟩
    exact ⟨hsame.2.trans hcarries.connection, hstate.trans hcarries.busy, by rw [htrans]; exact hcarries.parent,
      by rw [htrans]; exact hcarries.data⟩
  · have hlt : j < b.elements.length := by
      rw [← halike.length]
      exact (List.getElem?_eq_some_iff.mp ht').1
    obtain ⟨_, hstate, htrans⟩ := halike.tablets _ _ _ (List.getElem?_eq_getElem hlt) ht'
    rcases h.rest j _ (List.getElem?_eq_getElem hlt) with hidle | hbusy
    · exact .inl ⟨hstate.trans hidle.1, by rw [htrans]; exact hidle.2⟩
    · exact .inr hbusy

end ScoutingComputer.Bluetooth
