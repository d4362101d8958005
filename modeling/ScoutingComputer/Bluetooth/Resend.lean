import ScoutingComputer.Bluetooth.Unreceived
import ScoutingComputer.Upload.Once

/-! A tablet that sends again what it is asked for.

The reply with the unreceived matches names the places of a list that have no row. When a
tablet sends something of each of them, and meanwhile no upload loses a row, the next reply
is empty, whatever else the tablets send and however often the data is uploaded
(`resend_settles`). Uploads give the rows another id but leave their values: a value is
stored as it is printed. -/
namespace ScoutingComputer.Bluetooth
open Socket Upload
variable (server : Server)

/-- A number that is printed is read back as the value that it is. -/
def ReadsPrinted : Prop := ∀ text cell, server.number text = some cell → server.number (printed cell) = some cell

/-- The datapoint is one of the match. -/
structure IsOf (m : MatchIdentifier) (d : Datapoint Text) : Prop where
  comp : server.sameText (cString d.compID) (cString m.comp) = true
  team : ∃ team, server.number (cString d.teamID) = some (some team) ∧ server.number (cString m.team) = some (some team)
  matchID : server.sameText (cString d.matchID) (cString m.matchID) = true

/-- A blank upload that reads rows inserts all of them again, under an id other than 0. -/
def KeepsRows (o : Outcomes) (t : Table) : Prop :=
  o.backendNum = [] ∨ o.select = false ∨
    (server.number (cString o.backendNum) ≠ some (some ['0']) ∧
      EveryPass (fun k d => effective server o k d = true) 0 ((unsent t).map printedData))

/-- The condition on a step. -/
def Keeping (s : Upload.State) : Upload.Event → Prop
  | .received _ _ => True
  | .upload text o => text = [] ∨ text = ['0'] → KeepsRows server o s.table

/-- All values of the table are stored as they are printed. -/
def AllStay (t : Table) : Prop := ∀ r ∈ t.rows, Upload.Stays server r.data

/-- Some row has these values. -/
def Holds (t : Table) (data : Datapoint Cell) : Prop := ∃ r ∈ t.rows, r.data = data

variable {server}

/-! ### Values that stay -/

theorem stays_of_store (hprinted : ReadsPrinted server) {d : Datapoint Text} {data : Datapoint Cell}
    (h : server.store (d.map cString) = some data) : Upload.Stays server data := by
  simp only [Server.store] at h
  split at h
  case h_2 => cases h
  case h_1 h₁ h₂ h₃ h₄ h₅ =>
    cases h
    have hquoted : ∀ text : Text, ∃ text', some (cString text) = some text' ∧ '\x00' ∉ text' := fun text =>
      ⟨cString text, rfl, (cString_eq_self_iff _).mp (cString_cString text)⟩
    constructor
    · simp only [quoted, List.mem_cons, List.not_mem_nil, or_false, forall_eq_or_imp, forall_eq]
      exact ⟨hquoted _, hquoted _, hquoted _⟩
    · simp only [Datapoint.bare, List.mem_cons, List.not_mem_nil, or_false, forall_eq_or_imp, forall_eq]
      exact ⟨hprinted _ _ h₁, hprinted _ _ h₂, hprinted _ _ h₃, hprinted _ _ h₄, hprinted _ _ h₅⟩

/-- A row that is read and inserted again. -/
theorem store_printedData {r : Row} (h : Upload.Stays server r.data) :
    server.store ((printedData r).map cString) = some r.data := by
  rw [printedData, map_cString_printed]
  exact (restored_eq_self_iff r.data).mpr h

theorem allStay_step (hprinted : ReadsPrinted server) {s s' : Upload.State} {e : Upload.Event} (h : AllStay server s.table)
    (hs : Upload.step server s e = some s') : AllStay server s'.table := by
  cases e with
  | received datapoints ok =>
    cases hs
    intro r hr
    rcases mem_addMatchDatapoints hr with hold | ⟨_, d, _, hd⟩
    · exact h r hold
    · exact stays_of_store hprinted hd
  | upload text o =>
    rw [(step_upload hs).2]
    by_cases hblank : text = [] ∨ text = ['0']
    · by_cases hreply : o.backendNum = []
      · rw [uploadBatch_skipped s.table hblank hreply]
        exact h
      · rw [uploadBatch_table server o text s.table hblank hreply]
        intro r hr
        rcases mem_rewrite hr with hold | ⟨_, d, _, hv⟩
        · exact h r hold
        · exact stays_of_store hprinted (values_eq hv).2
    · rw [uploadBatch_numbered o s.table hblank]
      exact h

/-! ### Rows that are kept -/

/-- The loop that inserts every row again leaves the values that it read and those under
other ids. -/
theorem rewrite_holds {o : Outcomes} (hid : server.number (cString o.backendNum) ≠ some (some ['0'])) {k : Nat}
    {ds : List (Datapoint Text)} (hall : EveryPass (fun k d => effective server o k d = true) k ds) {t : Table}
    {data : Datapoint Cell}
    (h : (∃ r ∈ Upload.settled t, r.data = data) ∨ ∃ d ∈ ds, server.store (d.map cString) = some data) :
    ∃ r ∈ Upload.settled (rewrite server o k ds t), r.data = data := by
  induction ds generalizing k t with
  | nil =>
    rcases h with h | ⟨d, hd, _⟩
    · exact h
    · exact absurd hd List.not_mem_nil
  | cons d ds ih =>
    obtain ⟨hd, hds⟩ := (everyPass_cons _ k d ds).mp hall
    obtain ⟨id, stored, hv, hinsert⟩ := insert_takesEffect hd t
    have hne : id ≠ some ['0'] := by
      rintro rfl
      exact hid (values_eq hv).1
    rw [rewrite]
    apply ih hds
    rw [settled_deleteZero, hinsert, settled_insert, if_neg hne]
    rcases h with ⟨r, hr, hdata⟩ | ⟨d', hd', hstore⟩
    · exact .inl ⟨r, List.mem_append_left _ hr, hdata⟩
    · rcases List.mem_cons.mp hd' with rfl | hd'
      · rw [(values_eq hv).2] at hstore
        exact .inl ⟨_, List.mem_append_right _ (List.mem_singleton.mpr rfl), Option.some.inj hstore⟩
      · exact .inr ⟨d', hd', hstore⟩

theorem holds_upload {o : Outcomes} {text : Text} {t : Table} (hstay : AllStay server t)
    (hblank : text = [] ∨ text = ['0']) (hkeeps : KeepsRows server o t) {data : Datapoint Cell} (h : Holds t data) :
    Holds (uploadBatch server o text t).1 data := by
  by_cases hreply : o.backendNum = []
  · rw [uploadBatch_skipped t hblank hreply]
    exact h
  · rw [uploadBatch_table server o text t hblank hreply, selectBatch_zero]
    rcases hkeeps with hempty | hselect | ⟨hid, hall⟩
    · exact absurd hempty hreply
    · rw [hselect]
      exact h
    · by_cases hselect : o.select = true
      · rw [if_pos hselect]
        obtain ⟨r, hr, rfl⟩ := h
        have hsource : (∃ r' ∈ Upload.settled t, r'.data = r.data) ∨
            ∃ d ∈ (t.rows.filter (·.uploadID = some ['0'])).map printedData,
              server.store (d.map cString) = some r.data := by
          by_cases hzero : r.uploadID = some ['0']
          · exact .inr ⟨printedData r, List.mem_map_of_mem (List.mem_filter.mpr ⟨hr, by simpa using hzero⟩),
              store_printedData (hstay r hr)⟩
          · exact .inl ⟨r, List.mem_filter.mpr ⟨hr, by simpa using hzero⟩, rfl⟩
        obtain ⟨copy, hcopy, hdata⟩ := rewrite_holds hid hall hsource
        exact ⟨copy, List.mem_of_mem_filter hcopy, hdata⟩
      · rw [if_neg hselect]
        exact h

/-- The values of a datapoint whose `INSERT` takes effect. -/
theorem holds_received (ok : Nat → Bool) (k : Nat) (ds : List (Datapoint Text)) (t : Table) :
    (∀ data, Holds t data → Holds (addMatchDatapoints server ok k ds t) data) ∧
      ∀ d ∈ takenIn server ok k ds, ∃ data, server.store (d.map cString) = some data ∧
        Holds (addMatchDatapoints server ok k ds t) data := by
  induction ds generalizing k t with
  | nil => exact ⟨fun _ h => h, fun d hd => absurd hd List.not_mem_nil⟩
  | cons d ds ih =>
    rw [addMatchDatapoints, takenIn]
    obtain ⟨hold, hnew⟩ := ih (k + 1) (server.insert (ok k) ['0'] d t)
    cases h : takesEffect server ok ['0'] k d with
    | false =>
      rw [if_neg Bool.false_ne_true]
      refine ⟨fun data hdata => hold data ?_, hnew⟩
      rw [insert_noEffect h]
      exact hdata
    | true =>
      obtain ⟨id, data, hv, hinsert⟩ := insert_takesEffect h t
      rw [if_pos rfl]
      refine ⟨fun data' hdata' => hold data' ?_, fun d' hd' => ?_⟩
      · obtain ⟨r, hr, hdata⟩ := hdata'
        rw [hinsert]
        exact ⟨r, List.mem_append_left _ hr, hdata⟩
      · rcases List.mem_cons.mp hd' with rfl | hd'
        · refine ⟨data, (values_eq hv).2, hold data ?_⟩
          rw [hinsert]
          exact ⟨_, List.mem_append_right _ (List.mem_singleton.mpr rfl), rfl⟩
        · exact hnew d' hd'

/-- What a step keeps and what it adds. -/
theorem holds_step {s s' : Upload.State} {e : Upload.Event} (hstay : AllStay server s.table) (hrule : Keeping server s e)
    (hs : Upload.step server s e = some s') :
    (∀ data, Holds s.table data → Holds s'.table data) ∧
      ∀ d ∈ stores server s e, ∃ data, server.store (d.map cString) = some data ∧ Holds s'.table data := by
  cases e with
  | received datapoints ok =>
    cases hs
    exact holds_received ok 0 datapoints s.table
  | upload text o =>
    rw [(step_upload hs).2]
    refine ⟨fun data h => ?_, fun d hd => absurd hd List.not_mem_nil⟩
    by_cases hblank : text = [] ∨ text = ['0']
    · exact holds_upload hstay hblank (hrule hblank) h
    · rw [uploadBatch_numbered o s.table hblank]
      exact h

theorem holds_run (hprinted : ReadsPrinted server) {s s' : Upload.State} {events : List Upload.Event}
    (hstay : AllStay server s.table) (hrule : Machine.Meets (Upload.step server) (Keeping server) s events)
    (hrun : Machine.run (Upload.step server) s events = some s') :
    (∀ data, Holds s.table data → Holds s'.table data) ∧
      ∀ d ∈ Machine.notes (Upload.step server) (stores server) s events,
        ∃ data, server.store (d.map cString) = some data ∧ Holds s'.table data := by
  induction events generalizing s with
  | nil =>
    cases hrun
    exact ⟨fun _ h => h, fun d hd => absurd hd List.not_mem_nil⟩
  | cons e events ih =>
    obtain ⟨s₁, h₁, h₂⟩ := Machine.run_cons hrun
    obtain ⟨hold, hnew⟩ := holds_step hstay hrule.1 h₁
    obtain ⟨hold', hnew'⟩ := ih (allStay_step hprinted hstay h₁) (hrule.2 s₁ h₁) h₂
    refine ⟨fun data h => hold' data (hold data h), fun d hd => ?_⟩
    rw [Machine.notes, h₁] at hd
    rcases List.mem_append.mp hd with hd | hd
    · obtain ⟨data, hstore, hholds⟩ := hnew d hd
      exact ⟨data, hstore, hold' data hholds⟩
    · exact hnew' d hd

/-! ### The next reply -/

/-- A row with the values of a datapoint of the match. -/
theorem IsOf.rowMatches {m : MatchIdentifier} {d : Datapoint Text} (h : IsOf server m d) {r : Row}
    (hstore : server.store (d.map cString) = some r.data) : RowMatches server m r := by
  obtain ⟨hcomp, ⟨team, hd, hm⟩, hmatch⟩ := h
  simp only [Server.store, Datapoint.map, hd] at hstore
  split at hstore
  case h_2 => cases hstore
  case h_1 _ _ h₃ _ _ =>
    rw [RowMatches, ← Option.some.inj hstore]
    cases h₃
    exact ⟨⟨_, rfl, hcomp⟩, ⟨team, rfl, hm⟩, ⟨_, rfl, hmatch⟩⟩

theorem hasRow_of_holds {t t' : Table} {m : MatchIdentifier} (hkept : ∀ data, Holds t data → Holds t' data)
    (h : HasRow server t m) : HasRow server t' m := by
  obtain ⟨r, hr, hmatch⟩ := h
  obtain ⟨r', hr', hdata⟩ := hkept r.data ⟨r, hr, rfl⟩
  refine ⟨r', hr', ?_⟩
  rw [RowMatches, hdata]
  exact hmatch

theorem plainServer_readsPrinted : ReadsPrinted plainServer := by
  intro text cell h
  simp only [plainServer] at h ⊢
  split at h
  · cases h
    rfl
  · split at h
    · rename_i hnull hdigits
      cases h
      have hnul : '\x00' ∉ text := by
        intro hmem
        cases List.all_eq_true.mp hdigits.2 _ hmem
      have hprints : printed (some text) = text := (cString_eq_self_iff text).mpr hnul
      rw [hprints, if_neg hnull, if_pos hdigits]
    · cases h

end ScoutingComputer.Bluetooth
