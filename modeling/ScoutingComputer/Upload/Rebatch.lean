import ScoutingComputer.Upload.Rewrite

/-! What a blank upload whose statements all succeed makes of the values.

Every value of a row with id 0 is printed and stored again. A column with quotes gets
the printed text back, so a `NULL` becomes the text `NULL` and a text ends at its first
`NUL`; a bare column gets what the server reads the text as. `rebatch_keeps_data_iff`
says that these are the only changes. -/
namespace ScoutingComputer.Upload

/-- The columns whose placeholders stand in quotes. -/
def quoted {α : Type} (d : Datapoint α) : List α := [d.compID, d.matchID, d.datapointValue]

/-- The rows that a blank upload reads. -/
def unsent (t : Table) : List Row := t.rows.filter (·.uploadID = some ['0'])

section
variable (server : Server)

/-- Every statement of a blank upload is executed, and its values are accepted. -/
structure Succeeds (o : Outcomes) (t : Table) : Prop where
  select : o.select = true
  reply : o.backendNum ≠ []
  insert : EveryPass (fun k d => effective server o k d = true) 0 ((unsent t).map printedData)
  delete : EveryPass (fun k _ => o.delete k = true) 0 ((unsent t).map printedData)

/-- The rows of other batches are untouched, and the rows with id 0 have the id that the
reply stands for. All values of all rows are those there were. -/
structure Rebatched (reply : Text) (before after : Table) : Prop where
  data : (after.rows.map Row.data).Perm (before.rows.map Row.data)
  batches : ∃ moved, after.rows.Perm (settled before ++ moved) ∧
    (∀ r ∈ moved, server.number (cString reply) = some r.uploadID) ∧
    (moved.map Row.data).Perm ((unsent before).map Row.data)

/-- The value that a bare column prints is read as that value, and a quoted column holds
a text without a `NUL`. -/
structure Stays (d : Datapoint Cell) : Prop where
  quoted : ∀ cell ∈ quoted d, ∃ text, cell = some text ∧ '\x00' ∉ text
  bare : ∀ cell ∈ d.bare, server.number (printed cell) = some cell

/-- The values after they were printed and stored again. -/
def restored (d : Datapoint Cell) : Option (Datapoint Cell) := server.store (d.map printed)

end

variable {server : Server} {o : Outcomes}

/-! ### Values stored again -/

theorem restored_eq_some {d d' : Datapoint Cell} :
    restored server d = some d' ↔
      quoted d' = (quoted d).map (fun cell => some (printed cell)) ∧
        d.bare.map (fun cell => server.number (printed cell)) = d'.bare.map some := by
  obtain ⟨compID, matchID, datapointID, scouterID, teamID, allianceID, value, timestamp⟩ := d
  obtain ⟨compID', matchID', datapointID', scouterID', teamID', allianceID', value', timestamp'⟩ := d'
  simp only [restored, Server.store, Datapoint.map, quoted, Datapoint.bare, List.map_cons, List.map_nil,
    List.cons.injEq, and_true]
  cases server.number (printed datapointID) <;> cases server.number (printed scouterID) <;>
    cases server.number (printed teamID) <;> cases server.number (printed allianceID) <;>
    cases server.number (printed timestamp) <;> simp
  grind

theorem fixed_iff (cell : Cell) : some (printed cell) = cell ↔ ∃ text, cell = some text ∧ '\x00' ∉ text := by
  cases cell with
  | none => simp
  | some text =>
    show some (cString text) = some text ↔ _
    simp only [Option.some.injEq, cString_eq_self_iff, exists_eq_left']

/-- The values that come back as they were. -/
theorem restored_eq_self_iff (d : Datapoint Cell) : restored server d = some d ↔ Stays server d := by
  have hquoted : quoted d = (quoted d).map (fun cell => some (printed cell)) ↔
      ∀ cell ∈ quoted d, ∃ text, cell = some text ∧ '\x00' ∉ text := by
    conv_lhs =>
      lhs
      rw [← List.map_id (quoted d)]
    rw [List.map_inj_left]
    apply forall₂_congr
    intro cell _
    rw [← fixed_iff, id_eq, eq_comm]
  rw [restored_eq_some, hquoted, List.map_inj_left]
  exact ⟨fun h => ⟨h.1, h.2⟩, fun h => ⟨h.quoted, h.bare⟩⟩

/-- After the second time they stay. -/
theorem restored_stable {d d' d'' : Datapoint Cell} (h : restored server d = some d')
    (h' : restored server d' = some d'') :
    Stays server d'' := by
  obtain ⟨hquoted, hbare⟩ := restored_eq_some.mp h
  obtain ⟨hquoted', hbare'⟩ := restored_eq_some.mp h'
  constructor
  · intro cell hcell
    rw [← fixed_iff]
    rw [hquoted', List.mem_map] at hcell
    obtain ⟨before, _, rfl⟩ := hcell
    show some (cString (printed before)) = some (printed before)
    rw [cString_printed]
  · intro cell hcell
    obtain ⟨i, hi⟩ := List.mem_iff_getElem?.mp hcell
    have hsecond := congrArg (·[i]?) hbare'
    simp only [List.getElem?_map, hi, Option.map_some, Option.map_eq_some_iff] at hsecond
    obtain ⟨middle, hmiddle, hread⟩ := hsecond
    have hfirst := congrArg (·[i]?) hbare
    simp only [List.getElem?_map, hmiddle, Option.map_some, Option.map_eq_some_iff] at hfirst
    obtain ⟨first, _, hread'⟩ := hfirst
    have hsame : printed cell = printed middle := server.number_printed _ _ _ hread' hread
    rw [hsame, hread]

/-- Rows that are a rearrangement of their stored values keep them. -/
theorem stays_of_perm {ds copies : List (Datapoint Cell)}
    (hstored : List.Forall₂ (fun d d' => restored server d = some d') ds copies) (hperm : copies.Perm ds) :
    ∀ d ∈ ds, Stays server d := by
  have himage : ∀ d ∈ ds, ∃ d' ∈ ds, restored server d' = some d := by
    intro d hd
    obtain ⟨i, hi, rfl⟩ := List.mem_iff_getElem.mp (hperm.mem_iff.mpr hd)
    have hi' : i < ds.length := by
      rw [hstored.length_eq]
      exact hi
    exact ⟨ds[i], List.getElem_mem hi', hstored.get hi' hi⟩
  intro d hd
  obtain ⟨d', hd', h⟩ := himage d hd
  obtain ⟨d'', _, h'⟩ := himage d' hd'
  exact restored_stable h' h

/-! ### The loop -/

/-- A row that a pass inserts. -/
def CopyOf (server : Server) (reply : Text) (d : Datapoint Text) (r : Row) : Prop :=
  server.values reply d = some (r.uploadID, r.data)

/-- The loop with all its statements: the settled rows stay, and each pass adds a copy,
which its `DELETE` takes away again when its id is 0. -/
theorem rewrite_succeeds (k : Nat) (ds : List (Datapoint Text)) (t : Table)
    (hinsert : EveryPass (fun k d => effective server o k d = true) k ds)
    (hdelete : EveryPass (fun k _ => o.delete k = true) k ds) :
    ∃ copies, List.Forall₂ (CopyOf server o.backendNum) ds copies ∧
      (rewrite server o k ds t).rows =
        if ds = [] then t.rows else settled t ++ copies.filter (·.uploadID ≠ some ['0']) := by
  induction ds generalizing k t with
  | nil => exact ⟨[], .nil, rfl⟩
  | cons d ds ih =>
    obtain ⟨hd, hds⟩ := (everyPass_cons _ k d ds).mp hinsert
    obtain ⟨hk, hks⟩ := (everyPass_cons _ k d ds).mp hdelete
    obtain ⟨id, data, hv, hrow⟩ := insert_takesEffect hd t
    obtain ⟨copies, hcopies, hrows⟩ :=
      ih (k + 1) ((server.insert (o.insert k) o.backendNum d t).deleteZero (o.delete k)) hds hks
    refine ⟨⟨t.nextKey, id, data⟩ :: copies, .cons hv hcopies, ?_⟩
    rw [if_neg (List.cons_ne_nil d ds)]
    show (rewrite server o (k + 1) ds _).rows = _
    rw [hrows, settled_deleteZero, deleteZero_rows, hk, if_pos rfl, hrow, settled_insert]
    by_cases hnil : ds = []
    · subst hnil
      cases hcopies
      by_cases hid : id = some ['0'] <;> simp [hid]
    · rw [if_neg hnil]
      by_cases hid : id = some ['0'] <;> simp [hid]

/-! ### The table after the upload -/

theorem rows_split (t : Table) : t.rows.Perm (settled t ++ unsent t) := by
  have h := List.filter_append_perm (fun r : Row => decide (r.uploadID ≠ some ['0'])) t.rows
  simpa [settled, unsent] using h.symm

theorem upload_succeeds {text : Text} {before : Table} (hblank : text = [] ∨ text = ['0'])
    (h : Succeeds server o before) :
    ∃ copies, List.Forall₂ (CopyOf server o.backendNum) ((unsent before).map printedData) copies ∧
      (uploadBatch server o text before).1.rows =
        if unsent before = [] then before.rows else settled before ++ copies.filter (·.uploadID ≠ some ['0']) := by
  have hread : server.selectBatch o.select ['0'] before = unsent before := by
    rw [selectBatch_zero, if_pos h.select]
    rfl
  obtain ⟨copies, hcopies, hrows⟩ := rewrite_succeeds 0 ((unsent before).map printedData) before h.insert h.delete
  refine ⟨copies, hcopies, ?_⟩
  rw [uploadBatch_table server o text before hblank h.reply, hread, hrows]
  simp only [List.map_eq_nil_iff]

theorem copies_id {ds : List (Datapoint Text)} {copies : List Row} {reply : Text}
    (h : List.Forall₂ (CopyOf server reply) ds copies) :
    ∀ r ∈ copies, server.number (cString reply) = some r.uploadID := by
  intro r hr
  obtain ⟨i, hi, rfl⟩ := List.mem_iff_getElem.mp hr
  have hcopy := h.get (by rw [h.length_eq]; exact hi) hi
  exact (values_eq hcopy).1

theorem copies_data {rows copies : List Row} {reply : Text}
    (h : List.Forall₂ (CopyOf server reply) (rows.map printedData) copies) :
    List.Forall₂ (fun d d' => restored server d = some d') (rows.map Row.data) (copies.map Row.data) := by
  rw [List.forall₂_map_left_iff] at h
  rw [List.forall₂_map_left_iff, List.forall₂_map_right_iff]
  apply h.imp
  intro r copy hcopy
  have hstore := (values_eq hcopy).2
  unfold printedData at hstore
  rwa [map_cString_printed] at hstore

/-- The copies of rows that stay hold their data. -/
theorem data_of_stays {rows copies : List Row}
    (hdata : List.Forall₂ (fun d d' => restored server d = some d') (rows.map Row.data) (copies.map Row.data))
    (hstays : ∀ r ∈ rows, Stays server r.data) : copies.map Row.data = rows.map Row.data := by
  apply List.ext_getElem hdata.length_eq.symm
  intro i hi hi'
  have hstored := hdata.get hi' hi
  obtain ⟨r, hr, heq⟩ := List.mem_map.mp (List.getElem_mem hi')
  have hrestored := (restored_eq_self_iff _).mpr (hstays r hr)
  rw [List.get_eq_getElem, List.get_eq_getElem, ← heq, hrestored] at hstored
  rw [← heq]
  exact (Option.some.inj hstored).symm

/-- No copy is taken away when as many are left as there were rows. -/
theorem filter_of_perm {rows copies moved : List Row} {p : Row → Bool}
    (hdata : List.Forall₂ (fun d d' => restored server d = some d') (rows.map Row.data) (copies.map Row.data))
    (hmoved : (copies.filter p).Perm moved) (hperm : (moved.map Row.data).Perm (rows.map Row.data)) :
    copies.filter p = copies := by
  have hcount := hperm.length_eq
  have hsame := hdata.length_eq
  simp only [List.length_map] at hcount hsame
  apply List.filter_sublist.eq_of_length
  rw [hmoved.length_eq, hcount, hsame]

theorem filter_of_nonzero {copies : List Row} {reply : Text}
    (hids : ∀ r ∈ copies, server.number (cString reply) = some r.uploadID)
    (hnonzero : server.number (cString reply) ≠ some (some ['0'])) :
    copies.filter (·.uploadID ≠ some ['0']) = copies := by
  rw [List.filter_eq_self]
  intro r hr
  rw [hids r hr] at hnonzero
  simpa using hnonzero

theorem nonzero_of_filter {copies : List Row} {reply : Text}
    (hids : ∀ r ∈ copies, server.number (cString reply) = some r.uploadID) (hne : copies ≠ [])
    (hall : copies.filter (·.uploadID ≠ some ['0']) = copies) :
    server.number (cString reply) ≠ some (some ['0']) := by
  intro hzero
  obtain ⟨copy, hmem⟩ := List.exists_mem_of_ne_nil _ hne
  have hid := hids copy hmem
  rw [hzero] at hid
  rw [← hall, List.mem_filter] at hmem
  simp [← Option.some.inj hid] at hmem

/-- **Re-batching keeps the data exactly when** every row with id 0 holds values that
come back as they were, and the id assigned to it is not 0. -/
theorem rebatch_keeps_data_iff (server : Server) (o : Outcomes) (text : Text) (before : Table)
    (hblank : text = [] ∨ text = ['0']) (hsucceeds : Succeeds server o before) :
    Rebatched server o.backendNum before (uploadBatch server o text before).1 ↔
      ∀ r ∈ unsent before, Stays server r.data ∧ server.number (cString o.backendNum) ≠ some (some ['0']) := by
  obtain ⟨copies, hcopies, hrows⟩ := upload_succeeds hblank hsucceeds
  have hids := copies_id hcopies
  have hdata := copies_data hcopies
  by_cases hnone : unsent before = []
  · rw [if_pos hnone] at hrows
    refine iff_of_true ⟨by rw [hrows], [], ?_, by simp, by rw [hnone]⟩ (by simp [hnone])
    have hsplit := rows_split before
    rw [hnone] at hsplit
    rw [hrows]
    exact hsplit
  · rw [if_neg hnone] at hrows
    obtain ⟨r₀, hr₀⟩ := List.exists_mem_of_ne_nil _ hnone
    constructor
    · intro h
      obtain ⟨moved, hmoved, _, hperm⟩ := h.batches
      rw [hrows, List.perm_append_left_iff] at hmoved
      have hall := filter_of_perm hdata hmoved hperm
      rw [hall] at hmoved
      have hstays := stays_of_perm hdata ((hmoved.map Row.data).trans hperm)
      have hcopy : copies ≠ [] := by
        rintro rfl
        have hlength := hdata.length_eq
        simp only [List.map_nil, List.length_map, List.length_nil, List.length_eq_zero_iff] at hlength
        exact hnone hlength
      intro r hr
      exact ⟨hstays r.data (List.mem_map_of_mem hr), nonzero_of_filter hids hcopy hall⟩
    · intro h
      have hall := filter_of_nonzero hids (h r₀ hr₀).2
      have hsame := data_of_stays hdata fun r hr => (h r hr).1
      rw [hall] at hrows
      refine ⟨?_, copies, by rw [hrows], hids, by rw [hsame]⟩
      rw [hrows, List.map_append, hsame, ← List.map_append]
      exact (rows_split before).symm.map Row.data

/-! ### One row -/

def oneRow (compID : Cell) : Table :=
  ⟨[⟨1, some ['0'], ⟨compID, some ['5'], some ['1'], some ['3'], some ['9'], some ['0'], some ['x'], some ['7']⟩⟩], 2⟩

/-- Every statement is executed, and the assigned id is 7. -/
def allExecuted : Outcomes := ⟨true, ['7'], fun _ => true, fun _ => true, true, true⟩

theorem succeeds_oneRow (compID : Cell) : Succeeds plainServer allExecuted (oneRow compID) where
  select := rfl
  reply := by decide
  insert := (everyPass_cons _ 0 _ []).mpr ⟨rfl, everyPass_nil _ 1⟩
  delete := (everyPass_cons _ 0 _ []).mpr ⟨rfl, everyPass_nil _ 1⟩

theorem rebatch_keeps_data_iff_text :
    Rebatched plainServer ['7'] (oneRow (some ['c']))
      (uploadBatch plainServer allExecuted [] (oneRow (some ['c']))).1 := by
  refine (rebatch_keeps_data_iff plainServer allExecuted [] (oneRow (some ['c'])) (.inl rfl)
    (succeeds_oneRow (some ['c']))).mpr ?_
  intro r hr
  have hrow : r ∈ (oneRow (some ['c'])).rows := List.mem_of_mem_filter hr
  cases List.mem_singleton.mp hrow
  exact ⟨⟨by simp [quoted], by decide⟩, by decide⟩

/-- A row without an event comes back with the text `NULL` as its event. -/
theorem null_becomes_text :
    Succeeds plainServer allExecuted (oneRow none) ∧
      (uploadBatch plainServer allExecuted [] (oneRow none)).1.rows.map (·.data.compID) = [some "NULL".toList] ∧
      ¬ Rebatched plainServer ['7'] (oneRow none) (uploadBatch plainServer allExecuted [] (oneRow none)).1 := by
  refine ⟨succeeds_oneRow none, by decide, ?_⟩
  intro h
  exact absurd h.data (by decide)

end ScoutingComputer.Upload
