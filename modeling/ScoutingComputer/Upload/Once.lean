import ScoutingComputer.Upload.Pending
import ScoutingComputer.Upload.Rebatch

/-! What the blank uploads of a run post, against what was stored.

A blank upload posts the rows with id 0 in the order of the table and gives them an id,
whether or not the post is accepted. As long as it takes the mark from the rows that it
posts, each stored datapoint is posted by one blank upload or is still to be posted, in
the order of arrival and with the values that the server made of it (`posted_once`). -/
namespace ScoutingComputer.Upload
variable (server : Server)

/-- The members of an object that are those of a datapoint. -/
def datapointMembers (object : JsonObject) : JsonObject := object.filter (·.1 ∈ datapointColumns.toList)

/-- What an upload says of a datapoint that the server has stored. -/
def reported (d : Datapoint Text) : Option JsonObject :=
  (server.store (d.map cString)).map fun data => datapointColumns.toList.zip (data.map printed).toList

/-- The datapoints whose `INSERT` takes effect, from datapoint `k` on. -/
def takenIn (ok : Nat → Bool) : Nat → List (Datapoint Text) → List (Datapoint Text)
  | _, [] => []
  | k, d :: ds => if takesEffect server ok ['0'] k d then d :: takenIn ok (k + 1) ds else takenIn ok (k + 1) ds

/-- The datapoints that an event stores. -/
def stores (_ : State) : Event → List (Datapoint Text)
  | .received datapoints ok => takenIn server ok 0 datapoints
  | .upload _ _ => []

/-- The datapoints in the payload of a blank upload. -/
def posts (s : State) : Event → List JsonObject
  | .received _ _ => []
  | .upload text o =>
    if text = [] ∨ text = ['0'] then
      match (uploadBatch server o text s.table).2 with
      | .posted objects _ => objects.map datapointMembers
      | _ => []
    else []

/-- The rows still to be posted, as their upload will report them. -/
def awaiting (t : Table) : List JsonObject := (unsent t).map dataMembers

/-- A blank upload that reads rows posts them, under an id other than 0, and executes a
`DELETE`. -/
def Empties (o : Outcomes) (t : Table) : Prop :=
  o.backendNum = [] ∨ o.select = false ∨ unsent t = [] ∨
    (o.headers = true ∧ server.number (cString o.backendNum) ≠ some (some ['0']) ∧
      ∃ j < (unsent t).length, o.delete j = true)

/-- The condition on a step. -/
def EmptiesAll (s : State) : Event → Prop
  | .received _ _ => True
  | .upload text o => text = [] ∨ text = ['0'] → Empties server o s.table

/-- A datapoint that comes back as it was sent: texts without a `NUL`, and numbers in the
form that the server prints. -/
structure Plain (d : Datapoint Text) : Prop where
  quoted : ∀ text ∈ quoted d, '\x00' ∉ text
  bare : ∀ text ∈ d.bare, '\x00' ∉ text ∧ server.number text = some (some text)

variable {server}

/-! ### One object -/

theorem datapointMembers_objectOf (batch : Text) (r : Row) :
    datapointMembers (objectOf server batch r) = dataMembers r := by
  have hkey : server.keyColumn ∉ datapointColumns.toList := fun h => server.keyColumn_new (List.mem_cons_of_mem _ h)
  have huploadID : uploadIDColumn ∉ datapointColumns.toList := by decide
  have hmembers : List.zipWith (member batch) datapointColumns.toList (r.data.toList.map printed) = dataMembers r :=
    zipWith_member batch _ huploadID
  have hall : ∀ m ∈ dataMembers r, m.1 ∈ datapointColumns.toList := fun m hm => (List.of_mem_zip hm).1
  rw [objectOf, Server.columns, Row.texts, List.zipWith_cons_cons, List.zipWith_cons_cons, hmembers, datapointMembers,
    List.filter_cons_of_neg (by simpa [member] using hkey), List.filter_cons_of_neg (by simp [member, huploadID]),
    List.filter_eq_self]
  simpa using hall

theorem Plain.reported {d : Datapoint Text} (h : Plain server d) :
    reported server d = some (datapointColumns.toList.zip d.toList) := by
  obtain ⟨hquoted, hbare⟩ := h
  simp only [Upload.quoted, Datapoint.bare, List.mem_cons, List.not_mem_nil, or_false, forall_eq_or_imp, forall_eq] at hquoted hbare
  obtain ⟨hcomp, hmatch, hvalue⟩ := hquoted
  obtain ⟨⟨hd, hnd⟩, ⟨hs, hns⟩, ⟨ht, hnt⟩, ⟨ha, hna⟩, hts, hnts⟩ := hbare
  rw [← cString_eq_self_iff] at hcomp hmatch hvalue hd hs ht ha hts
  simp only [Upload.reported, Server.store, Datapoint.map, Datapoint.toList, hcomp, hmatch, hvalue, hd, hs, ht, ha, hts,
    hnd, hns, hnt, hna, hnts, printed, Option.map_some, Option.getD_some]

theorem takenIn_all {ok : Nat → Bool} {k : Nat} {ds : List (Datapoint Text)}
    (h : EveryPass (fun k d => takesEffect server ok ['0'] k d = true) k ds) : takenIn server ok k ds = ds := by
  induction ds generalizing k with
  | nil => rfl
  | cons d ds ih =>
    obtain ⟨hd, hds⟩ := (everyPass_cons _ k d ds).mp h
    rw [takenIn, if_pos hd, ih hds]

/-! ### The rows to be posted -/

/-- A row that is added under id 0. -/
theorem unsent_append (t : Table) (row : Row) (key : Nat) :
    unsent ⟨t.rows ++ [row], key⟩ = unsent t ++ if row.uploadID = some ['0'] then [row] else [] := by
  simp only [unsent, List.filter_append, List.append_cancel_left_eq]
  by_cases h : row.uploadID = some ['0'] <;> simp [h]

variable (server) in
theorem awaiting_received (ok : Nat → Bool) (k : Nat) (ds : List (Datapoint Text)) (t : Table) :
    (awaiting (addMatchDatapoints server ok k ds t)).map some =
      (awaiting t).map some ++ (takenIn server ok k ds).map (reported server) := by
  induction ds generalizing k t with
  | nil => exact (List.append_nil _).symm
  | cons d ds ih =>
    rw [addMatchDatapoints, ih, takenIn]
    cases h : takesEffect server ok ['0'] k d with
    | false => rw [insert_noEffect h, if_neg Bool.false_ne_true]
    | true =>
      obtain ⟨id, data, hv, hinsert⟩ := insert_takesEffect h t
      obtain ⟨hid, hstore⟩ := storedAs_of_values t.nextKey hv
      have hreported : reported server d = some (dataMembers ⟨t.nextKey, id, data⟩) := by
        rw [reported, hstore]
        rfl
      rw [hinsert, awaiting, unsent_append, if_pos hid, List.map_append, List.map_append, if_pos rfl, List.append_assoc]
      show _ ++ (some (dataMembers _) :: _) = _ ++ (reported server d :: _)
      rw [hreported]
      rfl

/-- A pass under an id other than 0 marks no row. -/
theorem unsent_pass {o : Outcomes} (hid : server.number (cString o.backendNum) ≠ some (some ['0'])) (k : Nat)
    (d : Datapoint Text) (t : Table) :
    unsent ((server.insert (o.insert k) o.backendNum d t).deleteZero (o.delete k)) =
      if o.delete k then [] else unsent t := by
  have hinsert : unsent (server.insert (o.insert k) o.backendNum d t) = unsent t := by
    cases h : effective server o k d with
    | false => rw [insert_noEffect h]
    | true =>
      obtain ⟨id, data, hv, hrow⟩ := insert_takesEffect h t
      have hne : id ≠ some ['0'] := by
        rintro rfl
        exact hid (values_eq hv).1
      rw [hrow, unsent_append, if_neg hne, List.append_nil]
  rw [Table.deleteZero]
  split
  · rw [unsent, List.filter_filter, List.filter_eq_nil_iff]
    simp
  · exact hinsert

/-- The loop takes the mark from all rows when a `DELETE` of it is executed. -/
theorem unsent_rewrite {o : Outcomes} (hid : server.number (cString o.backendNum) ≠ some (some ['0'])) (k : Nat)
    (ds : List (Datapoint Text)) {t : Table} (h : unsent t = [] ∨ ∃ j < ds.length, o.delete (k + j) = true) :
    unsent (rewrite server o k ds t) = [] := by
  induction ds generalizing k t with
  | nil =>
    rcases h with h | ⟨j, hj, _⟩
    · exact h
    · exact absurd hj (Nat.not_lt_zero j)
  | cons d ds ih =>
    rw [rewrite]
    apply ih
    rw [unsent_pass hid]
    rcases h with h | ⟨j, hj, hdelete⟩
    · left
      rw [h, ite_self]
    · cases j with
      | zero => exact .inl (if_pos hdelete)
      | succ j => exact .inr ⟨j, by simpa using hj, by rw [Nat.add_right_comm, Nat.add_assoc]; exact hdelete⟩

/-! ### One step -/

/-- A blank upload that reads no row posts an empty payload. -/
theorem uploadBatch_nothing {o : Outcomes} {text : Text} (t : Table) (hblank : text = [] ∨ text = ['0'])
    (hreply : o.backendNum ≠ []) (hread : server.selectBatch o.select ['0'] t = []) :
    uploadBatch server o text t = (t, .posted [] o.post) := by
  have hbatch : (if text = [] then ['0'] else text) = ['0'] := by
    rcases hblank with rfl | rfl <;> rfl
  simp only [uploadBatch, hbatch, if_true, if_neg hreply, hread]
  rfl

/-- An upload leaves to be posted what it does not post. -/
theorem awaiting_upload {s : State} {o : Outcomes} {text : Text} (hblank : text = [] ∨ text = ['0'])
    (h : Empties server o s.table) :
    posts server s (.upload text o) ++ awaiting (uploadBatch server o text s.table).1 = awaiting s.table := by
  rw [posts, if_pos hblank]
  by_cases hreply : o.backendNum = []
  · rw [uploadBatch_skipped s.table hblank hreply]
    rfl
  · by_cases hread : server.selectBatch o.select ['0'] s.table = []
    · rw [uploadBatch_nothing s.table hblank hreply hread]
      rfl
    · rw [selectBatch_zero] at hread
      have hselect : o.select = true := by
        by_contra hno
        rw [if_neg hno] at hread
        exact hread rfl
      rw [if_pos hselect] at hread
      obtain hempty | hno | hnone | ⟨hheaders, hid, hdelete⟩ := h
      · exact absurd hempty hreply
      · rw [hno] at hselect
        cases hselect
      · exact absurd hnone hread
      · have hposted := uploadBatch_posts server (o := o) s.table hblank hreply hheaders
        have htable := uploadBatch_table server o text s.table hblank hreply
        rw [selectBatch_zero, if_pos hselect] at hposted htable
        have hdone : unsent (uploadBatch server o text s.table).1 = [] := by
          rw [htable]
          apply unsent_rewrite hid
          right
          simpa [unsent] using hdelete
        rw [hposted, awaiting, hdone, List.map_nil, List.append_nil]
        dsimp only
        rw [List.map_map]
        exact List.map_congr_left fun r _ => datapointMembers_objectOf o.backendNum r

/-- What a step posts and leaves to be posted. -/
theorem awaiting_step {s s' : State} {e : Event} (hrule : EmptiesAll server s e) (hs : step server s e = some s') :
    (posts server s e ++ awaiting s'.table).map some =
      (awaiting s.table).map some ++ (stores server s e).map (reported server) := by
  cases e with
  | received datapoints ok =>
    cases hs
    exact awaiting_received server ok 0 datapoints s.table
  | upload text o =>
    rw [(step_upload hs).2, stores, List.map_nil, List.append_nil]
    by_cases hblank : text = [] ∨ text = ['0']
    · rw [awaiting_upload hblank (hrule hblank)]
    · rw [posts, if_neg hblank, uploadBatch_numbered o s.table hblank]
      rfl

/-! ### Whole runs -/

theorem awaiting_run {s s' : State} {events : List Event} (hrule : Machine.Meets (step server) (EmptiesAll server) s events)
    (hrun : Machine.run (step server) s events = some s') :
    (Machine.notes (step server) (posts server) s events ++ awaiting s'.table).map some =
      (awaiting s.table).map some ++ (Machine.notes (step server) (stores server) s events).map (reported server) := by
  induction events generalizing s with
  | nil =>
    cases hrun
    exact (List.append_nil _).symm
  | cons e events ih =>
    obtain ⟨s₁, h₁, h₂⟩ := Machine.run_cons hrun
    have hfirst := awaiting_step hrule.1 h₁
    have hrest := ih (hrule.2 s₁ h₁) h₂
    rw [List.map_append] at hfirst hrest
    rw [Machine.notes, Machine.notes, h₁]
    dsimp only [Option.elim_some]
    rw [List.append_assoc, List.map_append, List.map_append, hrest, ← List.append_assoc, hfirst, List.map_append,
      List.append_assoc]

end ScoutingComputer.Upload
