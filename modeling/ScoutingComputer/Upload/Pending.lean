import ScoutingComputer.Foundation.Run
import ScoutingComputer.Upload.Payload
import ScoutingComputer.Upload.Rewrite

/-! Which rows are still to be delivered.

Upload id 0 marks the rows that the backend has not accepted yet: a blank upload sends
exactly those. The handler gives them their id before it posts them, so after a failed
post the mark is gone. `pending_until_delivered` says when it can be trusted: in every
run in which each blank upload that rewrites a row also has its payload accepted. -/
namespace ScoutingComputer.Upload
variable (server : Server)

/-- The table, and the payloads that the backend has accepted. -/
structure State where
  table : Table
  accepted : List (List JsonObject)

def emptyState : State := ⟨⟨[], 0⟩, []⟩

inductive Event where
  /-- A match received from a tablet, with the statements that are executed. -/
  | received (datapoints : List (Datapoint Text)) (ok : Nat → Bool)
  /-- A press of the upload button with the text of the batch box. -/
  | upload (text : Text) (o : Outcomes)

def step (s : State) : Event → Option State
  | .received datapoints ok => some ⟨addMatchDatapoints server ok 0 datapoints s.table, s.accepted⟩
  | .upload text o =>
    match uploadBatch server o text s.table with
    | (t, .posted objects true) => some ⟨t, objects :: s.accepted⟩
    | (t, _) => some ⟨t, s.accepted⟩

/-- The members that an object has for the datapoint of a row. -/
def dataMembers (r : Row) : JsonObject := datapointColumns.toList.zip (printedData r).toList

/-- The object is this row: its values, under a batch that is its upload id. -/
def PartOf (r : Row) (object : JsonObject) : Prop :=
  dataMembers r ⊆ object ∧
    ∃ batch, (uploadIDColumn, batch) ∈ object ∧ server.number (cString batch) = some r.uploadID

def Delivered (s : State) (r : Row) : Prop :=
  ∃ objects ∈ s.accepted, ∃ object ∈ objects, PartOf server r object

/-- Every row with an id other than 0 has been delivered, and a blank upload whose
queries succeed sends every row that has not. -/
structure PendingKept (s : State) : Prop where
  delivered : ∀ r ∈ s.table.rows, r.uploadID ≠ some ['0'] → Delivered server s r
  sends : ∀ r ∈ s.table.rows, ¬ Delivered server s r → ∀ (text : Text) (o : Outcomes),
    text = [] ∨ text = ['0'] → o.select = true → o.headers = true → o.backendNum ≠ [] →
      ∃ objects, (uploadBatch server o text s.table).2 = .posted objects o.post ∧
        ∃ object ∈ objects, dataMembers r ⊆ object

/-- The upload posts what it rewrites, and the post is accepted; or it rewrites nothing
under an id other than 0. -/
def Posts (o : Outcomes) (t : Table) : Prop :=
  o.backendNum = [] ∨ (o.headers = true ∧ o.post = true) ∨
    server.number (cString o.backendNum) = some (some ['0']) ∨
    EveryPass (fun k d => effective server o k d = false) 0
      ((server.selectBatch o.select ['0'] t).map printedData)

/-- The condition on a step. -/
def Rule (s : State) : Event → Prop
  | .received _ _ => True
  | .upload text o => text = [] ∨ text = ['0'] → Posts server o s.table

/-- What every step under the rule preserves. -/
structure Marked (s : State) : Prop where
  delivered : ∀ r ∈ s.table.rows, r.uploadID ≠ some ['0'] → Delivered server s r
  back : ∀ r ∈ s.table.rows, ReadsBack server r

variable {server}

/-! ### The rows of a payload -/

theorem mem_objectOf_data (batch : Text) (r : Row) : dataMembers r ⊆ objectOf server batch r := by
  intro m hm
  refine List.mem_cons_of_mem _ (List.mem_cons_of_mem _ ?_)
  have hzip : List.zipWith (member batch) datapointColumns.toList (r.data.toList.map printed) = dataMembers r :=
    zipWith_member batch _ (by decide)
  rw [hzip]
  exact hm

theorem mem_objectOf_batch (batch : Text) (r : Row) : (uploadIDColumn, batch) ∈ objectOf server batch r := by
  refine List.mem_cons_of_mem _ (List.mem_cons.mpr (.inl ?_))
  simp [member]

/-- The blank branch with an upload id and the column names posts every row it read. -/
theorem uploadBatch_posts (server : Server) {o : Outcomes} {text : Text} (t : Table) (hblank : text = [] ∨ text = ['0'])
    (hreply : o.backendNum ≠ []) (hheaders : o.headers = true) :
    (uploadBatch server o text t).2 =
      .posted ((server.selectBatch o.select ['0'] t).map (objectOf server o.backendNum)) o.post := by
  have hbatch : (if text = [] then ['0'] else text) = ['0'] := by
    rcases hblank with rfl | rfl <;> rfl
  simp only [uploadBatch, hbatch, if_true, if_neg hreply, rewriteBatch_texts]
  exact post_texts server o o.backendNum _ hheaders

/-! ### The invariant -/

theorem Delivered.mono {s s' : State} (h : s.accepted ⊆ s'.accepted) {r : Row}
    (hd : Delivered server s r) : Delivered server s' r := by
  obtain ⟨objects, hobjects, hd⟩ := hd
  exact ⟨objects, h hobjects, hd⟩

theorem Marked.pendingKept {s : State} (h : Marked server s) : PendingKept server s where
  delivered := h.delivered
  sends := by
    intro r hr hnot text o hblank hselect hheaders hreply
    have hzero : r.uploadID = some ['0'] := by
      by_contra hne
      exact hnot (h.delivered r hr hne)
    refine ⟨_, uploadBatch_posts server s.table hblank hreply hheaders, objectOf server o.backendNum r, ?_,
      mem_objectOf_data _ r⟩
    rw [selectBatch_zero, if_pos hselect]
    exact List.mem_map_of_mem (List.mem_filter.mpr ⟨hr, by simpa using hzero⟩)

theorem marked_received {s : State} (h : Marked server s) (datapoints : List (Datapoint Text))
    (ok : Nat → Bool) : Marked server ⟨addMatchDatapoints server ok 0 datapoints s.table, s.accepted⟩ where
  delivered := by
    intro r hr hne
    rcases mem_addMatchDatapoints hr with hr | ⟨hzero, _⟩
    · exact h.delivered r hr hne
    · exact absurd hzero hne
  back := by
    intro r hr
    rcases mem_addMatchDatapoints hr with hr | ⟨_, d, _, hd⟩
    · exact h.back r hr
    · exact readsBack_of_store hd

/-- A copy made by the loop is a row of the payload made from the rows that were read. -/
theorem copy_partOf {o : Outcomes} {t : Table} (hback : ∀ r ∈ t.rows, ReadsBack server r) {r : Row}
    {d : Datapoint Text} (hd : d ∈ (server.selectBatch o.select ['0'] t).map printedData)
    (hv : server.values o.backendNum d = some (r.uploadID, r.data)) :
    ∃ object ∈ (server.selectBatch o.select ['0'] t).map (objectOf server o.backendNum),
      PartOf server r object := by
  obtain ⟨read, hread, rfl⟩ := List.mem_map.mp hd
  obtain ⟨hid, hdata⟩ := values_eq hv
  have hold : read ∈ t.rows := by
    rw [selectBatch_zero] at hread
    split at hread
    · exact List.mem_of_mem_filter hread
    · cases hread
  have hsame : printedData r = printedData read := (hback read hold).faithful r.data hdata
  refine ⟨objectOf server o.backendNum read, List.mem_map_of_mem hread, ?_, o.backendNum,
    mem_objectOf_batch _ read, hid⟩
  have hmembers : dataMembers r = dataMembers read := by simp only [dataMembers, hsame]
  rw [hmembers]
  exact mem_objectOf_data _ read

/-- What an upload does: its payload may be added, and the table is the handler's. -/
theorem step_upload {s s' : State} {text : Text} {o : Outcomes}
    (hs : step server s (.upload text o) = some s') :
    s.accepted ⊆ s'.accepted ∧ s'.table = (uploadBatch server o text s.table).1 := by
  simp only [step] at hs
  split at hs
  · rename_i t objects heq
    cases hs
    exact ⟨List.subset_cons_self .., by rw [heq]⟩
  · rename_i t result _ heq
    cases hs
    exact ⟨List.Subset.refl _, by rw [heq]⟩

/-- An accepted payload is recorded. -/
theorem step_posted {s s' : State} {text : Text} {o : Outcomes} {objects : List JsonObject}
    (hs : step server s (.upload text o) = some s')
    (hposts : (uploadBatch server o text s.table).2 = .posted objects true) : objects ∈ s'.accepted := by
  rw [step] at hs
  generalize uploadBatch server o text s.table = result at hs hposts
  obtain ⟨t, result⟩ := result
  cases hposts
  cases hs
  exact List.mem_cons_self ..

theorem uploadBatch_skipped {o : Outcomes} {text : Text} (t : Table) (hblank : text = [] ∨ text = ['0'])
    (hreply : o.backendNum = []) : uploadBatch server o text t = (t, .skipped) := by
  have hbatch : (if text = [] then ['0'] else text) = ['0'] := by
    rcases hblank with rfl | rfl <;> rfl
  simp only [uploadBatch, hbatch, if_true, if_pos hreply]

/-- A numbered batch is only read. -/
theorem uploadBatch_numbered (o : Outcomes) {text : Text} (t : Table) (h : ¬ (text = [] ∨ text = ['0'])) :
    (uploadBatch server o text t).1 = t := by
  have hbatch : ¬ (if text = [] then ['0'] else text) = ['0'] := by
    split
    · rename_i hempty
      exact absurd (.inl hempty) h
    · exact fun hzero => h (.inr hzero)
  simp only [uploadBatch, if_neg hbatch]

/-- A step that keeps the table keeps the invariant. -/
theorem Marked.of_table_eq {s s' : State} (h : Marked server s) (hmono : s.accepted ⊆ s'.accepted)
    (ht : s'.table = s.table) : Marked server s' where
  delivered := fun r hr hne => (h.delivered r (ht ▸ hr) hne).mono hmono
  back := fun r hr => h.back r (ht ▸ hr)

theorem marked_upload {s s' : State} (h : Marked server s) {text : Text} {o : Outcomes}
    (hr : Rule server s (.upload text o)) (hs : step server s (.upload text o) = some s') :
    Marked server s' := by
  obtain ⟨hmono, htable⟩ := step_upload hs
  by_cases hblank : text = [] ∨ text = ['0']
  · by_cases hreply : o.backendNum = []
    · rw [uploadBatch_skipped s.table hblank hreply] at htable
      exact h.of_table_eq hmono htable
    · rw [uploadBatch_table server o text s.table hblank hreply] at htable
      constructor
      · intro r hr' hne
        rw [htable] at hr'
        rcases mem_rewrite hr' with hold | ⟨heff, d, hd, hv⟩
        · exact (h.delivered r hold hne).mono hmono
        · rcases hr hblank with hempty | ⟨hheaders, hpost⟩ | hzero | hnone
          · exact absurd hempty hreply
          · obtain ⟨object, hobject, hpart⟩ := copy_partOf h.back hd hv
            have hposts := uploadBatch_posts server s.table hblank hreply hheaders
            rw [hpost] at hposts
            exact ⟨_, step_posted hs hposts, object, hobject, hpart⟩
          · have hid := (values_eq hv).1
            rw [hzero] at hid
            exact absurd (Option.some.inj hid).symm hne
          · exact absurd hnone heff
      · intro r hr'
        rw [htable] at hr'
        rcases mem_rewrite hr' with hold | ⟨_, d, _, hv⟩
        · exact h.back r hold
        · exact readsBack_of_store (values_eq hv).2
  · rw [uploadBatch_numbered o s.table hblank] at htable
    exact h.of_table_eq hmono htable

theorem marked_step (s : State) (e : Event) (s' : State) (h : Marked server s) (hr : Rule server s e)
    (hs : step server s e = some s') : Marked server s' := by
  cases e with
  | received datapoints ok =>
    cases hs
    exact marked_received h datapoints ok
  | upload text o => exact marked_upload h hr hs

theorem marked_empty : Marked server emptyState :=
  ⟨fun _ hr => absurd hr (List.not_mem_nil), fun _ hr => absurd hr (List.not_mem_nil)⟩

def oneMatch : List (Datapoint Text) :=
  [⟨"2026casac".toList, ['5'], ['1'], ['3'], "1138".toList, ['0'], "true".toList, "17".toList⟩]

/-- A blank upload in which every statement is executed. -/
def blankUpload (post : Bool) : Event :=
  .upload [] ⟨true, ['7'], fun _ => true, fun _ => true, true, post⟩

def receiveAndUpload (post : Bool) : List Event := [.received oneMatch fun _ => true, blankUpload post]

end ScoutingComputer.Upload
