import ScoutingComputer.Upload.Payload
import ScoutingComputer.Upload.Rebatch

/-! A blank upload and an upload of the batch it assigned.

The blank upload posts the rows as they were read, with the assigned batch in place of
their id; a numbered upload reads its rows from the table. After a blank upload whose
statements all succeed the two make the same payload but for the keys, provided that the
table had no row of the assigned batch before (`numbered_upload_agrees`). -/
namespace ScoutingComputer.Upload

section
variable (server : Server)

/-- The object that maps every column to the row's value, and `UploadID` to the batch. -/
def rowObject (batch : Text) (r : Row) : JsonObject :=
  server.columns.zip ((toString r.key).toList :: batch :: r.data.toList.map printed)

def withoutKey (object : JsonObject) : JsonObject := object.filter (·.1 ≠ server.keyColumn)

/-- Both uploads are posted, and their payloads differ at most in the order of the rows
and the keys. -/
def SamePayload (blank numbered : Result) : Prop :=
  ∃ objects objects' accepted accepted', blank = .posted objects accepted ∧
    numbered = .posted objects' accepted' ∧
    (objects.map (withoutKey server)).Perm (objects'.map (withoutKey server))

/-- The rows of a batch. -/
def batchRows (id : Text) (t : Table) : List Row := t.rows.filter (·.uploadID = some id)

end

variable {server : Server} {o o' : Outcomes}

/-! ### One object -/

theorem objectOf_eq (server : Server) (batch : Text) : objectOf server batch = rowObject server batch := by
  funext r
  have hkey : server.keyColumn ≠ uploadIDColumn := by
    intro heq
    exact server.keyColumn_new (heq ▸ List.mem_cons_self ..)
  unfold objectOf rowObject Server.columns Row.texts
  rw [List.zipWith_cons_cons, List.zipWith_cons_cons, zipWith_member _ _ (by decide), member, member, if_neg hkey, if_pos rfl,
    List.zip_cons_cons, List.zip_cons_cons]

/-- The members of a datapoint's object besides the key. -/
def sharedMembers (server : Server) (batch : Text) (d : Datapoint Text) : JsonObject :=
  withoutKey server ((uploadIDColumn :: datapointColumns.toList).zip (batch :: d.toList))

/-- What is left without the key depends on the printed values alone. -/
theorem withoutKey_rowObject (server : Server) (batch : Text) :
    withoutKey server ∘ rowObject server batch = sharedMembers server batch ∘ printedData := by
  funext r
  have hdrop : ∀ (key : Text) (members : JsonObject),
      withoutKey server ((server.keyColumn, key) :: members) = withoutKey server members := by
    intro key members
    exact List.filter_cons_of_neg (by simp)
  exact hdrop _ _

/-! ### The two uploads -/

theorem uploadBatch_blank {text : Text} {before : Table} (hblank : text = [] ∨ text = ['0'])
    (hsucceeds : Succeeds server o before) (hheaders : o.headers = true) :
    (uploadBatch server o text before).2 = .posted ((unsent before).map (rowObject server o.backendNum)) o.post := by
  have hbatch : (if text = [] then ['0'] else text) = ['0'] := by
    rcases hblank with rfl | rfl <;> rfl
  simp only [uploadBatch, hbatch, if_true, if_neg hsucceeds.reply, rewriteBatch_texts, selectBatch_zero,
    if_pos hsucceeds.select]
  rw [post_texts server o o.backendNum _ hheaders, objectOf_eq]
  rfl

theorem uploadBatch_batch {batch id : Text} {t : Table} (hid : server.number (cString batch) = some (some id))
    (hne : batch ≠ []) (hzero : batch ≠ ['0']) (hselect : o.select = true) (hheaders : o.headers = true) :
    (uploadBatch server o batch t).2 = .posted ((batchRows id t).map (rowObject server batch)) o.post := by
  simp only [uploadBatch, if_neg hne, if_neg hzero, Server.selectBatch, if_pos hselect, hid]
  rw [post_texts server o batch _ hheaders, objectOf_eq]
  rfl

/-- The rows of the assigned batch are the copies of the rows that were read. -/
theorem batchRows_after {text id : Text} {before : Table} (hblank : text = [] ∨ text = ['0'])
    (hsucceeds : Succeeds server o before) (hback : ∀ r ∈ before.rows, ReadsBack server r)
    (hid : server.number (cString o.backendNum) = some (some id)) (hzero : id ≠ ['0'])
    (hnew : batchRows id before = []) :
    (batchRows id (uploadBatch server o text before).1).map printedData = (unsent before).map printedData := by
  obtain ⟨copies, hcopies, hrows⟩ := upload_succeeds hblank hsucceeds
  have hids := copies_id hcopies
  have hcopy : ∀ r ∈ copies, r.uploadID = some id := by
    intro r hr
    have := hids r hr
    rw [hid] at this
    exact (Option.some.inj this).symm
  unfold batchRows at hnew ⊢
  rw [hrows]
  by_cases hnone : unsent before = []
  · rw [if_pos hnone, hnew, hnone]
  · have hall : copies.filter (·.uploadID ≠ some ['0']) = copies := by
      rw [List.filter_eq_self]
      intro r hr
      simpa [hcopy r hr] using hzero
    have hsettled : (settled before).filter (·.uploadID = some id) = [] := by
      rw [List.filter_eq_nil_iff] at hnew ⊢
      exact fun r hr => hnew r (List.mem_of_mem_filter hr)
    have hkeep : copies.filter (·.uploadID = some id) = copies := by
      rw [List.filter_eq_self]
      intro r hr
      simpa using hcopy r hr
    rw [if_neg hnone, hall, List.filter_append, hsettled, hkeep, List.nil_append]
    have hdata := copies_data hcopies
    apply List.ext_getElem (by simpa using hcopies.length_eq.symm)
    intro i hi hi'
    simp only [List.length_map] at hi hi'
    have hstored := (List.forall₂_map_left_iff.mp (List.forall₂_map_right_iff.mp hdata)).get hi' hi
    have hread : (unsent before)[i] ∈ before.rows := List.mem_of_mem_filter (List.getElem_mem hi')
    rw [List.getElem_map, List.getElem_map]
    apply (hback _ hread).faithful
    unfold printedData
    rw [map_cString_printed]
    exact hstored

/-- A row whose upload under the id 7 was not delivered, and one not uploaded yet. -/
def batchInUse : Table :=
  ⟨(oneRow (some ['c'])).rows ++ [⟨2, some ['7'], ⟨some ['c'], some ['5'], some ['2'], some ['3'], some ['9'],
    some ['0'], some ['y'], some ['8']⟩⟩], 3⟩

end ScoutingComputer.Upload
