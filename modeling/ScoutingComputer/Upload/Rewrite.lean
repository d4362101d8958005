import Mathlib.Data.List.Perm.Subperm
import ScoutingComputer.Database.DatabaseMan
import ScoutingComputer.Upload

/-! What the loop of the upload handler does to the table.

The rows that the handler reads have all their columns, so the loop never throws and
is a recursion over the datapoints it inserts again (`rewriteBatch_texts`). A pass
takes effect when its `INSERT` is executed with values the server accepts. -/
namespace ScoutingComputer.Upload
variable (server : Server) (o : Outcomes)

/-- The loop over the datapoints of the rows read. -/
def rewrite : Nat → List (Datapoint Text) → Table → Table
  | _, [], t => t
  | k, d :: ds, t =>
    rewrite (k + 1) ds ((server.insert (o.insert k) o.backendNum d t).deleteZero (o.delete k))

/-- What a row's datapoint is to the program. -/
def printedData (r : Row) : Datapoint Text := r.data.map printed

theorem rewriteBatch_texts (k : Nat) (rows : List Row) (t : Table) :
    rewriteBatch server o k (rows.map Row.texts) t = (rewrite server o k (rows.map printedData) t, .ok ()) := by
  induction rows generalizing k t with
  | nil => rfl
  | cons r rows ih => exact ih (k + 1) _

/-- The blank branch of the handler, as far as the table is concerned. -/
theorem uploadBatch_table (text : Text) (t : Table) (hblank : text = [] ∨ text = ['0'])
    (hreply : o.backendNum ≠ []) :
    (uploadBatch server o text t).1 =
      rewrite server o 0 ((server.selectBatch o.select ['0'] t).map printedData) t := by
  have hbatch : (if text = [] then ['0'] else text) = ['0'] := by
    rcases hblank with rfl | rfl <;> rfl
  simp only [uploadBatch, hbatch, if_true, if_neg hreply, rewriteBatch_texts]

theorem selectBatch_zero (ok : Bool) (t : Table) :
    server.selectBatch ok ['0'] t = if ok then t.rows.filter (·.uploadID = some ['0']) else [] := by
  have hzero : cString ['0'] = ['0'] := by decide
  simp only [Server.selectBatch, hzero, server.number_zero]

/-! ### One pass -/

/-- Pass `k` inserts the datapoint `d` again. -/
def effective (k : Nat) (d : Datapoint Text) : Bool := takesEffect server o.insert o.backendNum k d

/-- The rows that a `DELETE` leaves. -/
def settled (t : Table) : List Row := t.rows.filter (·.uploadID ≠ some ['0'])

variable {server o}

theorem deleteZero_rows (ok : Bool) (t : Table) :
    (t.deleteZero ok).rows = if ok then settled t else t.rows := by
  cases ok <;> rfl

theorem settled_le (t : Table) : (settled t).length ≤ t.rows.length := List.length_filter_le ..

/-- A row that is inserted under id 0 is not settled, one under another id is. -/
theorem settled_insert {t : Table} {row : Row} {key : Nat} :
    settled ⟨t.rows ++ [row], key⟩ = settled t ++ if row.uploadID = some ['0'] then [] else [row] := by
  simp only [settled, List.filter_append, List.append_cancel_left_eq]
  by_cases h : row.uploadID = some ['0'] <;> simp [h]

theorem settled_deleteZero (ok : Bool) (t : Table) : settled (t.deleteZero ok) = settled t := by
  cases ok
  · rfl
  · simp [settled, Table.deleteZero, List.filter_filter]

/-- The rows that the loop leaves: old ones, and what effective passes inserted. -/
theorem mem_rewrite {k : Nat} {ds : List (Datapoint Text)} {t : Table} {r : Row}
    (h : r ∈ (rewrite server o k ds t).rows) :
    r ∈ t.rows ∨ ¬ EveryPass (fun k d => effective server o k d = false) k ds ∧
      ∃ d ∈ ds, server.values o.backendNum d = some (r.uploadID, r.data) := by
  induction ds generalizing k t with
  | nil => exact .inl h
  | cons d ds ih =>
    rcases ih h with h | ⟨heff, d', hd', hv⟩
    · have hin : r ∈ (server.insert (o.insert k) o.backendNum d t).rows := by
        rw [deleteZero_rows] at h
        split at h
        · exact List.mem_of_mem_filter h
        · exact h
      rcases mem_insert hin with h | ⟨hok, hv⟩
      · exact .inl h
      · refine .inr ⟨fun hall => ?_, d, List.mem_cons_self .., hv⟩
        have := ((everyPass_cons _ k d ds).mp hall).1
        simp [effective, takesEffect, hok, hv] at this
    · exact .inr ⟨fun hall => heff ((everyPass_cons _ k d ds).mp hall).2, d',
        List.mem_cons_of_mem d hd', hv⟩

/-! ### Values read and stored again -/

/-- A number that the server printed is printed the same way when it is read back. -/
def ReadsBack (server : Server) (r : Row) : Prop :=
  ∀ cell ∈ r.data.bare, ∀ c, server.number (printed cell) = some c → printed c = printed cell

/-- The values a pass stores are those it was given. -/
def Faithful (server : Server) (d : Datapoint Text) : Prop :=
  ∀ data, server.store (d.map cString) = some data → data.map printed = d

theorem map_cString_printed (d : Datapoint Cell) : (d.map printed).map cString = d.map printed := by
  simp [Datapoint.map, cString_printed]

theorem ReadsBack.faithful {r : Row} (h : ReadsBack server r) : Faithful server (printedData r) := by
  intro data hd
  unfold printedData at hd
  rw [map_cString_printed] at hd
  simp only [Server.store, Datapoint.map] at hd
  split at hd
  case h_2 => cases hd
  case h_1 h₁ h₂ h₃ h₄ h₅ =>
    cases hd
    have hp := h
    simp only [ReadsBack, Datapoint.bare, List.mem_cons, List.not_mem_nil, or_false,
      forall_eq_or_imp, forall_eq] at hp
    obtain ⟨p₁, p₂, p₃, p₄, p₅⟩ := hp
    have quoted : ∀ cell : Cell, printed (some (printed cell)) = printed cell := cString_printed
    simp only [printedData, Datapoint.map, quoted, p₁ _ h₁, p₂ _ h₂, p₃ _ h₃, p₄ _ h₄, p₅ _ h₅]

/-- Values that the server stored from a text are read back. -/
theorem readsBack_of_store {d : Datapoint Text} {r : Row} (h : server.store d = some r.data) :
    ReadsBack server r := by
  have back : ∀ text cell, server.number text = some cell → ∀ c, server.number (printed cell) = some c →
      printed c = printed cell := fun text cell h c => server.number_printed text cell c h
  simp only [Server.store] at h
  split at h
  case h_2 => cases h
  case h_1 h₁ h₂ h₃ h₄ h₅ =>
    cases h' : r.data
    rw [h'] at h
    cases h
    simp only [ReadsBack, h', Datapoint.bare, List.mem_cons, List.not_mem_nil, or_false,
      forall_eq_or_imp, forall_eq]
    exact ⟨back _ _ h₁, back _ _ h₂, back _ _ h₃, back _ _ h₄, back _ _ h₅⟩

end ScoutingComputer.Upload
