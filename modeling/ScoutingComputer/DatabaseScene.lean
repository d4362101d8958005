import ScoutingComputer.EventFiles
import ScoutingComputer.Upload

/-! The two handlers of the database scene that index what a statement returned.

`Database::query` and `Database::getHeaders` return an empty vector when a statement
fails, which is also what a table without rows gives. The export of the scouters looks at
`result[0]` before it asks whether there is a row; the upload looks up a column name for
each cell of the rows, and the names come from a statement of their own. -/
namespace ScoutingComputer.DatabaseScene
open Upload (JsonObject datapointAt payloadObject payload)
open Separated (afterFirst join_cons)

/-! ### What the server sends -/

structure ResultSet where
  /-- The `name` of each `MYSQL_FIELD`. -/
  columns : List Text
  rows : List (List Cell)
  rows_width : ∀ row ∈ rows, row.length = columns.length

/-- What becomes of one statement. -/
inductive Reply where
  /-- `mysql_query` reports an error. -/
  | failed
  /-- `mysql_use_result` returns no result. -/
  | noResult
  | result (set : ResultSet)

namespace Reply

def columns : Reply → List Text
  | .result set => set.columns
  | _ => []

def rows : Reply → List (List Cell)
  | .result set => set.rows
  | _ => []

theorem rows_width (reply : Reply) : ∀ row ∈ reply.rows, row.length = reply.columns.length := by
  cases reply with
  | failed => exact fun _ h => absurd h List.not_mem_nil
  | noResult => exact fun _ h => absurd h List.not_mem_nil
  | result set => exact set.rows_width

/-- The strings that `query` makes of them. -/
theorem printed_width (reply : Reply) :
    ∀ row ∈ reply.rows.map (·.map printed), row.length = reply.columns.length := by
  intro row hrow
  obtain ⟨cells, hcells, rfl⟩ := List.mem_map.mp hrow
  rw [List.length_map]
  exact reply.rows_width cells hcells

end Reply

/-! ### The accesses -/

/-- What ends the program in a handler. -/
inductive Fault where
  /-- `operator[]` of a vector, out of range. -/
  | index
  /-- An exception that nothing catches. -/
  | threw (error : Exception)
  /-- `mysql_fetch_field` of a result that is not there. -/
  | noResult
  deriving DecidableEq, Repr

/-- The fault is a vector access out of range. -/
def Fault.outOfRange (fault : Fault) : Prop := fault = .index ∨ fault = .threw .outOfRange

/-- No vector is accessed out of range. -/
def InRange {α : Type} (handler : Except Fault α) : Prop := ∀ fault, handler = .error fault → ¬ fault.outOfRange

/-- `vector[i]`. -/
def index {α : Type} (vector : List α) (i : Nat) : Except Fault α :=
  match vector[i]? with
  | some a => .ok a
  | none => .error .index

/-- A function of its own, in a handler. -/
def called {α : Type} : Except Exception α → Except Fault α
  | .ok a => .ok a
  | .error e => .error (.threw e)

theorem inRange_ok {α : Type} (a : α) : InRange (.ok a) := by
  intro fault h
  cases h

theorem not_inRange {α : Type} {fault : Fault} (h : fault.outOfRange) : ¬ InRange (.error fault : Except Fault α) :=
  fun hin => hin fault rfl h

/-! ### `Database::query` and `Database::getHeaders` -/

/-- `resultVector.at(currentRow).push_back(text)`. -/
def pushAt (currentRow : Nat) (resultVector : List (List Text)) (text : Text) : Except Exception (List (List Text)) :=
  match resultVector[currentRow]? with
  | some row => .ok (resultVector.set currentRow (row ++ [text]))
  | none => .error .outOfRange

/-- The loop over the rows fetched. -/
def fetchRows : Nat → List (List Cell) → List (List Text) → Except Exception (List (List Text))
  | _, [], resultVector => .ok resultVector
  | currentRow, row :: rows, resultVector => do
    let resultVector ← (row.map printed).foldlM (pushAt currentRow) (resultVector ++ [[]])
    fetchRows (currentRow + 1) rows resultVector

/-- `Database::query`, from the reply on. -/
def query : Reply → Except Exception (List (List Text))
  | .failed => .ok []
  | .noResult => .ok []
  | .result set => fetchRows 0 set.rows []

/-- `Database::getHeaders`, from the reply on. -/
def getHeaders : Reply → Except Fault (List Text)
  | .failed => .ok []
  | .noResult => .error .noResult
  | .result set => .ok set.columns

theorem foldlM_pushAt (before : List (List Text)) (row texts : List Text) :
    texts.foldlM (pushAt before.length) (before ++ [row]) = .ok (before ++ [row ++ texts]) := by
  induction texts generalizing row with
  | nil => simp [pure, Except.pure]
  | cons text texts ih =>
    have hpush : pushAt before.length (before ++ [row]) text = .ok (before ++ [row ++ [text]]) := by simp [pushAt]
    rw [List.foldlM_cons, hpush]
    show texts.foldlM (pushAt before.length) (before ++ [row ++ [text]]) = _
    rw [ih, List.append_assoc]
    rfl

theorem fetchRows_eq (rows : List (List Cell)) (resultVector : List (List Text)) :
    fetchRows resultVector.length rows resultVector = .ok (resultVector ++ rows.map (·.map printed)) := by
  induction rows generalizing resultVector with
  | nil => simp [fetchRows]
  | cons row rows ih =>
    have hrest := ih (resultVector ++ [row.map printed])
    rw [List.length_append, List.length_singleton, List.append_assoc] at hrest
    rw [fetchRows, foldlM_pushAt, List.map_cons]
    exact hrest

/-- The accesses of `query` itself are in range. -/
theorem query_eq (reply : Reply) : query reply = .ok (reply.rows.map (·.map printed)) := by
  cases reply with
  | failed => rfl
  | noResult => rfl
  | result set => exact fetchRows_eq set.rows []

/-! ### The export of the scouters -/

/-- The files and the messages of the scene. -/
structure Scene where
  files : EventFiles
  toasts : List Text
  deriving DecidableEq, Repr

/-- `result[i][0] << " " << result[i][1] << ":" << result[i][2]`. -/
def entryAt (result : List (List Text)) (i : Nat) : Except Fault Text := do
  let row ← index result i
  let first ← index row 0
  let last ← index row 1
  let id ← index row 2
  return first ++ ' ' :: last ++ ':' :: id

/-- One pass of the loop over the other rows. -/
def writeEntry (result : List (List Text)) (text : Text) (i : Nat) : Except Fault Text := do
  let entry ← entryAt result i
  return text ++ ',' :: entry

/-- What is written to `scouterFile`. -/
def scouterFile (result : List (List Text)) : Except Fault Text := do
  let first ← entryAt result 0
  (List.range' 1 (result.length - 1)).foldlM (writeEntry result) first

/-- The handler of `scouterUpdate`, with the reply to its query. -/
def scouterExport (reply : Reply) (s : Scene) : Except Fault Scene := do
  let result ← called (query reply)
  let row ← index result 0
  if row.length = 3 then
    let text ← scouterFile result
    return {s with files := {s.files with scouterList := text}}
  else return {s with toasts := s.toasts ++ ["Scouter DB Error".toList]}

theorem entryAt_eq {result : List (List Text)} {i : Nat} {row : List Text} (hrow : result[i]? = some row)
    (hlen : row.length = 3) : entryAt result i = .ok (scouterEntry row) := by
  match row, hlen with
  | [first, last, id], _ => simp [entryAt, index, hrow, scouterEntry, bind, Except.bind, pure, Except.pure]

theorem writeEntry_loop {result : List (List Text)} (h : ∀ row ∈ result, row.length = 3)
    (before after : List (List Text)) (text : Text) (heq : before ++ after = result) :
    (List.range' before.length after.length).foldlM (writeEntry result) text =
      .ok (text ++ afterFirst ',' (after.map scouterEntry)) := by
  induction after generalizing before text with
  | nil => simp [afterFirst, pure, Except.pure]
  | cons row after ih =>
    have hrow : result[before.length]? = some row := by simp [← heq]
    have hentry := entryAt_eq hrow (h row (heq ▸ List.mem_append_right before List.mem_cons_self))
    have hrest := ih (before ++ [row]) (text ++ ',' :: scouterEntry row) (by simpa using heq)
    rw [List.length_append, List.length_singleton] at hrest
    rw [List.length_cons, List.range'_succ, List.foldlM_cons, writeEntry, hentry]
    refine hrest.trans (congrArg _ ?_)
    rw [List.append_assoc, List.map_cons, afterFirst, afterFirst, if_neg (List.cons_ne_nil _ _), join_cons]
    rfl

theorem scouterFile_eq (row : List Text) (rows : List (List Text)) (h : ∀ r ∈ row :: rows, r.length = 3) :
    scouterFile (row :: rows) = .ok (Separated.join ',' ((row :: rows).map scouterEntry)) := by
  have hfirst : entryAt (row :: rows) 0 = .ok (scouterEntry row) :=
    entryAt_eq (by simp) (h row List.mem_cons_self)
  rw [scouterFile, hfirst, List.map_cons, join_cons]
  exact writeEntry_loop h [row] rows (scouterEntry row) rfl

/-- What the handler does with a row is decided by the number of columns. -/
theorem scouterExport_cons {reply : Reply} {row : List Cell} {rows : List (List Cell)}
    (hrows : reply.rows = row :: rows) (s : Scene) :
    scouterExport reply s =
      .ok (if reply.columns.length = 3 then
        {s with files := {s.files with
          scouterList := Separated.join ',' ((reply.rows.map (·.map printed)).map scouterEntry)}}
      else {s with toasts := s.toasts ++ ["Scouter DB Error".toList]}) := by
  have hwidth := reply.printed_width
  rw [hrows, List.map_cons] at hwidth
  have hrow := hwidth _ List.mem_cons_self
  rw [scouterExport, query_eq, hrows, List.map_cons]
  show (if (row.map printed).length = 3 then _ else _) = _
  by_cases h : reply.columns.length = 3
  · rw [if_pos (hrow.trans h), if_pos h, scouterFile_eq _ _ fun r hr => (hwidth r hr).trans h]
    rfl
  · rw [if_neg fun hlen => h (hrow.symm.trans hlen), if_neg h]
    rfl

theorem scouterExport_nil {reply : Reply} (hrows : reply.rows = []) (s : Scene) :
    scouterExport reply s = .error .index := by
  rw [scouterExport, query_eq, hrows]
  rfl

/-- The files are those of `scouterUpdate`. -/
theorem scouterExport_files (reply : Reply) (s : Scene) :
    (scouterExport reply s).toOption.map (·.files) = scouterUpdate (reply.rows.map (·.map printed)) s.files := by
  cases hrows : reply.rows with
  | nil => rw [scouterExport_nil hrows]; rfl
  | cons row rows =>
    have hrow : (row.map printed).length = reply.columns.length := by
      rw [List.length_map]
      exact reply.rows_width row (hrows ▸ List.mem_cons_self)
    rw [scouterExport_cons hrows, hrows, List.map_cons, scouterUpdate, hrow]
    by_cases h : reply.columns.length = 3
    · rw [if_pos h, if_pos h]
      rfl
    · rw [if_neg h, if_neg h]
      rfl

/-! ### The upload of a batch -/

/-- The payload is made and posted. -/
def send (batch : Text) (dbResp : List (List Text)) (headers : Reply) : Except Fault (List JsonObject) := do
  let columnNames ← getHeaders headers
  called (payload columnNames batch dbResp)

/-- The handler of `uploadBatchButton`, with the text of its box, the next upload id and the
replies to its two queries: what it posts, or nothing when there is no upload id. -/
def uploadBatchButton (text backendNum : Text) (select headers : Reply) : Except Fault (Option (List JsonObject)) := do
  let batch := if text = [] then ['0'] else text
  let dbResp ← called (query select)
  if batch = ['0'] then
    if backendNum = [] then return none
    else
      -- a pass inserts the row again, with the columns `i.at(2)` to `i.at(9)`
      let _ ← called (dbResp.mapM datapointAt)
      return some (← send backendNum dbResp headers)
  else return some (← send batch dbResp headers)

/-- One press of the button, on the table (`Upload.uploadBatch`), ends as the handler does. -/
def ending : Upload.Result → Except Fault (Option (List JsonObject))
  | .skipped => .ok none
  | .posted objects _ => .ok (some objects)
  | .threw e => .error (.threw e)

end ScoutingComputer.DatabaseScene
