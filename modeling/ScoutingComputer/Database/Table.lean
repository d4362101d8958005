import ScoutingComputer.Types

/-! The table `matchtransaction`, as the statements of this program change and read it.

The columns are a key, then `UploadID`, then the eight columns of a datapoint. A
value text reaches the server inside quotes or bare: a quoted text is stored as it
is, a bare one is a number, which is stored and printed in one canonical form. The
server is not part of the repository; `Server` is what the statements rely on. -/
namespace ScoutingComputer

/-- A stored value; `none` is SQL `NULL`. -/
abbrev Cell := Option Text

/-- A column value as the string that `Database::query` makes of its `char*`. -/
def printed (cell : Cell) : Text := cString (cell.getD "NULL".toList)

theorem cString_printed (cell : Cell) : cString (printed cell) = printed cell := cString_cString _

/-- The eight columns of a datapoint, in the order of the table. -/
structure Datapoint (α : Type) where
  compID : α
  matchID : α
  datapointID : α
  scouterID : α
  teamID : α
  allianceID : α
  datapointValue : α
  datapointTimestamp : α
  deriving DecidableEq, Repr

namespace Datapoint
variable {α β : Type}

def map (f : α → β) (d : Datapoint α) : Datapoint β :=
  ⟨f d.compID, f d.matchID, f d.datapointID, f d.scouterID, f d.teamID, f d.allianceID,
    f d.datapointValue, f d.datapointTimestamp⟩

def toList (d : Datapoint α) : List α :=
  [d.compID, d.matchID, d.datapointID, d.scouterID, d.teamID, d.allianceID, d.datapointValue,
    d.datapointTimestamp]

/-- The columns whose placeholders stand without quotes. -/
def bare (d : Datapoint α) : List α :=
  [d.datapointID, d.scouterID, d.teamID, d.allianceID, d.datapointTimestamp]

end Datapoint

structure Row where
  key : Nat
  uploadID : Cell
  data : Datapoint Cell
  deriving DecidableEq, Repr

/-- A row of `select *`. -/
def Row.texts (r : Row) : List Text :=
  (toString r.key).toList :: printed r.uploadID :: r.data.toList.map printed

def uploadIDColumn : Text := "UploadID".toList

/-- The names of the datapoint columns. -/
def datapointColumns : Datapoint Text :=
  ⟨"CompID".toList, "MatchID".toList, "DatapointID".toList, "ScouterID".toList, "TeamID".toList,
    "AllianceID".toList, "DatapointValue".toList, "DatapointTimestamp".toList⟩

structure Table where
  rows : List Row
  nextKey : Nat
  deriving DecidableEq, Repr

/-- What the database server does with a value text. -/
structure Server where
  /-- The value of a bare text in a numeric column, in the form it is printed in;
  `none` when the statement it stands in is rejected. -/
  number : Text → Option Cell
  number_zero : number ['0'] = some (some ['0'])
  /-- A number that was printed is printed the same way when it is read back. -/
  number_printed : ∀ text c c', number text = some c → number (printed c) = some c' →
    printed c' = printed c
  /-- Whether two quoted texts are equal in the collation of the table. -/
  sameText : Text → Text → Bool
  /-- The name of the key column. -/
  keyColumn : Text
  keyColumn_new : keyColumn ∉ uploadIDColumn :: datapointColumns.toList

namespace Server
variable (server : Server)

def columns : List Text := server.keyColumn :: uploadIDColumn :: datapointColumns.toList

/-- The values of one datapoint's placeholders: quoted texts as they are, bare ones
as numbers. -/
def store (d : Datapoint Text) : Option (Datapoint Cell) :=
  match server.number d.datapointID, server.number d.scouterID, server.number d.teamID,
    server.number d.allianceID, server.number d.datapointTimestamp with
  | some datapointID, some scouterID, some teamID, some allianceID, some datapointTimestamp =>
    some
      { compID := some d.compID
        matchID := some d.matchID
        datapointID := datapointID
        scouterID := scouterID
        teamID := teamID
        allianceID := allianceID
        datapointValue := some d.datapointValue
        datapointTimestamp := datapointTimestamp }
  | _, _, _, _, _ => none

/-- The values of the row that an `INSERT` adds; `none` when the server rejects one. -/
def values (uploadID : Text) (d : Datapoint Text) : Option (Cell × Datapoint Cell) :=
  match server.number (cString uploadID), server.store (d.map cString) with
  | some id, some data => some (id, data)
  | _, _ => none

/-- The `INSERT` of one row; `ok` is whether the server executes the statement when it
is well formed. A failed statement changes nothing. -/
def insert (ok : Bool) (uploadID : Text) (d : Datapoint Text) (t : Table) : Table :=
  if ok then
    match server.values uploadID d with
    | some (id, data) => ⟨t.rows ++ [⟨t.nextKey, id, data⟩], t.nextKey + 1⟩
    | none => t
  else t

/-- `select * from matchtransaction where UploadID=?`; a failed query returns no row. -/
def selectBatch (ok : Bool) (batch : Text) (t : Table) : List Row :=
  if ok then
    match server.number (cString batch) with
    | some (some id) => t.rows.filter (·.uploadID = some id)
    | _ => []
  else []

end Server

/-- `DELETE FROM matchtransaction WHERE UploadID=0`. -/
def Table.deleteZero (ok : Bool) (t : Table) : Table :=
  if ok then ⟨t.rows.filter (·.uploadID ≠ some ['0']), t.nextKey⟩ else t

/-- A server that reads digits as a number and `NULL` as `NULL`, and rejects any other
bare text. -/
def plainServer : Server where
  number text :=
    if text = "NULL".toList then some none
    else if text ≠ [] ∧ text.all Char.isDigit then some (some text)
    else none
  number_zero := by decide
  number_printed := by
    intro text c c' hc hc'
    split at hc
    · cases hc
      cases hc'
      rfl
    · split at hc
      · cases hc
        split at hc'
        · rename_i hnull
          cases hc'
          rw [hnull]
          decide
        · split at hc'
          · cases hc'
            exact cString_printed _
          · cases hc'
      · cases hc
  sameText a b := a == b
  keyColumn := "id".toList
  keyColumn_new := by decide

end ScoutingComputer
