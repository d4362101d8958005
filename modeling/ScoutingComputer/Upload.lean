import ScoutingComputer.Database.Table

/-! The handler of the upload button.

A batch text that is blank or `0` stands for the data not yet uploaded: its rows are
read, the backend is asked for the next upload id, each row is inserted again under
that id and the rows with id 0 are deleted. The payload is made from the rows as they
were read and the column names, and is posted to the backend. -/
namespace ScoutingComputer.Upload

/-- An object of the payload: its members in the order they were first assigned. -/
abbrev JsonObject := List (Text × Text)

/-- `object[name] = value`. -/
def assign (object : JsonObject) (name value : Text) : JsonObject :=
  if object.any (·.1 = name) then object.map fun m => if m.1 = name then (name, value) else m
  else object ++ [(name, value)]

/-- What the database and the backend do during one press of the button. -/
structure Outcomes where
  /-- Whether the `select` of the rows is executed. -/
  select : Bool
  /-- The reply of `getNextUploadID.php`, empty when the request failed. -/
  backendNum : Text
  /-- Whether the `INSERT` and the `DELETE` of each pass of the loop are executed. -/
  insert : Nat → Bool
  delete : Nat → Bool
  /-- Whether the query for the column names is executed. -/
  headers : Bool
  /-- Whether the backend accepted the posted payload. -/
  post : Bool

inductive Result where
  /-- No upload id: the handler goes on to the next frame. -/
  | skipped
  | posted (payload : List JsonObject) (accepted : Bool)
  /-- A `vector::at` out of range, which nothing catches. -/
  | threw (error : Exception)
  deriving DecidableEq, Repr

/-- `i.at(2)` to `i.at(9)`. -/
def datapointAt (row : List Text) : Except Exception (Datapoint Text) :=
  match row with
  | _ :: _ :: compID :: matchID :: datapointID :: scouterID :: teamID :: allianceID ::
      datapointValue :: datapointTimestamp :: _ =>
    .ok ⟨compID, matchID, datapointID, scouterID, teamID, allianceID, datapointValue, datapointTimestamp⟩
  | _ => .error .outOfRange

/-- The loop over the rows read, from pass `k`: an `INSERT` of the row under the new id
and a `DELETE` of every row with id 0. -/
def rewriteBatch (server : Server) (o : Outcomes) :
    Nat → List (List Text) → Table → Table × Except Exception Unit
  | _, [], t => (t, .ok ())
  | k, row :: rows, t =>
    match datapointAt row with
    | .error e => (t, .error e)
    | .ok d =>
      rewriteBatch server o (k + 1) rows
        ((server.insert (o.insert k) o.backendNum d t).deleteZero (o.delete k))

/-- One row of the payload, from column `j` on: `jsonToBeSent[i][columnNames.at(j)] = ..`. -/
def payloadObject (columnNames : List Text) (batch : Text) :
    Nat → List Text → JsonObject → Except Exception JsonObject
  | _, [], object => .ok object
  | j, value :: values, object =>
    match columnNames[j]? with
    | none => .error .outOfRange
    | some name =>
      payloadObject columnNames batch (j + 1) values
        (assign object name (if name = uploadIDColumn then batch else value))

def payload (columnNames : List Text) (batch : Text) (rows : List (List Text)) :
    Except Exception (List JsonObject) :=
  rows.mapM fun row => payloadObject columnNames batch 0 row []

/-- Making the payload and posting it to `uploadMatchData.php`. -/
def post (server : Server) (o : Outcomes) (batch : Text) (rows : List (List Text)) : Result :=
  match payload (if o.headers then server.columns else []) batch rows with
  | .error e => .threw e
  | .ok objects => .posted objects o.post

/-- One press of the button with the text of the batch box. -/
def uploadBatch (server : Server) (o : Outcomes) (text : Text) (t : Table) : Table × Result :=
  let batch := if text = [] then ['0'] else text
  let dbResp := (server.selectBatch o.select batch t).map Row.texts
  if batch = ['0'] then
    if o.backendNum = [] then (t, .skipped)
    else match rewriteBatch server o 0 dbResp t with
      | (t', .error e) => (t', .threw e)
      | (t', .ok ()) => (t', post server o o.backendNum dbResp)
  else (t, post server o batch dbResp)

end ScoutingComputer.Upload
