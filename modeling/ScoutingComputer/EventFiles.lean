import ScoutingComputer.Bluetooth.BluetoothConductor

/-! The four files about an event, as the program writes them.

The scouters come from the database, the teams and the number of matches from replies
about the event, and the id of the event from the text box. Each file is written by a
handler of its own; the tablets get them one after another. -/
namespace ScoutingComputer

structure EventFiles where
  scouterList : Text
  teamCompList : Text
  compMatchNums : Text
  compID : Text
  deriving DecidableEq, Repr

/-- `readWholeFile` of one of the files. -/
def EventFiles.read (files : EventFiles) (fileName : String) : Text :=
  if fileName = "resources/csv/scouterList.csv" then files.scouterList
  else if fileName = "resources/csv/teamCompList.csv" then files.teamCompList
  else if fileName = "resources/csv/compMatchNums.csv" then files.compMatchNums
  else if fileName = "resources/csv/compID.csv" then files.compID
  else []

/-! ### The scouters -/

/-- A row of `select scouterfirstname, scouterlastname, scouterid`. -/
def scouterEntry (row : List Text) : Text :=
  row.getD 0 [] ++ ' ' :: row.getD 1 [] ++ ':' :: row.getD 2 []

/-- The handler of `scouterUpdate` on the rows of its query; `result[0]` needs a row. -/
def scouterUpdate (result : List (List Text)) (files : EventFiles) : Option EventFiles :=
  match result with
  | [] => none
  | row :: _ =>
    if row.length = 3 then some {files with scouterList := Separated.join ',' (result.map scouterEntry)}
    else some files

/-! ### The event -/

/-- What `makeTBAReq` returns in the handler of `tbaDataUpdate`: whatever arrived, and
nothing after a failure. -/
structure Update where
  /-- The text of the box. -/
  event : Text
  /-- The replies to `event/<event>/simple`, `/matches/simple` and `/teams`. -/
  validateString : Text
  matches_ : Text
  teams : Text
  deriving DecidableEq, Repr

/-- The reply is not refused. -/
def Update.valid (u : Update) : Bool :=
  !(u.validateString.length < 7 || (u.validateString.drop 5).take 5 = "Error".toList)

def countQualMatches (matchDatapoints : List MatchlistDatapoint) : Nat :=
  matchDatapoints.countP (·.compLevel = "qm".toList)

/-- Fewer than 40 qualification matches count as 150. -/
def writtenMatches (qualMatchCount : Nat) : Nat := if qualMatchCount < 40 then 150 else qualMatchCount

def matchNums (qualMatchCount : Nat) : Text := Nat.toDigits 10 (writtenMatches qualMatchCount) ++ ",13,3".toList

def teamList (teamNums : List Int) : Text := Separated.join ',' (teamNums.map decimal)

section
variable (parseJson : Text → Option Json)

/-- `getMatchData` with its reply. -/
def getMatchData (reply : Text) (files : EventFiles) : EventFiles :=
  {files with compMatchNums := matchNums (countQualMatches (parseMatchList (jsonData parseJson reply)))}

/-- `getteamsatcomphdata` with its reply: without a team the file stays. -/
def getteamsatcomphdata (reply : Text) (files : EventFiles) : EventFiles :=
  match parseTeams (jsonData parseJson reply) with
  | [] => files
  | team :: teams => {files with teamCompList := teamList ((team :: teams).map (·.teamNum))}

/-- The handler of `tbaDataUpdate`. -/
def tbaDataUpdate (u : Update) (files : EventFiles) : EventFiles :=
  if u.valid then
    {getteamsatcomphdata parseJson u.teams (getMatchData parseJson u.matches_ files) with compID := u.event}
  else files

end

end ScoutingComputer
