import ScoutingComputer.Database.Table

/-! Reading the datapoints of a match out of a JSON document.

The library that parses the text is not modelled: a document is the value it makes,
and what follows are the operations of that value which the parser uses. -/
namespace ScoutingComputer

/-- A JSON value. The members of an object are in the order an iterator visits them. -/
inductive Json where
  | null
  | boolean (value : Bool)
  /-- A number, as its conversion to `int`. -/
  | number (value : Int)
  | string (value : Text)
  | array (elements : List Json)
  | object (members : List (Text × Json))

namespace Json

/-- `value[key]` on a value that is not const: `null` becomes an object and a missing key
gets the value `null`; any other value throws. -/
def member (key : Text) : Json → Option Json
  | object members => some ((members.lookup key).getD null)
  | null => some null
  | _ => none

/-- The conversion to a `std::string`, which throws on any other value. -/
def toText : Json → Option Text
  | string value => some value
  | _ => none

/-- The conversion to an `int`, which takes a boolean too. -/
def toInt : Json → Option Int
  | number value => some value
  | boolean value => some (if value then 1 else 0)
  | _ => none

/-- What a loop from `begin` to `end` visits. -/
def elements : Json → List Json
  | null => []
  | array elements => elements
  | object members => members.map Prod.snd
  | value => [value]

/-- `std::string field = element[key]`. -/
def field (element : Json) (key : Text) : Option Text := (element.member key).bind toText

/-- `element[key]`, or a value of its own for one that is null. -/
def fieldOr {α : Type} (convert : Json → Option α) (default : α) (element : Json) (key : Text) : Option α :=
  match element.member key with
  | none => none
  | some null => some default
  | some value => convert value

end Json

/-- `JsonParser::data` for a text: `null` when parsing throws. -/
def jsonData (parseJson : Text → Option Json) (text : Text) : Json := (parseJson text).getD .null

/-- The datapoint of an element; `none` when one of its fields throws. -/
def datapointOf (element : Json) : Option (Datapoint Text) :=
  match element.field datapointColumns.compID, element.field datapointColumns.matchID,
    element.field datapointColumns.datapointID, element.field datapointColumns.scouterID,
    element.field datapointColumns.teamID, element.field datapointColumns.allianceID,
    element.field datapointColumns.datapointValue, element.field datapointColumns.datapointTimestamp with
  | some compID, some matchID, some datapointID, some scouterID, some teamID, some allianceID,
      some datapointValue, some datapointTimestamp =>
    some ⟨compID, matchID, datapointID, scouterID, teamID, allianceID, datapointValue, datapointTimestamp⟩
  | _, _, _, _, _, _, _, _ => none

/-- The loop of `parseMatch` in its `try`: an element that throws ends it, and what was
collected so far is what is returned. -/
def collectDatapoints : List Json → List (Datapoint Text)
  | [] => []
  | element :: rest =>
    match datapointOf element with
    | some d => d :: collectDatapoints rest
    | none => []

/-- The elements of `scoutingData`; none when looking it up throws. -/
def scoutingElements (data : Json) : List Json :=
  match data.member "scoutingData".toList with
  | some scoutingData => scoutingData.elements
  | none => []

def parseMatch (data : Json) : List (Datapoint Text) := collectDatapoints (scoutingElements data)

/-! ### Teams and matches -/

structure TeamDatapoint where
  teamNum : Int
  teamName : Text
  teamDesc : Text
  deriving DecidableEq, Repr

def teamOf (element : Json) : Option TeamDatapoint :=
  match element.fieldOr Json.toText "NULL".toList "nickname".toList,
    element.fieldOr Json.toInt 0 "team_number".toList,
    element.fieldOr Json.toText "NULL".toList "website".toList with
  | some teamName, some teamNum, some teamDesc => some ⟨teamNum, teamName, teamDesc⟩
  | _, _, _ => none

/-- The loop of `parseTeams`, which an element that throws ends. -/
def collectTeams : List Json → List TeamDatapoint
  | [] => []
  | element :: rest =>
    match teamOf element with
    | some team => team :: collectTeams rest
    | none => []

def parseTeams (data : Json) : List TeamDatapoint := collectTeams data.elements

structure MatchlistDatapoint where
  tbaMatchID : Text
  compLevel : Text
  matchNumber : Int
  deriving DecidableEq, Repr

def matchOf (element : Json) : Option MatchlistDatapoint :=
  match element.fieldOr Json.toText "NULL".toList "key".toList,
    element.fieldOr Json.toText "NULL".toList "comp_level".toList,
    element.fieldOr Json.toInt (-1) "match_number".toList with
  | some tbaMatchID, some compLevel, some matchNumber => some ⟨tbaMatchID, compLevel, matchNumber⟩
  | _, _, _ => none

/-- The matches of a list; `none` when one of them throws. -/
def matchList (data : Json) : Option (List MatchlistDatapoint) := data.elements.mapM matchOf

/-- After an exception the list is empty. -/
def parseMatchList (data : Json) : List MatchlistDatapoint := (matchList data).getD []

/-! ### What is collected -/

/-- As many datapoints as elements when every element has one, and fewer otherwise. -/
theorem collectDatapoints_length (elements : List Json) :
    (collectDatapoints elements).length ≤ elements.length ∧
      ((collectDatapoints elements).length = elements.length ↔ ∀ e ∈ elements, (datapointOf e).isSome) := by
  induction elements with
  | nil => simp [collectDatapoints]
  | cons element elements ih =>
    obtain ⟨hle, hiff⟩ := ih
    cases h : datapointOf element with
    | none => simp [collectDatapoints, h]
    | some d => simpa [collectDatapoints, h] using ⟨hle, hiff⟩

/-- Every element has its datapoint, and these are what is collected. -/
theorem collectDatapoints_all {elements : List Json} (h : ∀ e ∈ elements, (datapointOf e).isSome) :
    elements.map datapointOf = (collectDatapoints elements).map some := by
  induction elements with
  | nil => rfl
  | cons element elements ih =>
    obtain ⟨d, hd⟩ := Option.isSome_iff_exists.mp (h element (List.mem_cons_self ..))
    have hrest := ih fun e he => h e (List.mem_cons_of_mem element he)
    simp only [List.map_cons, collectDatapoints, hd, hrest]

end ScoutingComputer
