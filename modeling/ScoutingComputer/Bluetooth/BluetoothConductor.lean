import ScoutingComputer.Database.DatabaseMan
import ScoutingComputer.Foundation.Separated
import ScoutingComputer.JsonParser
import ScoutingComputer.MurmurHash2Neutral
import ScoutingComputer.Socket.Transfer

/-! What the conductor does with the data of a transaction: the bytes it sends for a
write, and what it stores of a read.

A tablet keeps a name and a list of the matches it has scouted; both arrive in
transactions of their own. The tablet can ask which matches of its list have no row
in the table, and gets their places in the list. -/
namespace ScoutingComputer.Bluetooth
open Socket

structure MatchIdentifier where
  comp : Text
  team : Text
  matchID : Text
  deriving DecidableEq, Repr

/-- The part of a `BtTabObj` that transactions change. -/
structure TabletInfo where
  tabScoutingName : Text
  tabletMatches : List MatchIdentifier
  deriving DecidableEq, Repr

/-- A transaction that is ready: its record, with what `data.get()` gives. -/
structure ReadyTransaction where
  transactionType : TransactionType
  writeTransaction : Bool
  success : Bool
  data : Except Exception (Option (List UInt8))

/-! ### The match list -/

/-- The lines that `std::getline` reads. -/
def getLines : Text → List Text
  | [] => []
  | c :: text =>
    if c = '\n' then [] :: getLines text
    else match getLines text with
      | [] => [[c]]
      | line :: lines => (c :: line) :: lines

/-- `std::string::npos`, and the wrapping sum of two values of `size_t`. -/
def npos : Nat := 2 ^ 64 - 1

def addSize (a b : Nat) : Nat := (a + b) % 2 ^ 64

def subSize (a b : Nat) : Nat := (a + 2 ^ 64 - b) % 2 ^ 64

/-- `find(';', pos)`. -/
def findSemicolon (line : Text) (pos : Nat) : Nat :=
  match (line.drop pos).findIdx? (· = ';') with
  | some i => pos + i
  | none => npos

/-- `substr(pos, count)` for a position inside the line. -/
def substr (line : Text) (pos count : Nat) : Text := (line.drop pos).take count

/-- A line `comp;team;match`. -/
def parseMatchIdentifier (line : Text) : MatchIdentifier :=
  let firstSemicolon := findSemicolon line 0
  let secondSemicolon := findSemicolon line (addSize firstSemicolon 1)
  { comp := substr line 0 firstSemicolon
    team := substr line (addSize firstSemicolon 1) (subSize (subSize secondSemicolon firstSemicolon) 1)
    matchID := substr line (addSize secondSemicolon 1) npos }

def parseMatchIdentifiers (matches_ : Text) : List MatchIdentifier :=
  (getLines matches_).map parseMatchIdentifier

/-! ### Reads -/

section
variable (server : Server) (parseJson : Text → Option Json)

/-- `handleTransResult`. `inserts k` is whether the server executes the `INSERT` of
datapoint `k`. -/
def handleTransResult (inserts : Nat → Bool) (trans : ReadyTransaction) (parent : TabletInfo) (t : Table) :
    Except Exception (TabletInfo × Table) :=
  if trans.writeTransaction then .ok (parent, t)
  else if trans.transactionType = TRANS_RECV_MATCH then
    match trans.data with
    | .error e => .error e
    | .ok none => .error .badOptionalAccess
    | .ok (some readData) =>
      if trans.success then
        .ok (parent, addMatchDatapoints server inserts 0 (parseMatch (jsonData parseJson (ofBytes readData))) t)
      else .ok (parent, t)
  else if trans.transactionType = TRANS_RECV_TABLET_INFO then
    match trans.data with
    | .error e => .error e
    | .ok none => .ok (parent, t)
    | .ok (some tabletScoutingInfo) =>
      if trans.success then .ok ({ parent with tabScoutingName := ofBytes tabletScoutingInfo }, t)
      else .ok (parent, t)
  else if trans.transactionType = TRANS_RECV_TAB_MATCH_LIST then
    match trans.data with
    | .error e => .error e
    | .ok none => .error .badOptionalAccess
    | .ok (some readData) =>
      .ok ({ parent with
        tabletMatches := parent.tabletMatches ++ parseMatchIdentifiers (ofBytes readData) }, t)
  else .ok (parent, t)

end

/-! ### Writes -/

section
variable (server : Server) (readWholeFile : String → Text)

/-- The row is one of this match. -/
def RowMatches (m : MatchIdentifier) (r : Row) : Prop :=
  (∃ comp, r.data.compID = some comp ∧ server.sameText comp (cString m.comp) = true) ∧
    (∃ team, r.data.teamID = some team ∧ server.number (cString m.team) = some (some team)) ∧
    ∃ matchID, r.data.matchID = some matchID ∧ server.sameText matchID (cString m.matchID) = true

/-- `SELECT * FROM matchtransaction WHERE CompID='?' AND TeamID=? AND MatchID='?'`; a
comparison with `NULL` is not true, and a failed query returns no row. -/
def selectMatch (ok : Bool) (m : MatchIdentifier) (t : Table) : List Row :=
  if ok then
    match server.number (cString m.team) with
    | some (some team) => t.rows.filter fun r =>
        r.data.compID.any (fun comp => server.sameText comp (cString m.comp)) &&
          r.data.teamID == some team &&
          r.data.matchID.any (fun matchID => server.sameText matchID (cString m.matchID))
    | _ => []
  else []

/-- The indices of the matches whose query returns nothing, from match `i` on.
`selects i` is whether the server executes the query of match `i`. -/
def unrecvdMatches (selects : Nat → Bool) (t : Table) : Nat → List MatchIdentifier → List Nat
  | _, [] => []
  | i, m :: ms =>
    if (selectMatch server (selects i) m t).isEmpty then i :: unrecvdMatches selects t (i + 1) ms
    else unrecvdMatches selects t (i + 1) ms

/-- Indices in decimal, with commas between them. -/
def commaSeparated (indices : List Nat) : Text := Separated.join ',' (indices.map (Nat.toDigits 10))

/-- The four files of the event, a line end after each but the last. -/
def dbFileStr : Text :=
  Separated.join '\n' ([ "resources/csv/scouterList.csv", "resources/csv/teamCompList.csv",
    "resources/csv/compMatchNums.csv", "resources/csv/compID.csv" ].map readWholeFile)

/-- The bytes that `handleWriteTransactions` hands to `internalWrite`; none for a code
it has no case for. -/
def writeData (selects : Nat → Bool) (transactionType : TransactionType) (parent : TabletInfo) (t : Table) :
    Option (List UInt8) :=
  if transactionType = TRANS_SEND_LOCAL_DB then some (toBytes (dbFileStr readWholeFile))
  else if transactionType = TRANS_SEND_LOCAL_DB_HASH then
    some (bytesOfSize (murmurHash (toBytes (dbFileStr readWholeFile))).toNat)
  else if transactionType = TRANS_SEND_TAB_UNRECVD_MATCHES then
    some (toBytes (commaSeparated (unrecvdMatches server selects t 0 parent.tabletMatches)))
  else none

end

end ScoutingComputer.Bluetooth
