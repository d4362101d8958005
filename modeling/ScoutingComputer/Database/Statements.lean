import ScoutingComputer.Bluetooth.BluetoothConductor
import ScoutingComputer.Database.Query

/-! The two statements that carry data from a tablet.

Three of the values of the `INSERT` and two of the `SELECT` stand in quotes; the others
are bare, and the escape does not protect them. -/
namespace ScoutingComputer
open Sql

/-- The statement of `DatabaseMan::addMatchDatapoints`. -/
def insertStatement : Text :=
  "insert into matchtransaction (UploadID, CompID, MatchID, DatapointID, ScouterID, TeamID, AllianceID, DatapointValue, DatapointTimestamp) values(?,'?','?',?,?,?,?,'?',?)".toList

/-- Its arguments. -/
def insertArgs (i : Datapoint Text) : List Text :=
  [['0'], i.compID, i.matchID, i.datapointID, i.scouterID, i.teamID, i.allianceID, i.datapointValue,
    i.datapointTimestamp]

/-- The lookup of one match in `handleWriteTransactions`. -/
def selectStatement : Text :=
  "SELECT * FROM matchtransaction WHERE CompID='?' AND TeamID=? AND MatchID='?';".toList

def selectArgs (m : Bluetooth.MatchIdentifier) : List Text := [m.comp, m.team, m.matchID]

/-- The columns of the `INSERT`, up to its first value. -/
def insertColumns : Text :=
  "insert into matchtransaction (UploadID, CompID, MatchID, DatapointID, ScouterID, TeamID, AllianceID, DatapointValue, DatapointTimestamp) values(".toList

def insertPieces : List Piece :=
  [.text insertColumns, .bare ',', .quoted ',', .quoted ',', .bare ',', .bare ',', .bare ',', .bare ',', .quoted ',',
    .bare ')']

/-- The `SELECT`, up to its first value. -/
def selectWhere : Text := "SELECT * FROM matchtransaction WHERE CompID=".toList

def selectPieces : List Piece :=
  [.text selectWhere, .quoted ' ', .text "AND TeamID=".toList, .bare ' ', .text "AND MatchID=".toList, .quoted ';']

theorem template_insertPieces : template insertPieces = insertStatement := by
  unfold insertStatement insertPieces insertColumns
  rw [String.toList_ofList, String.toList_ofList]
  rfl

theorem template_selectPieces : template selectPieces = selectStatement := by
  unfold selectStatement selectPieces selectWhere
  rw [String.toList_ofList, String.toList_ofList, String.toList_ofList, String.toList_ofList]
  rfl

theorem insertPieces_placed : ∀ piece ∈ insertPieces, piece.Placed := by
  unfold insertPieces insertColumns
  rw [String.toList_ofList]
  decide +kernel

theorem selectPieces_placed : ∀ piece ∈ selectPieces, piece.Placed := by
  unfold selectPieces selectWhere
  rw [String.toList_ofList, String.toList_ofList, String.toList_ofList]
  decide +kernel

/-- The tokens of the lookup. -/
example : lex selectStatement = some
    [.word "SELECT".toList, .op '*', .word "FROM".toList, .word "matchtransaction".toList, .word "WHERE".toList,
      .word "CompID".toList, .op '=', .string ['?'], .word "AND".toList, .word "TeamID".toList, .op '=', .op '?',
      .word "AND".toList, .word "MatchID".toList, .op '=', .string ['?'], .op ';'] := by
  unfold selectStatement
  rw [String.toList_ofList]
  decide +kernel

theorem numericValue_zero : NumericValue ['0'] :=
  .inl (.plain (.integer (digits_singleton rfl) (by simp)))

/-- **Data from a tablet keeps the structure of a statement** exactly when the bare
values are numeric, and every value is seen whole. -/
theorem statements_keep_structure_iff (i : Datapoint Text) (m : Bluetooth.MatchIdentifier)
    (hi : ∀ field ∈ i.toList, '\x00' ∉ field) :
    (KeepsStructure insertStatement (insertArgs i) ↔
      (∀ field ∈ i.toList, BufferFits field) ∧ ∀ field ∈ i.bare, NumericValue field) ∧
    (KeepsStructure selectStatement (selectArgs m) ↔
      (∀ field ∈ selectArgs m, '\x00' ∉ field ∧ BufferFits field) ∧ NumericValue m.team) := by
  constructor
  · have hkeeps := keepsStructure_iff (insertArgs i) insertPieces_placed rfl
    rw [template_insertPieces] at hkeeps
    have hbare : bareValues insertPieces (insertArgs i) = ['0'] :: i.bare := rfl
    have hargs : insertArgs i = ['0'] :: i.toList := rfl
    rw [hkeeps, hbare, hargs]
    simp only [List.forall_mem_cons]
    constructor
    · intro h
      exact ⟨fun field hfield => (h.1.2 field hfield).2, h.2.2⟩
    · intro h
      exact ⟨⟨by decide, fun field hfield => ⟨hi field hfield, h.1 field hfield⟩⟩, numericValue_zero, h.2⟩
  · have hkeeps := keepsStructure_iff (selectArgs m) selectPieces_placed rfl
    rw [template_selectPieces] at hkeeps
    have hbare : bareValues selectPieces (selectArgs m) = [m.team] := rfl
    rw [hkeeps, hbare, List.forall_mem_singleton]

/-- A datapoint of a match, with the team given. -/
def datapointOfTeam (team : Text) : Datapoint Text :=
  ⟨['c'], ['5'], ['3'], ['2'], team, ['1'], ['i', 't', '\'', 's'], ['9']⟩

theorem numericValue_digit {c : Char} (hc : c.isDigit = true) : NumericValue [c] :=
  .inl (.plain (.integer (digits_singleton hc) (by simp)))

theorem statements_keep_structure_iff_digits :
    KeepsStructure insertStatement (insertArgs (datapointOfTeam ['8'])) ∧
      KeepsStructure selectStatement (selectArgs ⟨['c'], ['8'], ['5']⟩) := by
  have hiff := statements_keep_structure_iff (datapointOfTeam ['8']) ⟨['c'], ['8'], ['5']⟩ (by decide +kernel)
  have hbare : ∀ field ∈ (datapointOfTeam ['8']).bare, NumericValue field := by
    show ∀ field ∈ [['3'], ['2'], ['8'], ['1'], ['9']], NumericValue field
    simp only [List.forall_mem_cons]
    exact ⟨numericValue_digit rfl, numericValue_digit rfl, numericValue_digit rfl, numericValue_digit rfl,
      numericValue_digit rfl, fun _ h => absurd h (List.not_mem_nil)⟩
  exact ⟨hiff.1.mpr ⟨by decide +kernel, hbare⟩, hiff.2.mpr ⟨by decide +kernel, numericValue_digit rfl⟩⟩

/-- A match of a list whose team is a condition. -/
def conditionAsTeam : Bluetooth.MatchIdentifier := ⟨['c'], "1 OR 1=1".toList, ['5']⟩

/-- A team that ends the row and begins another. -/
def rowAsTeam : Datapoint Text := datapointOfTeam "8,1,1,1),(0,1,1,3,2,8".toList

theorem not_numericValue {v : Text} {c : Char} (hc : c ∈ v) (h : isNumberChar c = false) : ¬ NumericValue v := by
  intro hv
  rw [hv.isNumberChar c hc] at h
  cases h

/-- The lookup of such a match has another condition, and the `INSERT` of such a
datapoint a second row. -/
theorem bare_team_changes_statements :
    ((queryText selectStatement ((selectArgs conditionAsTeam).map some)).bind lex = some
        [.word "SELECT".toList, .op '*', .word "FROM".toList, .word "matchtransaction".toList, .word "WHERE".toList,
          .word "CompID".toList, .op '=', .string ['c'], .word "AND".toList, .word "TeamID".toList, .op '=',
          .number ['1'], .word "OR".toList, .number ['1'], .op '=', .number ['1'], .word "AND".toList,
          .word "MatchID".toList, .op '=', .string ['5'], .op ';'] ∧
      ¬ KeepsStructure selectStatement (selectArgs conditionAsTeam)) ∧
    (∀ field ∈ rowAsTeam.toList, '\x00' ∉ field) ∧ ¬ KeepsStructure insertStatement (insertArgs rowAsTeam) := by
  refine ⟨⟨?_, ?_⟩, ?_, ?_⟩
  · unfold selectStatement conditionAsTeam
    rw [String.toList_ofList, String.toList_ofList]
    decide +kernel
  · rw [← template_selectPieces, keepsStructure_iff _ selectPieces_placed rfl]
    intro h
    have hspace : ' ' ∈ conditionAsTeam.team := by decide +kernel
    exact not_numericValue hspace rfl (h.2 _ (List.mem_singleton.mpr rfl))
  · unfold rowAsTeam
    rw [String.toList_ofList]
    decide +kernel
  · rw [← template_insertPieces, keepsStructure_iff _ insertPieces_placed rfl]
    intro h
    have hparenthesis : '(' ∈ rowAsTeam.teamID := by decide +kernel
    exact not_numericValue hparenthesis rfl (h.2 rowAsTeam.teamID (by simp [bareValues, insertPieces, insertArgs]))

end ScoutingComputer
