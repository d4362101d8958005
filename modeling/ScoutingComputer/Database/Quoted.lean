import ScoutingComputer.Database.Query
import ScoutingComputer.Sql.Literal

/-! Quoted placeholders of `Database::query`.

The function copies a statement and puts an escaped argument in place of each `?`. Where
all of these are inside texts in single quotes, and none is behind a backslash, the text
it sends has the tokens of the statement, with the arguments in place of the
placeholders (`quoted_placeholders_exact`). A backslash in front of a placeholder takes
the first character of the escaped argument with it. -/
namespace ScoutingComputer
open Sql

theorem queryText_replaced {queryStatement : Text} {queryArgs : List Text}
    (hcount : queryStatement.count '?' ≤ queryArgs.length) (hfits : ∀ v ∈ queryArgs, BufferFits (cString v)) :
    queryText queryStatement (queryArgs.map some) = some (replaced queryStatement (queryArgs.map cString)) := by
  induction queryStatement generalizing queryArgs with
  | nil => rfl
  | cons c queryStatement ih =>
    by_cases hc : c = '?'
    · subst hc
      rw [List.count_cons_self] at hcount
      cases queryArgs with
      | nil => simp at hcount
      | cons v queryArgs =>
        have hrest := ih (Nat.le_of_succ_le_succ hcount) fun w hw => hfits w (List.mem_cons_of_mem v hw)
        rw [List.map_cons, queryText_placeholder, if_pos (hfits v List.mem_cons_self), hrest]
        rfl
    · rw [List.count_cons_of_ne hc] at hcount
      have hsingle : '?' ∉ [c] := fun h => hc (List.mem_singleton.mp h).symm
      have hreplaced : ∀ vs, replaced (c :: queryStatement) vs = [c] ++ replaced queryStatement vs := fun vs => if_neg hc
      rw [← List.singleton_append, queryText_append hsingle, ih hcount hfits, List.singleton_append, hreplaced]
      rfl

/-- The text of a query whose placeholders are inside single quotes has the tokens of its
statement. Its texts are those of the statement with the arguments in place of the
placeholders, in order, each used once. -/
theorem quoted_placeholders_exact {queryStatement : Text} {queryArgs : List Text}
    (hquoted : PlaceholdersAt Quoted .start queryStatement) (hcount : queryStatement.count '?' = queryArgs.length)
    (hargs : ∀ v ∈ queryArgs, '\x00' ∉ v ∧ BufferFits v) :
    ∃ fullQuery, queryText queryStatement (queryArgs.map some) = some fullQuery ∧
      lex fullQuery = (lex queryStatement).map (fun tokens => (fillTokens tokens queryArgs).1) ∧
      ∀ tokens, lex queryStatement = some tokens → (fillTokens tokens queryArgs).2 = [] := by
  have hcString : ∀ v ∈ queryArgs, cString v = v := fun v hv => (cString_eq_self_iff v).mpr (hargs v hv).1
  have hsame : queryArgs.map cString = queryArgs := by
    rw [List.map_congr_left hcString, List.map_id']
  have hfits : ∀ v ∈ queryArgs, BufferFits (cString v) := by
    intro v hv
    rw [hcString v hv]
    exact (hargs v hv).2
  obtain ⟨hlex, hleft⟩ := lex_replaced hquoted hcount
  refine ⟨replaced queryStatement queryArgs, ?_, hlex, hleft⟩
  rw [queryText_replaced (Nat.le_of_eq hcount) hfits, hsame]

/-- Two placeholders in one text; the first argument has a quote and a `?` of its own. -/
theorem quoted_placeholders_exact_two :
    ∃ fullQuery, queryText ['\'', '?', ',', '?', '\''] [some ['\'', '?'], some ['\\']] = some fullQuery ∧
      lex fullQuery = some [.string ['\'', '?', ',', '\\']] := by
  have hquoted : PlaceholdersAt Quoted .start ['\'', '?', ',', '?', '\''] :=
    ⟨fun h => absurd h (by decide), fun _ => ⟨_, rfl⟩, fun h => absurd h (by decide), fun _ => ⟨_, rfl⟩,
      fun h => absurd h (by decide), trivial⟩
  obtain ⟨fullQuery, htext, hlex, -⟩ :=
    @quoted_placeholders_exact _ [['\'', '?'], ['\\']] hquoted (by decide) (by decide)
  exact ⟨fullQuery, htext, hlex⟩

/-- Inside a text in single quotes, behind a backslash or not. -/
def InLiteral (s : LexState) : Prop := ∃ text, s = .quoted '\'' text ∨ s = .escaped '\'' text

/-- A placeholder behind a backslash: the argument ends the text. -/
theorem escaped_placeholder_ends_literal :
    PlaceholdersAt InLiteral .start ['\'', '\\', '?', '\''] ∧
      lex ['\'', '\\', '?', '\''] = some [.string ['?']] ∧
      (queryText ['\'', '\\', '?', '\''] [some ['\'']]).bind lex = none := by
  refine ⟨⟨fun h => absurd h (by decide), fun h => absurd h (by decide), fun _ => ⟨_, .inr rfl⟩,
    fun h => absurd h (by decide), trivial⟩, by decide, by decide⟩

end ScoutingComputer
