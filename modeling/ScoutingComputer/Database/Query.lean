import Mathlib.Algebra.Ring.Nat
import ScoutingComputer.Sql.Placeholder
import ScoutingComputer.Types

/-! The text that `Database::query` sends, and when it keeps the structure of its
statement. -/
namespace ScoutingComputer
open Sql

/-- The buffer for the escaped text has a size that is an `int`. -/
def BufferFits (text : Text) : Prop := text.length * 2 + 1 < 2 ^ 31

instance (text : Text) : Decidable (BufferFits text) := inferInstanceAs (Decidable (_ < _))

/-- The query text of `Database::query` for a statement and its `char*` arguments. A null
pointer adds nothing; a missing argument and a size that is no `int` are undefined. -/
def queryText : Text → List (Option Text) → Option Text
  | [], _ => some []
  | c :: queryStatement, queryArgs =>
    if c = '?' then
      match queryArgs with
      | [] => none
      | none :: queryArgs => queryText queryStatement queryArgs
      | some currQuery :: queryArgs =>
        if BufferFits (cString currQuery) then
          (queryText queryStatement queryArgs).map (escape (cString currQuery) ++ ·)
        else none
    else (queryText queryStatement queryArgs).map (c :: ·)

/-- The tokens of the query text are those of the statement, with one value equal to the
argument for each placeholder. -/
def KeepsStructure (queryStatement : Text) (queryArgs : List Text) : Prop :=
  ∃ pattern text tokens, lex queryStatement = some pattern ∧
    queryText queryStatement (queryArgs.map some) = some text ∧ lex text = some tokens ∧
    Filled pattern queryArgs tokens

theorem queryText_append {cs : Text} (h : '?' ∉ cs) (rest : Text) (queryArgs : List (Option Text)) :
    queryText (cs ++ rest) queryArgs = (queryText rest queryArgs).map (cs ++ ·) := by
  induction cs with
  | nil => simp
  | cons c cs ih =>
    have hc : c ≠ '?' := fun heq => h (heq ▸ List.mem_cons_self ..)
    conv_lhs => rw [List.cons_append]; unfold queryText
    rw [if_neg hc, ih fun hmem => h (List.mem_cons_of_mem c hmem), Option.map_map]
    rfl

theorem queryText_placeholder (rest v : Text) (queryArgs : List (Option Text)) :
    queryText ('?' :: rest) (some v :: queryArgs) =
      if BufferFits (cString v) then (queryText rest queryArgs).map (escape (cString v) ++ ·) else none := by
  conv_lhs => unfold queryText
  rw [if_pos rfl]

theorem delimiter_not_placeholder {d : Char} (h : Delimiter d) : '?' ∉ [d] := by
  rcases h with rfl | rfl | rfl | rfl <;> decide

/-- The text is rendered piece by piece. -/
theorem queryText_template {pieces : List Piece} {vs : List Text} (h : ∀ piece ∈ pieces, piece.Placed)
    (hlength : holes pieces = vs.length) :
    queryText (template pieces) (vs.map some) =
      if ∀ v ∈ vs, BufferFits (cString v) then some (render pieces (vs.map cString)) else none := by
  induction pieces generalizing vs with
  | nil =>
    cases List.length_eq_zero_iff.mp hlength.symm
    simp [template, queryText, render]
  | cons piece ps ih =>
    have hpiece := h piece (List.mem_cons_self ..)
    have hps := fun p hp => h p (List.mem_cons_of_mem piece hp)
    cases piece with
    | text cs =>
      show queryText (cs ++ template ps) _ = _
      rw [queryText_append hpiece.1, ih hps hlength]
      split <;> rfl
    | quoted d =>
      cases vs with
      | nil => cases hlength
      | cons v vs =>
        have hquote : '?' ∉ ['\''] := by decide
        have hend : '?' ∉ ['\'', d] := by
          rcases hpiece with rfl | rfl | rfl | rfl <;> decide
        show queryText (['\''] ++ '?' :: (['\'', d] ++ template ps)) (some v :: vs.map some) = _
        rw [queryText_append hquote, queryText_placeholder, queryText_append hend, ih hps (Nat.succ.inj hlength)]
        simp only [List.forall_mem_cons]
        by_cases hv : BufferFits (cString v)
        · simp only [hv, true_and, if_true]
          split
          · simp [render]
          · rfl
        · simp only [hv, false_and, if_false]
          rfl
    | bare d =>
      cases vs with
      | nil => cases hlength
      | cons v vs =>
        show queryText ('?' :: ([d] ++ template ps)) (some v :: vs.map some) = _
        rw [queryText_placeholder, queryText_append (delimiter_not_placeholder hpiece), ih hps (Nat.succ.inj hlength)]
        simp only [List.forall_mem_cons]
        by_cases hv : BufferFits (cString v)
        · simp only [hv, true_and, if_true]
          split
          · simp [render]
          · rfl
        · simp only [hv, false_and, if_false]

theorem cString_numeric {v : Text} (h : NumericValue v) : cString v = v := by
  rw [cString_eq_self_iff]
  intro hmem
  have := h.isNumberChar _ hmem
  cases this

theorem bareValues_map (pieces : List Piece) (vs : List Text)
    (h : ∀ v ∈ bareValues pieces vs, NumericValue v) :
    bareValues pieces (vs.map cString) = bareValues pieces vs := by
  induction pieces generalizing vs with
  | nil => rfl
  | cons piece ps ih =>
    cases piece with
    | text cs => exact ih vs h
    | quoted d =>
      cases vs with
      | nil => rfl
      | cons v vs => exact ih vs h
    | bare d =>
      cases vs with
      | nil => rfl
      | cons v vs =>
        show cString v :: bareValues ps (vs.map cString) = v :: bareValues ps vs
        rw [cString_numeric (h v (List.mem_cons_self ..)), ih vs fun w hw => h w (List.mem_cons_of_mem v hw)]

/-- A query keeps the structure of its statement exactly when its arguments have no `NUL`
and fit their buffers, and those of the bare placeholders are numeric. -/
theorem keepsStructure_iff {pieces : List Piece} (vs : List Text) (h : ∀ piece ∈ pieces, piece.Placed)
    (hlength : holes pieces = vs.length) :
    KeepsStructure (template pieces) vs ↔
      (∀ v ∈ vs, '\x00' ∉ v ∧ BufferFits v) ∧ ∀ v ∈ bareValues pieces vs, NumericValue v := by
  have hpattern : lex (template pieces) = some (pieces.flatMap Piece.pattern) := by
    unfold lex
    rw [run_pattern h]
    simp [finish]
  have hrun : ∀ ws : List Text, holes pieces = ws.length → (∀ v ∈ bareValues pieces ws, NumericValue v) →
      ∃ tokens, lex (render pieces ws) = some tokens ∧ Filled (pieces.flatMap Piece.pattern) ws tokens := by
    intro ws hws hbare
    obtain ⟨tokens, hrun, hfilled⟩ := run_render h hws hbare
    refine ⟨tokens, ?_, hfilled⟩
    unfold lex
    rw [hrun]
    simp [finish]
  constructor
  · intro hkeeps
    obtain ⟨pattern, text, tokens, hlex, htext, htokens, hfilled⟩ := hkeeps
    rw [hpattern] at hlex
    cases hlex
    have hbare := hfilled.numericValue h (lex_genuine htokens)
    rw [queryText_template h hlength] at htext
    split at htext
    · rename_i hfits
      cases htext
      -- the text is also that of the arguments as C strings, so they are these
      have hlength' : holes pieces = (vs.map cString).length := hlength.trans (List.length_map ..).symm
      obtain ⟨tokens', htokens', hfilled'⟩ := hrun (vs.map cString) hlength' (by
        rw [bareValues_map pieces vs hbare]
        exact hbare)
      rw [htokens] at htokens'
      cases htokens'
      have hsame : vs = vs.map cString := hfilled.injective hfilled'
      have hcString : ∀ v ∈ vs, cString v = v := by
        intro v hv
        have hid : vs.map cString = vs.map id := by rw [List.map_id, ← hsame]
        exact List.map_inj_left.mp hid v hv
      refine ⟨fun v hv => ⟨(cString_eq_self_iff v).mp (hcString v hv), ?_⟩, hbare⟩
      rw [← hcString v hv]
      exact hfits v hv
    · cases htext
  · intro hargs
    obtain ⟨hvs, hbare⟩ := hargs
    have hcString : ∀ v ∈ vs, cString v = v := fun v hv => (cString_eq_self_iff v).mpr (hvs v hv).1
    have hsame : vs.map cString = vs := by
      rw [List.map_congr_left hcString, List.map_id']
    obtain ⟨tokens, htokens, hfilled⟩ := hrun vs hlength hbare
    refine ⟨_, render pieces vs, tokens, hpattern, ?_, htokens, hfilled⟩
    rw [queryText_template h hlength, hsame, if_pos]
    intro v hv
    rw [hcString v hv]
    exact (hvs v hv).2

end ScoutingComputer
