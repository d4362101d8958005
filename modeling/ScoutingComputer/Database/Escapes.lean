import Mathlib.Algebra.Ring.Int.Defs
import Mathlib.Algebra.Ring.Nat
import ScoutingComputer.Database.Query
import ScoutingComputer.Socket.Calls

/-! The buffers for escaped texts.

`mysql_real_escape_string` writes one or two characters for each of its source and a `NUL`
at the end, and trusts that the buffer is large enough. The three buffers are allocated from
lengths that are `int`s; one of them from the length of another text. -/
namespace ScoutingComputer
open Socket (intOfSize sizeOfInt intOfSize_eq)

/-- A call of `mysql_real_escape_string`. -/
structure EscapeCall where
  /-- The size of the buffer, if there is one. -/
  size : Option Nat
  written : Text
  deriving DecidableEq

/-- The call writes inside its buffer. -/
def EscapeCall.InBounds (call : EscapeCall) : Prop := ∃ size, call.size = some size ∧ call.written.length ≤ size

/-- `malloc((len*2)+1)`: a result that is no `int` is undefined, and nobody has half of the
address space. -/
def escapeBuffer (len : Int) : Option Nat :=
  if -2 ^ 31 ≤ len * 2 ∧ len * 2 + 1 < 2 ^ 31 then
    if sizeOfInt (len * 2 + 1) < 2 ^ 63 then some (sizeOfInt (len * 2 + 1)) else none
  else none

section
variable (escapeChar : Char → List Char)

/-- What is written for a text, when its length is passed as an `int`; the function takes an
`unsigned long`, which has 32 bits. -/
def escapeInto (source : Text) (len : Int) : Text := (source.take (len % 2 ^ 32).toNat).flatMap escapeChar ++ ['\x00']

/-- The escaping in `Database::getHeaders`. -/
def headersEscapes (table : Text) (columns : Option Text) : List EscapeCall :=
  let tableNameLen := intOfSize (cString table).length
  let tableEscaped := ⟨escapeBuffer tableNameLen, escapeInto escapeChar (cString table) tableNameLen⟩
  match columns with
  | none => [tableEscaped]
  | some columns =>
    let columnsLen := intOfSize (cString columns).length
    [tableEscaped, ⟨escapeBuffer tableNameLen, escapeInto escapeChar (cString columns) columnsLen⟩]

/-- The escaping in `Database::query`. -/
def queryEscapes : Text → List (Option Text) → List EscapeCall
  | [], _ => []
  | c :: queryStatement, queryArgs =>
    if c = '?' then
      match queryArgs with
      -- `va_arg` without an argument
      | [] => []
      | none :: queryArgs => queryEscapes queryStatement queryArgs
      | some currQuery :: queryArgs =>
        let currQueryLen := intOfSize (cString currQuery).length
        ⟨escapeBuffer currQueryLen, escapeInto escapeChar (cString currQuery) currQueryLen⟩ ::
          queryEscapes queryStatement queryArgs
    else queryEscapes queryStatement queryArgs

end

/-- A length that is an `int` twice over. -/
def HalfInt (length : Nat) : Prop := length % 2 ^ 32 < 2 ^ 30

/-- What escaping adds to a text. -/
def doubled (escapeChar : Char → List Char) (text : Text) : Nat := text.countP fun c => (escapeChar c).length = 2

/-- As many of the columns as are passed, escaped, are no longer than the buffer for the
name of the table. -/
def ColumnsFit (escapeChar : Char → List Char) (table columns : Text) : Prop :=
  columns.length % 2 ^ 32 + doubled escapeChar (columns.take (columns.length % 2 ^ 32)) ≤ table.length % 2 ^ 32 * 2

/-! ### Lengths -/

theorem intOfSize_emod (n : Nat) : (intOfSize n % 2 ^ 32).toNat = n % 2 ^ 32 := by
  rw [intOfSize_eq]
  split <;> omega

/-- Half of the lengths that are an `int` have a buffer. -/
theorem escapeBuffer_eq (n : Nat) :
    escapeBuffer (intOfSize n) = if n % 2 ^ 32 < 2 ^ 30 then some (n % 2 ^ 32 * 2 + 1) else none := by
  have hmod : n % 2 ^ 32 < 2 ^ 32 := Nat.mod_lt _ (by decide)
  unfold escapeBuffer sizeOfInt
  rw [intOfSize_eq]
  generalize n % 2 ^ 32 = r at hmod
  by_cases hsign : r < 2 ^ 31
  · rw [if_pos hsign]
    by_cases hhalf : r < 2 ^ 30
    · have hsize : (((r : Int) * 2 + 1) % 2 ^ 64).toNat = r * 2 + 1 := by omega
      rw [if_pos hhalf, hsize, if_pos (by omega), if_pos (by omega)]
    · rw [if_neg hhalf, if_neg (by omega)]
  · rw [if_neg hsign, if_neg (by omega : ¬ r < 2 ^ 30)]
    split
    · exact if_neg (by omega)
    · rfl

section
variable {escapeChar : Char → List Char} (hescape : ∀ c, (escapeChar c).length = 1 ∨ (escapeChar c).length = 2)
include hescape

theorem escaped_length (text : Text) : (text.flatMap escapeChar).length = text.length + doubled escapeChar text := by
  induction text with
  | nil => rfl
  | cons c text ih =>
    rw [List.flatMap_cons, List.length_append, ih, List.length_cons]
    unfold doubled
    rw [List.countP_cons]
    obtain hone | htwo := hescape c
    · simp only [hone, Nat.reduceEqDiff, decide_false, Bool.false_eq_true, if_false]
      omega
    · simp only [htwo, decide_true, if_true]
      omega

theorem inBounds_iff (n : Nat) (source : Text) :
    EscapeCall.InBounds ⟨escapeBuffer (intOfSize n), escapeInto escapeChar source (intOfSize source.length)⟩ ↔
      HalfInt n ∧ source.length % 2 ^ 32 + doubled escapeChar (source.take (source.length % 2 ^ 32)) ≤ n % 2 ^ 32 * 2 := by
  have hwritten : (escapeInto escapeChar source (intOfSize source.length)).length =
      source.length % 2 ^ 32 + doubled escapeChar (source.take (source.length % 2 ^ 32)) + 1 := by
    rw [escapeInto, intOfSize_emod, List.length_append, escaped_length hescape, List.length_take,
      Nat.min_eq_left (Nat.mod_le ..), List.length_singleton]
  unfold EscapeCall.InBounds HalfInt
  rw [escapeBuffer_eq, hwritten]
  by_cases hhalf : n % 2 ^ 32 < 2 ^ 30
  · rw [if_pos hhalf]
    constructor
    · rintro ⟨size, hsize, hle⟩
      cases hsize
      exact ⟨hhalf, Nat.le_of_succ_le_succ hle⟩
    · rintro ⟨_, hle⟩
      exact ⟨_, rfl, Nat.succ_le_succ hle⟩
  · rw [if_neg hhalf]
    constructor
    · rintro ⟨size, hsize, _⟩
      cases hsize
    · rintro ⟨hno, _⟩
      exact absurd hno hhalf

/-- A buffer for a text's own length is large enough, if there is one. -/
theorem own_inBounds_iff (source : Text) :
    EscapeCall.InBounds ⟨escapeBuffer (intOfSize source.length), escapeInto escapeChar source (intOfSize source.length)⟩ ↔
      HalfInt source.length := by
  rw [inBounds_iff hescape]
  refine ⟨fun h => h.1, fun h => ⟨h, ?_⟩⟩
  have hdoubled : doubled escapeChar (source.take (source.length % 2 ^ 32)) ≤ source.length % 2 ^ 32 :=
    List.countP_le_length.trans (List.length_take_le ..)
  omega

theorem headersEscapes_inBounds_iff (table : Text) (columns : Option Text) :
    (∀ call ∈ headersEscapes escapeChar table columns, call.InBounds) ↔
      HalfInt (cString table).length ∧
        ∀ text, columns = some text → ColumnsFit escapeChar (cString table) (cString text) := by
  cases columns with
  | none =>
    rw [headersEscapes, List.forall_mem_singleton, own_inBounds_iff hescape]
    exact ⟨fun h => ⟨h, fun text htext => by cases htext⟩, fun h => h.1⟩
  | some columns =>
    rw [headersEscapes, List.forall_mem_cons, List.forall_mem_singleton, own_inBounds_iff hescape, inBounds_iff hescape]
    constructor
    · rintro ⟨htable, _, hfit⟩
      refine ⟨htable, fun text htext => ?_⟩
      cases htext
      exact hfit
    · rintro ⟨htable, hfit⟩
      exact ⟨htable, htable, hfit columns rfl⟩

theorem queryEscapes_inBounds_iff (queryStatement : Text) (queryArgs : List (Option Text)) :
    (∀ call ∈ queryEscapes escapeChar queryStatement queryArgs, call.InBounds) ↔
      ∀ arg, some arg ∈ queryArgs.take (queryStatement.count '?') → HalfInt (cString arg).length := by
  induction queryStatement generalizing queryArgs with
  | nil => simp [queryEscapes]
  | cons c queryStatement ih =>
    by_cases hc : c = '?'
    · subst hc
      rw [List.count_cons_self]
      cases queryArgs with
      | nil => simp [queryEscapes]
      | cons currQuery queryArgs =>
        rw [List.take_succ_cons]
        cases currQuery with
        | none =>
          rw [queryEscapes, if_pos rfl, ih]
          simp
        | some currQuery =>
          rw [queryEscapes, if_pos rfl, List.forall_mem_cons, ih, own_inBounds_iff hescape]
          simp
    · rw [show queryEscapes escapeChar (c :: queryStatement) queryArgs = queryEscapes escapeChar queryStatement queryArgs by
          conv_lhs => unfold queryEscapes
          rw [if_neg hc], ih, List.count_cons_of_ne hc]

end

/-- **Escaping stays inside its buffers** exactly when the lengths of the table and of the
arguments are half of an `int`, and the columns need no more than the table's name has. -/
theorem escapes_in_bounds_iff (escapeChar : Char → List Char)
    (hescape : ∀ c, (escapeChar c).length = 1 ∨ (escapeChar c).length = 2) (table : Text) (columns : Option Text)
    (queryStatement : Text) (queryArgs : List (Option Text)) :
    (∀ call ∈ headersEscapes escapeChar table columns ++ queryEscapes escapeChar (cString queryStatement) queryArgs,
      call.InBounds) ↔
    HalfInt (cString table).length ∧
      (∀ text, columns = some text → ColumnsFit escapeChar (cString table) (cString text)) ∧
      ∀ arg, some arg ∈ queryArgs.take ((cString queryStatement).count '?') → HalfInt (cString arg).length := by
  rw [List.forall_mem_append, headersEscapes_inBounds_iff hescape, queryEscapes_inBounds_iff hescape, and_assoc]

/-! ### The function that escapes -/

theorem escapeChar_length (c : Char) : (Sql.escapeChar c).length = 1 ∨ (Sql.escapeChar c).length = 2 := by
  unfold Sql.escapeChar
  split
  all_goals simp

/-- A query whose text is defined has escaped its arguments inside their buffers. -/
theorem queryText_inBounds {queryStatement text : Text} {queryArgs : List (Option Text)}
    (h : queryText queryStatement queryArgs = some text) :
    ∀ call ∈ queryEscapes Sql.escapeChar queryStatement queryArgs, call.InBounds := by
  rw [queryEscapes_inBounds_iff escapeChar_length]
  induction queryStatement generalizing queryArgs text with
  | nil => simp
  | cons c queryStatement ih =>
    unfold queryText at h
    by_cases hc : c = '?'
    · subst hc
      rw [if_pos rfl] at h
      rw [List.count_cons_self]
      cases queryArgs with
      | nil => cases h
      | cons currQuery queryArgs =>
        rw [List.take_succ_cons]
        cases currQuery with
        | none =>
          intro arg harg
          obtain hnull | harg := List.mem_cons.mp harg
          · cases hnull
          · exact ih h arg harg
        | some currQuery =>
          simp only at h
          split at h
          · rename_i hfits
            obtain ⟨rest, hrest, _⟩ := Option.map_eq_some_iff.mp h
            intro arg harg
            obtain hfirst | harg := List.mem_cons.mp harg
            · cases hfirst
              unfold BufferFits at hfits
              unfold HalfInt
              omega
            · exact ih hrest arg harg
          · cases h
    · rw [if_neg hc] at h
      obtain ⟨rest, hrest, _⟩ := Option.map_eq_some_iff.mp h
      rw [List.count_cons_of_ne hc]
      exact ih hrest

theorem escapes_in_bounds_iff_shortColumns :
    Sql.escapeChar '\'' = ['\\', '\''] ∧
      ∀ call ∈ headersEscapes Sql.escapeChar "matchtransaction".toList (some "teamId,'x'".toList) ++
        queryEscapes Sql.escapeChar (cString "'?'".toList) [some "O'Neill".toList], call.InBounds := by
  refine ⟨rfl, (escapes_in_bounds_iff Sql.escapeChar escapeChar_length _ _ "'?'".toList _).mpr ⟨?_, ?_, ?_⟩⟩
  · unfold HalfInt
    decide
  · intro text htext
    cases htext
    unfold ColumnsFit
    decide
  · intro arg harg
    have hargs : some arg ∈ [some "O'Neill".toList] := List.mem_of_mem_take harg
    cases List.mem_singleton.mp hargs
    unfold HalfInt
    decide

/-- The columns are longer than the buffer for the name of the table. -/
theorem columns_overflow_the_buffer :
    ¬ ∀ call ∈ headersEscapes Sql.escapeChar "team".toList (some "teamNumber,teamName".toList), call.InBounds := by
  intro h
  obtain ⟨size, hsize, hle⟩ := h ⟨some 9, "teamNumber,teamName\x00".toList⟩ (by decide +kernel)
  cases hsize
  revert hle
  decide

end ScoutingComputer
