import ScoutingComputer.Sql.Placeholder

/-! Placeholders anywhere in quoted texts.

A quoted text may have several placeholders among other characters. `fill` puts values in
place of them, in order. The lexer reads a template and the statement made from it in
lockstep: at each place the texts it holds are those of the template, filled
(`run_fill`). -/
namespace ScoutingComputer.Sql

/-! ### Filling -/

/-- A text with its placeholders replaced, and the values that are left. -/
def fill : List Char → List (List Char) → List Char × List (List Char)
  | [], vs => ([], vs)
  | '?' :: cs, v :: vs => (v ++ (fill cs vs).1, (fill cs vs).2)
  | c :: cs, vs => (c :: (fill cs vs).1, (fill cs vs).2)

def fillToken : Token → List (List Char) → Token × List (List Char)
  | .string text, vs => (.string (fill text vs).1, (fill text vs).2)
  | .name text, vs => (.name (fill text vs).1, (fill text vs).2)
  | t, vs => (t, vs)

/-- The values go through the tokens from left to right. -/
def fillTokens : List Token → List (List Char) → List Token × List (List Char)
  | [], vs => ([], vs)
  | t :: ts, vs => ((fillToken t vs).1 :: (fillTokens ts (fillToken t vs).2).1, (fillTokens ts (fillToken t vs).2).2)

def fillState : LexState → List (List Char) → LexState × List (List Char)
  | .quoted quote text, vs => (.quoted quote (fill text vs).1, (fill text vs).2)
  | .escaped quote text, vs => (.escaped quote (fill text vs).1, (fill text vs).2)
  | .closed quote text, vs => (.closed quote (fill text vs).1, (fill text vs).2)
  | s, vs => (s, vs)

theorem fill_cons {c : Char} (hc : c ≠ '?') (cs : List Char) (vs : List (List Char)) :
    fill (c :: cs) vs = (c :: (fill cs vs).1, (fill cs vs).2) := by
  rw [fill]
  exact fun _ _ _ h => hc h

theorem fill_append (a b : List Char) (vs : List (List Char)) :
    fill (a ++ b) vs = ((fill a vs).1 ++ (fill b (fill a vs).2).1, (fill b (fill a vs).2).2) := by
  induction a generalizing vs with
  | nil => rfl
  | cons c a ih =>
    by_cases hc : c = '?'
    · subst hc
      cases vs with
      | nil => simp [fill, ih]
      | cons v vs => simp [fill, ih]
    · rw [List.cons_append, fill_cons hc, fill_cons hc, ih]
      rfl

theorem fill_of_not_mem {text : List Char} (h : '?' ∉ text) (vs : List (List Char)) : fill text vs = (text, vs) := by
  induction text with
  | nil => rfl
  | cons c text ih =>
    simp only [List.mem_cons, not_or] at h
    rw [fill_cons (Ne.symm h.1), ih h.2]

/-- A placeholder behind a text takes the next value. -/
theorem fill_placeholder {text v : List Char} {vs rest : List (List Char)} (h : (fill text vs).2 = v :: rest) :
    fill (text ++ ['?']) vs = ((fill text vs).1 ++ v, rest) := by
  rw [fill_append, h]
  simp [fill]

theorem fill_snoc {cs : List Char} (h : '?' ∉ cs) (text : List Char) (vs : List (List Char)) :
    fill (text ++ cs) vs = ((fill text vs).1 ++ cs, (fill text vs).2) := by
  rw [fill_append, fill_of_not_mem h]

theorem fillTokens_append (a b : List Token) (vs : List (List Char)) :
    fillTokens (a ++ b) vs =
      ((fillTokens a vs).1 ++ (fillTokens b (fillTokens a vs).2).1, (fillTokens b (fillTokens a vs).2).2) := by
  induction a generalizing vs with
  | nil => rfl
  | cons t a ih => simp only [List.cons_append, fillTokens, ih]

/-! ### What filling leaves alone -/

/-- A token without a text in quotes. -/
def Plain (t : Token) : Prop := ∀ vs, fillToken t vs = (t, vs)

/-- A state without a text in quotes. -/
def Fresh (s : LexState) : Prop := ∀ vs, fillState s vs = (s, vs)

theorem fillTokens_plain {ts : List Token} (h : ∀ t ∈ ts, Plain t) (vs : List (List Char)) :
    fillTokens ts vs = (ts, vs) := by
  induction ts with
  | nil => rfl
  | cons t ts ih =>
    rw [fillTokens, h t List.mem_cons_self, ih fun t' ht' => h t' (List.mem_cons_of_mem t ht')]

/-- A step to a state and tokens that filling leaves alone. -/
def Untouched (result : LexState × List Token) : Prop := Fresh result.1 ∧ ∀ t ∈ result.2, Plain t

theorem plain_op (c : Char) : Plain (.op c) := fun _ => rfl

theorem plain_number (text : List Char) : Plain (.number text) := fun _ => rfl

theorem plain_classify (text : List Char) : Plain (classify text) := by
  unfold classify
  split <;> exact fun _ => rfl

theorem plain_broken (text : List Char) (whole : Bool) (e : Char) : ∀ t ∈ broken text whole e, Plain t := by
  unfold broken
  cases whole with
  | true => simpa using plain_classify (text ++ [e])
  | false => simpa using ⟨plain_number text, fun _ => rfl⟩

theorem plain_one {t : Token} (h : Plain t) : ∀ t' ∈ [t], Plain t' := fun _ ht' => by
  rw [List.mem_singleton.mp ht']
  exact h

theorem plain_concat {tokens : List Token} {t : Token} (h : ∀ t ∈ tokens, Plain t) (ht : Plain t) :
    ∀ t' ∈ tokens ++ [t], Plain t' := by
  intro t' ht'
  rcases List.mem_append.mp ht' with ht' | ht'
  · exact h t' ht'
  · exact plain_one ht t' ht'

theorem plain_nil : ∀ t ∈ ([] : List Token), Plain t := fun _ h => absurd h (List.not_mem_nil)

theorem untouched_between (c : Char) : Untouched (between c) := by
  unfold between
  repeat' split
  all_goals first
    | exact ⟨fun _ => rfl, plain_nil⟩
    | exact ⟨fun _ => rfl, plain_one (plain_op c)⟩

theorem untouched_behind {tokens : List Token} (h : ∀ t ∈ tokens, Plain t) (c : Char) : Untouched (behind tokens c) := by
  refine ⟨(untouched_between c).1, fun t ht => ?_⟩
  rcases List.mem_append.mp ht with ht | ht
  · exact h t ht
  · exact (untouched_between c).2 t ht

theorem untouched_inWord {tokens : List Token} (h : ∀ t ∈ tokens, Plain t) (text : List Char) (c : Char) :
    Untouched (inWord tokens text c) := by
  unfold inWord
  split
  · exact ⟨fun _ => rfl, h⟩
  · exact untouched_behind (plain_concat h (plain_classify text)) c

theorem untouched_behindDash {tokens : List Token} (h : ∀ t ∈ tokens, Plain t) (c : Char) :
    Untouched (behindDash tokens c) := by
  unfold behindDash
  split
  · exact ⟨fun _ => rfl, h⟩
  · exact untouched_behind (plain_concat h (plain_op '-')) c

/-- A state with a text in quotes. -/
def InQuotes : LexState → Prop
  | .quoted _ _ | .escaped _ _ | .closed _ _ => True
  | _ => False

/-- Outside of quotes a step has nothing to fill. -/
theorem untouched_next {s : LexState} (h : ¬ InQuotes s) (c : Char) : Untouched (next s c) := by
  cases s with
  | quoted | escaped | closed => exact absurd trivial h
  | start => exact untouched_between c
  | word text => exact untouched_inWord plain_nil text c
  | integer text =>
    simp only [next]
    split_ifs
    any_goals exact ⟨fun _ => rfl, plain_nil⟩
    exact untouched_behind (plain_one (plain_number text)) c
  | point =>
    simp only [next]
    split_ifs
    · exact ⟨fun _ => rfl, plain_nil⟩
    · exact untouched_behind (plain_one (plain_op '.')) c
  | decimal text =>
    simp only [next]
    split_ifs
    any_goals exact ⟨fun _ => rfl, plain_nil⟩
    exact untouched_behind (plain_one (plain_number text)) c
  | exponent text whole e =>
    simp only [next]
    split_ifs
    · exact ⟨fun _ => rfl, plain_nil⟩
    · exact ⟨fun _ => rfl, plain_nil⟩
    · exact untouched_inWord plain_nil _ c
    · exact untouched_inWord (plain_one (plain_number text)) [e] c
  | exponentSign text whole e sign =>
    simp only [next]
    split_ifs
    · exact ⟨fun _ => rfl, plain_nil⟩
    · exact untouched_behindDash (plain_broken text whole e) c
    · exact untouched_behind (plain_concat (plain_broken text whole e) (plain_op sign)) c
  | float text =>
    simp only [next]
    split_ifs
    · exact ⟨fun _ => rfl, plain_nil⟩
    · exact untouched_behind (plain_one (plain_number text)) c
  | dash => exact untouched_behindDash plain_nil c
  | dashes =>
    simp only [next]
    split_ifs
    · exact ⟨fun _ => rfl, plain_one (plain_op '-')⟩
    · exact ⟨fun _ => rfl, plain_nil⟩
    · exact ⟨fun _ => rfl, plain_nil⟩
    · exact untouched_behind (plain_concat (plain_one (plain_op '-')) (plain_op '-')) c
  | slash =>
    simp only [next]
    split_ifs
    · exact ⟨fun _ => rfl, plain_nil⟩
    · exact untouched_behind (plain_one (plain_op '/')) c
  | line | block | blockStar =>
    simp only [next]
    split_ifs <;> exact ⟨fun _ => rfl, plain_nil⟩

/-! ### The lockstep -/

theorem not_mem_unescape {c : Char} (hc : c ≠ '?') : '?' ∉ unescape c := by
  unfold unescape
  split
  all_goals simp_all [eq_comm]

theorem fresh_of_outside {s : LexState} (h : ¬ InQuotes s) : Fresh s := by
  cases s with
  | quoted | escaped | closed => exact absurd trivial h
  | _ => exact fun _ => rfl

theorem fillToken_literal (quote : Char) (text : List Char) (vs : List (List Char)) :
    fillToken (literal quote text) vs = (literal quote (fill text vs).1, (fill text vs).2) := by
  unfold literal
  split <;> rfl

/-- One character that is no placeholder. -/
theorem next_fill {c : Char} (hc : c ≠ '?') (s : LexState) (vs : List (List Char)) :
    next (fillState s vs).1 c =
      ((fillState (next s c).1 (fillTokens (next s c).2 vs).2).1, (fillTokens (next s c).2 vs).1) ∧
      (fillState s vs).2 = (fillState (next s c).1 (fillTokens (next s c).2 vs).2).2 := by
  by_cases hquotes : InQuotes s
  · have hsingle : '?' ∉ [c] := fun h => hc (List.mem_singleton.mp h).symm
    cases s with
    | quoted quote text =>
      show next (.quoted quote (fill text vs).1) c = _ ∧ (fill text vs).2 = _
      simp only [next]
      split_ifs
      · exact ⟨rfl, rfl⟩
      · exact ⟨rfl, rfl⟩
      · rw [fillTokens, fillState, fill_snoc hsingle]
        exact ⟨rfl, rfl⟩
    | escaped quote text =>
      show next (.escaped quote (fill text vs).1) c = _ ∧ (fill text vs).2 = _
      rw [next, next, fillTokens, fillState, fill_snoc (not_mem_unescape hc)]
      exact ⟨rfl, rfl⟩
    | closed quote text =>
      show next (.closed quote (fill text vs).1) c = _ ∧ (fill text vs).2 = _
      simp only [next]
      split_ifs with hagain
      · subst hagain
        rw [fillTokens, fillState, fill_snoc hsingle]
        exact ⟨rfl, rfl⟩
      · obtain ⟨hfresh, hplain⟩ := untouched_between c
        rw [behind, behind, List.singleton_append, List.singleton_append, fillTokens, fillToken_literal,
          fillTokens_plain hplain, hfresh]
        exact ⟨rfl, rfl⟩
    | _ => exact hquotes.elim
  · obtain ⟨hfresh, hplain⟩ := untouched_next hquotes c
    rw [fresh_of_outside hquotes, fillTokens_plain hplain, hfresh]
    exact ⟨rfl, rfl⟩

/-- Every placeholder is read in a state of this kind. -/
def PlaceholdersAt (P : LexState → Prop) : LexState → List Char → Prop
  | _, [] => True
  | s, c :: cs => (c = '?' → P s) ∧ PlaceholdersAt P (next s c).1 cs

/-- Inside a text in single quotes, and not behind a backslash. -/
def Quoted (s : LexState) : Prop := ∃ text, s = .quoted '\'' text

/-- The statement made from a template: every placeholder is replaced by a value. -/
def replaced : List Char → List (List Char) → List Char
  | [], _ => []
  | c :: cs, vs =>
    if c = '?' then
      match vs with
      | [] => replaced cs []
      | v :: vs => escape v ++ replaced cs vs
    else c :: replaced cs vs

/-- **The statement is read as the template, filled.** -/
theorem run_fill {s : LexState} {template : List Char} {vs : List (List Char)}
    (hquoted : PlaceholdersAt Quoted s template) (hcount : template.count '?' ≤ (fillState s vs).2.length) :
    run (fillState s vs).1 (replaced template (fillState s vs).2) =
      ((fillState (run s template).1 (fillTokens (run s template).2 vs).2).1, (fillTokens (run s template).2 vs).1) ∧
    (fillState (run s template).1 (fillTokens (run s template).2 vs).2).2.length + template.count '?' =
      (fillState s vs).2.length := by
  induction template generalizing s vs with
  | nil => exact ⟨rfl, rfl⟩
  | cons c template ih =>
    obtain ⟨hhere, hrest⟩ := hquoted
    by_cases hc : c = '?'
    · subst hc
      obtain ⟨text, rfl⟩ := hhere rfl
      have hstate : fillState (.quoted '\'' text) vs = (.quoted '\'' (fill text vs).1, (fill text vs).2) := rfl
      rw [List.count_cons_self] at hcount ⊢
      rw [hstate] at hcount ⊢
      cases hleft : (fill text vs).2 with
      | nil =>
        simp only [hleft, List.length_nil] at hcount
        omega
      | cons v rest =>
        have hfilled : fillState (.quoted '\'' (text ++ ['?'])) vs = (.quoted '\'' ((fill text vs).1 ++ v), rest) := by
          rw [fillState, fill_placeholder hleft]
        simp only [hleft, List.length_cons, Nat.add_le_add_iff_right] at hcount
        have ih := @ih (.quoted '\'' (text ++ ['?'])) vs hrest
        rw [hfilled] at ih
        obtain ⟨hrun, hlength⟩ := ih hcount
        have hreplaced : replaced ('?' :: template) (v :: rest) = escape v ++ replaced template rest := rfl
        have hstep : run (.quoted '\'' text) ('?' :: template) = run (.quoted '\'' (text ++ ['?'])) template := rfl
        rw [hreplaced, hstep, run_append_of (run_escape _ v), hrun]
        refine ⟨rfl, ?_⟩
        rw [← Nat.add_assoc, hlength]
        rfl
    · have hcount' : (c :: template).count '?' = template.count '?' := List.count_cons_of_ne hc
      have hreplaced : ∀ left, replaced (c :: template) left = c :: replaced template left := fun left => if_neg hc
      rw [hcount'] at hcount ⊢
      obtain ⟨hnext, hleft⟩ := next_fill hc s vs
      rw [hleft] at hcount ⊢
      obtain ⟨hrun, hlength⟩ := ih hrest hcount
      rw [hreplaced, run, run, hnext, hrun, fillTokens_append]
      exact ⟨rfl, hlength⟩

theorem plain_finish {s : LexState} (h : ¬ InQuotes s) {tokens : List Token} (hfinish : finish s = some tokens) :
    ∀ t ∈ tokens, Plain t := by
  cases s with
  | quoted | escaped | closed => exact absurd trivial h
  | block | blockStar => cases hfinish
  | start | dashes | line =>
    cases hfinish
    exact plain_nil
  | word text =>
    cases hfinish
    exact plain_one (plain_classify text)
  | integer text | decimal text | float text =>
    cases hfinish
    exact plain_one (plain_number text)
  | point | dash | slash =>
    cases hfinish
    exact plain_one (plain_op _)
  | exponent text whole e =>
    cases hfinish
    exact plain_broken text whole e
  | exponentSign text whole e sign =>
    cases hfinish
    exact plain_concat (plain_broken text whole e) (plain_op sign)

/-- The end completes the same tokens, with the values that are left for it. -/
theorem finish_fill (s : LexState) (vs : List (List Char)) :
    finish (fillState s vs).1 = (finish s).map (fun tokens => (fillTokens tokens vs).1) ∧
      ∀ tokens, finish s = some tokens → (fillTokens tokens vs).2 = (fillState s vs).2 := by
  by_cases hquotes : InQuotes s
  · cases s with
    | quoted | escaped => exact ⟨rfl, fun _ h => by cases h⟩
    | closed quote text =>
      refine ⟨?_, ?_⟩
      · show some [literal quote (fill text vs).1] = some (fillTokens [literal quote text] vs).1
        rw [fillTokens, fillToken_literal]
        rfl
      · intro tokens h
        cases h
        rw [fillTokens, fillToken_literal]
        rfl
    | _ => exact hquotes.elim
  · rw [fresh_of_outside hquotes]
    cases hfinish : finish s with
    | none => exact ⟨rfl, fun _ h => by cases h⟩
    | some tokens =>
      have hplain := fillTokens_plain (plain_finish hquotes hfinish) vs
      refine ⟨?_, fun tokens' h => ?_⟩
      · rw [Option.map_some, hplain]
      · cases h
        rw [hplain]

/-- A template with its placeholders in single quotes, and the statement made from it: the
same tokens, with the values in place of the placeholders, each once and in order. -/
theorem lex_replaced {template : List Char} {vs : List (List Char)} (hquoted : PlaceholdersAt Quoted .start template)
    (hcount : template.count '?' = vs.length) :
    lex (replaced template vs) = (lex template).map (fun tokens => (fillTokens tokens vs).1) ∧
    ∀ tokens, lex template = some tokens → (fillTokens tokens vs).2 = [] := by
  have hstart : fillState .start vs = (.start, vs) := rfl
  obtain ⟨hrun, hlength⟩ := @run_fill .start template vs hquoted (Nat.le_of_eq hcount)
  rw [hstart] at hrun hlength
  rw [hcount] at hlength
  change _ + vs.length = vs.length at hlength
  obtain ⟨hend, hleft⟩ := finish_fill (run .start template).1 (fillTokens (run .start template).2 vs).2
  have hnone : (fillState (run .start template).1 (fillTokens (run .start template).2 vs).2).2 = [] :=
    List.eq_nil_of_length_eq_zero (by omega)
  refine ⟨?_, ?_⟩
  · rw [lex, hrun, lex, hend, Option.map_map, Option.map_map]
    congr 1
    funext tokens
    rw [Function.comp_apply, Function.comp_apply, fillTokens_append]
  · intro tokens h
    rw [lex, Option.map_eq_some_iff] at h
    obtain ⟨last, hfinish, rfl⟩ := h
    rw [fillTokens_append]
    exact (hleft last hfinish).trans hnone

end ScoutingComputer.Sql
