import ScoutingComputer.Sql.Lexer

/-! Values put into a statement.

A template is a statement with a `?` for each value, bare or between single quotes. The
values are escaped and put in place of them. `Filled` says what the result should be: the
tokens of the template, with one value for each placeholder. A quoted value always is one
text, whatever its characters (`run_escape`); a bare one is one value exactly when it is a
numeral, since no other text makes a number token. -/
namespace ScoutingComputer.Sql

/-! ### Escaping -/

/-- `mysql_real_escape_string` on one character. -/
def escapeChar : Char → List Char
  | '\x00' => ['\\', '0']
  | '\n' => ['\\', 'n']
  | '\r' => ['\\', 'r']
  | '\\' => ['\\', '\\']
  | '\'' => ['\\', '\'']
  | '"' => ['\\', '"']
  | '\x1a' => ['\\', 'Z']
  | c => [c]

def escape (text : List Char) : List Char := text.flatMap escapeChar

theorem run_escapeChar (text : List Char) (c : Char) :
    run (.quoted '\'' text) (escapeChar c) = (.quoted '\'' (text ++ [c]), []) := by
  unfold escapeChar
  split
  any_goals rfl
  rename_i hbackslash hquote _ _
  have hq : c ≠ '\'' := fun h => hquote h
  have hb : c ≠ '\\' := fun h => hbackslash h
  simp only [run, next, if_neg hq, hb, false_and, if_false, List.nil_append]

/-- Inside quotes an escaped text is read as the text. -/
theorem run_escape (text value : List Char) :
    run (.quoted '\'' text) (escape value) = (.quoted '\'' (text ++ value), []) := by
  induction value generalizing text with
  | nil =>
    rw [List.append_nil]
    rfl
  | cons c value ih =>
    show run _ (escapeChar c ++ escape value) = _
    rw [run_append_of (run_escapeChar text c), ih, List.append_assoc]
    rfl

/-- Numbers need no escape. -/
theorem escapeChar_number {c : Char} (h : isNumberChar c = true) : escapeChar c = [c] := by
  unfold escapeChar
  split
  all_goals first | rfl | cases h

theorem escape_number {text : List Char} (h : ∀ c ∈ text, isNumberChar c = true) : escape text = text := by
  induction text with
  | nil => rfl
  | cons c text ih =>
    show escapeChar c ++ escape text = c :: text
    rw [escapeChar_number (h c (List.mem_cons_self ..)), ih fun d hd => h d (List.mem_cons_of_mem c hd)]
    rfl

/-! ### What the tokens should be -/

/-- A placeholder, as the lexer reads it in the template. -/
def IsPlaceholder (t : Token) : Prop := t = .op '?' ∨ t = .string ['?']

instance (t : Token) : Decidable (IsPlaceholder t) := inferInstanceAs (Decidable (_ ∨ _))

/-- The tokens of a template with one value for each placeholder: a text in quotes, a
number with or without a sign otherwise. -/
inductive Filled : List Token → List (List Char) → List Token → Prop
  | nil : Filled [] [] []
  | token {t : Token} {ts us : List Token} {vs : List (List Char)} : ¬ IsPlaceholder t → Filled ts vs us →
      Filled (t :: ts) vs (t :: us)
  | quoted {ts us : List Token} {vs : List (List Char)} (v : List Char) : Filled ts vs us →
      Filled (.string ['?'] :: ts) (v :: vs) (.string v :: us)
  | number {ts us : List Token} {vs : List (List Char)} (v : List Char) : Filled ts vs us →
      Filled (.op '?' :: ts) (v :: vs) (.number v :: us)
  | signed {ts us : List Token} {vs : List (List Char)} {sign : Char} (v : List Char) : sign = '-' ∨ sign = '+' →
      Filled ts vs us → Filled (.op '?' :: ts) ((sign :: v) :: vs) (.op sign :: .number v :: us)

/-- The texts that are one numeric value. -/
def NumericValue (text : List Char) : Prop :=
  Numeral text ∨ ∃ sign number, text = sign :: number ∧ (sign = '-' ∨ sign = '+') ∧ Numeral number

theorem Filled.append {ts us : List Token} {vs : List (List Char)} (h : Filled ts vs us) (xs : List Token)
    (hxs : ∀ t ∈ xs, ¬ IsPlaceholder t) : Filled (xs ++ ts) vs (xs ++ us) := by
  induction xs with
  | nil => exact h
  | cons t xs ih =>
    exact .token (hxs t (List.mem_cons_self ..)) (ih fun t' ht' => hxs t' (List.mem_cons_of_mem t ht'))

theorem Filled.of_append {xs ts tokens : List Token} {vs : List (List Char)} (h : Filled (xs ++ ts) vs tokens)
    (hxs : ∀ t ∈ xs, ¬ IsPlaceholder t) : ∃ us, tokens = xs ++ us ∧ Filled ts vs us := by
  induction xs generalizing tokens with
  | nil => exact ⟨tokens, rfl, h⟩
  | cons t xs ih =>
    have ht := hxs t (List.mem_cons_self ..)
    have hrest := fun t' ht' => hxs t' (List.mem_cons_of_mem t ht')
    rw [List.cons_append] at h
    cases h with
    | token _ h =>
      obtain ⟨us, rfl, hus⟩ := ih h hrest
      exact ⟨us, rfl, hus⟩
    | quoted => exact absurd (.inr rfl) ht
    | number => exact absurd (.inl rfl) ht
    | signed => exact absurd (.inl rfl) ht

/-- The values can be read off the tokens. -/
theorem Filled.injective {ts us : List Token} {vs ws : List (List Char)} (h : Filled ts vs us) (h' : Filled ts ws us) :
    vs = ws := by
  induction h generalizing ws with
  | nil =>
    cases h'
    rfl
  | token ht _ ih =>
    cases h' with
    | token _ h' => exact ih h'
    | quoted => exact absurd (.inr rfl) ht
    | signed => exact absurd (.inl rfl) ht
  | quoted v _ ih =>
    cases h' with
    | token ht => exact absurd (.inr rfl) ht
    | quoted _ h' => rw [ih h']
  | number v _ ih =>
    cases h' with
    | number _ h' => rw [ih h']
  | signed v _ _ ih =>
    cases h' with
    | token ht => exact absurd (.inl rfl) ht
    | signed _ _ h' => rw [ih h']

/-! ### Templates piece by piece -/

/-- A piece of a template: text, or a placeholder with the character behind it. -/
inductive Piece where
  | text (cs : List Char)
  | quoted (d : Char)
  | bare (d : Char)
  deriving DecidableEq, Repr

/-- Between tokens the piece begins and ends, and it has no placeholder of its own. -/
def Piece.Placed : Piece → Prop
  | text cs => '?' ∉ cs ∧ (run .start cs).1 = .start ∧ ∀ t ∈ (run .start cs).2, ¬ IsPlaceholder t
  | quoted d => Delimiter d
  | bare d => Delimiter d

instance (piece : Piece) : Decidable piece.Placed := by
  cases piece <;> unfold Piece.Placed <;> infer_instance

def Piece.chars : Piece → List Char
  | text cs => cs
  | quoted d => ['\'', '?', '\'', d]
  | bare d => ['?', d]

def template (pieces : List Piece) : List Char := pieces.flatMap Piece.chars

/-- The template's tokens. -/
def Piece.pattern : Piece → List Token
  | text cs => (run .start cs).2
  | quoted d => .string ['?'] :: (between d).2
  | bare d => .op '?' :: (between d).2

/-- The statement with the values in place. -/
def render : List Piece → List (List Char) → List Char
  | .text cs :: ps, vs => cs ++ render ps vs
  | .quoted d :: ps, v :: vs => '\'' :: (escape v ++ ['\'', d]) ++ render ps vs
  | .bare d :: ps, v :: vs => escape v ++ [d] ++ render ps vs
  | _, _ => []

/-- The placeholders. -/
def holes : List Piece → Nat
  | [] => 0
  | .text _ :: ps => holes ps
  | .quoted _ :: ps | .bare _ :: ps => holes ps + 1

/-- The values of the bare placeholders. -/
def bareValues : List Piece → List (List Char) → List (List Char)
  | .text _ :: ps, vs => bareValues ps vs
  | .quoted _ :: ps, _ :: vs => bareValues ps vs
  | .bare _ :: ps, v :: vs => v :: bareValues ps vs
  | _, _ => []

theorem not_isPlaceholder_between {d : Char} (h : Delimiter d) : ∀ t ∈ (between d).2, ¬ IsPlaceholder t := by
  rcases h with rfl | rfl | rfl | rfl <;> decide

theorem run_pattern {pieces : List Piece} (h : ∀ piece ∈ pieces, piece.Placed) :
    run .start (template pieces) = (.start, pieces.flatMap Piece.pattern) := by
  induction pieces with
  | nil => rfl
  | cons piece ps ih =>
    have hps := ih fun p hp => h p (List.mem_cons_of_mem piece hp)
    have hpiece := h piece (List.mem_cons_self ..)
    have hchars : run .start piece.chars = (.start, piece.pattern) := by
      cases piece with
      | text cs => exact Prod.ext hpiece.2.1 rfl
      | quoted d => rcases hpiece with rfl | rfl | rfl | rfl <;> rfl
      | bare d => rcases hpiece with rfl | rfl | rfl | rfl <;> rfl
    show run .start (piece.chars ++ template ps) = (.start, piece.pattern ++ ps.flatMap Piece.pattern)
    rw [run_append_of hchars, hps]

theorem run_quoted (v : List Char) {d : Char} (hd : Delimiter d) :
    run .start ('\'' :: (escape v ++ ['\'', d])) = (.start, .string v :: (between d).2) := by
  have hopen : run .start ['\''] = (.quoted '\'' [], []) := rfl
  have hclose : run (.quoted '\'' v) ['\'', d] = (.start, .string v :: (between d).2) := by
    rcases hd with rfl | rfl | rfl | rfl <;> rfl
  show run .start (['\''] ++ (escape v ++ ['\'', d])) = _
  rw [run_append_of hopen, run_append_of (run_escape [] v), List.nil_append, hclose]
  rfl

theorem NumericValue.isNumberChar {v : List Char} (h : NumericValue v) : ∀ c ∈ v, isNumberChar c = true := by
  intro c hc
  rcases h with h | ⟨sign, number, rfl, hsign, hnumber⟩
  · exact h.isNumberChar hc
  · rcases List.mem_cons.mp hc with rfl | hc
    · rcases hsign with rfl | rfl <;> rfl
    · exact hnumber.isNumberChar hc

/-- Values that are numeric where they are bare are read one by one. -/
theorem run_render {pieces : List Piece} {vs : List (List Char)} (h : ∀ piece ∈ pieces, piece.Placed)
    (hlength : holes pieces = vs.length) (hbare : ∀ v ∈ bareValues pieces vs, NumericValue v) :
    ∃ tokens, run .start (render pieces vs) = (.start, tokens) ∧ Filled (pieces.flatMap Piece.pattern) vs tokens := by
  induction pieces generalizing vs with
  | nil =>
    cases List.length_eq_zero_iff.mp hlength.symm
    exact ⟨[], rfl, .nil⟩
  | cons piece ps ih =>
    have hpiece := h piece (List.mem_cons_self ..)
    have hps := fun p hp => h p (List.mem_cons_of_mem piece hp)
    cases piece with
    | text cs =>
      obtain ⟨tokens, hrun, hfilled⟩ := ih hps hlength hbare
      refine ⟨(run .start cs).2 ++ tokens, ?_, hfilled.append _ hpiece.2.2⟩
      show run .start (cs ++ render ps vs) = _
      rw [run_append_of (Prod.ext hpiece.2.1 rfl : run .start cs = (.start, (run .start cs).2)), hrun]
    | quoted d =>
      cases vs with
      | nil => cases hlength
      | cons v vs =>
        obtain ⟨tokens, hrun, hfilled⟩ := ih hps (Nat.succ.inj hlength) hbare
        refine ⟨.string v :: ((between d).2 ++ tokens), ?_,
          .quoted v (hfilled.append _ (not_isPlaceholder_between hpiece))⟩
        show run .start ('\'' :: (escape v ++ ['\'', d]) ++ render ps vs) = _
        rw [run_append_of (run_quoted v hpiece), hrun]
        rfl
    | bare d =>
      cases vs with
      | nil => cases hlength
      | cons v vs =>
        have hv : NumericValue v := hbare v (List.mem_cons_self ..)
        obtain ⟨tokens, hrun, hfilled⟩ := ih hps (Nat.succ.inj hlength) fun w hw => hbare w (List.mem_cons_of_mem v hw)
        have hrest := hfilled.append _ (not_isPlaceholder_between hpiece)
        have hstart := between_delimiter hpiece
        show ∃ tokens, run .start (escape v ++ [d] ++ render ps vs) = _ ∧ _
        rw [escape_number hv.isNumberChar]
        rcases hv with hv | ⟨sign, number, rfl, hsign, hnumber⟩
        · refine ⟨.number v :: ((between d).2 ++ tokens), ?_, .number v hrest⟩
          rw [run_append_of (run_numeral hv hpiece), hstart, hrun]
          rfl
        · refine ⟨.op sign :: .number number :: ((between d).2 ++ tokens), ?_, .signed number hsign hrest⟩
          show run .start (sign :: (number ++ [d]) ++ render ps vs) = _
          rw [run_append_of (run_signed hnumber hsign hpiece), hstart, hrun]
          rfl

/-- Tokens of a statement that fill a template have numbers for its bare placeholders. -/
theorem Filled.numericValue {pieces : List Piece} {vs : List (List Char)} {tokens : List Token}
    (h : ∀ piece ∈ pieces, piece.Placed) (hfilled : Filled (pieces.flatMap Piece.pattern) vs tokens)
    (hgenuine : ∀ t ∈ tokens, Genuine t) : ∀ v ∈ bareValues pieces vs, NumericValue v := by
  induction pieces generalizing vs tokens with
  | nil =>
    intro v hv
    cases hv
  | cons piece ps ih =>
    have hpiece := h piece (List.mem_cons_self ..)
    have hps := fun p hp => h p (List.mem_cons_of_mem piece hp)
    rw [List.flatMap_cons] at hfilled
    cases piece with
    | text cs =>
      obtain ⟨us, rfl, hus⟩ := hfilled.of_append hpiece.2.2
      exact ih hps hus fun t ht => hgenuine t (List.mem_append_right _ ht)
    | quoted d =>
      cases hfilled with
      | token ht => exact absurd (.inr rfl) ht
      | quoted v hfilled =>
        obtain ⟨us, rfl, hus⟩ := Filled.of_append hfilled (not_isPlaceholder_between hpiece)
        exact ih hps hus fun t ht => hgenuine t (List.mem_cons_of_mem _ (List.mem_append_right _ ht))
    | bare d =>
      cases hfilled with
      | token ht => exact absurd (.inl rfl) ht
      | number v hfilled =>
        obtain ⟨us, rfl, hus⟩ := Filled.of_append hfilled (not_isPlaceholder_between hpiece)
        have hrest := ih hps hus fun t ht => hgenuine t (List.mem_cons_of_mem _ (List.mem_append_right _ ht))
        intro w hw
        rcases List.mem_cons.mp hw with rfl | hw
        · exact .inl (hgenuine (.number w) (List.mem_cons_self ..) w rfl)
        · exact hrest w hw
      | @signed _ _ _ sign v hsign hfilled =>
        obtain ⟨us, rfl, hus⟩ := Filled.of_append hfilled (not_isPlaceholder_between hpiece)
        have hnumber : Numeral v := hgenuine (.number v) (List.mem_cons_of_mem _ (List.mem_cons_self ..)) v rfl
        have hrest := ih hps hus fun t ht =>
          hgenuine t (List.mem_cons_of_mem _ (List.mem_cons_of_mem _ (List.mem_append_right _ ht)))
        intro w hw
        rcases List.mem_cons.mp hw with rfl | hw
        · exact .inr ⟨sign, v, rfl, hsign, hnumber⟩
        · exact hrest w hw

end ScoutingComputer.Sql
