import Mathlib.Data.List.Basic

/-! The lexical structure of a MySQL statement.

The lexer is an automaton that reads one character at a time: words, numerals, quoted
texts with backslash escapes and doubled quotes, comments, and single characters for
everything else. A state holds what has been read of a token, so that a statement put
together from pieces is read piece by piece (`run_append`). -/
namespace ScoutingComputer.Sql

inductive Token where
  /-- A keyword or a name. -/
  | word (text : List Char)
  | number (text : List Char)
  /-- A quoted text, decoded. -/
  | string (text : List Char)
  /-- A name in backticks. -/
  | name (text : List Char)
  | op (c : Char)
  deriving DecidableEq, Repr

inductive LexState where
  | start
  | word (text : List Char)
  | integer (text : List Char)
  /-- A point that may begin a number. -/
  | point
  | decimal (text : List Char)
  /-- The `e` behind a number, which is an integer or has a point. -/
  | exponent (text : List Char) (whole : Bool) (e : Char)
  | exponentSign (text : List Char) (whole : Bool) (e sign : Char)
  | float (text : List Char)
  | quoted (quote : Char) (text : List Char)
  | escaped (quote : Char) (text : List Char)
  /-- A quote that ends a text, unless another follows. -/
  | closed (quote : Char) (text : List Char)
  | dash
  | dashes
  | slash
  | line
  | block
  | blockStar
  deriving DecidableEq, Repr

/-! ### Characters -/

def isSpace (c : Char) : Bool := c = ' ' || c = '\t' || c = '\n' || c = '\r' || c = '\x0b' || c = '\x0c'

def isWordChar (c : Char) : Bool := c.isAlphanum || c = '_' || c = '$' || decide (128 ≤ c.toNat)

def isHexDigit (c : Char) : Bool :=
  c.isDigit || (decide ('a' ≤ c) && decide (c ≤ 'f')) || (decide ('A' ≤ c) && decide (c ≤ 'F'))

def isQuote (c : Char) : Bool := c = '\'' || c = '"' || c = '\x60'

/-- What a backslash and a character stand for. -/
def unescape : Char → List Char
  | '0' => ['\x00']
  | 'b' => ['\x08']
  | 'n' => ['\n']
  | 'r' => ['\r']
  | 't' => ['\t']
  | 'Z' => ['\x1a']
  | '%' => ['\\', '%']
  | '_' => ['\\', '_']
  | c => [c]

/-! ### Tokens -/

/-- A word that is a number in another base. -/
def isBased : List Char → Bool
  | '0' :: 'x' :: digits => !digits.isEmpty && digits.all isHexDigit
  | '0' :: 'b' :: digits => !digits.isEmpty && digits.all fun c => c = '0' || c = '1'
  | _ => false

def classify (text : List Char) : Token := if isBased text then .number text else .word text

def literal (quote : Char) (text : List Char) : Token := if quote = '\x60' then .name text else .string text

/-- A number that an `e` follows but no exponent. -/
def broken (text : List Char) (whole : Bool) (e : Char) : List Token :=
  if whole then [classify (text ++ [e])] else [.number text, .word [e]]

/-! ### The automaton -/

/-- A character between tokens. -/
def between (c : Char) : LexState × List Token :=
  if isSpace c then (.start, [])
  else if c.isDigit then (.integer [c], [])
  else if isWordChar c then (.word [c], [])
  else if isQuote c then (.quoted c [], [])
  else if c = '.' then (.point, [])
  else if c = '-' then (.dash, [])
  else if c = '/' then (.slash, [])
  else if c = '#' then (.line, [])
  else (.start, [.op c])

/-- A character behind complete tokens. -/
def behind (tokens : List Token) (c : Char) : LexState × List Token := ((between c).1, tokens ++ (between c).2)

/-- A character behind the text of a word. -/
def inWord (tokens : List Token) (text : List Char) (c : Char) : LexState × List Token :=
  if isWordChar c then (.word (text ++ [c]), tokens) else behind (tokens ++ [classify text]) c

/-- A character behind `-`; the comment needs a blank behind its two dashes. -/
def behindDash (tokens : List Token) (c : Char) : LexState × List Token :=
  if c = '-' then (.dashes, tokens) else behind (tokens ++ [.op '-']) c

def next : LexState → Char → LexState × List Token
  | .start, c => between c
  | .word text, c => inWord [] text c
  | .integer text, c =>
    if c.isDigit then (.integer (text ++ [c]), [])
    else if c = '.' then (.decimal (text ++ ['.']), [])
    else if c = 'e' ∨ c = 'E' then (.exponent text true c, [])
    else if isWordChar c then (.word (text ++ [c]), [])
    else behind [.number text] c
  | .point, c => if c.isDigit then (.decimal ['.', c], []) else behind [.op '.'] c
  | .decimal text, c =>
    if c.isDigit then (.decimal (text ++ [c]), [])
    else if c = 'e' ∨ c = 'E' then (.exponent text false c, [])
    else behind [.number text] c
  | .exponent text whole e, c =>
    if c.isDigit then (.float (text ++ [e, c]), [])
    else if c = '+' ∨ c = '-' then (.exponentSign text whole e c, [])
    else if whole then inWord [] (text ++ [e]) c
    else inWord [.number text] [e] c
  | .exponentSign text whole e sign, c =>
    if c.isDigit then (.float (text ++ [e, sign, c]), [])
    else if sign = '-' then behindDash (broken text whole e) c
    else behind (broken text whole e ++ [.op sign]) c
  | .float text, c => if c.isDigit then (.float (text ++ [c]), []) else behind [.number text] c
  | .quoted quote text, c =>
    if c = quote then (.closed quote text, [])
    else if c = '\\' ∧ quote ≠ '\x60' then (.escaped quote text, [])
    else (.quoted quote (text ++ [c]), [])
  | .escaped quote text, c => (.quoted quote (text ++ unescape c), [])
  | .closed quote text, c =>
    if c = quote then (.quoted quote (text ++ [quote]), []) else behind [literal quote text] c
  | .dash, c => behindDash [] c
  | .dashes, c =>
    if c = '-' then (.dashes, [.op '-'])
    else if isSpace c || decide (c.toNat < 32) then (if c = '\n' then .start else .line, [])
    else behind [.op '-', .op '-'] c
  | .slash, c => if c = '*' then (.block, []) else behind [.op '/'] c
  | .line, c => (if c = '\n' then .start else .line, [])
  | .block, c => (if c = '*' then .blockStar else .block, [])
  | .blockStar, c => (if c = '/' then .start else if c = '*' then .blockStar else .block, [])

/-- The tokens that the end completes; `none` when a quote or a comment is open. -/
def finish : LexState → Option (List Token)
  | .start | .dashes | .line => some []
  | .word text => some [classify text]
  | .integer text | .decimal text | .float text => some [.number text]
  | .point => some [.op '.']
  | .exponent text whole e => some (broken text whole e)
  | .exponentSign text whole e sign => some (broken text whole e ++ [.op sign])
  | .closed quote text => some [literal quote text]
  | .dash => some [.op '-']
  | .slash => some [.op '/']
  | .quoted _ _ | .escaped _ _ | .block | .blockStar => none

def run : LexState → List Char → LexState × List Token
  | s, [] => (s, [])
  | s, c :: cs => ((run (next s c).1 cs).1, (next s c).2 ++ (run (next s c).1 cs).2)

/-- The tokens of a whole statement. -/
def lex (text : List Char) : Option (List Token) := (finish (run .start text).1).map ((run .start text).2 ++ ·)

theorem run_append (s : LexState) (a b : List Char) :
    run s (a ++ b) = ((run (run s a).1 b).1, (run s a).2 ++ (run (run s a).1 b).2) := by
  induction a generalizing s with
  | nil => rfl
  | cons c a ih => simp only [List.cons_append, run, ih, List.append_assoc]

/-- A piece that moves the automaton from one state to another. -/
theorem run_append_of {s s' : LexState} {a : List Char} {tokens : List Token} (h : run s a = (s', tokens))
    (b : List Char) :
    run s (a ++ b) = ((run s' b).1, tokens ++ (run s' b).2) := by
  rw [run_append, h]

/-! ### Numerals -/

def Digits (text : List Char) : Prop := ∀ c ∈ text, c.isDigit = true

/-- Digits with at most one point. -/
inductive Mantissa : List Char → Prop
  | integer {ds : List Char} : Digits ds → ds ≠ [] → Mantissa ds
  | decimal {ds fs : List Char} : Digits ds → Digits fs → ds ≠ [] ∨ fs ≠ [] → Mantissa (ds ++ '.' :: fs)

/-- The texts that are one number. -/
inductive Numeral : List Char → Prop
  | plain {text : List Char} : Mantissa text → Numeral text
  | float {text ds : List Char} {e : Char} {sign : List Char} : Mantissa text → e = 'e' ∨ e = 'E' →
      sign = [] ∨ sign = ['+'] ∨ sign = ['-'] → Digits ds → ds ≠ [] → Numeral (text ++ e :: (sign ++ ds))
  | based {text : List Char} : isBased text = true → Numeral text

/-- A token that is a number is a numeral. -/
def Genuine (t : Token) : Prop := ∀ text, t = .number text → Numeral text

/-- What the text in a state is known to be. -/
def Held : LexState → Prop
  | .integer text => Digits text ∧ text ≠ []
  | .decimal text => Mantissa text
  | .exponent text _ e => Mantissa text ∧ (e = 'e' ∨ e = 'E')
  | .exponentSign text _ e sign => Mantissa text ∧ (e = 'e' ∨ e = 'E') ∧ (sign = '+' ∨ sign = '-')
  | .float text => ∃ mantissa e sign ds, text = mantissa ++ e :: (sign ++ ds) ∧ Mantissa mantissa ∧
      (e = 'e' ∨ e = 'E') ∧ (sign = [] ∨ sign = ['+'] ∨ sign = ['-']) ∧ Digits ds ∧ ds ≠ []
  | _ => True

/-- The state holds what it should, and the tokens are genuine. -/
def Kept (result : LexState × List Token) : Prop := Held result.1 ∧ ∀ t ∈ result.2, Genuine t

theorem digits_singleton {c : Char} (h : c.isDigit = true) : Digits [c] := by
  intro d hd
  rw [List.mem_singleton.mp hd]
  exact h

theorem Digits.append {a b : List Char} (ha : Digits a) (hb : Digits b) : Digits (a ++ b) := by
  intro c hc
  rcases List.mem_append.mp hc with hc | hc
  · exact ha c hc
  · exact hb c hc

theorem Mantissa.snoc_digit {text : List Char} {c : Char} (h : Mantissa text) (hc : c.isDigit = true) :
    Mantissa (text ++ [c]) := by
  cases h with
  | integer hds _ => exact .integer (hds.append (digits_singleton hc)) (by simp)
  | @decimal ds fs hds hfs _ =>
    rw [List.append_assoc, List.cons_append]
    exact .decimal hds (hfs.append (digits_singleton hc)) (.inr (by simp))

theorem numeral_of_float {text : List Char} (h : Held (.float text)) : Numeral text := by
  obtain ⟨mantissa, e, sign, ds, rfl, hm, he, hsign, hds, hne⟩ := h
  exact .float hm he hsign hds hne

theorem genuine_word (text : List Char) : Genuine (.word text) := fun _ h => by cases h

theorem genuine_op (c : Char) : Genuine (.op c) := fun _ h => by cases h

theorem genuine_number {text : List Char} (h : Numeral text) : Genuine (.number text) := fun _ heq => by
  cases heq
  exact h

theorem genuine_classify (text : List Char) : Genuine (classify text) := by
  unfold classify
  split
  · rename_i h
    exact genuine_number (.based h)
  · exact genuine_word text

theorem genuine_literal (quote : Char) (text : List Char) : Genuine (literal quote text) := by
  unfold literal
  split <;> exact fun _ h => by cases h

theorem genuine_broken {text : List Char} (h : Mantissa text) (whole : Bool) (e : Char) :
    ∀ t ∈ broken text whole e, Genuine t := by
  unfold broken
  cases whole with
  | true => simpa using genuine_classify _
  | false => simpa using ⟨genuine_number (.plain h), genuine_word [e]⟩

theorem genuine_nil : ∀ t ∈ ([] : List Token), Genuine t := fun _ h => absurd h (List.not_mem_nil)

theorem genuine_one {t : Token} (h : Genuine t) : ∀ t' ∈ [t], Genuine t' := fun _ ht' => by
  rw [List.mem_singleton.mp ht']
  exact h

theorem kept_between (c : Char) : Kept (between c) := by
  unfold between
  by_cases hspace : isSpace c = true
  · rw [if_pos hspace]
    exact ⟨trivial, genuine_nil⟩
  rw [if_neg hspace]
  by_cases hdigit : c.isDigit = true
  · rw [if_pos hdigit]
    exact ⟨⟨digits_singleton hdigit, List.cons_ne_nil c []⟩, genuine_nil⟩
  rw [if_neg hdigit]
  repeat' split
  -- the other states hold nothing, and only the last branch gives a token
  all_goals first | exact ⟨trivial, genuine_nil⟩ | exact ⟨trivial, genuine_one (genuine_op c)⟩

theorem kept_behind {tokens : List Token} (h : ∀ t ∈ tokens, Genuine t) (c : Char) : Kept (behind tokens c) := by
  refine ⟨(kept_between c).1, fun t ht => ?_⟩
  rcases List.mem_append.mp ht with ht | ht
  · exact h t ht
  · exact (kept_between c).2 t ht

theorem genuine_concat {tokens : List Token} {t : Token} (h : ∀ t ∈ tokens, Genuine t) (ht : Genuine t) :
    ∀ t' ∈ tokens ++ [t], Genuine t' := by
  intro t' ht'
  rcases List.mem_append.mp ht' with ht' | ht'
  · exact h t' ht'
  · rw [List.mem_singleton.mp ht']
    exact ht

theorem kept_inWord {tokens : List Token} (h : ∀ t ∈ tokens, Genuine t) (text : List Char) (c : Char) :
    Kept (inWord tokens text c) := by
  unfold inWord
  split
  · exact ⟨trivial, h⟩
  · exact kept_behind (genuine_concat h (genuine_classify text)) c

theorem kept_behindDash {tokens : List Token} (h : ∀ t ∈ tokens, Genuine t) (c : Char) :
    Kept (behindDash tokens c) := by
  unfold behindDash
  split
  · exact ⟨trivial, h⟩
  · exact kept_behind (genuine_concat h (genuine_op '-')) c

/-- One character. -/
theorem kept_next {s : LexState} (h : Held s) (c : Char) : Kept (next s c) := by
  cases s with
  | start => exact kept_between c
  | word text => exact kept_inWord genuine_nil text c
  | integer text =>
    obtain ⟨hds, hne⟩ := h
    simp only [next]
    split_ifs with hdigit hpoint he hword
    · exact ⟨⟨hds.append (digits_singleton hdigit), by simp⟩, genuine_nil⟩
    · exact ⟨.decimal hds (fun _ h => absurd h (List.not_mem_nil)) (.inl hne), genuine_nil⟩
    · exact ⟨⟨.integer hds hne, he⟩, genuine_nil⟩
    · exact ⟨trivial, genuine_nil⟩
    · exact kept_behind (genuine_one (genuine_number (.plain (.integer hds hne)))) c
  | point =>
    simp only [next]
    split_ifs with hdigit
    · refine ⟨?_, genuine_nil⟩
      exact @Mantissa.decimal [] _ (fun _ h => absurd h (List.not_mem_nil)) (digits_singleton hdigit) (.inr (by simp))
    · exact kept_behind (genuine_one (genuine_op '.')) c
  | decimal text =>
    simp only [next]
    split_ifs with hdigit he
    · exact ⟨h.snoc_digit hdigit, genuine_nil⟩
    · exact ⟨⟨h, he⟩, genuine_nil⟩
    · exact kept_behind (genuine_one (genuine_number (.plain h))) c
  | exponent text whole e =>
    obtain ⟨hm, he⟩ := h
    simp only [next]
    split_ifs with hdigit hsign hwhole
    · exact ⟨⟨text, e, [], [c], rfl, hm, he, .inl rfl, digits_singleton hdigit, by simp⟩, genuine_nil⟩
    · exact ⟨⟨hm, he, hsign⟩, genuine_nil⟩
    · exact kept_inWord genuine_nil _ c
    · exact kept_inWord (genuine_one (genuine_number (.plain hm))) _ c
  | exponentSign text whole e sign =>
    obtain ⟨hm, he, hsign⟩ := h
    simp only [next]
    split_ifs with hdigit hdash
    · refine ⟨⟨text, e, [sign], [c], rfl, hm, he, ?_, digits_singleton hdigit, by simp⟩, genuine_nil⟩
      rcases hsign with rfl | rfl
      · exact .inr (.inl rfl)
      · exact .inr (.inr rfl)
    · exact kept_behindDash (genuine_broken hm whole e) c
    · exact kept_behind (genuine_concat (genuine_broken hm whole e) (genuine_op sign)) c
  | float text =>
    simp only [next]
    split_ifs with hdigit
    · obtain ⟨mantissa, e, sign, ds, rfl, hm, he, hsign, hds, hne⟩ := h
      refine ⟨⟨mantissa, e, sign, ds ++ [c], by simp, hm, he, hsign, ?_, by simp⟩, genuine_nil⟩
      exact hds.append (digits_singleton hdigit)
    · exact kept_behind (genuine_one (genuine_number (numeral_of_float h))) c
  | quoted quote text =>
    simp only [next]
    split_ifs <;> exact ⟨trivial, genuine_nil⟩
  | escaped quote text => exact ⟨trivial, genuine_nil⟩
  | closed quote text =>
    simp only [next]
    split_ifs
    · exact ⟨trivial, genuine_nil⟩
    · exact kept_behind (genuine_one (genuine_literal quote text)) c
  | dash => exact kept_behindDash genuine_nil c
  | dashes =>
    simp only [next]
    split_ifs
    · exact ⟨trivial, genuine_one (genuine_op '-')⟩
    · exact ⟨trivial, genuine_nil⟩
    · exact ⟨trivial, genuine_nil⟩
    · exact kept_behind (genuine_concat (genuine_one (genuine_op '-')) (genuine_op '-')) c
  | slash =>
    simp only [next]
    split_ifs
    · exact ⟨trivial, genuine_nil⟩
    · exact kept_behind (genuine_one (genuine_op '/')) c
  | line =>
    simp only [next]
    split_ifs <;> exact ⟨trivial, genuine_nil⟩
  | block =>
    simp only [next]
    split_ifs <;> exact ⟨trivial, genuine_nil⟩
  | blockStar =>
    simp only [next]
    split_ifs <;> exact ⟨trivial, genuine_nil⟩

/-- A text. -/
theorem kept_run {s : LexState} (h : Held s) (text : List Char) : Kept (run s text) := by
  induction text generalizing s with
  | nil => exact ⟨h, genuine_nil⟩
  | cons c text ih =>
    have hnext := kept_next h c
    have hrest := ih hnext.1
    refine ⟨hrest.1, fun t ht => ?_⟩
    rcases List.mem_append.mp ht with ht | ht
    · exact hnext.2 t ht
    · exact hrest.2 t ht

/-- The end. -/
theorem genuine_finish {s : LexState} (h : Held s) {tokens : List Token} (hs : finish s = some tokens) :
    ∀ t ∈ tokens, Genuine t := by
  cases s with
  | start | dashes | line =>
    cases hs
    exact genuine_nil
  | word text =>
    cases hs
    exact genuine_one (genuine_classify text)
  | integer text =>
    cases hs
    exact genuine_one (genuine_number (.plain (.integer h.1 h.2)))
  | decimal text =>
    cases hs
    exact genuine_one (genuine_number (.plain h))
  | float text =>
    cases hs
    exact genuine_one (genuine_number (numeral_of_float h))
  | point =>
    cases hs
    exact genuine_one (genuine_op '.')
  | exponent text whole e =>
    cases hs
    exact genuine_broken h.1 whole e
  | exponentSign text whole e sign =>
    cases hs
    exact genuine_concat (genuine_broken h.1 whole e) (genuine_op sign)
  | closed quote text =>
    cases hs
    exact genuine_one (genuine_literal quote text)
  | dash =>
    cases hs
    exact genuine_one (genuine_op '-')
  | slash =>
    cases hs
    exact genuine_one (genuine_op '/')
  | quoted | escaped | block | blockStar => cases hs

/-- Every number token of a statement is a numeral. -/
theorem lex_genuine {text : List Char} {tokens : List Token} (h : lex text = some tokens) :
    ∀ t ∈ tokens, Genuine t := by
  unfold lex at h
  rw [Option.map_eq_some_iff] at h
  obtain ⟨last, hlast, rfl⟩ := h
  have hrun := kept_run (s := .start) trivial text
  intro t ht
  rcases List.mem_append.mp ht with ht | ht
  · exact hrun.2 t ht
  · exact genuine_finish hrun.1 hlast t ht

/-! ### Reading a numeral -/

/-- What stands behind a value in a statement. -/
def Delimiter (c : Char) : Prop := c = ',' ∨ c = ')' ∨ c = ' ' ∨ c = ';'

instance (c : Char) : Decidable (Delimiter c) := inferInstanceAs (Decidable (_ ∨ _))

theorem ne_of_isDigit {c d : Char} (h : c.isDigit = true) (hd : d.isDigit = false) : c ≠ d := by
  intro heq
  rw [heq, hd] at h
  cases h

theorem between_digit {c : Char} (h : c.isDigit = true) : between c = (.integer [c], []) := by
  have hspace : isSpace c = false := by
    unfold isSpace
    simp only [ne_of_isDigit h (d := ' ') rfl, ne_of_isDigit h (d := '\t') rfl, ne_of_isDigit h (d := '\n') rfl,
      ne_of_isDigit h (d := '\r') rfl, ne_of_isDigit h (d := '\x0b') rfl, ne_of_isDigit h (d := '\x0c') rfl,
      decide_false, Bool.or_self]
  unfold between
  rw [hspace, h]
  rfl

theorem between_delimiter {d : Char} (h : Delimiter d) : (between d).1 = .start := by
  rcases h with rfl | rfl | rfl | rfl <;> rfl

/-- Characters that a state takes in. -/
theorem run_grows (state : List Char → LexState) (P : Char → Prop)
    (h : ∀ text c, P c → next (state text) c = (state (text ++ [c]), [])) (text cs : List Char) (hcs : ∀ c ∈ cs, P c) :
    run (state text) cs = (state (text ++ cs), []) := by
  induction cs generalizing text with
  | nil => rw [List.append_nil]; rfl
  | cons c cs ih =>
    simp only [run, h text c (hcs c (List.mem_cons_self ..)),
      ih (text ++ [c]) fun d hd => hcs d (List.mem_cons_of_mem c hd), List.append_assoc, List.nil_append,
      List.singleton_append]

theorem run_integer (text ds : List Char) (h : Digits ds) : run (.integer text) ds = (.integer (text ++ ds), []) :=
  run_grows .integer (fun c => c.isDigit = true)
    (fun text c hc => by simp only [next, if_pos hc]) text ds h

theorem run_decimal (text ds : List Char) (h : Digits ds) : run (.decimal text) ds = (.decimal (text ++ ds), []) :=
  run_grows .decimal (fun c => c.isDigit = true)
    (fun text c hc => by simp only [next, if_pos hc]) text ds h

theorem run_float (text ds : List Char) (h : Digits ds) : run (.float text) ds = (.float (text ++ ds), []) :=
  run_grows .float (fun c => c.isDigit = true)
    (fun text c hc => by simp only [next, if_pos hc]) text ds h

theorem run_word (text cs : List Char) (h : ∀ c ∈ cs, isWordChar c = true) :
    run (.word text) cs = (.word (text ++ cs), []) :=
  run_grows .word (fun c => isWordChar c = true)
    (fun text c hc => by simp only [next, inWord, if_pos hc]) text cs h

theorem run_start_digits {ds : List Char} (h : Digits ds) (hne : ds ≠ []) : run .start ds = (.integer ds, []) := by
  cases ds with
  | nil => exact absurd rfl hne
  | cons c ds =>
    have hc : c.isDigit = true := h c (List.mem_cons_self ..)
    have hrest := run_integer [c] ds fun d hd => h d (List.mem_cons_of_mem c hd)
    simp only [run, next, between_digit hc, hrest, List.singleton_append, List.nil_append]

theorem run_mantissa {text : List Char} (h : Mantissa text) :
    run .start text = (.integer text, []) ∨ run .start text = (.decimal text, []) := by
  cases h with
  | integer hds hne => exact .inl (run_start_digits hds hne)
  | @decimal ds fs hds hfs hne =>
    refine .inr ?_
    by_cases hempty : ds = []
    · subst hempty
      cases fs with
      | nil => simp at hne
      | cons c fs =>
        have hc : c.isDigit = true := hfs c (List.mem_cons_self ..)
        have hrest := run_decimal ['.', c] fs fun d hd => hfs d (List.mem_cons_of_mem c hd)
        have hpoint : between '.' = (.point, []) := rfl
        simp only [List.nil_append, run, next, hpoint, if_pos hc, hrest]
        rfl
    · rw [run_append_of (run_start_digits hds hempty)]
      have hpoint : next (.integer ds) '.' = (.decimal (ds ++ ['.']), []) := rfl
      simp only [run, hpoint, run_decimal (ds ++ ['.']) fs hfs, List.nil_append, List.append_assoc,
        List.singleton_append]

/-- An exponent follows either kind of mantissa. -/
theorem next_exponent {text : List Char} {s : LexState} {e : Char} (hs : s = .integer text ∨ s = .decimal text)
    (he : e = 'e' ∨ e = 'E') : ∃ whole, next s e = (.exponent text whole e, []) := by
  rcases hs with rfl | rfl
  · refine ⟨true, ?_⟩
    rcases he with rfl | rfl <;> rfl
  · refine ⟨false, ?_⟩
    rcases he with rfl | rfl <;> rfl

theorem run_exponent {sign ds : List Char} (text : List Char) (whole : Bool) (e : Char)
    (hsign : sign = [] ∨ sign = ['+'] ∨ sign = ['-']) (hds : Digits ds) (hne : ds ≠ []) :
    run (.exponent text whole e) (sign ++ ds) = (.float (text ++ e :: (sign ++ ds)), []) := by
  cases ds with
  | nil => exact absurd rfl hne
  | cons c ds =>
    have hc : c.isDigit = true := hds c (List.mem_cons_self ..)
    have hrest : ∀ text, run (.float text) ds = (.float (text ++ ds), []) :=
      fun text => run_float text ds fun d hd => hds d (List.mem_cons_of_mem c hd)
    rcases hsign with rfl | rfl | rfl
    · simp only [List.nil_append, run, next, if_pos hc, hrest, List.append_assoc]
      rfl
    · have hplus : run (.exponent text whole e) ['+'] = (.exponentSign text whole e '+', []) := rfl
      rw [run_append_of hplus]
      simp only [run, next, if_pos hc, hrest, List.append_assoc]
      rfl
    · have hminus : run (.exponent text whole e) ['-'] = (.exponentSign text whole e '-', []) := rfl
      rw [run_append_of hminus]
      simp only [run, next, if_pos hc, hrest, List.append_assoc]
      rfl

theorem isWordChar_of_isHexDigit {c : Char} (h : isHexDigit c = true) : isWordChar c = true := by
  unfold isHexDigit at h
  unfold isWordChar Char.isAlphanum Char.isAlpha Char.isUpper Char.isLower
  simp only [Bool.or_eq_true, Bool.and_eq_true, decide_eq_true_eq, Char.le_def, ge_iff_le,
    UInt32.le_iff_toNat_le] at h ⊢
  simp only [Char.reduceVal, UInt32.reduceToNat] at h ⊢
  rcases h with (hdigit | hlower) | hupper
  · exact .inl (.inl (.inl (.inr hdigit)))
  · exact .inl (.inl (.inl (.inl (.inr (by omega)))))
  · exact .inl (.inl (.inl (.inl (.inl (by omega)))))

theorem run_based {text : List Char} (h : isBased text = true) : run .start text = (.word text, []) := by
  unfold isBased at h
  split at h
  · rename_i digits
    have hx : run .start ['0', 'x'] = (.word ['0', 'x'], []) := rfl
    have hdigits : ∀ c ∈ digits, isWordChar c = true := fun c hc =>
      isWordChar_of_isHexDigit (List.all_eq_true.mp (Bool.and_eq_true_iff.mp h).2 c hc)
    show run .start (['0', 'x'] ++ digits) = _
    rw [run_append_of hx, run_word _ digits hdigits]
    rfl
  · rename_i digits
    have hb : run .start ['0', 'b'] = (.word ['0', 'b'], []) := rfl
    have hdigits : ∀ c ∈ digits, isWordChar c = true := by
      intro c hc
      have hbit := List.all_eq_true.mp (Bool.and_eq_true_iff.mp h).2 c hc
      simp only [Bool.or_eq_true, decide_eq_true_eq] at hbit
      rcases hbit with rfl | rfl <;> rfl
    show run .start (['0', 'b'] ++ digits) = _
    rw [run_append_of hb, run_word _ digits hdigits]
    rfl
  · cases h

/-- A delimiter ends any number. -/
theorem next_delimiter {text : List Char} {s : LexState} {d : Char} (hd : Delimiter d)
    (hs : s = .integer text ∨ s = .decimal text ∨ s = .float text) : next s d = behind [.number text] d := by
  rcases hs with rfl | rfl | rfl <;> rcases hd with rfl | rfl | rfl | rfl <;> rfl

/-- A numeral in front of a delimiter is read as one number. -/
theorem run_numeral {text : List Char} (h : Numeral text) {d : Char} (hd : Delimiter d) :
    run .start (text ++ [d]) = behind [.number text] d := by
  have hone : ∀ s, run s [d] = next s d := fun s => by
    show ((next s d).1, (next s d).2 ++ []) = next s d
    rw [List.append_nil]
  cases h with
  | plain hm =>
    rcases run_mantissa hm with hrun | hrun
    · rw [run_append_of hrun, hone, next_delimiter hd (.inl rfl), List.nil_append]
    · rw [run_append_of hrun, hone, next_delimiter hd (.inr (.inl rfl)), List.nil_append]
  | @float mantissa ds e sign hm he hsign hds hne =>
    have hfloat : run .start (mantissa ++ e :: (sign ++ ds)) = (.float (mantissa ++ e :: (sign ++ ds)), []) := by
      have hmantissa : ∃ s, run .start mantissa = (s, []) ∧ (s = .integer mantissa ∨ s = .decimal mantissa) := by
        rcases run_mantissa hm with hrun | hrun
        · exact ⟨_, hrun, .inl rfl⟩
        · exact ⟨_, hrun, .inr rfl⟩
      obtain ⟨s, hrun, hs⟩ := hmantissa
      obtain ⟨whole, hnext⟩ := next_exponent hs he
      rw [run_append_of hrun]
      simp only [run, hnext, run_exponent mantissa whole e hsign hds hne, List.nil_append]
    rw [run_append_of hfloat, hone, next_delimiter hd (.inr (.inr rfl)), List.nil_append]
  | based hbased =>
    have hclassify : classify text = .number text := if_pos hbased
    have hnext : next (.word text) d = behind [classify text] d := by
      rcases hd with rfl | rfl | rfl | rfl <;> rfl
    rw [run_append_of (run_based hbased), hone, hnext, hclassify, List.nil_append]

/-! ### The characters of a numeral -/

theorem Mantissa.mem {text : List Char} (h : Mantissa text) {c : Char} (hc : c ∈ text) :
    c.isDigit = true ∨ c = '.' := by
  cases h with
  | integer hds _ => exact .inl (hds c hc)
  | @decimal ds fs hds hfs _ =>
    rcases List.mem_append.mp hc with hc | hc
    · exact .inl (hds c hc)
    · rcases List.mem_cons.mp hc with hc | hc
      · exact .inr hc
      · exact .inl (hfs c hc)

theorem Mantissa.ne_nil {text : List Char} (h : Mantissa text) : text ≠ [] := by
  cases h with
  | integer _ hne => exact hne
  | decimal => simp

/-- A numeral begins with a digit or a point. -/
theorem Numeral.head {text : List Char} (h : Numeral text) : ∃ c cs, text = c :: cs ∧ (c.isDigit = true ∨ c = '.') := by
  have hmantissa : ∀ {m : List Char} (rest : List Char), Mantissa m →
      ∃ c cs, m ++ rest = c :: cs ∧ (c.isDigit = true ∨ c = '.') := by
    intro m rest hm
    cases m with
    | nil => exact absurd rfl hm.ne_nil
    | cons c cs => exact ⟨c, cs ++ rest, rfl, hm.mem (List.mem_cons_self ..)⟩
  cases h with
  | plain hm =>
    have := hmantissa [] hm
    rwa [List.append_nil] at this
  | float hm => exact hmantissa _ hm
  | based hbased =>
    unfold isBased at hbased
    split at hbased
    · exact ⟨'0', _, rfl, .inl rfl⟩
    · exact ⟨'0', _, rfl, .inl rfl⟩
    · cases hbased

/-- The characters of numerals. -/
def isNumberChar (c : Char) : Bool := isWordChar c || c = '.' || c = '+' || c = '-'

theorem isWordChar_of_isDigit {c : Char} (h : c.isDigit = true) : isWordChar c = true := by
  unfold isWordChar Char.isAlphanum
  rw [h, Bool.or_true]
  rfl

theorem isNumberChar_of_isWordChar {c : Char} (h : isWordChar c = true) : isNumberChar c = true := by
  unfold isNumberChar
  rw [h]
  rfl

theorem Mantissa.isNumberChar {text : List Char} (h : Mantissa text) {c : Char} (hc : c ∈ text) :
    isNumberChar c = true := by
  rcases h.mem hc with hdigit | rfl
  · exact isNumberChar_of_isWordChar (isWordChar_of_isDigit hdigit)
  · rfl

theorem Numeral.isNumberChar {text : List Char} (h : Numeral text) {c : Char} (hc : c ∈ text) :
    isNumberChar c = true := by
  cases h with
  | plain hm => exact hm.isNumberChar hc
  | float hm he hsign hds _ =>
    rcases List.mem_append.mp hc with hc | hc
    · exact hm.isNumberChar hc
    · rcases List.mem_cons.mp hc with rfl | hc
      · rcases he with rfl | rfl <;> rfl
      · rcases List.mem_append.mp hc with hc | hc
        · rcases hsign with rfl | rfl | rfl
          · exact absurd hc (List.not_mem_nil)
          · rw [List.mem_singleton.mp hc]
            rfl
          · rw [List.mem_singleton.mp hc]
            rfl
        · exact isNumberChar_of_isWordChar (isWordChar_of_isDigit (hds c hc))
  | based hbased =>
    unfold isBased at hbased
    split at hbased
    · rename_i digits
      rcases List.mem_cons.mp hc with rfl | hc
      · rfl
      · rcases List.mem_cons.mp hc with rfl | hc
        · rfl
        · have hhex := List.all_eq_true.mp (Bool.and_eq_true_iff.mp hbased).2 c hc
          exact isNumberChar_of_isWordChar (isWordChar_of_isHexDigit hhex)
    · rename_i digits
      rcases List.mem_cons.mp hc with rfl | hc
      · rfl
      · rcases List.mem_cons.mp hc with rfl | hc
        · rfl
        · have hbit := List.all_eq_true.mp (Bool.and_eq_true_iff.mp hbased).2 c hc
          simp only [Bool.or_eq_true, decide_eq_true_eq] at hbit
          rcases hbit with rfl | rfl <;> rfl
    · cases hbased

/-- With a sign it is the sign and the number. -/
theorem run_signed {text : List Char} {sign : Char} (h : Numeral text) (hsign : sign = '-' ∨ sign = '+') {d : Char}
    (hd : Delimiter d) : run .start (sign :: (text ++ [d])) = behind [.op sign, .number text] d := by
  have hnumber := run_numeral h hd
  rcases hsign with rfl | rfl
  · obtain ⟨c, cs, rfl, hc⟩ := h.head
    have hdash : c ≠ '-' := by
      rcases hc with hdigit | rfl
      · exact ne_of_isDigit hdigit rfl
      · decide
    have hfirst : between '-' = (.dash, []) := rfl
    simp only [List.cons_append, run, next, hfirst, behindDash, if_neg hdash, behind, List.nil_append] at hnumber ⊢
    obtain ⟨hstate, htokens⟩ := Prod.mk.inj hnumber
    rw [hstate, htokens]
  · have hfirst : next .start '+' = (.start, [.op '+']) := rfl
    simp only [run, hfirst, hnumber, behind]
    rfl

end ScoutingComputer.Sql
