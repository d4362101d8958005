import ScoutingComputer.Bluetooth.BluetoothConductor

/-! The list of scouted matches that a tablet sends.

The loop of `handleTransResult` is here with the checks that `substr` makes. It looks for
two semicolons in each line; where there are fewer, `npos` wraps around to the start of
the line, so that every `substr` begins inside it (`checked_parse`). A line with two
semicolons or more is taken apart without a loss (`parse_two`), and lists whose
fields keep to themselves are read back (`matches_read_back`). -/
namespace ScoutingComputer.Bluetooth
open Socket

/-! ### The loop with its checks -/

/-- `substr`, which throws when it would begin behind the end. -/
def checkedSubstr (line : Text) (pos count : Nat) : Except Exception Text :=
  if line.length < pos then .error .outOfRange else .ok (substr line pos count)

def checkedParse (line : Text) : Except Exception MatchIdentifier := do
  let firstSemicolon := findSemicolon line 0
  let secondSemicolon := findSemicolon line (addSize firstSemicolon 1)
  let comp ← checkedSubstr line 0 firstSemicolon
  let team ← checkedSubstr line (addSize firstSemicolon 1) (subSize (subSize secondSemicolon firstSemicolon) 1)
  let matchID ← checkedSubstr line (addSize secondSemicolon 1) npos
  return ⟨comp, team, matchID⟩

/-- `std::getline`: the next line and what it leaves; none at the end of the stream. -/
def getline (stream : Text) : Option (Text × Text) :=
  if stream = [] then none
  else some (stream.takeWhile (· ≠ '\n'), (stream.dropWhile (· ≠ '\n')).drop 1)

theorem length_getline {stream line rest : Text} (h : getline stream = some (line, rest)) :
    rest.length < stream.length := by
  unfold getline at h
  split at h
  · cases h
  · rename_i hne
    cases h
    have hpos : 0 < stream.length := List.length_pos_iff.mpr hne
    have hle : (stream.dropWhile (· ≠ '\n')).length ≤ stream.length := (List.dropWhile_suffix _).length_le
    rw [List.length_drop]
    omega

/-- The loop of `TRANS_RECV_TAB_MATCH_LIST` over the lines of the stream. -/
def matchLoop (matchIdenVec : List MatchIdentifier) (stream : Text) : Except Exception (List MatchIdentifier) :=
  match _h : getline stream with
  | none => .ok matchIdenVec
  | some (currLine, rest) =>
    match checkedParse currLine with
    | .error e => .error e
    | .ok currMatch => matchLoop (matchIdenVec ++ [currMatch]) rest
termination_by stream.length
decreasing_by exact length_getline _h

/-! ### A line -/

theorem findSemicolon_none {line : Text} {pos : Nat} (h : ';' ∉ line.drop pos) : findSemicolon line pos = npos := by
  have hnone : (line.drop pos).findIdx? (· = ';') = none := by
    rw [List.findIdx?_eq_none_iff]
    intro c hc
    simp only [decide_eq_false_iff_not]
    rintro rfl
    exact h hc
  rw [findSemicolon, hnone]

theorem findSemicolon_append {before part after : Text} (h : ';' ∉ part) :
    findSemicolon (before ++ (part ++ ';' :: after)) before.length = before.length + part.length := by
  have hsome : (part ++ ';' :: after).findIdx? (· = ';') = some part.length := by
    rw [List.findIdx?_append, List.findIdx?_eq_none_iff.mpr]
    · simp [List.findIdx?_cons]
    · intro c hc
      simp only [decide_eq_false_iff_not]
      rintro rfl
      exact h hc
  rw [findSemicolon, List.drop_left, hsome]

/-- The three shapes of a line. -/
theorem line_cases (line : Text) :
    ';' ∉ line ∨
    (∃ first second, line = first ++ ';' :: second ∧ ';' ∉ first ∧ ';' ∉ second) ∨
    ∃ first second third, line = first ++ ';' :: (second ++ ';' :: third) ∧ ';' ∉ first ∧ ';' ∉ second := by
  by_cases h : ';' ∈ line
  · obtain ⟨first, rest, rfl, hfirst⟩ := List.eq_append_cons_of_mem h
    by_cases h : ';' ∈ rest
    · obtain ⟨second, third, rfl, hsecond⟩ := List.eq_append_cons_of_mem h
      exact .inr (.inr ⟨first, second, third, rfl, hfirst, hsecond⟩)
    · exact .inr (.inl ⟨first, rest, rfl, hfirst, h⟩)
  · exact .inl h

theorem addSize_of_lt {a b : Nat} (h : a + b < 2 ^ 64) : addSize a b = a + b := Nat.mod_eq_of_lt h

theorem subSize_of_le {a b : Nat} (h : b ≤ a) (ha : a < 2 ^ 64) : subSize a b = a - b := by
  unfold subSize
  omega

theorem drop_after (before after : Text) : (before ++ ';' :: after).drop (before.length + 1) = after := by
  rw [List.drop_append, List.drop_of_length_le (by omega)]
  simp

/-- What the loop stores of a line. -/
theorem parse_none {line : Text} (h : ';' ∉ line) (hsize : line.length < npos) :
    parseMatchIdentifier line = ⟨line, line, line⟩ ∧ checkedParse line = .ok ⟨line, line, line⟩ := by
  have hnone : ∀ pos, findSemicolon line pos = npos := fun pos => findSemicolon_none fun hmem => h (List.mem_of_mem_drop hmem)
  have hstart : addSize npos 1 = 0 := by decide
  have hcount : subSize (subSize npos npos) 1 = npos := by decide
  have hall : substr line 0 npos = line := by
    rw [substr, List.drop_zero, List.take_of_length_le hsize.le]
  constructor
  · simp only [parseMatchIdentifier, hnone, hstart, hcount, hall]
  · simp only [checkedParse, checkedSubstr, hnone, hstart, hcount, hall]
    rfl

theorem parse_one {first second : Text} (hfirst : ';' ∉ first) (hsecond : ';' ∉ second)
    (hsize : (first ++ ';' :: second).length < npos) :
    parseMatchIdentifier (first ++ ';' :: second) = ⟨first, second, first ++ ';' :: second⟩ ∧
      checkedParse (first ++ ';' :: second) = .ok ⟨first, second, first ++ ';' :: second⟩ := by
  generalize hline : first ++ ';' :: second = line at hsize
  have hlength : line.length = first.length + (second.length + 1) := by
    rw [← hline, List.length_append, List.length_cons]
  have hnpos : npos + 1 = 2 ^ 64 := rfl
  have hone : findSemicolon line 0 = first.length := by
    rw [← hline]
    simpa using @findSemicolon_append [] first second hfirst
  have hstart : addSize first.length 1 = first.length + 1 := addSize_of_lt (by omega)
  have htwo : findSemicolon line (first.length + 1) = npos := by
    apply findSemicolon_none
    rwa [← hline, drop_after]
  have hwrap : addSize npos 1 = 0 := by decide
  have hcount : subSize (subSize npos first.length) 1 = npos - first.length - 1 := by
    rw [@subSize_of_le npos first.length (by omega) (by omega), subSize_of_le (by omega) (by omega)]
  have hcomp : substr line 0 first.length = first := by
    rw [← hline, substr, List.drop_zero, List.take_left]
  have hteam : substr line (first.length + 1) (npos - first.length - 1) = second := by
    rw [← hline, substr, drop_after, List.take_of_length_le (by omega)]
  have hmatch : substr line 0 npos = line := by
    rw [substr, List.drop_zero, List.take_of_length_le (by omega)]
  constructor
  · simp only [parseMatchIdentifier, hone, hstart, htwo, hwrap, hcount, hcomp, hteam, hmatch]
  · simp only [checkedParse, checkedSubstr, hone, hstart, htwo, hwrap, hcount, hcomp, hteam, hmatch]
    rw [if_neg (by omega), if_neg (by omega)]
    rfl

theorem parse_two {first second third : Text} (hfirst : ';' ∉ first) (hsecond : ';' ∉ second)
    (hsize : (first ++ ';' :: (second ++ ';' :: third)).length < npos) :
    parseMatchIdentifier (first ++ ';' :: (second ++ ';' :: third)) = ⟨first, second, third⟩ ∧
      checkedParse (first ++ ';' :: (second ++ ';' :: third)) = .ok ⟨first, second, third⟩ := by
  generalize hline : first ++ ';' :: (second ++ ';' :: third) = line at hsize
  have hgroup : line = (first ++ ';' :: second) ++ ';' :: third := by
    rw [← hline, List.append_assoc, List.cons_append]
  have hlength : line.length = first.length + (second.length + (third.length + 1) + 1) := by
    simp only [← hline, List.length_append, List.length_cons]
  have hnpos : npos + 1 = 2 ^ 64 := rfl
  have hone : findSemicolon line 0 = first.length := by
    rw [← hline]
    simpa using @findSemicolon_append [] first (second ++ ';' :: third) hfirst
  have hstart : addSize first.length 1 = first.length + 1 := addSize_of_lt (by omega)
  have htwo : findSemicolon line (first.length + 1) = first.length + 1 + second.length := by
    have hfind := @findSemicolon_append (first ++ [';']) second third hsecond
    rwa [List.length_append, List.length_singleton, List.append_assoc, List.singleton_append, hline] at hfind
  have hend : addSize (first.length + 1 + second.length) 1 = (first ++ ';' :: second).length + 1 := by
    rw [addSize_of_lt (by omega), List.length_append, List.length_cons]
    omega
  have hcount : subSize (subSize (first.length + 1 + second.length) first.length) 1 = second.length := by
    rw [@subSize_of_le _ first.length (by omega) (by omega), subSize_of_le (by omega) (by omega)]
    omega
  have hcomp : substr line 0 first.length = first := by
    rw [← hline, substr, List.drop_zero, List.take_left]
  have hteam : substr line (first.length + 1) second.length = second := by
    rw [← hline, substr, drop_after, List.take_left]
  have hmatch : substr line ((first ++ ';' :: second).length + 1) npos = third := by
    rw [hgroup, substr, drop_after, List.take_of_length_le (by omega)]
  have hinside : (first ++ ';' :: second).length + 1 ≤ line.length := by
    rw [List.length_append, List.length_cons]
    omega
  constructor
  · simp only [parseMatchIdentifier, hone, hstart, htwo, hend, hcount, hcomp, hteam, hmatch]
  · simp only [checkedParse, checkedSubstr, hone, hstart, htwo, hend, hcount, hcomp, hteam, hmatch]
    rw [if_neg (by omega), if_neg (by omega), if_neg (by omega)]
    rfl

/-- No `substr` begins behind the end of the line, whatever number of semicolons it has. -/
theorem checked_parse {line : Text} (hsize : line.length < npos) :
    checkedParse line = .ok (parseMatchIdentifier line) := by
  obtain h | ⟨first, second, rfl, hfirst, hsecond⟩ | ⟨first, second, third, rfl, hfirst, hsecond⟩ := line_cases line
  · rw [(parse_none h hsize).1, (parse_none h hsize).2]
  · rw [(parse_one hfirst hsecond hsize).1, (parse_one hfirst hsecond hsize).2]
  · rw [(parse_two hfirst hsecond hsize).1, (parse_two hfirst hsecond hsize).2]

/-- A line as a tablet writes it. -/
def matchLine (m : MatchIdentifier) : Text := m.comp ++ ';' :: (m.team ++ ';' :: m.matchID)

/-- With two semicolons or more, the fields are the line. -/
theorem parse_recombines {line : Text} (hsize : line.length < npos) (htwo : 2 ≤ line.count ';') :
    ';' ∉ (parseMatchIdentifier line).comp ∧ ';' ∉ (parseMatchIdentifier line).team ∧
      matchLine (parseMatchIdentifier line) = line := by
  obtain h | ⟨first, second, rfl, hfirst, hsecond⟩ | ⟨first, second, third, rfl, hfirst, hsecond⟩ := line_cases line
  · rw [List.count_eq_zero.mpr h] at htwo
    omega
  · rw [List.count_append, List.count_cons_self, List.count_eq_zero.mpr hfirst, List.count_eq_zero.mpr hsecond] at htwo
    omega
  · rw [(parse_two hfirst hsecond hsize).1]
    exact ⟨hfirst, hsecond, rfl⟩

/-! ### The lines -/

theorem getLines_eq (stream : Text) :
    getLines stream = match getline stream with
      | none => []
      | some (line, rest) => line :: getLines rest := by
  induction stream with
  | nil => rfl
  | cons c text ih =>
    rw [getLines, getline, if_neg (List.cons_ne_nil c text)]
    by_cases hc : c = '\n'
    · simp [hc]
    · rw [if_neg hc, ih]
      cases text with
      | nil => simp [getline, getLines, hc]
      | cons c' text =>
        rw [getline, if_neg (List.cons_ne_nil c' text)]
        simp [hc]

theorem getline_length {stream line rest : Text} (h : getline stream = some (line, rest)) :
    line.length ≤ stream.length := by
  unfold getline at h
  split at h
  · cases h
  · cases h
    exact (List.takeWhile_prefix _).length_le

theorem length_le_of_mem_getLines {stream line : Text} (h : line ∈ getLines stream) : line.length ≤ stream.length := by
  generalize hlength : stream.length = length
  induction length using Nat.strong_induction_on generalizing stream with
  | _ length ih =>
    rw [getLines_eq] at h
    cases hline : getline stream with
    | none =>
      rw [hline] at h
      cases h
    | some next =>
      obtain ⟨first, rest⟩ := next
      rw [hline] at h
      have hless := length_getline hline
      rcases List.mem_cons.mp h with rfl | h
      · exact hlength ▸ getline_length hline
      · exact (ih rest.length (by omega) h rfl).trans (by omega)

/-- The loop appends one identifier for each line. -/
theorem matchLoop_eq {stream : Text} (hsize : stream.length < npos) (matchIdenVec : List MatchIdentifier) :
    matchLoop matchIdenVec stream = .ok (matchIdenVec ++ (getLines stream).map parseMatchIdentifier) := by
  generalize hlength : stream.length = length at hsize
  induction length using Nat.strong_induction_on generalizing stream matchIdenVec with
  | _ length ih =>
    rw [matchLoop, getLines_eq]
    split
    · rename_i hline
      rw [hline, List.map_nil, List.append_nil]
    · rename_i currLine rest hline
      have hless := length_getline hline
      have hle := getline_length hline
      rw [hline, checked_parse (by omega)]
      simp only [List.map_cons]
      rw [ih rest.length (by omega) _ rfl (by omega), List.append_assoc, List.singleton_append]

theorem getLines_append {line : Text} (h : '\n' ∉ line) (rest : Text) :
    getLines (line ++ '\n' :: rest) = line :: getLines rest := by
  induction line with
  | nil => simp [getLines]
  | cons c line ih =>
    simp only [List.mem_cons, not_or] at h
    rw [List.cons_append, getLines, if_neg (Ne.symm h.1), ih h.2]

theorem getLines_last {line : Text} (h : '\n' ∉ line) (hne : line ≠ []) : getLines line = [line] := by
  induction line with
  | nil => exact absurd rfl hne
  | cons c line ih =>
    simp only [List.mem_cons, not_or] at h
    rw [getLines, if_neg (Ne.symm h.1)]
    cases line with
    | nil => rfl
    | cons c' line => rw [ih h.2 (List.cons_ne_nil c' line)]

/-! ### The round trip -/

/-- An identifier whose fields can be told apart in a line of the list. -/
structure Separable (m : MatchIdentifier) : Prop where
  comp : ';' ∉ m.comp
  team : ';' ∉ m.team
  newline : '\n' ∉ m.comp ++ m.team ++ m.matchID

theorem Separable.line {m : MatchIdentifier} (h : Separable m) : '\n' ∉ matchLine m := by
  have hnewline := h.newline
  simp only [List.mem_append, not_or] at hnewline
  simp [matchLine, hnewline.1.1, hnewline.1.2, hnewline.2]

/-- The list as a tablet writes it, the last line ended or not. -/
def Written (text : Text) (matches_ : List MatchIdentifier) : Prop :=
  text = matches_.flatMap (fun m => matchLine m ++ ['\n']) ∨ text = Separated.join '\n' (matches_.map matchLine)

theorem matchLine_ne_nil (m : MatchIdentifier) : matchLine m ≠ [] := by
  simp [matchLine]

theorem getLines_written {text : Text} {matches_ : List MatchIdentifier} (h : Written text matches_)
    (hseparable : ∀ m ∈ matches_, Separable m) : getLines text = matches_.map matchLine := by
  induction matches_ generalizing text with
  | nil => rcases h with rfl | rfl <;> rfl
  | cons m matches_ ih =>
    have hline := (hseparable m List.mem_cons_self).line
    have hrest : ∀ m ∈ matches_, Separable m := fun m hm => hseparable m (List.mem_cons_of_mem _ hm)
    rcases h with rfl | rfl
    · rw [List.flatMap_cons, List.append_assoc, List.singleton_append, getLines_append hline, ih (.inl rfl) hrest,
        List.map_cons]
    · cases matches_ with
      | nil => exact getLines_last hline (matchLine_ne_nil m)
      | cons m' matches_ =>
        rw [List.map_cons, List.map_cons, Separated.join, getLines_append hline, ← List.map_cons, ih (.inr rfl) hrest]

theorem parse_matchLine {m : MatchIdentifier} (h : Separable m) (hsize : (matchLine m).length < npos) :
    parseMatchIdentifier (matchLine m) = m :=
  (parse_two h.comp h.team hsize).1

theorem matches_read_back {text : Text} {matches_ : List MatchIdentifier} (hsize : text.length < npos)
    (h : Written text matches_) (hseparable : ∀ m ∈ matches_, Separable m) : parseMatchIdentifiers text = matches_ := by
  have hlines := getLines_written h hseparable
  rw [parseMatchIdentifiers, hlines, List.map_map]
  conv_rhs => rw [← List.map_id matches_]
  apply List.map_congr_left
  intro m hm
  have hmem : matchLine m ∈ getLines text := hlines ▸ List.mem_map_of_mem hm
  exact parse_matchLine (hseparable m hm) ((length_le_of_mem_getLines hmem).trans_lt hsize)

/-- The loop appends one identifier for each line of the data, in their order, without a
`substr` that is out of range; lines with two semicolons are kept as they are, and a
written list is read back. -/
theorem match_list_exact (server : Server) (parseJson : Text → Option Json) (inserts : Nat → Bool) (success : Bool)
    (parent : TabletInfo) (t : Table) {readData : List UInt8} (hsize : readData.length < npos) :
    matchLoop parent.tabletMatches (ofBytes readData) =
      .ok (parent.tabletMatches ++ (getLines (ofBytes readData)).map parseMatchIdentifier) ∧
    (∀ matchIdenVec, matchLoop parent.tabletMatches (ofBytes readData) = .ok matchIdenVec →
      handleTransResult server parseJson inserts ⟨TRANS_RECV_TAB_MATCH_LIST, false, success, .ok (some readData)⟩
        parent t = .ok ({parent with tabletMatches := matchIdenVec}, t)) ∧
    (∀ line ∈ getLines (ofBytes readData), 2 ≤ line.count ';' →
      ';' ∉ (parseMatchIdentifier line).comp ∧ ';' ∉ (parseMatchIdentifier line).team ∧
        matchLine (parseMatchIdentifier line) = line) ∧
    ∀ matches_, (∀ m ∈ matches_, Separable m) → Written (ofBytes readData) matches_ →
      matchLoop parent.tabletMatches (ofBytes readData) = .ok (parent.tabletMatches ++ matches_) := by
  have hlength : (ofBytes readData).length < npos := by
    rwa [ofBytes, List.length_map]
  have hloop := matchLoop_eq hlength parent.tabletMatches
  refine ⟨hloop, ?_, ?_, ?_⟩
  · intro matchIdenVec h
    rw [hloop, Except.ok.injEq] at h
    subst h
    rfl
  · intro line hline htwo
    exact parse_recombines ((length_le_of_mem_getLines hline).trans_lt hlength) htwo
  · intro matches_ hseparable hwritten
    rw [hloop]
    exact congrArg (fun ms => Except.ok (parent.tabletMatches ++ ms)) (matches_read_back hlength hwritten hseparable)

theorem match_list_exact_two :
    matchLoop [] (ofBytes (toBytes ['a', ';', '1', ';', 'q', '\n', 'b', ';', '2', ';', ';'])) =
      .ok [⟨['a'], ['1'], ['q']⟩, ⟨['b'], ['2'], [';']⟩] := by
  refine (match_list_exact plainServer (fun _ => none) (fun _ => true) true ⟨[], []⟩ ⟨[], 0⟩ (by decide)).2.2.2
    [⟨['a'], ['1'], ['q']⟩, ⟨['b'], ['2'], [';']⟩] ?_ (.inr (by decide))
  intro m hm
  simp only [List.mem_cons, List.not_mem_nil, or_false] at hm
  rcases hm with rfl | rfl
  · exact ⟨by decide, by decide, by decide⟩
  · exact ⟨by decide, by decide, by decide⟩

end ScoutingComputer.Bluetooth
