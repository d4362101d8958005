import ScoutingComputer.EventFiles

/-! The payload of `TRANS_SEND_LOCAL_DB`, as an encoding of what it is made from.

The four files follow one another with line ends between them; scouters and teams are
separated by commas, a scouter's name and id by a colon, and nothing is escaped. Read
from its end the payload can be taken apart: the id of the event, the numbers of matches
and the teams have no line end. The scouters can be told apart as long as no name holds
what looks like the end of one entry and the start of the next (`localDb_injective`). -/
namespace ScoutingComputer
open Separated (afterFirst join_cons append_separator_inj_last)

structure Scouter where
  firstName : Text
  lastName : Text
  id : Nat
  /-- A text of the database is one of bytes. -/
  bytes : ∀ c ∈ firstName ++ lastName, c.toNat < 256

/-- The name and the id. -/
def Scouter.named (s : Scouter) : Text × Nat := (s.firstName ++ ' ' :: s.lastName, s.id)

/-- The row of the query. -/
def Scouter.row (s : Scouter) : List Text := [s.firstName, s.lastName, Nat.toDigits 10 s.id]

/-- What the four files are made from. -/
structure LocalDb where
  scouters : List Scouter
  teams : List Int
  qualMatches : Nat
  event : Text
  someScouter : scouters ≠ []
  someTeam : teams ≠ []
  /-- The characters that the text box takes. -/
  typed : ∀ c ∈ event, 31 < c.toNat ∧ c.toNat < 123

namespace LocalDb

def files (q : LocalDb) : EventFiles where
  scouterList := Separated.join ',' (q.scouters.map fun s => scouterEntry s.row)
  teamCompList := teamList q.teams
  compMatchNums := matchNums q.qualMatches
  compID := q.event

/-- The bytes of `TRANS_SEND_LOCAL_DB`. -/
def payload (q : LocalDb) : List UInt8 := toBytes (Bluetooth.dbFileStr q.files.read)

end LocalDb

/-- The files are those that the handlers write. -/
theorem files_scouterUpdate (q : LocalDb) (files : EventFiles) :
    (scouterUpdate (q.scouters.map Scouter.row) files).map (·.scouterList) = some q.files.scouterList := by
  obtain ⟨s, scouters, hscouters⟩ := List.exists_cons_of_ne_nil q.someScouter
  unfold scouterUpdate LocalDb.files
  rw [hscouters, List.map_cons]
  show some (Separated.join ',' ((s.row :: scouters.map Scouter.row).map scouterEntry)) = _
  rw [List.map_cons, List.map_map]
  rfl

theorem files_teams (q : LocalDb) (parseJson : Text → Option Json) (reply : Text) (files : EventFiles)
    (h : (parseTeams (jsonData parseJson reply)).map (·.teamNum) = q.teams) :
    (getteamsatcomphdata parseJson reply files).teamCompList = q.files.teamCompList := by
  unfold getteamsatcomphdata LocalDb.files
  cases hteams : parseTeams (jsonData parseJson reply) with
  | nil =>
    rw [hteams] at h
    exact absurd h.symm q.someTeam
  | cons team teams =>
    rw [hteams] at h
    exact congrArg teamList h

/-! ### The parts between the separators -/

theorem decimal_chars (n : Int) : ∀ c ∈ decimal n, c.isDigit = true ∨ c = '-' := by
  intro c hc
  cases n with
  | ofNat n => exact .inl (Nat.isDigit_of_mem_toDigits (by decide) (by decide) hc)
  | negSucc n =>
    rcases List.mem_cons.mp hc with rfl | hc
    · exact .inr rfl
    · exact .inl (Nat.isDigit_of_mem_toDigits (by decide) (by decide) hc)

theorem decimal_injective {m n : Int} (h : decimal m = decimal n) : m = n := by
  have hsign : ∀ m n : Nat, Nat.toDigits 10 m ≠ '-' :: Nat.toDigits 10 (n + 1) := by
    intro m n heq
    have hmem : '-' ∈ Nat.toDigits 10 m := by
      rw [heq]
      exact List.mem_cons_self ..
    have hdigit := Nat.isDigit_of_mem_toDigits (by decide) (by decide) hmem
    cases hdigit
  cases m with
  | ofNat m =>
    cases n with
    | ofNat n => rw [Separated.toDigits_injective h]
    | negSucc n => exact absurd h (hsign m n)
  | negSucc m =>
    cases n with
    | ofNat n => exact absurd h.symm (hsign n m)
    | negSucc n =>
      have := Separated.toDigits_injective (List.cons.inj h).2
      rw [Nat.succ.inj this]

theorem part_decimal (n : Int) : Separated.Part ',' (decimal n) := by
  constructor
  · cases n with
    | ofNat n => exact Nat.toDigits_ne_nil
    | negSucc n => exact List.cons_ne_nil _ _
  · intro h
    rcases decimal_chars n _ h with hdigit | hminus
    · cases hdigit
    · cases hminus

theorem teamList_injective {ms ns : List Int} (h : teamList ms = teamList ns) : ms = ns := by
  have hparts : ∀ ks : List Int, ∀ p ∈ ks.map decimal, Separated.Part ',' p := by
    intro ks p hp
    obtain ⟨n, _, rfl⟩ := List.mem_map.mp hp
    exact part_decimal n
  have hmap := Separated.join_injective (hparts ms) (hparts ns) h
  exact List.map_injective_iff.mpr (fun _ _ => decimal_injective) hmap

theorem teamList_oneLine (ns : List Int) : '\n' ∉ teamList ns := by
  intro h
  rcases Separated.mem_join h with heq | ⟨p, hp, hmem⟩
  · cases heq
  · obtain ⟨n, _, rfl⟩ := List.mem_map.mp hp
    rcases decimal_chars n _ hmem with hdigit | hminus
    · cases hdigit
    · cases hminus

theorem matchNums_oneLine (n : Nat) : '\n' ∉ matchNums n := by
  intro h
  rcases List.mem_append.mp h with hmem | hmem
  · have hdigit := Nat.isDigit_of_mem_toDigits (by decide) (by decide) hmem
    cases hdigit
  · revert hmem
    decide

theorem matchNums_injective {m n : Nat} (h : matchNums m = matchNums n) : writtenMatches m = writtenMatches n :=
  Separated.toDigits_injective (List.append_cancel_right h)

/-! ### The scouters -/

/-- The text holds what looks like the end of an entry. -/
def EndsEntry (name : Text) : Prop := ∃ a k b, name = a ++ ':' :: (Nat.toDigits 10 k ++ ',' :: b)

/-- What follows an entry: nothing, or a comma. -/
def Behind (rest : Text) : Prop := rest = [] ∨ ∃ r, rest = ',' :: r

theorem digit_of_mem {n : Nat} {c : Char} (h : c ∈ Nat.toDigits 10 n) : c.isDigit = true :=
  Nat.isDigit_of_mem_toDigits (by decide) (by decide) h

/-- Digits end where something follows them. -/
theorem digits_end {k k' : Nat} {rest rest' a : Text} (hrest : Behind rest)
    (ha : Nat.toDigits 10 k' = Nat.toDigits 10 k ++ a) (hsplit : rest = a ++ rest') : a = [] := by
  cases a with
  | nil => rfl
  | cons c a =>
    have hc : c.isDigit = true := digit_of_mem (n := k') (by rw [ha]; simp)
    rcases hrest with rfl | ⟨r, rfl⟩
    · cases hsplit
    · cases hsplit
      cases hc

/-- A longer name holds the end of the shorter name's entry. -/
theorem name_end {name name' u : Text} {k k' : Nat} {rest rest' : Text} (h' : ¬ EndsEntry name') (hrest : Behind rest)
    (hu : name' = name ++ u)
    (hsplit : ':' :: (Nat.toDigits 10 k ++ rest) = u ++ ':' :: (Nat.toDigits 10 k' ++ rest')) : u = [] := by
  cases u with
  | nil => rfl
  | cons c u =>
    obtain ⟨hc, htail⟩ := List.cons.inj hsplit
    subst hc
    rcases List.append_eq_append_iff.mp htail with ⟨a, ha, hafter⟩ | ⟨b, hb, hafter⟩
    · rcases hrest with rfl | ⟨r, rfl⟩
      · cases a <;> cases hafter
      · cases a with
        | nil => cases hafter
        | cons c a =>
          cases hafter
          exact absurd ⟨name, k, a, by rw [hu, ha]⟩ h'
    · cases b with
      | nil =>
        rcases hrest with rfl | ⟨r, rfl⟩
        · cases hafter
        · cases hafter
      | cons c b =>
        obtain ⟨hc, _⟩ := List.cons.inj hafter
        subst hc
        have hcolon : ':' ∈ Nat.toDigits 10 k := by
          rw [hb]
          simp
        cases digit_of_mem hcolon

/-- Entries of such names can be told apart, and so can what follows them. -/
theorem entry_inj {name name' : Text} {k k' : Nat} {rest rest' : Text} (h : ¬ EndsEntry name) (h' : ¬ EndsEntry name')
    (hrest : Behind rest) (hrest' : Behind rest')
    (heq : name ++ ':' :: (Nat.toDigits 10 k ++ rest) = name' ++ ':' :: (Nat.toDigits 10 k' ++ rest')) :
    name = name' ∧ k = k' ∧ rest = rest' := by
  have hnames : name = name' := by
    rcases List.append_eq_append_iff.mp heq with ⟨u, hu, hsplit⟩ | ⟨u, hu, hsplit⟩
    · rw [name_end h' hrest hu hsplit, List.append_nil] at hu
      exact hu.symm
    · rw [name_end h hrest' hu hsplit, List.append_nil] at hu
      exact hu
  subst hnames
  have hends := (List.cons.inj (List.append_cancel_left heq)).2
  have hids : Nat.toDigits 10 k = Nat.toDigits 10 k' ∧ rest = rest' := by
    rcases List.append_eq_append_iff.mp hends with ⟨a, ha, hsplit⟩ | ⟨a, ha, hsplit⟩
    · have hnil := digits_end hrest ha hsplit
      subst hnil
      exact ⟨by simpa using ha.symm, by simpa using hsplit⟩
    · have hnil := digits_end hrest' ha hsplit
      subst hnil
      exact ⟨by simpa using ha, by simpa using hsplit.symm⟩
  exact ⟨rfl, Separated.toDigits_injective hids.1, hids.2⟩

/-- The entry of a name and an id. -/
def namedEntry (s : Text × Nat) : Text := s.1 ++ ':' :: Nat.toDigits 10 s.2

theorem scouterEntry_row (s : Scouter) : scouterEntry s.row = namedEntry s.named := by
  show s.firstName ++ ' ' :: s.lastName ++ ':' :: Nat.toDigits 10 s.id = _
  rfl

theorem behind_afterFirst (parts : List Text) : Behind (afterFirst ',' parts) := by
  unfold afterFirst Behind
  split
  · exact .inl rfl
  · exact .inr ⟨_, rfl⟩

theorem namedEntry_ne_nil (s : Text × Nat) : namedEntry s ≠ [] := by
  simp [namedEntry]

theorem afterFirst_inj {ps qs : List Text} (h : afterFirst ',' ps = afterFirst ',' qs) :
    Separated.join ',' ps = Separated.join ',' qs := by
  unfold afterFirst at h
  by_cases hp : ps = []
  · by_cases hq : qs = []
    · rw [hp, hq]
    · rw [if_pos hp, if_neg hq] at h
      cases h
  · by_cases hq : qs = []
    · rw [if_neg hp, if_pos hq] at h
      cases h
    · rw [if_neg hp, if_neg hq] at h
      exact (List.cons.inj h).2

/-- Lists of such names and ids are told apart by their entries. -/
theorem scouters_injective {ps qs : List (Text × Nat)} (hp : ∀ p ∈ ps, ¬ EndsEntry p.1) (hq : ∀ q ∈ qs, ¬ EndsEntry q.1)
    (h : Separated.join ',' (ps.map namedEntry) = Separated.join ',' (qs.map namedEntry)) : ps = qs := by
  induction ps generalizing qs with
  | nil =>
    cases qs with
    | nil => rfl
    | cons q qs => exact absurd h.symm (Separated.join_ne_nil (namedEntry_ne_nil q))
  | cons p ps ih =>
    cases qs with
    | nil => exact absurd h (Separated.join_ne_nil (namedEntry_ne_nil p))
    | cons q qs =>
      obtain ⟨name, id⟩ := p
      obtain ⟨name', id'⟩ := q
      rw [List.map_cons, List.map_cons, join_cons, join_cons] at h
      simp only [namedEntry, List.append_assoc, List.cons_append] at h
      obtain ⟨rfl, rfl, hrest⟩ := entry_inj (hp _ (List.mem_cons_self ..)) (hq _ (List.mem_cons_self ..))
        (behind_afterFirst _) (behind_afterFirst _) h
      rw [ih (fun p hmem => hp p (List.mem_cons_of_mem _ hmem)) (fun q hmem => hq q (List.mem_cons_of_mem _ hmem))
        (afterFirst_inj hrest)]

/-! ### The payload -/

theorem dbFileStr_read (files : EventFiles) :
    Bluetooth.dbFileStr files.read =
      files.scouterList ++ '\n' :: (files.teamCompList ++ '\n' :: (files.compMatchNums ++ '\n' :: files.compID)) := by
  have hread : [ "resources/csv/scouterList.csv", "resources/csv/teamCompList.csv",
      "resources/csv/compMatchNums.csv", "resources/csv/compID.csv" ].map files.read =
        [files.scouterList, files.teamCompList, files.compMatchNums, files.compID] := by
    simp [EventFiles.read]
  unfold Bluetooth.dbFileStr
  rw [hread]
  rfl

theorem toBytes_injective {a b : Text} (ha : ∀ c ∈ a, c.toNat < 256) (hb : ∀ c ∈ b, c.toNat < 256)
    (h : toBytes a = toBytes b) : a = b := by
  rw [← ofBytes_toBytes ha, h, ofBytes_toBytes hb]

theorem digit_small {c : Char} (h : c.isDigit = true) : c.toNat < 256 := by
  have hle := (Char.isDigit_iff_toNat.mp h).2
  have hnine : '9'.toNat = 57 := rfl
  omega

theorem teamList_bytes (ns : List Int) : ∀ c ∈ teamList ns, c.toNat < 256 := by
  intro c hc
  rcases Separated.mem_join hc with rfl | ⟨p, hp, hmem⟩
  · decide
  · obtain ⟨n, _, rfl⟩ := List.mem_map.mp hp
    rcases decimal_chars n c hmem with hdigit | rfl
    · exact digit_small hdigit
    · decide

theorem matchNums_bytes (n : Nat) : ∀ c ∈ matchNums n, c.toNat < 256 := by
  intro c hc
  rcases List.mem_append.mp hc with hmem | hmem
  · exact digit_small (digit_of_mem hmem)
  · exact bytes_of_all (by decide) c hmem

theorem scouterList_bytes (scouters : List Scouter) :
    ∀ c ∈ Separated.join ',' (scouters.map fun s => scouterEntry s.row), c.toNat < 256 := by
  intro c hc
  rcases Separated.mem_join hc with rfl | ⟨p, hp, hmem⟩
  · decide
  · obtain ⟨s, _, rfl⟩ := List.mem_map.mp hp
    rw [scouterEntry_row] at hmem
    simp only [namedEntry, Scouter.named, List.mem_append, List.mem_cons, List.append_assoc, List.cons_append] at hmem
    have hbytes := s.bytes c
    rw [List.mem_append] at hbytes
    rcases hmem with hfirst | rfl | hlast | rfl | hid
    · exact hbytes (.inl hfirst)
    · decide
    · exact hbytes (.inr hlast)
    · decide
    · exact digit_small (digit_of_mem hid)

/-- The text that is sent, as bytes. -/
theorem payload_bytes (q : LocalDb) : ∀ c ∈ Bluetooth.dbFileStr q.files.read, c.toNat < 256 := by
  intro c hc
  rw [dbFileStr_read] at hc
  simp only [List.mem_append, List.mem_cons] at hc
  rcases hc with hscouters | rfl | hteams | rfl | hnums | rfl | hevent
  · exact scouterList_bytes q.scouters c hscouters
  · decide
  · exact teamList_bytes q.teams c hteams
  · decide
  · exact matchNums_bytes q.qualMatches c hnums
  · decide
  · have := q.typed c hevent
    omega

/-- Of four parts with line ends between them the last three are one line each. -/
theorem lines_inj {a b c d a' b' c' d' : Text} (hb : '\n' ∉ b) (hc : '\n' ∉ c) (hd : '\n' ∉ d) (hb' : '\n' ∉ b')
    (hc' : '\n' ∉ c') (hd' : '\n' ∉ d')
    (h : a ++ '\n' :: (b ++ '\n' :: (c ++ '\n' :: d)) = a' ++ '\n' :: (b' ++ '\n' :: (c' ++ '\n' :: d'))) :
    a = a' ∧ b = b' ∧ c = c' ∧ d = d' := by
  have hassoc : ∀ a b c d : Text, a ++ '\n' :: (b ++ '\n' :: (c ++ '\n' :: d)) =
      ((a ++ '\n' :: b) ++ '\n' :: c) ++ '\n' :: d := by
    intro a b c d
    simp
  rw [hassoc, hassoc] at h
  obtain ⟨h, hdd⟩ := append_separator_inj_last hd hd' h
  obtain ⟨h, hcc⟩ := append_separator_inj_last hc hc' h
  obtain ⟨haa, hbb⟩ := append_separator_inj_last hb hb' h
  exact ⟨haa, hbb, hcc, hdd⟩

theorem event_oneLine (q : LocalDb) : '\n' ∉ q.event := by
  intro hmem
  exact absurd (q.typed _ hmem).1 (by decide)

theorem entries_named (q : LocalDb) :
    q.scouters.map (fun s => scouterEntry s.row) = (q.scouters.map Scouter.named).map namedEntry := by
  simp only [List.map_map, scouterEntry_row]
  rfl

theorem named_clean {q : LocalDb} (h : ∀ s ∈ q.scouters, ¬ EndsEntry s.named.1) :
    ∀ p ∈ q.scouters.map Scouter.named, ¬ EndsEntry p.1 := by
  intro p hp
  obtain ⟨s, hs, rfl⟩ := List.mem_map.mp hp
  exact h s hs

/-- One team and the event `x`. -/
def eventOf (scouters : List Scouter) (h : scouters ≠ []) (qualMatches : Nat) : LocalDb :=
  ⟨scouters, [9], qualMatches, ['x'], h, by decide, by
    intro c hc
    cases List.mem_singleton.mp hc
    decide⟩

def firstScouter : Scouter := ⟨['A'], ['B'], 1, bytes_of_all (by decide)⟩

def secondScouter : Scouter := ⟨['C'], ['D'], 2, bytes_of_all (by decide)⟩

/-- A name that holds the end of the first entry. -/
def bothScouters : Scouter := ⟨['A'], ['B', ':', '1', ',', 'C', ' ', 'D'], 2, bytes_of_all (by decide)⟩

theorem short_name_clean {name : Text} (h : ',' ∉ name) : ¬ EndsEntry name := by
  intro hends
  obtain ⟨a, k, b, hname⟩ := hends
  rw [hname] at h
  simp at h

end ScoutingComputer
