import ScoutingComputer.EventFiles
import ScoutingComputer.Foundation.Run

/-! When the files about the event describe one event.

An update writes the number of matches and the id whatever the replies were, and the
teams only when there are any. So it leaves the files of two events next to each other
as soon as the reply about the teams or the matches is not usable (`event_files_agree`). -/
namespace ScoutingComputer

/-- The three files that an update writes are what they were. -/
def AsBefore (before after : EventFiles) : Prop :=
  after.teamCompList = before.teamCompList ∧ after.compMatchNums = before.compMatchNums ∧
    after.compID = before.compID

section
variable (parseJson : Text → Option Json)

/-- The reply has this list of matches. -/
def MatchesOf (reply : Text) (matchDatapoints : List MatchlistDatapoint) : Prop :=
  ∃ data, parseJson reply = some data ∧ matchList data = some matchDatapoints

/-- The three files are made from the replies of one update. -/
structure MadeFrom (u : Update) (files : EventFiles) : Prop where
  compID : files.compID = u.event
  teams : ∃ teams, teams ≠ [] ∧ parseTeams (jsonData parseJson u.teams) = teams ∧
    files.teamCompList = teamList (teams.map (·.teamNum))
  matches_ : ∃ matchDatapoints, MatchesOf parseJson u.matches_ matchDatapoints ∧
    files.compMatchNums = matchNums (countQualMatches matchDatapoints)

/-- Both replies of a valid update can be used, or the files hold already what it writes. -/
def Usable (files : EventFiles) (u : Update) : Prop :=
  u.valid = true →
    (parseTeams (jsonData parseJson u.teams) ≠ [] ∧ ∃ matchDatapoints, MatchesOf parseJson u.matches_ matchDatapoints) ∨
    files.compID = u.event ∧
      files.compMatchNums = matchNums (countQualMatches (parseMatchList (jsonData parseJson u.matches_))) ∧
      (parseTeams (jsonData parseJson u.teams) = [] ∨
        files.teamCompList = teamList ((parseTeams (jsonData parseJson u.teams)).map (·.teamNum)))

end

variable {parseJson : Text → Option Json}

theorem jsonData_of_parse {text : Text} {data : Json} (h : parseJson text = some data) :
    jsonData parseJson text = data := by
  unfold jsonData
  rw [h]
  rfl

variable (parseJson) in
/-- What a valid update leaves in the three files. -/
theorem tbaDataUpdate_valid {u : Update} (files : EventFiles) (h : u.valid = true) :
    (tbaDataUpdate parseJson u files).compID = u.event ∧
      (tbaDataUpdate parseJson u files).compMatchNums =
        matchNums (countQualMatches (parseMatchList (jsonData parseJson u.matches_))) ∧
      (tbaDataUpdate parseJson u files).teamCompList =
        if parseTeams (jsonData parseJson u.teams) = [] then files.teamCompList
        else teamList ((parseTeams (jsonData parseJson u.teams)).map (·.teamNum)) := by
  unfold tbaDataUpdate getteamsatcomphdata getMatchData
  rw [if_pos h]
  cases parseTeams (jsonData parseJson u.teams) with
  | nil => exact ⟨rfl, rfl, rfl⟩
  | cons team teams => exact ⟨rfl, rfl, rfl⟩

theorem tbaDataUpdate_invalid {u : Update} {files : EventFiles} (h : u.valid = false) :
    tbaDataUpdate parseJson u files = files := by
  unfold tbaDataUpdate
  rw [h]
  rfl

/-- One update: all files as before or all from its replies. -/
theorem update_agrees_iff (u : Update) (files : EventFiles) :
    (AsBefore files (tbaDataUpdate parseJson u files) ∨ MadeFrom parseJson u (tbaDataUpdate parseJson u files)) ↔
      Usable parseJson files u := by
  cases hvalid : u.valid with
  | false =>
    rw [tbaDataUpdate_invalid hvalid]
    refine iff_of_true (.inl ⟨rfl, rfl, rfl⟩) fun h => ?_
    rw [hvalid] at h
    cases h
  | true =>
    obtain ⟨hid, hnums, hteams⟩ := tbaDataUpdate_valid parseJson files hvalid
    unfold AsBefore Usable
    constructor
    · intro h _
      rcases h with ⟨hsame, hsame', hsame''⟩ | hmade
      · refine .inr ⟨hsame''.symm.trans hid, hsame'.symm.trans hnums, ?_⟩
        by_cases hnone : parseTeams (jsonData parseJson u.teams) = []
        · exact .inl hnone
        · rw [if_neg hnone] at hteams
          exact .inr (hsame.symm.trans hteams)
      · obtain ⟨teams, hne, rfl, _⟩ := hmade.teams
        obtain ⟨matchDatapoints, hmatches, _⟩ := hmade.matches_
        exact .inl ⟨hne, matchDatapoints, hmatches⟩
    · intro h
      rcases h hvalid with ⟨hne, matchDatapoints, hmatches⟩ | ⟨hid', hnums', hteams'⟩
      · rw [if_neg hne] at hteams
        refine .inr ⟨hid, ⟨_, hne, rfl, hteams⟩, matchDatapoints, hmatches, ?_⟩
        obtain ⟨data, hdata, hlist⟩ := hmatches
        rw [hnums, jsonData_of_parse hdata]
        unfold parseMatchList
        rw [hlist]
        rfl
      · refine .inl ⟨?_, hnums.trans hnums'.symm, hid.trans hid'.symm⟩
        rw [hteams]
        split
        · rfl
        · rename_i hne
          exact (hteams'.resolve_left hne).symm

/-! ### Runs of updates -/

def updateStep (parseJson : Text → Option Json) (files : EventFiles) (u : Update) : Option EventFiles :=
  some (tbaDataUpdate parseJson u files)

/-- The files are those there were, or made from the replies of one of the updates. -/
def FromOne (parseJson : Text → Option Json) (before : EventFiles) (updates : List Update) (files : EventFiles) :
    Prop :=
  AsBefore before files ∨ ∃ u ∈ updates, MadeFrom parseJson u files

theorem MadeFrom.of_asBefore {u : Update} {files files' : EventFiles} (h : MadeFrom parseJson u files)
    (hsame : AsBefore files files') : MadeFrom parseJson u files' := by
  obtain ⟨hteams, hnums, hid⟩ := hsame
  obtain ⟨teams, hne, hparse, hfile⟩ := h.teams
  obtain ⟨matchDatapoints, hmatches, hfile'⟩ := h.matches_
  exact ⟨hid.trans h.compID, ⟨teams, hne, hparse, hteams.trans hfile⟩, matchDatapoints, hmatches, hnums.trans hfile'⟩

theorem AsBefore.trans {files₁ files₂ files₃ : EventFiles} (h : AsBefore files₁ files₂) (h' : AsBefore files₂ files₃) :
    AsBefore files₁ files₃ :=
  ⟨h'.1.trans h.1, h'.2.1.trans h.2.1, h'.2.2.trans h.2.2⟩

theorem run_fromOne {before files : EventFiles} {updates : List Update}
    (hrule : Machine.Meets (updateStep parseJson) (Usable parseJson) before updates)
    (hrun : Machine.run (updateStep parseJson) before updates = some files) :
    FromOne parseJson before updates files := by
  induction updates generalizing before with
  | nil =>
    cases hrun
    exact .inl ⟨rfl, rfl, rfl⟩
  | cons u updates ih =>
    obtain ⟨middle, hstep, hrest⟩ := Machine.run_cons hrun
    have hlast := ih (hrule.2 middle hstep) hrest
    cases hstep
    rcases hlast with hsame | ⟨u', hu', hmade⟩
    · rcases (update_agrees_iff u before).mpr hrule.1 with hbefore | hmade
      · exact .inl (hbefore.trans hsame)
      · exact .inr ⟨u, List.mem_cons_self .., hmade.of_asBefore hsame⟩
    · exact .inr ⟨u', List.mem_cons_of_mem u hu', hmade⟩

/-- **The files describe one event exactly when** the replies of an update can be used;
and after a run of such updates they are all of one update. -/
theorem event_files_agree (parseJson : Text → Option Json) :
    (∀ (u : Update) (files : EventFiles),
      (AsBefore files (tbaDataUpdate parseJson u files) ∨ MadeFrom parseJson u (tbaDataUpdate parseJson u files)) ↔
        Usable parseJson files u) ∧
    ∀ (before files : EventFiles) (updates : List Update),
      Machine.Meets (updateStep parseJson) (Usable parseJson) before updates →
      Machine.run (updateStep parseJson) before updates = some files → FromOne parseJson before updates files := by
  constructor
  · intro u files
    exact update_agrees_iff u files
  · intro before files updates hrule hrun
    exact run_fromOne hrule hrun

/-! ### Two events -/

/-- A reply with one team and one with one match; nothing else can be parsed. -/
def parseReply (text : Text) : Option Json :=
  if text = ['t'] then some (.array [.object [("team_number".toList, .number 1138)]])
  else if text = ['m'] then some (.array [.object [("comp_level".toList, .string "qm".toList)]])
  else none

/-- An update of a valid event whose matches arrive. -/
def updateWith (event teams : Text) : Update := ⟨event, "\x7b \x7d     ".toList, ['m'], teams⟩

def noFiles : EventFiles := ⟨[], [], [], []⟩

theorem event_files_agree_oneUpdate :
    FromOne parseReply noFiles [updateWith ['a'] ['t']]
      (tbaDataUpdate parseReply (updateWith ['a'] ['t']) noFiles) := by
  refine (event_files_agree parseReply).2 noFiles _ [updateWith ['a'] ['t']] ⟨?_, fun _ _ => trivial⟩ rfl
  intro _
  exact .inl ⟨by decide, _, _, rfl, rfl⟩

/-- The teams of the second event do not arrive: its id stands next to the teams of the first. -/
theorem teams_of_another_event :
    ∃ files, Machine.run (updateStep parseReply) noFiles [updateWith ['a'] ['t'], updateWith ['b'] []] = some files ∧
      files.compID = ['b'] ∧ files.teamCompList = teamList [1138] ∧
      (updateWith ['b'] []).valid = true ∧
      ¬ (AsBefore (tbaDataUpdate parseReply (updateWith ['a'] ['t']) noFiles) files ∨
        MadeFrom parseReply (updateWith ['b'] []) files) := by
  refine ⟨_, rfl, rfl, by decide, by decide, ?_⟩
  intro h
  rcases h with hsame | hmade
  · exact absurd hsame.2.2 (by decide)
  · obtain ⟨teams, hne, hparse, _⟩ := hmade.teams
    exact hne hparse.symm

end ScoutingComputer
