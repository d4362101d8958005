import Mathlib.Data.List.Perm.Basic
import ScoutingComputer.JsonParser

/-! The table `team` and the handler that refreshes it.

All rows are deleted, and each of the 23 pages of teams is requested, parsed and inserted
team by team. A page that does not arrive whole gives its first teams or none, and no
result of an `INSERT` is looked at, so the table can end with some of the teams.
`refresh_all_or_nothing_iff` says when it does not. -/
namespace ScoutingComputer

structure TeamRow where
  teamId : Cell
  teamNumber : Cell
  teamDesc : Cell
  deriving DecidableEq, Repr

section
variable (server : Server)

/-- The row of `insert into team(TeamId, TeamNumber, TeamDesc) values(?, ?, '?')`; `none`
when the server rejects the number. -/
def teamRow (team : TeamDatapoint) : Option TeamRow :=
  (server.number (decimal team.teamNum)).map fun number => ⟨number, number, some (cString team.teamName)⟩

/-- `addTeams` from team `k` on; `ok k` is whether the server executes its `INSERT`. -/
def addTeams (ok : Nat → Bool) : Nat → List TeamDatapoint → List TeamRow → List TeamRow
  | _, [], t => t
  | k, team :: teams, t =>
    match ok k, teamRow server team with
    | true, some row => addTeams ok (k + 1) teams (t ++ [row])
    | _, _ => addTeams ok (k + 1) teams t

variable (parseJson : Text → Option Json)

/-- `getteamdata` with the reply to its request. -/
def getteamdata (ok : Nat → Bool) (reply : Text) (t : List TeamRow) : List TeamRow :=
  addTeams server ok 0 (parseTeams (jsonData parseJson reply)) t

/-- What the database and the backend do during one refresh. -/
structure Refresh where
  /-- Whether `delete from team` is executed. -/
  delete : Bool
  /-- The replies to the requests of the pages. -/
  reply : Nat → Text
  /-- Whether the `INSERT` of a team of a page is executed. -/
  insert : Nat → Nat → Bool

def clearTeams (ok : Bool) (t : List TeamRow) : List TeamRow := if ok then [] else t

/-- The handler of the button. -/
def refreshTeams (o : Refresh) (t : List TeamRow) : List TeamRow :=
  (List.range 23).foldl (fun t page => getteamdata server parseJson (o.insert page) (o.reply page) t)
    (clearTeams o.delete t)

/-! ### What arrives and what is stored -/

/-- The teams of the pages. What the parser reads of a reply are the first teams of its
page: all of them, those before a malformed one, or none. -/
structure Pages (o : Refresh) where
  teams : Nat → List TeamDatapoint
  arrived : ∀ page, parseTeams (jsonData parseJson (o.reply page)) <+: teams page

/-- The teams whose `INSERT` takes effect. -/
def storedTeams (ok : Nat → Bool) : Nat → List TeamDatapoint → List TeamDatapoint
  | _, [] => []
  | k, team :: teams =>
    if ok k && (teamRow server team).isSome then team :: storedTeams ok (k + 1) teams
    else storedTeams ok (k + 1) teams

def failedTeams (ok : Nat → Bool) : Nat → List TeamDatapoint → List TeamDatapoint
  | _, [] => []
  | k, team :: teams =>
    if ok k && (teamRow server team).isSome then failedTeams ok (k + 1) teams
    else team :: failedTeams ok (k + 1) teams

namespace Refresh
variable (o : Refresh)

/-- The teams that a refresh stores. -/
def stored : List TeamDatapoint :=
  (List.range 23).flatMap fun page =>
    storedTeams server (o.insert page) 0 (parseTeams (jsonData parseJson (o.reply page)))

variable {parseJson}

/-- The teams that it does not: those whose `INSERT` has no effect, and those that do not
arrive. -/
def lost (pages : Pages parseJson o) : List TeamDatapoint :=
  (List.range 23).flatMap fun page =>
    failedTeams server (o.insert page) 0 (parseTeams (jsonData parseJson (o.reply page))) ++
      (pages.teams page).drop (parseTeams (jsonData parseJson (o.reply page))).length

end Refresh

variable {parseJson}

def Pages.all {o : Refresh} (pages : Pages parseJson o) : List TeamDatapoint := (List.range 23).flatMap pages.teams

/-- The table has one row for every team of every page, and no other. -/
def AllTeams {o : Refresh} (pages : Pages parseJson o) (t : List TeamRow) : Prop :=
  (t.map some).Perm (pages.all.map (teamRow server))

end

variable {server : Server} {parseJson : Text → Option Json}

/-- The old rows stay, and behind them are those of the stored teams. -/
theorem addTeams_rows (ok : Nat → Bool) (k : Nat) (teams : List TeamDatapoint) (t : List TeamRow) :
    (addTeams server ok k teams t).map some = t.map some ++ (storedTeams server ok k teams).map (teamRow server) := by
  induction teams generalizing k t with
  | nil => simp [addTeams, storedTeams]
  | cons team teams ih =>
    unfold addTeams storedTeams
    cases hok : ok k with
    | false => simpa using ih (k + 1) t
    | true =>
      cases hrow : teamRow server team with
      | none => simpa using ih (k + 1) t
      | some row => simpa [hrow] using ih (k + 1) (t ++ [row])

theorem stored_failed_perm (ok : Nat → Bool) (k : Nat) (teams : List TeamDatapoint) :
    (storedTeams server ok k teams ++ failedTeams server ok k teams).Perm teams := by
  induction teams generalizing k with
  | nil => exact .nil
  | cons team teams ih =>
    unfold storedTeams failedTeams
    by_cases h : (ok k && (teamRow server team).isSome) = true
    · rw [if_pos h, if_pos h]
      exact (ih (k + 1)).cons team
    · rw [if_neg h, if_neg h]
      exact List.perm_middle.trans ((ih (k + 1)).cons team)

/-- Pages inserted one after another. -/
theorem foldl_rows (o : Refresh) (indices : List Nat) (t : List TeamRow) :
    (indices.foldl (fun t page => getteamdata server parseJson (o.insert page) (o.reply page) t) t).map some =
      t.map some ++ (indices.flatMap fun page =>
        storedTeams server (o.insert page) 0 (parseTeams (jsonData parseJson (o.reply page)))).map
          (teamRow server) := by
  induction indices generalizing t with
  | nil => simp
  | cons page indices ih =>
    rw [List.foldl_cons, ih]
    unfold getteamdata
    rw [addTeams_rows, List.flatMap_cons, List.map_append, List.append_assoc]

variable (server parseJson) in
theorem refreshTeams_rows (o : Refresh) (t : List TeamRow) :
    (refreshTeams server parseJson o t).map some =
      (clearTeams o.delete t).map some ++ (o.stored server parseJson).map (teamRow server) :=
  foldl_rows o (List.range 23) _

/-- Every team of every page is stored or lost. -/
theorem stored_lost_perm {o : Refresh} (pages : Pages parseJson o) :
    (o.stored server parseJson ++ o.lost server pages).Perm pages.all := by
  unfold Refresh.stored Refresh.lost Pages.all
  refine (List.flatMap_append_perm (List.range 23) _ _).trans (List.Perm.flatMap_left _ ?_)
  intro page _
  obtain ⟨missing, hmissing⟩ := pages.arrived page
  rw [← hmissing, List.drop_left, ← List.append_assoc]
  exact (stored_failed_perm _ 0 _).append_right missing

/-- No team is lost; or nothing changes, since the stored teams are those that the table
had. Without the `DELETE` the old rows count as stored. -/
def WholeOrUnchanged (server : Server) {o : Refresh} (pages : Pages parseJson o) (before : List TeamRow) : Prop :=
  if o.delete then
    o.lost server pages = [] ∨ ((o.stored server parseJson).map (teamRow server)).Perm (before.map some)
  else o.stored server parseJson = [] ∨ ((o.lost server pages).map (teamRow server)).Perm (before.map some)

theorem perm_append_self_iff {α : Type} (as bs : List α) : as.Perm (as ++ bs) ↔ bs = [] := by
  constructor
  · intro h
    have := h.length_eq
    rw [List.length_append] at this
    exact List.length_eq_zero_iff.mp (by omega)
  · rintro rfl
    rw [List.append_nil]

/-- **Refreshing is all-or-nothing exactly when** no team is lost or nothing changes. -/
theorem refresh_all_or_nothing_iff (server : Server) (parseJson : Text → Option Json) (o : Refresh)
    (pages : Pages parseJson o) (before : List TeamRow) :
    ((refreshTeams server parseJson o before).Perm before ∨
        AllTeams server pages (refreshTeams server parseJson o before)) ↔
      WholeOrUnchanged server pages before := by
  have hrows := refreshTeams_rows server parseJson o before
  have hall : (pages.all.map (teamRow server)).Perm
      ((o.stored server parseJson).map (teamRow server) ++ (o.lost server pages).map (teamRow server)) := by
    rw [← List.map_append]
    exact (stored_lost_perm pages).symm.map _
  have hsame : (refreshTeams server parseJson o before).Perm before ↔
      ((refreshTeams server parseJson o before).map some).Perm (before.map some) :=
    (List.map_perm_map_iff fun _ _ h => Option.some.inj h).symm
  have hfull : AllTeams server pages (refreshTeams server parseJson o before) ↔
      ((refreshTeams server parseJson o before).map some).Perm
        ((o.stored server parseJson).map (teamRow server) ++ (o.lost server pages).map (teamRow server)) :=
    hall.congr_right _
  rw [hsame, hfull, hrows]
  unfold WholeOrUnchanged clearTeams
  cases o.delete with
  | true =>
    simp only [if_true, List.map_nil, List.nil_append]
    rw [perm_append_self_iff, List.map_eq_nil_iff]
    exact or_comm
  | false =>
    simp only [Bool.false_eq_true, if_false]
    rw [List.perm_comm, perm_append_self_iff, List.map_eq_nil_iff]
    apply or_congr_right
    rw [(List.perm_append_comm).congr_left, List.perm_append_left_iff, List.perm_comm]

/-! ### Two pages -/

/-- A page with one team; nothing else can be parsed. -/
def parsePage (text : Text) : Option Json :=
  if text = ['p'] then some (.array [.object [("team_number".toList, .number 1138)]]) else none

/-- The second page is cut short; every statement is executed. -/
def secondPageCut : Refresh := ⟨true, fun page => if page = 0 then ['p'] else [], fun _ _ => true⟩

def teamOfNumber (number : Int) : TeamDatapoint := ⟨number, "NULL".toList, "NULL".toList⟩

def twoPages : Pages parsePage secondPageCut where
  teams page := if page = 0 then [teamOfNumber 1138] else if page = 1 then [teamOfNumber 254] else []
  arrived := by
    intro page
    by_cases h : page = 0
    · subst h
      exact ⟨[], by decide⟩
    · have hnone : parseTeams (jsonData parsePage (secondPageCut.reply page)) = [] := by
        simp only [secondPageCut, if_neg h]
        rfl
      rw [hnone]
      exact List.nil_prefix

/-- The table has lost its row and gained one of two. -/
theorem refresh_keeps_a_part :
    refreshTeams plainServer parsePage secondPageCut [⟨some ['9'], some ['9'], some ['x']⟩] =
        [⟨some "1138".toList, some "1138".toList, some "NULL".toList⟩] ∧
      ¬ ((refreshTeams plainServer parsePage secondPageCut [⟨some ['9'], some ['9'], some ['x']⟩]).Perm
            [⟨some ['9'], some ['9'], some ['x']⟩] ∨
          AllTeams plainServer twoPages
            (refreshTeams plainServer parsePage secondPageCut [⟨some ['9'], some ['9'], some ['x']⟩])) := by
  have hrows : refreshTeams plainServer parsePage secondPageCut [⟨some ['9'], some ['9'], some ['x']⟩] =
      [⟨some "1138".toList, some "1138".toList, some "NULL".toList⟩] := by decide +kernel
  refine ⟨hrows, ?_⟩
  rw [hrows]
  intro h
  rcases h with hsame | hall
  · revert hsame
    decide
  · have hlength := hall.length_eq
    revert hlength
    decide

end ScoutingComputer
