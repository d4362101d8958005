import Mathlib.Data.List.Forall2
import ScoutingComputer.Database.Table

/-! Storing datapoints, one `INSERT` for each.

An `INSERT` takes effect when the server executes it and accepts its values; no result
is looked at. -/
namespace ScoutingComputer

/-- `P` holds of every member of `ds`, counted from `k` on. -/
def EveryPass {α : Type} (P : Nat → α → Prop) (k : Nat) (ds : List α) : Prop :=
  ∀ j (h : j < ds.length), P (k + j) ds[j]

theorem everyPass_nil {α : Type} (P : Nat → α → Prop) (k : Nat) : EveryPass P k [] :=
  fun j h => absurd h (Nat.not_lt_zero j)

theorem everyPass_cons {α : Type} (P : Nat → α → Prop) (k : Nat) (d : α) (ds : List α) :
    EveryPass P k (d :: ds) ↔ P k d ∧ EveryPass P (k + 1) ds := by
  constructor
  · intro h
    refine ⟨h 0 (by simp), fun j hj => ?_⟩
    have := h (j + 1) (by simpa using hj)
    rwa [← Nat.add_assoc, Nat.add_right_comm] at this
  · rintro ⟨h, hs⟩ j hj
    cases j with
    | zero => exact h
    | succ j =>
      have := hs j (by simpa using hj)
      rwa [Nat.add_right_comm, Nat.add_assoc] at this

variable (server : Server)

/-- `DatabaseMan::addMatchDatapoints` from datapoint `k` on: one `INSERT` with upload id
0 for each. `ok k` is whether the server executes it. -/
def addMatchDatapoints (ok : Nat → Bool) : Nat → List (Datapoint Text) → Table → Table
  | _, [], t => t
  | k, d :: ds, t => addMatchDatapoints ok (k + 1) ds (server.insert (ok k) ['0'] d t)

/-- The `INSERT` number `k` takes effect. -/
def takesEffect (ok : Nat → Bool) (uploadID : Text) (k : Nat) (d : Datapoint Text) : Bool :=
  ok k && (server.values uploadID d).isSome

variable {server}

theorem insert_takesEffect {ok : Nat → Bool} {uploadID : Text} {k : Nat} {d : Datapoint Text}
    (h : takesEffect server ok uploadID k d = true) (t : Table) :
    ∃ id data, server.values uploadID d = some (id, data) ∧
      server.insert (ok k) uploadID d t = ⟨t.rows ++ [⟨t.nextKey, id, data⟩], t.nextKey + 1⟩ := by
  simp only [takesEffect, Bool.and_eq_true, Option.isSome_iff_exists] at h
  obtain ⟨hok, ⟨id, data⟩, hv⟩ := h
  exact ⟨id, data, hv, by simp [Server.insert, hok, hv]⟩

theorem insert_noEffect {ok : Nat → Bool} {uploadID : Text} {k : Nat} {d : Datapoint Text}
    (h : takesEffect server ok uploadID k d = false) (t : Table) :
    server.insert (ok k) uploadID d t = t := by
  cases hok : ok k with
  | false => rfl
  | true =>
    have hv : server.values uploadID d = none := by simpa [takesEffect, hok] using h
    simp [Server.insert, hv]

/-- A row that an `INSERT` leaves was there before, or holds the inserted values. -/
theorem mem_insert {ok : Bool} {uploadID : Text} {d : Datapoint Text} {t : Table} {r : Row}
    (h : r ∈ (server.insert ok uploadID d t).rows) :
    r ∈ t.rows ∨ ok = true ∧ server.values uploadID d = some (r.uploadID, r.data) := by
  unfold Server.insert at h
  cases ok with
  | false => exact .inl h
  | true =>
    rw [if_pos rfl] at h
    cases hv : server.values uploadID d with
    | none =>
      rw [hv] at h
      exact .inl h
    | some v =>
      rw [hv] at h
      rcases List.mem_append.mp h with h | h
      · exact .inl h
      · cases List.mem_singleton.mp h
        exact .inr ⟨rfl, rfl⟩

theorem values_eq {uploadID : Text} {d : Datapoint Text} {id : Cell} {data : Datapoint Cell}
    (h : server.values uploadID d = some (id, data)) :
    server.number (cString uploadID) = some id ∧ server.store (d.map cString) = some data := by
  unfold Server.values at h
  cases hn : server.number (cString uploadID) with
  | none => simp [hn] at h
  | some id' =>
    cases hs : server.store (d.map cString) with
    | none => simp [hn, hs] at h
    | some data' =>
      simp only [hn, hs, Option.some.injEq, Prod.mk.injEq] at h
      exact ⟨congrArg some h.1, congrArg some h.2⟩

/-- The rows after storing a match: the old ones, and rows with upload id 0. -/
theorem mem_addMatchDatapoints {ok : Nat → Bool} {k : Nat} {ds : List (Datapoint Text)} {t : Table} {r : Row}
    (h : r ∈ (addMatchDatapoints server ok k ds t).rows) :
    r ∈ t.rows ∨ r.uploadID = some ['0'] ∧ ∃ d ∈ ds, server.store (d.map cString) = some r.data := by
  induction ds generalizing k t with
  | nil => exact .inl h
  | cons d ds ih =>
    rcases ih h with h | ⟨hid, d', hd', hdata⟩
    · rcases mem_insert h with h | ⟨_, hv⟩
      · exact .inl h
      · obtain ⟨hid, hdata⟩ := values_eq hv
        have hzero : cString ['0'] = ['0'] := by decide
        rw [hzero, server.number_zero] at hid
        exact .inr ⟨(Option.some.inj hid).symm, d, List.mem_cons_self .., hdata⟩
    · exact .inr ⟨hid, d', List.mem_cons_of_mem d hd', hdata⟩

/-! ### The rows that a match adds -/

/-- The row holds the values of the datapoint, under upload id 0. -/
def StoredAs (server : Server) (d : Datapoint Text) (r : Row) : Prop :=
  r.uploadID = some ['0'] ∧ server.store (d.map cString) = some r.data

theorem storedAs_of_values {d : Datapoint Text} {id : Cell} {data : Datapoint Cell} (key : Nat)
    (h : server.values ['0'] d = some (id, data)) : StoredAs server d ⟨key, id, data⟩ := by
  obtain ⟨hid, hdata⟩ := values_eq h
  have hzero : cString ['0'] = ['0'] := by decide
  rw [hzero, server.number_zero] at hid
  exact ⟨(Option.some.inj hid).symm, hdata⟩

/-- The old rows stay, and each `INSERT` that takes effect adds the row of its datapoint. -/
theorem addMatchDatapoints_rows (server : Server) (ok : Nat → Bool) (k : Nat) (ds : List (Datapoint Text)) (t : Table) :
    ∃ gained, (addMatchDatapoints server ok k ds t).rows = t.rows ++ gained ∧
      (EveryPass (fun k d => takesEffect server ok ['0'] k d = true) k ds →
        List.Forall₂ (StoredAs server) ds gained) ∧
      gained.length ≤ ds.length ∧
      (gained.length = ds.length → EveryPass (fun k d => takesEffect server ok ['0'] k d = true) k ds) ∧
      (gained = [] ↔ EveryPass (fun k d => takesEffect server ok ['0'] k d = false) k ds) := by
  induction ds generalizing k t with
  | nil =>
    exact ⟨[], by simp [addMatchDatapoints], by simp, le_rfl, fun _ => everyPass_nil _ k, by simp [everyPass_nil]⟩
  | cons d ds ih =>
    simp only [addMatchDatapoints, everyPass_cons]
    cases h : takesEffect server ok ['0'] k d with
    | true =>
      obtain ⟨id, data, hv, hinsert⟩ := insert_takesEffect h t
      rw [hinsert]
      obtain ⟨gained, hrows, hall, hle, hfull, _⟩ := ih (k + 1) ⟨t.rows ++ [⟨t.nextKey, id, data⟩], t.nextKey + 1⟩
      refine ⟨⟨t.nextKey, id, data⟩ :: gained, ?_, ?_, ?_, ?_, ?_⟩
      · rw [hrows, List.append_assoc, List.singleton_append]
      · exact fun heff => .cons (storedAs_of_values t.nextKey hv) (hall heff.2)
      · simpa using hle
      · exact fun hlen => ⟨rfl, hfull (by simpa using hlen)⟩
      · simp
    | false =>
      rw [insert_noEffect h]
      obtain ⟨gained, hrows, _, hle, _, hnone⟩ := ih (k + 1) t
      refine ⟨gained, hrows, ?_, ?_, ?_, ?_⟩
      · rintro ⟨heff, _⟩
        cases heff
      · exact hle.trans (Nat.le_succ _)
      · intro hlen
        rw [List.length_cons] at hlen
        omega
      · rw [hnone]
        exact ⟨fun heff => ⟨rfl, heff⟩, fun heff => heff.2⟩

end ScoutingComputer
