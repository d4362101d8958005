import ScoutingComputer.Upload.Rewrite

/-! When a batch upload keeps every row.

The loop deletes all rows with id 0 in every pass, also those it has not inserted
again yet, and looks at no result. So a row is lost as soon as one `DELETE` is
executed and one `INSERT` of the batch is not, or the new id is itself 0
(`upload_keeps_rows_iff`). Rows are counted: two rows with the same values are two
rows. -/
namespace ScoutingComputer.Upload
variable (server : Server) (o : Outcomes)

/-- The rows of `after` that can stand for a row of `before`: the old rows, and the rows
under the id that the reply stands for. -/
def standing (reply : Text) (before after : Table) : List Row :=
  after.rows.filter fun r => r ∈ before.rows ∨ server.number (cString reply) = some r.uploadID

/-- Every row of `before` is in `after` as it was, or as a copy of its values under the
new id. -/
def Represented (reply : Text) (before after : Table) : Prop :=
  (before.rows.map printedData).Subperm ((standing server reply before after).map printedData)

/-- No `DELETE` is executed. -/
def NoDelete (k : Nat) (ds : List (Datapoint Text)) : Prop := EveryPass (fun k _ => o.delete k = false) k ds

/-- Every `INSERT` is executed with values the server accepts. -/
def AllInserted (k : Nat) (ds : List (Datapoint Text)) : Prop :=
  EveryPass (fun k d => effective server o k d = true) k ds

variable {server o}

/-! ### Nothing is lost -/

theorem insert_extends (ok : Bool) (uploadID : Text) (d : Datapoint Text) (t : Table) :
    t.rows <+: (server.insert ok uploadID d t).rows := by
  unfold Server.insert
  split
  · split
    · exact List.prefix_append ..
    · exact List.prefix_refl _
  · exact List.prefix_refl _

/-- Without a `DELETE` the old rows stay. -/
theorem rewrite_noDelete (k : Nat) (ds : List (Datapoint Text)) (t : Table) (h : NoDelete o k ds) :
    t.rows <+: (rewrite server o k ds t).rows := by
  induction ds generalizing k t with
  | nil => exact List.prefix_refl _
  | cons d ds ih =>
    obtain ⟨hk, hs⟩ := (everyPass_cons _ k d ds).mp h
    simp only [rewrite, hk]
    exact (insert_extends ..).trans (ih (k + 1) _ hs)

/-- With every row inserted again under an id other than 0, the settled rows are those
there were and a copy of each row read. -/
theorem rewrite_allInserted {id : Cell} (hid : server.number (cString o.backendNum) = some id)
    (hne : id ≠ some ['0']) (k : Nat) (ds : List (Datapoint Text)) (t : Table)
    (h : AllInserted server o k ds) (hf : ∀ d ∈ ds, Faithful server d) :
    ∃ copies : List Row, settled (rewrite server o k ds t) = settled t ++ copies ∧
      (∀ r ∈ copies, r.uploadID = id) ∧ copies.map printedData = ds := by
  induction ds generalizing k t with
  | nil => exact ⟨[], by simp [rewrite], by simp, rfl⟩
  | cons d ds ih =>
    obtain ⟨hk, hs⟩ := (everyPass_cons _ k d ds).mp h
    obtain ⟨id', data, hv, hinsert⟩ := insert_takesEffect hk t
    obtain ⟨hid', hdata⟩ := values_eq hv
    have hsame : id' = id := by
      rw [hid] at hid'
      exact (Option.some.inj hid').symm
    subst hsame
    obtain ⟨copies, hsettled, hids, hdatas⟩ :=
      ih (k + 1) ((server.insert (o.insert k) o.backendNum d t).deleteZero (o.delete k)) hs
        (fun d' hd' => hf d' (List.mem_cons_of_mem d hd'))
    refine ⟨⟨t.nextKey, id', data⟩ :: copies, ?_, ?_, ?_⟩
    · rw [rewrite, hsettled, settled_deleteZero, hinsert, settled_insert, if_neg hne,
        List.append_assoc, List.singleton_append]
    · intro r hr
      rcases List.mem_cons.mp hr with rfl | hr
      · rfl
      · exact hids r hr
    · simp only [List.map_cons, hdatas, printedData, hf d (List.mem_cons_self ..) data hdata]

/-! ### Counting the rows that are left -/

variable (server o)

theorem insert_length_le (k : Nat) (d : Datapoint Text) (t : Table) :
    (server.insert (o.insert k) o.backendNum d t).rows.length ≤ t.rows.length + 1 := by
  cases h : effective server o k d with
  | false => rw [insert_noEffect h]; omega
  | true =>
    obtain ⟨id, data, _, hinsert⟩ := insert_takesEffect h t
    rw [hinsert]
    simp

theorem deleteZero_length_le (ok : Bool) (t : Table) : (t.deleteZero ok).rows.length ≤ t.rows.length := by
  rw [deleteZero_rows]
  cases ok
  · exact le_rfl
  · exact settled_le t

/-- A loop adds at most one row a pass. -/
theorem rewrite_length_le (k : Nat) (ds : List (Datapoint Text)) (t : Table) :
    (rewrite server o k ds t).rows.length ≤ t.rows.length + ds.length := by
  induction ds generalizing k t with
  | nil => exact le_rfl
  | cons d ds ih =>
    have hrest := ih (k + 1) ((server.insert (o.insert k) o.backendNum d t).deleteZero (o.delete k))
    have hdelete := deleteZero_length_le (o.delete k) (server.insert (o.insert k) o.backendNum d t)
    have hinsert := insert_length_le server o k d t
    simp only [rewrite, List.length_cons]
    omega

/-- A pass whose `INSERT` fails adds none. -/
theorem rewrite_length_lt (k : Nat) (ds : List (Datapoint Text)) (t : Table)
    (h : ¬ AllInserted server o k ds) :
    (rewrite server o k ds t).rows.length < t.rows.length + ds.length := by
  induction ds generalizing k t with
  | nil => exact absurd (everyPass_nil _ k) h
  | cons d ds ih =>
    have hdelete := deleteZero_length_le (o.delete k) (server.insert (o.insert k) o.backendNum d t)
    simp only [rewrite, List.length_cons]
    by_cases hk : effective server o k d = true
    · have hs : ¬ AllInserted server o (k + 1) ds := fun hs => h ((everyPass_cons _ k d ds).mpr ⟨hk, hs⟩)
      have hrest := ih (k + 1) ((server.insert (o.insert k) o.backendNum d t).deleteZero (o.delete k)) hs
      have hinsert := insert_length_le server o k d t
      omega
    · have hrest := rewrite_length_le server o (k + 1) ds
        ((server.insert (o.insert k) o.backendNum d t).deleteZero (o.delete k))
      rw [insert_noEffect (eq_false_of_ne_true hk)] at hdelete hrest ⊢
      omega

/-- An `INSERT` settles one row, or none when it fails or stores the id 0. -/
theorem settled_insert_length (k : Nat) (d : Datapoint Text) (t : Table) :
    (settled (server.insert (o.insert k) o.backendNum d t)).length ≤ (settled t).length + 1 ∧
      (effective server o k d = false ∨ server.number (cString o.backendNum) = some (some ['0']) →
        (settled (server.insert (o.insert k) o.backendNum d t)).length = (settled t).length) := by
  cases h : effective server o k d with
  | false => simp [insert_noEffect h]
  | true =>
    obtain ⟨id, data, hv, hinsert⟩ := insert_takesEffect h t
    rw [hinsert, settled_insert, (values_eq hv).1]
    by_cases hid : id = some ['0'] <;> simp [hid]

/-- Once a `DELETE` is executed, at most the settled rows and one row a pass are left,
and fewer unless every row was inserted again under an id other than 0. -/
theorem rewrite_deleted (k : Nat) (ds : List (Datapoint Text)) (t : Table) (h : ¬ NoDelete o k ds) :
    (rewrite server o k ds t).rows.length ≤ (settled t).length + ds.length ∧
      (server.number (cString o.backendNum) = some (some ['0']) ∨ ¬ AllInserted server o k ds →
        (rewrite server o k ds t).rows.length < (settled t).length + ds.length) := by
  induction ds generalizing k t with
  | nil => exact absurd (everyPass_nil _ k) h
  | cons d ds ih =>
    obtain ⟨hinsert, hsame⟩ := settled_insert_length server o k d t
    have hcases : ¬ AllInserted server o k (d :: ds) →
        effective server o k d = false ∨ ¬ AllInserted server o (k + 1) ds := by
      intro hall
      by_contra hcon
      rw [not_or, not_not, Bool.not_eq_false] at hcon
      exact hall ((everyPass_cons _ k d ds).mpr hcon)
    simp only [rewrite, List.length_cons]
    generalize server.insert (o.insert k) o.backendNum d t = t₁ at hinsert hsame
    cases hk : o.delete k with
    | true =>
      have hrows : (t₁.deleteZero true).rows = settled t₁ := deleteZero_rows true t₁
      have hle := rewrite_length_le server o (k + 1) ds (t₁.deleteZero true)
      have hlt := rewrite_length_lt server o (k + 1) ds (t₁.deleteZero true)
      rw [hrows] at hle hlt
      refine ⟨by omega, fun hbad => ?_⟩
      rcases hbad with hzero | hall
      · have := hsame (.inr hzero)
        omega
      · rcases hcases hall with heff | hrest
        · have := hsame (.inl heff)
          omega
        · have := hlt hrest
          omega
    | false =>
      have hs : ¬ NoDelete o (k + 1) ds := fun hs => h ((everyPass_cons _ k d ds).mpr ⟨hk, hs⟩)
      have ht : t₁.deleteZero false = t₁ := rfl
      obtain ⟨hle, hlt⟩ := ih (k + 1) t₁ hs
      rw [ht]
      refine ⟨by omega, fun hbad => ?_⟩
      rcases hbad with hzero | hall
      · have := hlt (.inl hzero)
        omega
      · rcases hcases hall with heff | hrest
        · have := hsame (.inl heff)
          omega
        · have := hlt (.inr hrest)
          omega

/-! ### The rows before and after -/

variable {server o}

theorem rows_perm (t : Table) :
    t.rows.Perm (settled t ++ t.rows.filter (·.uploadID = some ['0'])) := by
  have h := List.filter_append_perm (fun r : Row => decide (r.uploadID ≠ some ['0'])) t.rows
  simpa [settled] using h.symm

theorem standing_length_le (server : Server) (reply : Text) (before after : Table) :
    (standing server reply before after).length ≤ after.rows.length := List.length_filter_le ..

/-- Old rows that are still there stand for themselves. -/
theorem represented_of_extension {reply : Text} {before after : Table} (h : before.rows <+: after.rows) :
    Represented server reply before after := by
  have hself : before.rows.filter
      (fun r => decide (r ∈ before.rows ∨ server.number (cString reply) = some r.uploadID)) = before.rows :=
    List.filter_eq_self.mpr (fun r hr => by simp [hr])
  have hsub := h.sublist.filter
    (fun r => decide (r ∈ before.rows ∨ server.number (cString reply) = some r.uploadID))
  rw [hself] at hsub
  exact (hsub.map printedData).subperm

/-- Copies of the rows with id 0, all settled under the new id, stand for them. -/
theorem represented_of_copies {reply : Text} {before after : Table} {copies : List Row} {id : Cell}
    (hid : server.number (cString reply) = some id) (hsettled : settled after = settled before ++ copies)
    (hids : ∀ r ∈ copies, r.uploadID = id)
    (hdata : copies.map printedData = (before.rows.filter (·.uploadID = some ['0'])).map printedData) :
    Represented server reply before after := by
  have hself : (settled after).filter
      (fun r => decide (r ∈ before.rows ∨ server.number (cString reply) = some r.uploadID)) = settled after := by
    apply List.filter_eq_self.mpr
    intro r hr
    rw [hsettled, List.mem_append] at hr
    rcases hr with hr | hr
    · simp [List.mem_of_mem_filter hr]
    · simp [hids r hr, hid]
  have hstanding : (settled after).Sublist (standing server reply before after) := by
    rw [← hself]
    exact List.filter_sublist.filter _
  have hbefore : (before.rows.map printedData).Perm ((settled after).map printedData) := by
    rw [hsettled, List.map_append, hdata, ← List.map_append]
    exact (rows_perm before).map printedData
  exact hbefore.subperm.trans (hstanding.map printedData).subperm

/-- Fewer rows than before cannot stand for all of them. -/
theorem not_represented {reply : Text} {before after : Table} (h : after.rows.length < before.rows.length) :
    ¬ Represented server reply before after := by
  intro hrep
  have hlen := hrep.length_le
  have hle := standing_length_le server reply before after
  simp only [List.length_map] at hlen
  omega

/-- An `INSERT` that takes effect has an id. -/
theorem AllInserted.number {k : Nat} {ds : List (Datapoint Text)} (h : AllInserted server o k ds)
    (hne : ds ≠ []) : ∃ id, server.number (cString o.backendNum) = some id := by
  obtain ⟨d, rest, rfl⟩ := List.exists_cons_of_ne_nil hne
  obtain ⟨id, data, hv, _⟩ := insert_takesEffect ((everyPass_cons _ k d rest).mp h).1 ⟨[], 0⟩
  exact ⟨id, (values_eq hv).1⟩

/-- Two rows not yet uploaded. -/
def twoRows : Table :=
  let row (team : Text) : Datapoint Cell :=
    ⟨some "2026casac".toList, some ['5'], some ['1'], some ['3'], some team, some ['0'], some "true".toList,
      some "17".toList⟩
  ⟨[⟨1, some ['0'], row "1138".toList⟩, ⟨2, some ['0'], row "254".toList⟩], 3⟩

/-- All statements are executed but the `INSERT`s that `failing` names. -/
def statements (failing : Nat → Bool) : Outcomes where
  select := true
  backendNum := ['7']
  insert k := !failing k
  delete _ := true
  headers := true
  post := true

end ScoutingComputer.Upload
