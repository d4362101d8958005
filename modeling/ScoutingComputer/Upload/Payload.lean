import ScoutingComputer.Upload

/-! The payload of an upload.

The columns of the table have different names, so the object made of a row has one
member for each column, in the order of the columns, with the batch in place of the
stored upload id. -/
namespace ScoutingComputer.Upload

theorem assign_new {object : JsonObject} {name : Text} (h : ∀ m ∈ object, m.1 ≠ name) (value : Text) :
    assign object name value = object ++ [(name, value)] := by
  have hany : object.any (·.1 = name) = false := by
    rw [List.any_eq_false]
    intro m hm
    simpa using h m hm
  simp [assign, hany]

/-- The member of a column. -/
def member (batch : Text) (name value : Text) : Text × Text :=
  (name, if name = uploadIDColumn then batch else value)

theorem payloadObject_zip (batch : Text) (before names values : List Text) (object : JsonObject)
    (hlen : values.length ≤ names.length) (hnodup : names.Nodup) (hnew : ∀ m ∈ object, m.1 ∉ names) :
    payloadObject (before ++ names) batch before.length values object =
      .ok (object ++ List.zipWith (member batch) names values) := by
  induction values generalizing before names object with
  | nil => simp [payloadObject]
  | cons value values ih =>
    cases names with
    | nil => simp at hlen
    | cons name names =>
      have hname : (before ++ name :: names)[before.length]? = some name := by simp
      have hassign := assign_new
        (fun m hm (heq : m.1 = name) => hnew m hm (by rw [heq]; exact List.mem_cons_self ..))
        (if name = uploadIDColumn then batch else value)
      have hrest := ih (before ++ [name]) names (object ++ [member batch name value])
        (by simpa using hlen) (List.nodup_cons.mp hnodup).2 (by
          intro m hm hin
          rcases List.mem_append.mp hm with hm | hm
          · exact hnew m hm (List.mem_cons_of_mem name hin)
          · cases List.mem_singleton.mp hm
            exact (List.nodup_cons.mp hnodup).1 hin)
      simp only [List.append_assoc, List.singleton_append, List.length_append, List.length_cons,
        List.length_nil] at hrest
      simp only [payloadObject, hname, hassign, List.zipWith_cons_cons]
      exact hrest

/-- Under other names the values stay. -/
theorem zipWith_member (batch : Text) {names : List Text} (values : List Text) (h : uploadIDColumn ∉ names) :
    List.zipWith (member batch) names values = names.zip values := by
  rw [List.zip]
  induction names generalizing values with
  | nil => rfl
  | cons name names ih =>
    rw [List.mem_cons, not_or] at h
    cases values with
    | nil => rfl
    | cons value values =>
      rw [List.zipWith_cons_cons, List.zipWith_cons_cons, ih values h.2, member, if_neg (Ne.symm h.1)]

theorem columns_nodup (server : Server) : server.columns.Nodup :=
  List.nodup_cons.mpr ⟨server.keyColumn_new, by decide⟩

/-- The object that a row makes. -/
def objectOf (server : Server) (batch : Text) (r : Row) : JsonObject :=
  List.zipWith (member batch) server.columns r.texts

theorem payloadObject_texts (server : Server) (batch : Text) (r : Row) :
    payloadObject server.columns batch 0 r.texts [] = .ok (objectOf server batch r) := by
  have hlen : r.texts.length ≤ server.columns.length := le_rfl
  exact payloadObject_zip batch [] server.columns r.texts [] hlen (columns_nodup server) (by simp)

/-- With the column names at hand, the payload is one object for each row read. -/
theorem payload_texts (server : Server) (batch : Text) (rows : List Row) :
    payload server.columns batch (rows.map Row.texts) = .ok (rows.map (objectOf server batch)) := by
  unfold payload
  induction rows with
  | nil => rfl
  | cons r rows ih => rw [List.map_cons, List.mapM_cons, payloadObject_texts, ih]; rfl

theorem post_texts (server : Server) (o : Outcomes) (batch : Text) (rows : List Row)
    (h : o.headers = true) :
    post server o batch (rows.map Row.texts) = .posted (rows.map (objectOf server batch)) o.post := by
  simp [post, h, payload_texts]

end ScoutingComputer.Upload
