import ScoutingComputer.DatabaseScene
import ScoutingComputer.EventFiles.LocalDb

/-! Which failing statements end the program in the database scene.

Every row of a result set has one cell for each of its columns, so a loop over the rows
goes wrong in the first pass or in none. The export needs a row; the upload needs the
columns of a datapoint where it inserts the rows again, and a name for each column where
it makes the payload (`survives_iff`). -/
namespace ScoutingComputer.DatabaseScene
open Upload (JsonObject datapointAt payloadObject payload)

/-! ### Loops over the rows -/

theorem mapM_ok {α β ε : Type} {f : α → Except ε β} {l : List α} (h : ∀ a ∈ l, ∃ b, f a = .ok b) :
    ∃ bs, l.mapM f = .ok bs := by
  induction l with
  | nil => exact ⟨[], rfl⟩
  | cons a l ih =>
    obtain ⟨b, hb⟩ := h a List.mem_cons_self
    obtain ⟨bs, hbs⟩ := ih fun a' ha' => h a' (List.mem_cons_of_mem a ha')
    exact ⟨b :: bs, by rw [List.mapM_cons, hb, hbs]; rfl⟩

theorem mapM_error {α β ε : Type} {f : α → Except ε β} {a : α} {e : ε} (h : f a = .error e) (l : List α) :
    (a :: l).mapM f = .error e := by
  rw [List.mapM_cons, h]
  rfl

theorem datapointAt_ok {row : List Text} (h : 10 ≤ row.length) : ∃ d, datapointAt row = .ok d := by
  unfold datapointAt
  split
  · exact ⟨_, rfl⟩
  · rename_i hrow
    match row, h, hrow with
    | a :: b :: c :: d :: e :: f :: g :: i :: j :: k :: rest, _, hrow =>
      exact absurd rfl (hrow a b c d e f g i j k rest)

theorem datapointAt_short {row : List Text} (h : row.length < 10) : datapointAt row = .error .outOfRange := by
  unfold datapointAt
  split
  · simp only [List.length_cons] at h
    omega
  · rfl

theorem payloadObject_ok (columnNames : List Text) (batch : Text) (values : List Text) (j : Nat) (object : JsonObject)
    (h : j + values.length ≤ columnNames.length) :
    ∃ object', payloadObject columnNames batch j values object = .ok object' := by
  induction values generalizing j object with
  | nil => exact ⟨object, rfl⟩
  | cons value values ih =>
    rw [List.length_cons] at h
    have hj : j < columnNames.length := by omega
    rw [payloadObject, List.getElem?_eq_getElem hj]
    exact ih (j + 1) _ (by omega)

theorem payloadObject_short (columnNames : List Text) (batch : Text) (values : List Text) (j : Nat)
    (object : JsonObject) (hj : j ≤ columnNames.length) (h : columnNames.length < j + values.length) :
    payloadObject columnNames batch j values object = .error .outOfRange := by
  induction values generalizing j object with
  | nil =>
    rw [List.length_nil] at h
    omega
  | cons value values ih =>
    rw [List.length_cons] at h
    rw [payloadObject]
    split
    · rfl
    · rename_i name hname
      have hlt : j < columnNames.length := (List.getElem?_eq_some_iff.mp hname).choose
      exact ih (j + 1) _ hlt (by omega)

section rows
variable {β : Type} {f : List Text → Except Exception β} {rows : List (List Text)} {fits : Prop}

theorem rows_ok (hok : fits → ∀ row ∈ rows, ∃ b, f row = .ok b) (h : rows = [] ∨ fits) :
    ∃ bs, rows.mapM f = .ok bs := by
  rcases h with rfl | hfits
  · exact ⟨[], rfl⟩
  · exact mapM_ok (hok hfits)

/-- When the rows are too short, the first one ends the loop. -/
theorem rows_short (hshort : ¬ fits → ∀ row ∈ rows, f row = .error .outOfRange) (h : ¬ (rows = [] ∨ fits)) :
    rows.mapM f = .error .outOfRange := by
  obtain ⟨hne, hfits⟩ := not_or.mp h
  obtain ⟨row, rest, rfl⟩ := List.exists_cons_of_ne_nil hne
  exact mapM_error (hshort hfits row List.mem_cons_self) rest

theorem rows_inRange_iff (hok : fits → ∀ row ∈ rows, ∃ b, f row = .ok b)
    (hshort : ¬ fits → ∀ row ∈ rows, f row = .error .outOfRange) :
    InRange (called (rows.mapM f)) ↔ rows = [] ∨ fits := by
  constructor
  · intro hin
    by_contra h
    rw [rows_short hshort h] at hin
    exact not_inRange (.inr rfl) hin
  · intro h
    obtain ⟨bs, hbs⟩ := rows_ok hok h
    rw [hbs]
    exact inRange_ok bs

end rows

theorem datapoints_ok {width : Nat} {rows : List (List Text)} (hwidth : ∀ row ∈ rows, row.length = width)
    (h : 10 ≤ width) : ∀ row ∈ rows, ∃ d, datapointAt row = .ok d :=
  fun row hrow => datapointAt_ok (by rw [hwidth row hrow]; exact h)

theorem datapoints_short {width : Nat} {rows : List (List Text)} (hwidth : ∀ row ∈ rows, row.length = width)
    (h : ¬ 10 ≤ width) : ∀ row ∈ rows, datapointAt row = .error .outOfRange :=
  fun row hrow => datapointAt_short (by rw [hwidth row hrow]; omega)

theorem payload_inRange_iff {width : Nat} {rows : List (List Text)} (hwidth : ∀ row ∈ rows, row.length = width)
    (columnNames : List Text) (batch : Text) :
    InRange (called (payload columnNames batch rows)) ↔ rows = [] ∨ width ≤ columnNames.length :=
  rows_inRange_iff
    (fun h row hrow => payloadObject_ok columnNames batch row 0 [] (by rw [hwidth row hrow]; omega))
    (fun h row hrow => payloadObject_short columnNames batch row 0 [] (Nat.zero_le _) (by rw [hwidth row hrow]; omega))

theorem send_names {headers : Reply} {columnNames : List Text} (h : getHeaders headers = .ok columnNames)
    (batch : Text) (rows : List (List Text)) :
    send batch rows headers = called (payload columnNames batch rows) := by
  rw [send, h]
  rfl

theorem send_inRange_iff {width : Nat} {rows : List (List Text)} (hwidth : ∀ row ∈ rows, row.length = width)
    (batch : Text) (headers : Reply) :
    InRange (send batch rows headers) ↔ rows = [] ∨ headers = .noResult ∨ width ≤ headers.columns.length := by
  cases headers with
  | noResult =>
    have hstop : InRange (send batch rows .noResult) := by
      intro fault h hout
      cases h
      rcases hout with h | h <;> cases h
    exact ⟨fun _ => .inr (.inl rfl), fun _ => hstop⟩
  | failed =>
    rw [send_names rfl, payload_inRange_iff hwidth]
    simp [Reply.columns]
  | result set =>
    rw [send_names rfl, payload_inRange_iff hwidth]
    simp [Reply.columns]

theorem map_inRange {α β : Type} (f : α → β) (handler : Except Fault α) :
    InRange (f <$> handler) ↔ InRange handler := by
  cases handler with
  | ok a => exact ⟨fun _ => inRange_ok a, fun _ => inRange_ok (f a)⟩
  | error fault =>
    constructor
    · intro h fault' heq
      exact h fault' (by cases heq; rfl)
    · intro h fault' heq
      exact h fault' (by cases heq; rfl)

/-- The data not yet uploaded. -/
def Blank (text : Text) : Prop := text = [] ∨ text = ['0']

theorem batch_eq_iff (text : Text) : (if text = [] then ['0'] else text) = ['0'] ↔ Blank text := by
  by_cases h : text = [] <;> simp [h, Blank]

/-- The handler on a text that is blank, with an upload id. -/
theorem uploadBatchButton_blank {text backendNum : Text} (hblank : Blank text) (hnum : backendNum ≠ [])
    (select headers : Reply) :
    uploadBatchButton text backendNum select headers =
      (called ((select.rows.map (·.map printed)).mapM datapointAt) >>= fun _ =>
        some <$> send backendNum (select.rows.map (·.map printed)) headers) := by
  rw [uploadBatchButton, query_eq]
  show (if (if text = [] then ['0'] else text) = ['0'] then _ else _) = _
  rw [if_pos ((batch_eq_iff text).mpr hblank), if_neg hnum]
  rfl

theorem uploadBatchButton_skipped {text : Text} (hblank : Blank text) (select headers : Reply) :
    uploadBatchButton text [] select headers = .ok none := by
  rw [uploadBatchButton, query_eq]
  show (if (if text = [] then ['0'] else text) = ['0'] then _ else _) = _
  rw [if_pos ((batch_eq_iff text).mpr hblank), if_pos rfl]
  rfl

theorem uploadBatchButton_numbered {text : Text} (hblank : ¬ Blank text) (backendNum : Text) (select headers : Reply) :
    uploadBatchButton text backendNum select headers =
      some <$> send text (select.rows.map (·.map printed)) headers := by
  rw [uploadBatchButton, query_eq]
  show (if (if text = [] then ['0'] else text) = ['0'] then _ else _) = _
  rw [if_neg fun h => hblank ((batch_eq_iff text).mp h), if_neg fun h => hblank (.inl h)]
  rfl

theorem uploadBatchButton_inRange_iff (text backendNum : Text) (select headers : Reply) :
    InRange (uploadBatchButton text backendNum select headers) ↔
      (Blank text ∧ backendNum = []) ∨ select.rows = [] ∨
        ((Blank text → 10 ≤ select.columns.length) ∧
          (headers = .noResult ∨ select.columns.length ≤ headers.columns.length)) := by
  have hwidth : ∀ row ∈ select.rows.map (·.map printed), row.length = select.columns.length := select.printed_width
  have hnil : select.rows.map (·.map printed) = [] ↔ select.rows = [] := List.map_eq_nil_iff
  by_cases hblank : Blank text
  · by_cases hnum : backendNum = []
    · rw [hnum, uploadBatchButton_skipped hblank]
      exact ⟨fun _ => .inl ⟨hblank, rfl⟩, fun _ => inRange_ok none⟩
    · rw [uploadBatchButton_blank hblank hnum]
      by_cases hrows : select.rows.map (·.map printed) = [] ∨ 10 ≤ select.columns.length
      · obtain ⟨datapoints, hd⟩ := rows_ok (datapoints_ok hwidth) hrows
        rw [hd]
        show InRange (some <$> send _ _ _) ↔ _
        rw [map_inRange, send_inRange_iff hwidth, hnil]
        rw [hnil] at hrows
        tauto
      · rw [rows_short (datapoints_short hwidth) hrows]
        rw [hnil] at hrows
        refine ⟨fun hin => absurd hin (not_inRange (.inr rfl)), fun h => ?_⟩
        tauto
  · rw [uploadBatchButton_numbered hblank, map_inRange, send_inRange_iff hwidth, hnil]
    tauto

/-! ### The table of this program -/

section table
variable (server : Server)

def cells (r : Row) : List Cell := some (toString r.key).toList :: r.uploadID :: r.data.toList

theorem printed_cells (r : Row) : (cells r).map printed = r.texts := by
  have hkey : printed (some (toString r.key).toList) = (toString r.key).toList := by
    refine (cString_eq_self_iff _).mpr fun hmem => ?_
    have hdigit := digit_of_mem (show _ ∈ Nat.toDigits 10 r.key by simpa using hmem)
    revert hdigit
    decide
  rw [cells, Row.texts, List.map_cons, List.map_cons, hkey]

/-- The rows of the batch, when the statement is executed. -/
def selectReply (ok : Bool) (batch : Text) (t : Table) : Reply :=
  if ok then
    .result
      { columns := server.columns
        rows := (server.selectBatch true batch t).map cells
        rows_width := by
          intro row hrow
          obtain ⟨r, _, rfl⟩ := List.mem_map.mp hrow
          rfl }
  else .failed

/-- The column names, when the statement is executed. -/
def headersReply (ok : Bool) : Reply :=
  if ok then .result ⟨server.columns, [], fun _ h => absurd h List.not_mem_nil⟩ else .failed

theorem selectReply_rows (ok : Bool) (batch : Text) (t : Table) :
    (selectReply server ok batch t).rows.map (·.map printed) = (server.selectBatch ok batch t).map Row.texts := by
  cases ok with
  | false => rfl
  | true =>
    show ((server.selectBatch true batch t).map cells).map _ = _
    rw [List.map_map]
    exact List.map_congr_left fun r _ => printed_cells r

theorem datapointAt_texts (r : Row) : datapointAt r.texts = .ok (r.data.map printed) := rfl

theorem rewriteBatch_returns (o : Upload.Outcomes) (k : Nat) (rows : List Row) (t : Table) :
    (Upload.rewriteBatch server o k (rows.map Row.texts) t).2 = .ok () := by
  induction rows generalizing k t with
  | nil => rfl
  | cons r rows ih => exact ih (k + 1) _

theorem ending_post (o : Upload.Outcomes) (batch : Text) (dbResp : List (List Text)) :
    ending (Upload.post server o batch dbResp) = some <$> send batch dbResp (headersReply server o.headers) := by
  have hnames : getHeaders (headersReply server o.headers) = .ok (if o.headers then server.columns else []) := by
    cases o.headers <;> rfl
  rw [send_names hnames, Upload.post]
  cases payload (if o.headers then server.columns else []) batch dbResp <;> rfl

/-- On the table of this program the handler ends as its model there does. -/
theorem uploadBatchButton_table (o : Upload.Outcomes) (text : Text) (t : Table) :
    uploadBatchButton text o.backendNum (selectReply server o.select (if text = [] then ['0'] else text) t)
      (headersReply server o.headers) = ending (Upload.uploadBatch server o text t).2 := by
  set batch := if text = [] then ['0'] else text with hbatch
  have hrows := selectReply_rows server o.select batch t
  by_cases hblank : Blank text
  · have hzero : batch = ['0'] := (batch_eq_iff text).mpr hblank
    by_cases hnum : o.backendNum = []
    · rw [hnum, uploadBatchButton_skipped hblank, Upload.uploadBatch, ← hbatch, if_pos hzero, if_pos hnum]
      rfl
    · have hrow : ∀ row ∈ (server.selectBatch o.select batch t).map Row.texts, ∃ d, datapointAt row = .ok d := by
        intro row hrow
        obtain ⟨r, _, rfl⟩ := List.mem_map.mp hrow
        exact ⟨_, datapointAt_texts r⟩
      obtain ⟨datapoints, hd⟩ := mapM_ok hrow
      have hloop := rewriteBatch_returns server o 0 (server.selectBatch o.select batch t) t
      rw [uploadBatchButton_blank hblank hnum, hrows, hd, Upload.uploadBatch, ← hbatch, if_pos hzero, if_neg hnum]
      generalize Upload.rewriteBatch server o 0 _ t = rewritten at hloop ⊢
      obtain ⟨t', ended⟩ := rewritten
      cases hloop
      exact (ending_post server o o.backendNum _).symm
  · have hnumbered : batch = text := if_neg fun h => hblank (.inl h)
    rw [uploadBatchButton_numbered hblank, hrows, Upload.uploadBatch, ← hbatch,
      if_neg fun h => hblank ((batch_eq_iff text).mp h), hnumbered]
    exact (ending_post server o text _).symm

end table

/-! ### Failing statements -/

/-- What the scene promises for the replies to the statements of its two handlers. -/
structure Survives (scouters : Reply) (s : Scene) (text backendNum : Text) (select headers : Reply) : Prop where
  scouterUpdate : InRange (scouterExport scouters s)
  uploadBatch : InRange (uploadBatchButton text backendNum select headers)
  /-- Without a row the file stays and the message is shown. -/
  scouterError : scouters.rows = [] → ∃ s', scouterExport scouters s = .ok s' ∧
    s'.files.scouterList = s.files.scouterList ∧ s'.toasts = s.toasts ++ ["Scouter DB Error".toList]

/-- The scene survives when the scouters' query returns a row and, whenever the upload gets as
far as its rows, they have the columns that it reads and no more than there are names. -/
theorem survives_iff (scouters : Reply) (s : Scene) (text backendNum : Text) (select headers : Reply) :
    Survives scouters s text backendNum select headers ↔
      scouters.rows ≠ [] ∧
      ((Blank text ∧ backendNum = []) ∨ select.rows = [] ∨
        ((Blank text → 10 ≤ select.columns.length) ∧
          (headers = .noResult ∨ select.columns.length ≤ headers.columns.length))) := by
  constructor
  · intro h
    refine ⟨fun hnil => ?_, (uploadBatchButton_inRange_iff text backendNum select headers).mp h.uploadBatch⟩
    have hin := h.scouterUpdate
    rw [scouterExport_nil hnil] at hin
    exact not_inRange (.inl rfl) hin
  · rintro ⟨hrows, hupload⟩
    obtain ⟨row, rows, hcons⟩ := List.exists_cons_of_ne_nil hrows
    have hexport : InRange (scouterExport scouters s) := by
      rw [scouterExport_cons hcons]
      exact inRange_ok _
    exact ⟨hexport, (uploadBatchButton_inRange_iff text backendNum select headers).mpr hupload,
      fun hnil => absurd hnil hrows⟩

def emptyScene : Scene := ⟨⟨[], [], [], []⟩, []⟩

/-- A table with one row, of batch `7`. -/
def oneBatch : Table :=
  ⟨[⟨1, some ['7'],
    ⟨some ['c'], some ['m'], some ['1'], some ['2'], some ['3'], some ['4'], some ['v'], some ['5']⟩⟩], 2⟩

/-- The scouters' query fails; of the two queries of the upload only the one for the names does. -/
theorem failed_statement_ends_program :
    scouterExport .failed emptyScene = .error .index ∧
      uploadBatchButton ['7'] [] (selectReply plainServer true ['7'] oneBatch) (headersReply plainServer false) =
        .error (.threw .outOfRange) ∧
      ¬ Survives .failed emptyScene ['7'] [] (selectReply plainServer true ['7'] oneBatch)
        (headersReply plainServer false) := by
  refine ⟨rfl, by decide +kernel, fun h => ?_⟩
  exact h.scouterUpdate .index rfl (.inl rfl)

end ScoutingComputer.DatabaseScene
