import Mathlib.Data.List.Chain
import ScoutingComputer.Bluetooth.Granted

/-! What one call of `handleReadyConnections` does.

A removal moves the tablets behind it one place down, and the loop goes on with the next
place, so the tablet that followed is passed over. What an iteration meets is given for
each connection here, and stays the same during the call; the loop is here once more with
a log of the connections whose code it reads. A call serves all that wait exactly when no
tablet that waits follows one that is removed, and every request goes through
(`served_iff`). -/
namespace ScoutingComputer.Bluetooth
open Socket
open Machine (bind_eq_ok)

section
variable (server : Server) (parseJson : Text → Option Json) (readWholeFile : String → Text) (assign : Nat → Visit)

/-! ### The loop with a log -/

/-- The tablet is readable and not busy. -/
def waits (tab : BtTabObj) : Bool := (assign tab.connection).readable && !tab.transactionState

/-- One iteration, on the log so far. -/
def loggedVisit (logged : List Nat × State) (i : Nat) : Checked (List Nat × State) :=
  match logged.2.connectedTablets.elements[i]? with
  | none => .ok logged
  | some tab => do
    let s ← logged.2.visitConnection server parseJson readWholeFile (fun _ => assign tab.connection) i
    let read := waits assign tab && (assign tab.connection).readsCode
    return (if read then logged.1 ++ [tab.connection] else logged.1, s)

/-- The first iterations of a call. -/
def loggedConnections (n : Nat) (s : State) : Checked (List Nat × State) :=
  (List.range n).foldlM (loggedVisit server parseJson readWholeFile assign) ([], s)

/-- What each iteration meets, when every tablet meets the same in the whole call. -/
def visitsOf (s : State) (i : Nat) : Visit :=
  match loggedConnections server parseJson readWholeFile assign i s with
  | .ok (_, s') => (s'.connectedTablets.elements[i]?).elim (assign 0) fun tab => assign tab.connection
  | .error _ => assign 0

variable {server parseJson readWholeFile assign}

theorem visitConnection_congr {visits visits' : Nat → Visit} {i : Nat} (h : visits i = visits' i) (s : State) :
    s.visitConnection server parseJson readWholeFile visits i =
      s.visitConnection server parseJson readWholeFile visits' i := by
  unfold State.visitConnection
  rw [h]

theorem visitConnection_past {visits : Nat → Visit} {s : State} {i : Nat}
    (h : s.connectedTablets.elements[i]? = none) :
    s.visitConnection server parseJson readWholeFile visits i = .ok s := by
  unfold State.visitConnection State.requestTransaction
  rw [h]
  rfl

theorem loggedVisit_snd {visits : Nat → Visit} {logged : List Nat × State} {i : Nat}
    (h : ∀ tab, logged.2.connectedTablets.elements[i]? = some tab → visits i = assign tab.connection) :
    Prod.snd <$> loggedVisit server parseJson readWholeFile assign logged i =
      logged.2.visitConnection server parseJson readWholeFile visits i := by
  unfold loggedVisit
  cases hi : logged.2.connectedTablets.elements[i]? with
  | none => exact (visitConnection_past hi).symm
  | some tab =>
    have hcongr : logged.2.visitConnection server parseJson readWholeFile visits i =
        logged.2.visitConnection server parseJson readWholeFile (fun _ => assign tab.connection) i :=
      visitConnection_congr (h tab hi) logged.2
    rw [hcongr, map_bind]
    exact bind_pure _

/-- The loop with the log is the loop. -/
theorem loggedConnections_snd (s : State) :
    Prod.snd <$> loggedConnections server parseJson readWholeFile assign s.connectedTablets.elements.length s =
      s.handleReadyConnections server parseJson readWholeFile
        (visitsOf server parseJson readWholeFile assign s) := by
  unfold State.handleReadyConnections
  generalize s.connectedTablets.elements.length = n
  induction n with
  | zero => rfl
  | succ n ih =>
    have hnext : loggedConnections server parseJson readWholeFile assign (n + 1) s =
        loggedConnections server parseJson readWholeFile assign n s >>= fun logged =>
          loggedVisit server parseJson readWholeFile assign logged n := by
      unfold loggedConnections
      rw [List.range_succ, List.foldlM_append]
      exact bind_congr fun logged => bind_pure _
    rw [hnext, List.range_succ, List.foldlM_append, ← ih, map_bind, bind_map_left]
    cases hlogged : loggedConnections server parseJson readWholeFile assign n s with
    | error e => rfl
    | ok logged =>
      have hvisit : ∀ tab, logged.2.connectedTablets.elements[n]? = some tab →
          visitsOf server parseJson readWholeFile assign s n = assign tab.connection := by
        intro tab htab
        unfold visitsOf
        rw [hlogged]
        simp only [htab, Option.elim_some]
      show Prod.snd <$> loggedVisit server parseJson readWholeFile assign logged n = _
      rw [loggedVisit_snd hvisit]
      exact (bind_pure _).symm

/-! ### One iteration -/

theorem loggedVisit_log {logged logged' : List Nat × State} {i : Nat} {tab : BtTabObj}
    (hi : logged.2.connectedTablets.elements[i]? = some tab)
    (hok : loggedVisit server parseJson readWholeFile assign logged i = .ok logged') :
    logged'.1 = if waits assign tab && (assign tab.connection).readsCode then logged.1 ++ [tab.connection]
      else logged.1 := by
  unfold loggedVisit at hok
  simp only [hi] at hok
  obtain ⟨s, _, hok⟩ := bind_eq_ok hok
  cases hok
  rfl

/-- The loop is at the first of `rest`, behind the tablets `passed`. -/
structure At (passed rest : List BtTabObj) (s : State) : Prop where
  tablets : s.connectedTablets.elements = passed ++ rest
  distinct : Distinct s.connectedTablets.elements s.accepted
  /-- Nothing is under way for a tablet that is not busy. -/
  idle : ∀ tab ∈ rest, tab.transactionState = false → ∀ task, tab.currTrans.data = some task → task.state.ready = true

variable {passed rest : List BtTabObj} {tab : BtTabObj} {s s' : State} {log : List Nat}

theorem At.getElem? (h : At passed (tab :: rest) s) :
    s.connectedTablets.elements[passed.length]? = some tab := by
  rw [h.tablets, List.getElem?_append_right (Nat.le_refl _), Nat.sub_self]
  rfl

theorem At.next (h : At passed (tab :: rest) s) : At (passed ++ [tab]) rest s :=
  ⟨by rw [h.tablets, List.append_assoc, List.singleton_append], h.distinct,
    fun tab' htab' => h.idle tab' (List.mem_cons_of_mem tab htab')⟩

theorem At.set (h : At passed (tab :: rest) s) {tab' : BtTabObj}
    (htablets : s'.connectedTablets.elements = s.connectedTablets.elements.set passed.length tab')
    (hsame : Same tab tab') (haccepted : s'.accepted = s.accepted) : At (passed ++ [tab']) rest s' := by
  refine ⟨?_, ?_, fun tab'' htab'' => h.idle tab'' (List.mem_cons_of_mem tab htab'')⟩
  · rw [htablets, h.tablets, List.set_append_right _ _ (Nat.le_refl _), Nat.sub_self, List.append_assoc]
    rfl
  · have hmodified := h.distinct.modify h.getElem? hsame
    rw [haccepted, htablets, List.set_eq_modify]
    exact hmodified

theorem At.erase (h : At passed (tab :: rest) s) (hremoves : Removes passed.length s s') : At passed rest s' := by
  refine ⟨?_, ?_, fun tab' htab' => h.idle tab' (List.mem_cons_of_mem tab htab')⟩
  · rw [hremoves.tablets, h.tablets, List.eraseIdx_append_of_length_le (Nat.le_refl _), Nat.sub_self]
    rfl
  · have hsub : s'.connectedTablets.elements.Sublist s.connectedTablets.elements := by
      rw [hremoves.tablets]
      exact List.eraseIdx_sublist ..
    rw [hremoves.accepted]
    exact ⟨(hsub.map _).nodup h.distinct.sockets, (hsub.map _).nodup h.distinct.connections,
      fun tab' htab' => h.distinct.fresh tab' (hsub.subset htab')⟩

theorem loggedVisit_idle (h : At passed (tab :: rest) s) (hno : waits assign tab = false) :
    loggedVisit server parseJson readWholeFile assign (log, s) passed.length = .ok (log, s) := by
  have hrequest : s.requestTransaction server readWholeFile passed.length (assign tab.connection) = .ok none := by
    unfold waits at hno
    unfold State.requestTransaction
    rw [h.getElem?]
    refine if_pos ?_
    cases hreadable : (assign tab.connection).readable with
    | false => rfl
    | true =>
      rw [hreadable, Bool.true_and, Bool.not_eq_false'] at hno
      rw [hno]
      rfl
  unfold loggedVisit State.visitConnection
  simp only [h.getElem?, hrequest, hno]
  rfl

theorem waits_iff : waits assign tab = true ↔
    (assign tab.connection).readable = true ∧ tab.transactionState = false := by
  rw [waits, Bool.and_eq_true, Bool.not_eq_true']

variable (server parseJson readWholeFile log) in
/-- The tablet asks to close. -/
theorem loggedVisit_leaves (h : At passed (tab :: rest) s) (hwaits : waits assign tab = true)
    (hleaves : (assign tab.connection).Leaves) :
    ∃ s', loggedVisit server parseJson readWholeFile assign (log, s) passed.length = .ok (log ++ [tab.connection], s') ∧
      At passed rest s' ∧ s'.table = s.table := by
  obtain ⟨hreadable, hfree⟩ := waits_iff.mp hwaits
  obtain ⟨s', hok, hremoves⟩ : ∃ s', s.visitConnection server parseJson readWholeFile
      (fun _ => assign tab.connection) passed.length = .ok s' ∧ Removes passed.length s s' :=
    visitConnection_closes server parseJson readWholeFile h.getElem? hreadable hfree h.distinct hleaves.closes
      hleaves.noThread
  refine ⟨s', ?_, h.erase hremoves, hremoves.table⟩
  unfold loggedVisit
  simp only [h.getElem?, hok, hwaits, hleaves.readsCode, bind, Except.bind]
  rfl

variable (log) in
/-- The request of the tablet goes through. -/
theorem loggedVisit_acts (h : At passed (tab :: rest) s) (hwaits : waits assign tab = true) {t' : Table}
    (hacts : Acts server parseJson readWholeFile (assign tab.connection) tab s.table t') :
    ∃ s' tab' transactionType,
      loggedVisit server parseJson readWholeFile assign (log, s) passed.length = .ok (log ++ [tab.connection], s') ∧
        At (passed ++ [tab']) rest s' ∧ s'.table = t' ∧ tab'.connection = tab.connection ∧
        (assign tab.connection).Sends transactionType ∧ tab'.currTrans.transactionType = transactionType := by
  obtain ⟨hreadable, hfree⟩ := waits_iff.mp hwaits
  obtain ⟨s', transactionType, hok, hsends, hstays, htable⟩ : ∃ s' transactionType,
      s.visitConnection server parseJson readWholeFile (fun _ => assign tab.connection) passed.length = .ok s' ∧
        (assign tab.connection).Sends transactionType ∧ Stays passed.length tab transactionType s s' ∧ s'.table = t' :=
    visitConnection_acts h.getElem? hreadable hfree (h.idle tab List.mem_cons_self hfree) hacts
  obtain ⟨tab', htablets, hsame, htype⟩ := hstays.tablet
  refine ⟨s', tab', transactionType, ?_, h.set htablets hsame hstays.accepted, htable, hsame.2, hsends, htype⟩
  unfold loggedVisit
  simp only [h.getElem?, hok, hwaits, hsends.not_asks.1, bind, Except.bind]
  rfl

/-- What an iteration that goes through has been. -/
theorem loggedVisit_inv (h : At passed (tab :: rest) s) (hwaits : waits assign tab = true) {log' : List Nat}
    (hok : loggedVisit server parseJson readWholeFile assign (log, s) passed.length = .ok (log', s')) :
    (assign tab.connection).Leaves ∨
      (∃ t', Acts server parseJson readWholeFile (assign tab.connection) tab s.table t') ∨
      At passed rest s' ∧ ((assign tab.connection).readsCode = false ∧ log' = log ∨
        (assign tab.connection).asksToClose = false) := by
  obtain ⟨hreadable, hfree⟩ := waits_iff.mp hwaits
  unfold loggedVisit at hok
  simp only [h.getElem?] at hok
  obtain ⟨s₁, hvisit, hok⟩ := bind_eq_ok hok
  obtain ⟨hlog, rfl⟩ := Prod.mk.inj (Except.ok.inj hok)
  rcases visitConnection_inv h.getElem? hreadable hfree h.distinct (h.idle tab List.mem_cons_self hfree) hvisit with
    ⟨hleaves, _⟩ | hacts | ⟨hremoves, hreads | hasks⟩
  · exact .inl hleaves
  · exact .inr (.inl hacts)
  · refine .inr (.inr ⟨h.erase hremoves, .inl ⟨hreads, ?_⟩⟩)
    rw [← hlog]
    simp only [hreads, Bool.and_false, Bool.false_eq_true, if_false]
  · exact .inr (.inr ⟨h.erase hremoves, .inr hasks⟩)

/-! ### The iterations from a place on -/

variable (server parseJson readWholeFile assign) in
/-- `k` iterations from place `i` on. -/
def iterations (k i : Nat) (logged : List Nat × State) : Checked (List Nat × State) :=
  (List.range' i k).foldlM (loggedVisit server parseJson readWholeFile assign) logged

theorem iterations_succ (k i : Nat) (logged : List Nat × State) :
    iterations server parseJson readWholeFile assign (k + 1) i logged = (do
      let logged ← loggedVisit server parseJson readWholeFile assign logged i
      iterations server parseJson readWholeFile assign k (i + 1) logged) := by
  unfold iterations
  rw [List.range'_succ, List.foldlM_cons]

/-- Behind the last tablet nothing is done. -/
theorem iterations_past {k i : Nat} {logged : List Nat × State}
    (h : logged.2.connectedTablets.elements.length ≤ i) :
    iterations server parseJson readWholeFile assign k i logged = .ok logged := by
  induction k generalizing i with
  | zero => rfl
  | succ k ih =>
    have hvisit : loggedVisit server parseJson readWholeFile assign logged i = .ok logged := by
      unfold loggedVisit
      rw [List.getElem?_eq_none h]
    rw [iterations_succ, hvisit]
    exact ih (Nat.le_succ_of_le h)

/-! ### Calls -/

variable (assign) in
/-- The tablet does not wait, or does not ask to close. -/
def keeps (tab : BtTabObj) : Bool := !(waits assign tab && (assign tab.connection).asksToClose)

variable (server parseJson readWholeFile assign) in
/-- The requests of these tablets go through, each with the table that those before it have
left. -/
inductive Granted : List BtTabObj → Table → Prop where
  | nil {t : Table} : Granted [] t
  | idle {tab : BtTabObj} {rest : List BtTabObj} {t : Table} (hno : waits assign tab = false) (h : Granted rest t) :
    Granted (tab :: rest) t
  | leaves {tab : BtTabObj} {rest : List BtTabObj} {t : Table} (hwaits : waits assign tab = true)
    (hleaves : (assign tab.connection).Leaves) (h : Granted rest t) : Granted (tab :: rest) t
  | acts {tab : BtTabObj} {rest : List BtTabObj} {t t' : Table} (hwaits : waits assign tab = true)
    (hacts : Acts server parseJson readWholeFile (assign tab.connection) tab t t') (h : Granted rest t') :
    Granted (tab :: rest) t

variable (assign) in
/-- No tablet that waits follows one that waits and asks to close. -/
def Spaced (tablets : List BtTabObj) : Prop :=
  tablets.IsChain fun a b => waits assign a = true → (assign a.connection).asksToClose = true → waits assign b = false

variable (assign) in
/-- What becomes of these tablets. -/
structure Left (tablets left : List BtTabObj) : Prop where
  kept : left.map (·.connection) = (tablets.filter (keeps assign)).map (·.connection)
  untouched : ∀ tab ∈ tablets, waits assign tab = false → tab ∈ left
  acted : ∀ tab ∈ tablets, waits assign tab = true → ∀ transactionType, (assign tab.connection).Sends transactionType →
    ∃ tab' ∈ left, tab'.connection = tab.connection ∧ tab'.currTrans.transactionType = transactionType

theorem keeps_of_not_waits (h : waits assign tab = false) : keeps assign tab = true := by
  rw [keeps, h]
  rfl

theorem left_idle {left : List BtTabObj} (hno : waits assign tab = false) (h : Left assign rest left) :
    Left assign (tab :: rest) (tab :: left) := by
  refine ⟨?_, ?_, ?_⟩
  · rw [List.filter_cons_of_pos (keeps_of_not_waits hno), List.map_cons, List.map_cons, h.kept]
  · intro tab' htab' hno'
    rcases List.mem_cons.mp htab' with rfl | htab'
    · exact List.mem_cons_self
    · exact List.mem_cons_of_mem _ (h.untouched tab' htab' hno')
  · intro tab' htab' hwaits transactionType hsends
    rcases List.mem_cons.mp htab' with rfl | htab'
    · cases hno.symm.trans hwaits
    · obtain ⟨tab'', hmem, hrest⟩ := h.acted tab' htab' hwaits transactionType hsends
      exact ⟨tab'', List.mem_cons_of_mem _ hmem, hrest⟩

theorem left_leaves {left : List BtTabObj} (hwaits : waits assign tab = true)
    (hasks : (assign tab.connection).asksToClose = true) (h : Left assign rest left) :
    Left assign (tab :: rest) left := by
  have hremoved : ¬ keeps assign tab = true := by simp [keeps, hwaits, hasks]
  refine ⟨?_, ?_, ?_⟩
  · rw [List.filter_cons_of_neg hremoved, h.kept]
  · intro tab' htab' hno
    rcases List.mem_cons.mp htab' with rfl | htab'
    · cases hno.symm.trans hwaits
    · exact h.untouched tab' htab' hno
  · intro tab' htab' hwaits' transactionType hsends
    rcases List.mem_cons.mp htab' with rfl | htab'
    · cases hsends.not_asks.2.symm.trans hasks
    · exact h.acted tab' htab' hwaits' transactionType hsends

theorem left_acts {left : List BtTabObj} {tab' : BtTabObj} {transactionType : TransactionType}
    (hwaits : waits assign tab = true) (hconnection : tab'.connection = tab.connection)
    (hsends : (assign tab.connection).Sends transactionType) (htype : tab'.currTrans.transactionType = transactionType)
    (h : Left assign rest left) : Left assign (tab :: rest) (tab' :: left) := by
  have hkept : keeps assign tab = true := by simp [keeps, hsends.not_asks.2]
  refine ⟨?_, ?_, ?_⟩
  · rw [List.filter_cons_of_pos hkept, List.map_cons, List.map_cons, h.kept, hconnection]
  · intro tab'' htab'' hno
    rcases List.mem_cons.mp htab'' with rfl | htab''
    · cases hno.symm.trans hwaits
    · exact List.mem_cons_of_mem _ (h.untouched tab'' htab'' hno)
  · intro tab'' htab'' hwaits' transactionType' hsends'
    rcases List.mem_cons.mp htab'' with rfl | htab''
    · exact ⟨tab', List.mem_cons_self, hconnection, htype.trans (hsends'.unique hsends.code)⟩
    · obtain ⟨other, hmem, hrest⟩ := h.acted tab'' htab'' hwaits' transactionType' hsends'
      exact ⟨other, List.mem_cons_of_mem _ hmem, hrest⟩

theorem filter_waits_cons (hwaits : waits assign tab = true) :
    ((tab :: rest).filter (waits assign)).map (·.connection) =
      tab.connection :: (rest.filter (waits assign)).map (·.connection) := by
  rw [List.filter_cons_of_pos hwaits, List.map_cons]

theorem filter_waits_idle (hno : waits assign tab = false) :
    (tab :: rest).filter (waits assign) = rest.filter (waits assign) :=
  List.filter_cons_of_neg (by rw [hno]; exact Bool.false_ne_true)

theorem left_nil : Left assign [] [] :=
  ⟨rfl, fun _ h => absurd h (List.not_mem_nil), fun _ h => absurd h (List.not_mem_nil)⟩

theorem iterations_end {k i : Nat} (hat : At passed [] s) (hi : passed.length ≤ i) :
    iterations server parseJson readWholeFile assign k i (log, s) = .ok (log, s) :=
  iterations_past (by rwa [hat.tablets, List.append_nil])

theorem length_snoc (passed : List BtTabObj) (tab : BtTabObj) : (passed ++ [tab]).length = passed.length + 1 := by
  rw [List.length_append]
  rfl

/-- What the iterations do when the requests go through and no tablet that waits is passed
over. -/
theorem iterations_granted {n : Nat} (hn : rest.length ≤ n) {k : Nat} (hk : rest.length ≤ k)
    (hat : At passed rest s) (hgranted : Granted server parseJson readWholeFile assign rest s.table)
    (hspaced : Spaced assign rest) (log : List Nat) :
    ∃ s' left, iterations server parseJson readWholeFile assign k passed.length (log, s) =
        .ok (log ++ (rest.filter (waits assign)).map (·.connection), s') ∧
      s'.connectedTablets.elements = passed ++ left ∧ Left assign rest left := by
  induction n generalizing passed rest s log k with
  | zero =>
    obtain rfl := List.eq_nil_of_length_eq_zero (Nat.le_zero.mp hn)
    refine ⟨s, [], ?_, hat.tablets, left_nil⟩
    rw [iterations_end hat (Nat.le_refl _), List.filter_nil, List.map_nil, List.append_nil]
  | succ n ih =>
    cases rest with
    | nil =>
      refine ⟨s, [], ?_, hat.tablets, left_nil⟩
      rw [iterations_end hat (Nat.le_refl _), List.filter_nil, List.map_nil, List.append_nil]
    | cons tab rest =>
      obtain ⟨k, rfl⟩ : ∃ k', k = k' + 1 := ⟨k - 1, by rw [List.length_cons] at hk; omega⟩
      have hn' : rest.length ≤ n := Nat.le_of_succ_le_succ hn
      have hk' : rest.length ≤ k := Nat.le_of_succ_le_succ hk
      rw [iterations_succ]
      cases hgranted with
      | idle hno hrest =>
        obtain ⟨s', left, hrun, htablets, hleft⟩ := ih hn' hk' hat.next hrest hspaced.tail log
        rw [length_snoc] at hrun
        rw [loggedVisit_idle hat hno, filter_waits_idle hno]
        exact ⟨s', tab :: left, hrun, by rw [htablets, List.append_assoc]; rfl, left_idle hno hleft⟩
      | leaves hwaits hleaves hrest =>
        obtain ⟨s₁, hvisit, hat₁, htable⟩ := loggedVisit_leaves server parseJson readWholeFile log hat hwaits hleaves
        rw [← htable] at hrest
        rw [hvisit, filter_waits_cons hwaits]
        -- The tablet behind the one that is removed is passed over.
        cases rest with
        | nil =>
          exact ⟨s₁, [], iterations_end hat₁ (Nat.le_succ _), hat₁.tablets, left_leaves hwaits hleaves.asks left_nil⟩
        | cons next rest' =>
          have hnext : waits assign next = false := (List.isChain_cons_cons.mp hspaced).1 hwaits hleaves.asks
          cases hrest with
          | leaves hwaits' => cases hnext.symm.trans hwaits'
          | acts hwaits' => cases hnext.symm.trans hwaits'
          | idle _ hrest =>
            obtain ⟨s', left, hrun, htablets, hleft⟩ := ih (Nat.le_of_succ_le hn') (Nat.le_of_succ_le hk') hat₁.next
              hrest hspaced.tail.tail (log ++ [tab.connection])
            rw [length_snoc, List.append_assoc] at hrun
            rw [filter_waits_idle hnext]
            exact ⟨s', next :: left, hrun, by rw [htablets, List.append_assoc]; rfl,
              left_leaves hwaits hleaves.asks (left_idle hnext hleft)⟩
      | acts hwaits hacts hrest =>
        obtain ⟨s₁, tab', transactionType, hvisit, hat₁, htable, hconnection, hsends, htype⟩ :=
          loggedVisit_acts log hat hwaits hacts
        rw [← htable] at hrest
        obtain ⟨s', left, hrun, htablets, hleft⟩ := ih hn' hk' hat₁ hrest hspaced.tail (log ++ [tab.connection])
        rw [length_snoc, List.append_assoc] at hrun
        rw [hvisit, filter_waits_cons hwaits]
        exact ⟨s', tab' :: left, hrun, by rw [htablets, List.append_assoc]; rfl,
          left_acts hwaits hconnection hsends htype hleft⟩

/-! ### What a call that goes through has been -/

variable (assign) in
/-- The iteration reads at most the code of the tablet, if that waits. -/
def Reads (tab : BtTabObj) (log log' : List Nat) : Prop :=
  log' = log ∨ waits assign tab = true ∧ log' = log ++ [tab.connection]

/-- An iteration that goes through: the tablet is still there, or it is not. -/
theorem loggedVisit_cases (h : At passed (tab :: rest) s) {log' : List Nat}
    (hok : loggedVisit server parseJson readWholeFile assign (log, s) passed.length = .ok (log', s')) :
    Reads assign tab log log' ∧
      ((∃ tab', tab'.connection = tab.connection ∧ At (passed ++ [tab']) rest s') ∨ At passed rest s') := by
  cases hwaits : waits assign tab with
  | false =>
    cases (loggedVisit_idle h hwaits).symm.trans hok
    exact ⟨.inl rfl, .inl ⟨tab, rfl, h.next⟩⟩
  | true =>
    have hlog := loggedVisit_log h.getElem? hok
    constructor
    · rw [hwaits, Bool.true_and] at hlog
      cases hreads : (assign tab.connection).readsCode with
      | true =>
        rw [hreads] at hlog
        exact .inr ⟨hwaits, hlog⟩
      | false =>
        rw [hreads] at hlog
        exact .inl hlog
    · rcases loggedVisit_inv h hwaits hok with hleaves | ⟨t', hacts⟩ | ⟨hat, _⟩
      · obtain ⟨s₁, hok', hat, _⟩ := loggedVisit_leaves server parseJson readWholeFile log h hwaits hleaves
        cases hok'.symm.trans hok
        exact .inr hat
      · obtain ⟨s₁, tab', _, hok', hat, _, hconnection, _⟩ := loggedVisit_acts log h hwaits hacts
        cases hok'.symm.trans hok
        exact .inl ⟨tab', hconnection, hat⟩
      · exact .inr hat

variable (assign) in
/-- At most the codes of these tablets are read, and of those that wait. -/
def ReadsOf (tablets : List BtTabObj) (log log' : List Nat) : Prop :=
  ∃ served : List Nat, log' = log ++ served ∧
    served.Sublist ((tablets.filter (waits assign)).map (·.connection))

theorem readsOf_refl (tablets : List BtTabObj) (log : List Nat) : ReadsOf assign tablets log log :=
  ⟨[], (List.append_nil log).symm, List.nil_sublist _⟩

theorem ReadsOf.cons {log₁ log' : List Nat} (h : ReadsOf assign rest log₁ log') (hreads : Reads assign tab log log₁) :
    ReadsOf assign (tab :: rest) log log' := by
  obtain ⟨served, rfl, hsub⟩ := h
  rcases hreads with rfl | ⟨hwaits, rfl⟩
  · exact ⟨served, rfl, hsub.trans (((List.sublist_cons_self tab rest).filter _).map _)⟩
  · refine ⟨tab.connection :: served, List.append_assoc .., ?_⟩
    rw [filter_waits_cons hwaits]
    exact hsub.cons_cons _

theorem ReadsOf.skip {log' : List Nat} (h : ReadsOf assign rest log log') (tab : BtTabObj) :
    ReadsOf assign (tab :: rest) log log' := h.cons (.inl rfl)

/-- Whatever the iterations do, they read at most the codes of the tablets that wait, and
no tablet comes back. -/
theorem iterations_bound {n : Nat} (hn : rest.length ≤ n) {k : Nat} (hk : rest.length ≤ k) (hat : At passed rest s)
    {log log' : List Nat}
    (hok : iterations server parseJson readWholeFile assign k passed.length (log, s) = .ok (log', s')) :
    ReadsOf assign rest log log' ∧
      (s'.connectedTablets.elements.map (·.connection)).Sublist ((passed ++ rest).map (·.connection)) := by
  induction n generalizing passed rest s log k with
  | zero =>
    obtain rfl := List.eq_nil_of_length_eq_zero (Nat.le_zero.mp hn)
    cases (iterations_end hat (Nat.le_refl _)).symm.trans hok
    exact ⟨readsOf_refl [] _, hat.tablets ▸ .refl _⟩
  | succ n ih =>
    cases rest with
    | nil =>
      cases (iterations_end hat (Nat.le_refl _)).symm.trans hok
      exact ⟨readsOf_refl [] _, hat.tablets ▸ .refl _⟩
    | cons tab rest =>
      obtain ⟨k, rfl⟩ : ∃ k', k = k' + 1 := ⟨k - 1, by rw [List.length_cons] at hk; omega⟩
      have hn' : rest.length ≤ n := Nat.le_of_succ_le_succ hn
      have hk' : rest.length ≤ k := Nat.le_of_succ_le_succ hk
      rw [iterations_succ] at hok
      obtain ⟨⟨log₁, s₁⟩, hvisit, hok⟩ := bind_eq_ok hok
      obtain ⟨hreads, ⟨tab', hconnection, hat₁⟩ | hat₁⟩ := loggedVisit_cases hat hvisit
      · rw [← length_snoc passed tab'] at hok
        obtain ⟨hread, hleft⟩ := ih hn' hk' hat₁ hok
        refine ⟨hread.cons hreads, ?_⟩
        simpa [hconnection] using hleft
      · have herased : ((passed ++ rest).map (·.connection)).Sublist ((passed ++ tab :: rest).map (·.connection)) :=
          ((List.sublist_cons_self tab rest).append_left passed).map _
        cases rest with
        | nil =>
          cases (iterations_end hat₁ (Nat.le_succ _)).symm.trans hok
          refine ⟨(readsOf_refl [] _).cons hreads, ?_⟩
          rw [hat₁.tablets]
          exact herased
        | cons next rest' =>
          rw [← length_snoc passed next] at hok
          obtain ⟨hread, hleft⟩ := ih (Nat.le_of_succ_le hn') (Nat.le_of_succ_le hk') hat₁.next hok
          rw [List.append_assoc] at hleft
          exact ⟨(hread.skip next).cons hreads, hleft.trans herased⟩

/-- Fewer codes are read than there are tablets that wait. -/
theorem ReadsOf.ne {tablets : List BtTabObj} {log' : List Nat} (h : ReadsOf assign tablets log log') {codes : List Nat}
    (hmore : (tablets.filter (waits assign)).length < codes.length) : log' ≠ log ++ codes := by
  rintro rfl
  obtain ⟨served, hsame, hsub⟩ := h
  have hlength := hsub.length_le
  rw [List.append_cancel_left hsame] at hmore
  rw [List.length_map] at hlength
  omega

/-- The iterations behind a removal. -/
theorem iterations_after {k : Nat} (hk : rest.length ≤ k) (hat : At passed rest s) {log log' : List Nat}
    (hok : iterations server parseJson readWholeFile assign k (passed.length + 1) (log, s) = .ok (log', s')) :
    ReadsOf assign rest log log' ∧
      (s'.connectedTablets.elements.map (·.connection)).Sublist ((passed ++ rest).map (·.connection)) := by
  cases rest with
  | nil =>
    cases (iterations_end hat (Nat.le_succ _)).symm.trans hok
    exact ⟨readsOf_refl [] _, hat.tablets ▸ .refl _⟩
  | cons next rest' =>
    rw [← length_snoc passed next] at hok
    obtain ⟨hread, hleft⟩ := iterations_bound (Nat.le_refl _) (Nat.le_of_succ_le hk) hat.next hok
    rw [List.append_assoc] at hleft
    exact ⟨hread.skip next, hleft⟩

/-- The connection of a tablet that is gone. -/
theorem At.not_mem (h : At passed (tab :: rest) s) : tab.connection ∉ (passed ++ rest).map (·.connection) := by
  have hnodup := h.distinct.connections
  rw [h.tablets, List.map_append, List.map_cons] at hnodup
  have hperm := (List.nodup_cons.mp (List.perm_middle.nodup hnodup)).1
  rwa [List.map_append]

/-- Iterations that read the code of every tablet that waits, and remove those that ask for
it, have passed over none that waits, and every request has gone through. -/
theorem iterations_inv {n : Nat} (hn : rest.length ≤ n) {k : Nat} (hk : rest.length ≤ k) (hat : At passed rest s)
    {log log' : List Nat}
    (hok : iterations server parseJson readWholeFile assign k passed.length (log, s) = .ok (log', s'))
    (hread : log' = log ++ (rest.filter (waits assign)).map (·.connection))
    (hkept : s'.connectedTablets.elements.map (·.connection) =
      (passed ++ rest.filter (keeps assign)).map (·.connection)) :
    Granted server parseJson readWholeFile assign rest s.table ∧ Spaced assign rest := by
  induction n generalizing passed rest s log k with
  | zero =>
    obtain rfl := List.eq_nil_of_length_eq_zero (Nat.le_zero.mp hn)
    exact ⟨.nil, .nil⟩
  | succ n ih =>
    cases rest with
    | nil => exact ⟨.nil, .nil⟩
    | cons tab rest =>
      obtain ⟨k, rfl⟩ : ∃ k', k = k' + 1 := ⟨k - 1, by rw [List.length_cons] at hk; omega⟩
      have hn' : rest.length ≤ n := Nat.le_of_succ_le_succ hn
      have hk' : rest.length ≤ k := Nat.le_of_succ_le_succ hk
      rw [iterations_succ] at hok
      obtain ⟨⟨log₁, s₁⟩, hvisit, hok⟩ := bind_eq_ok hok
      cases hwaits : waits assign tab with
      | false =>
        cases (loggedVisit_idle hat hwaits).symm.trans hvisit
        rw [← length_snoc passed tab] at hok
        rw [filter_waits_idle hwaits] at hread
        rw [List.filter_cons_of_pos (keeps_of_not_waits hwaits), ← List.singleton_append, ← List.append_assoc] at hkept
        obtain ⟨hgranted, hspaced⟩ := ih hn' hk' hat.next hok hread hkept
        refine ⟨.idle hwaits hgranted, hspaced.cons fun b _ hwaits' => ?_⟩
        cases hwaits.symm.trans hwaits'
      | true =>
        rw [filter_waits_cons hwaits] at hread
        rcases loggedVisit_inv hat hwaits hvisit with hleaves | ⟨t', hacts⟩ | ⟨hat₁, hwrong⟩
        · obtain ⟨s₂, hvisit', hat₁, htable⟩ := loggedVisit_leaves server parseJson readWholeFile log hat hwaits hleaves
          cases hvisit'.symm.trans hvisit
          have hgone : ¬ keeps assign tab = true := by simp [keeps, hwaits, hleaves.asks]
          rw [List.filter_cons_of_neg hgone] at hkept
          cases rest with
          | nil => exact ⟨.leaves hwaits hleaves .nil, .singleton _⟩
          | cons next rest' =>
            rw [← length_snoc passed next] at hok
            have hnext : waits assign next = false := by
              by_contra hwaits'
              rw [Bool.not_eq_false] at hwaits'
              refine (iterations_bound (Nat.le_refl _) (Nat.le_of_succ_le hk') hat₁.next hok).1.ne ?_
                (hread.trans (List.append_cons ..))
              rw [filter_waits_cons hwaits', List.length_cons, List.length_map]
              exact Nat.lt_succ_self _
            rw [filter_waits_idle hnext, List.append_cons] at hread
            rw [List.filter_cons_of_pos (keeps_of_not_waits hnext), ← List.singleton_append, ← List.append_assoc] at hkept
            obtain ⟨hgranted, hspaced⟩ := ih (Nat.le_of_succ_le hn') (Nat.le_of_succ_le hk') hat₁.next hok hread hkept
            rw [htable] at hgranted
            refine ⟨.leaves hwaits hleaves (.idle hnext hgranted), .cons_cons (fun _ _ => hnext) ?_⟩
            exact hspaced.cons fun b _ hwaits' => absurd (hnext.symm.trans hwaits') Bool.false_ne_true
        · obtain ⟨s₂, tab', transactionType, hvisit', hat₁, htable, hconnection, hsends, _⟩ :=
            loggedVisit_acts log hat hwaits hacts
          cases hvisit'.symm.trans hvisit
          have hstays : keeps assign tab = true := by simp [keeps, hsends.not_asks.2]
          rw [← length_snoc passed tab'] at hok
          rw [List.filter_cons_of_pos hstays] at hkept
          obtain ⟨hgranted, hspaced⟩ := ih hn' hk' hat₁ hok (hread.trans (List.append_cons ..))
            (by simpa [hconnection] using hkept)
          rw [htable] at hgranted
          refine ⟨.acts hwaits hacts hgranted, hspaced.cons fun b _ _ hasks => ?_⟩
          cases hsends.not_asks.2.symm.trans hasks
        · obtain ⟨hreads, hleft⟩ := iterations_after hk' hat₁ hok
          rcases hwrong with ⟨_, rfl⟩ | hasks
          · refine absurd hread (hreads.ne ?_)
            rw [List.length_cons, List.length_map]
            exact Nat.lt_succ_self _
          · have hstays : keeps assign tab = true := by simp [keeps, hasks]
            rw [List.filter_cons_of_pos hstays] at hkept
            refine absurd (hleft.subset ?_) hat.not_mem
            rw [hkept]
            simp

/-- The tablets are distinct, and nothing is under way for one that is not busy. -/
structure Steady (s : State) : Prop where
  distinct : Distinct s.connectedTablets.elements s.accepted
  idle : ∀ tab ∈ s.connectedTablets.elements, tab.transactionState = false →
    ∀ task, tab.currTrans.data = some task → task.state.ready = true

theorem Steady.at (h : Steady s) : At [] s.connectedTablets.elements s := ⟨rfl, h.distinct, h.idle⟩

theorem State.Sound.steady (h : s.Sound) : Steady s := by
  refine ⟨h.distinct, fun tab htab hfree => ?_⟩
  obtain ⟨i, hi⟩ := List.mem_iff_getElem?.mp htab
  obtain hidle | ⟨e, he, hslot⟩ := h.rest i tab hi
  · exact hidle.2
  · obtain ⟨tab', htab', hcarries⟩ := h.carried e he
    have hsame := (Buffer.deref_iff.mp htab').2
    rw [hslot, hi] at hsame
    cases hsame
    cases hfree.symm.trans hcarries.busy

theorem loggedConnections_eq (n : Nat) (s : State) :
    loggedConnections server parseJson readWholeFile assign n s =
      iterations server parseJson readWholeFile assign n 0 ([], s) := by
  unfold loggedConnections iterations
  rw [List.range_eq_range']

end

/-- What a call should do, when `log` are the connections whose code it reads. -/
structure Serves (assign : Nat → Visit) (s s' : State) (log : List Nat) : Prop where
  read : log = (s.connectedTablets.elements.filter (waits assign)).map (·.connection)
  left : Left assign s.connectedTablets.elements s'.connectedTablets.elements

/-- Two tablets have joined. -/
def twoJoin : List Event := [joins 10 2, joins 20 2]

theorem twoJoin_steady {s : State}
    (hrun : Machine.run (step plainServer (fun _ => none) fun _ => []) (emptyState ⟨[], 0⟩) twoJoin = some s) :
    Steady s := by
  have hrule : Machine.Meets (step plainServer (fun _ => none) fun _ => [])
      (Rule plainServer (fun _ => none) fun _ => []) (emptyState ⟨[], 0⟩) twoJoin :=
    Machine.meets_cons (.inr (.inl rfl)) rfl (Machine.meets_cons (.inr (.inl rfl)) rfl trivial)
  exact (run_sound hrule hrun).steady

/-- The first sends the code of a name, and the second that of closing. -/
def secondCloses (connection : Nat) : Visit := if connection = 0 then asks 2 else asks 0

/-- The first sends the code of closing, and the second that of a name. -/
def firstCloses (connection : Nat) : Visit := if connection = 0 then asks 0 else asks 2

end ScoutingComputer.Bluetooth
