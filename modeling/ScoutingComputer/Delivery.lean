import Mathlib.Logic.Function.Basic
import ScoutingComputer.Bluetooth.Agreement
import ScoutingComputer.Upload.Once

/-! From the tablets to the backend.

Several tablets are connected and none leaves; each has its own connection, and all share
the table, which the upload button empties into payloads. Bytes travel in any pieces, the
steps of the connections and the uploads come in any order. When no receive is late and every
statement does its part, what the payloads and the unsent rows say is what the tablets have
sent: each datapoint once, those of a tablet in its order (`scouted_data_arrives`). -/
namespace ScoutingComputer.Delivery
open Socket Connection

variable {ι : Type} [DecidableEq ι]

/-- The connections with the state that the conductor keeps of each tablet, and the table
with the payloads that were accepted. -/
structure System (ι : Type) where
  tablets : ι → Connection.State
  infos : ι → Bluetooth.TabletInfo
  office : Upload.State

inductive Event (ι : Type) where
  /-- A step of a connection that does not handle a result. -/
  | connection (i : ι) (e : Connection.Event)
  /-- The result of a transaction is handled; `inserts` are the statements that are executed. -/
  | handle (i : ι) (inserts : Nat → Bool)
  /-- A press of the upload button with the text of the batch box. -/
  | upload (text : Text) (o : Upload.Outcomes)

/-- Whether a step of a connection handles a result. -/
def handles : Connection.Event → Bool
  | .handle _ _ _ => true
  | _ => false

/-- The record of a transaction whose result is handled next. -/
def ready (c : Connection.State) : Option Bluetooth.ReadyTransaction :=
  match c.computer with
  | .transfer code true program =>
    match program [] with
    | .done (data, success) [] => some ⟨code, decide (code < 0), success, .ok data⟩
    | .throws e [] => some ⟨code, decide (code < 0), true, .error e⟩
    | _ => none
  | _ => none

section
variable (server : Server) (parseJson : Text → Option Json)
variable (vector : ι → Nat → TransactionType → Option (List UInt8))

/-- An exception of the conductor leaves the table. -/
def step (s : System ι) : Event ι → Option (System ι)
  | .connection i e =>
    if handles e then none
    else (Connection.step server parseJson (vector i) (s.tablets i) e).map fun c =>
      {s with tablets := Function.update s.tablets i c}
  | .handle i inserts =>
    match ready (s.tablets i),
      Connection.step server parseJson (vector i) (s.tablets i) (.handle inserts (s.infos i) s.office.table) with
    | some transaction, some c =>
      match Bluetooth.handleTransResult server parseJson inserts transaction (s.infos i) s.office.table with
      | .ok (info, t) => some
        { tablets := Function.update s.tablets i c
          infos := Function.update s.infos i info
          office := {s.office with table := t} }
      | .error _ => some {s with tablets := Function.update s.tablets i c}
    | _, _ => none
  | .upload text o => (Upload.step server s.office (.upload text o)).map fun office => {s with office := office}

/-- The tablets connect, and the table is empty. -/
def start (all : ι → List Transaction) (infos : ι → Bluetooth.TabletInfo) : System ι :=
  ⟨fun i => Connection.start (all i), infos, Upload.emptyState⟩

/-! ### What is sent and what becomes of it -/

/-- The datapoints that a transaction of a tablet brings. -/
def matchData : Transaction → List (Datapoint Text)
  | .receive code payload _ =>
    if code = TRANS_RECV_MATCH then parseMatch (jsonData parseJson (ofBytes payload)) else []
  | .send _ _ _ => []

/-- The datapoints in the result of a transaction. -/
def brought (transaction : Bluetooth.ReadyTransaction) : List (Datapoint Text) :=
  match transaction.data with
  | .ok (some payload) =>
    if transaction.writeTransaction = false ∧ transaction.success = true ∧ transaction.transactionType = TRANS_RECV_MATCH then
      parseMatch (jsonData parseJson (ofBytes payload))
    else []
  | _ => []

/-- The datapoints that a step stores, with the tablet that they are from. -/
def arrivals (s : System ι) : Event ι → List (ι × Datapoint Text)
  | .handle i inserts =>
    match ready (s.tablets i) with
    | some transaction => (Upload.takenIn server inserts 0 (brought parseJson transaction)).map fun d => (i, d)
    | none => []
  | _ => []

/-- The datapoints in the payload that a step posts. -/
def postings (s : System ι) : Event ι → List Upload.JsonObject
  | .upload text o => Upload.posts server s.office (.upload text o)
  | _ => []

/-- The datapoints of one tablet. -/
def ofTablet (i : ι) (ds : List (ι × Datapoint Text)) : List (Datapoint Text) := (ds.filter (·.1 = i)).map Prod.snd

/-- No receive is late, every `INSERT` of a match takes effect, and a blank upload takes the
mark from the rows that it posts. -/
def Rule (s : System ι) : Event ι → Prop
  | .connection i e => InTime (s.tablets i) e
  | .handle i inserts => ∀ transaction, ready (s.tablets i) = some transaction →
      EveryPass (fun k d => takesEffect server inserts ['0'] k d = true) 0 (brought parseJson transaction)
  | .upload text o => Upload.EmptiesAll server s.office (.upload text o)

end

section
variable {server : Server} {parseJson : Text → Option Json}
variable {vector : Nat → TransactionType → Option (List UInt8)} {all : List Transaction} {n : Nat} {c c' : Connection.State}

/-! ### One connection -/

/-- A step in time keeps a connection in step. -/
theorem inStep_next (hvalid : ∀ (k : Nat) t, all[k]? = some t → Valid vector k t) (hwilling : ∀ t ∈ all, t.Willing)
    (h : InStep vector all n c) {e : Connection.Event} (htime : InTime c e)
    (hs : Connection.step server parseJson vector c e = some c') : ∃ n', InStep vector all n' c' := by
  obtain ⟨n', hadvances, _⟩ | ⟨⟨hlate, _⟩ | ⟨hcloses, _⟩, _⟩ := step_inStep hvalid h hs
  · exact ⟨n', hadvances⟩
  · exact absurd htime hlate
  · exact absurd hcloses (not_closes hwilling hvalid)

/-- Only handling adds an outcome. -/
theorem outcomes_step {e : Connection.Event} (he : handles e = false)
    (hs : Connection.step server parseJson vector c e = some c') : c'.outcomes = c.outcomes := by
  cases e with
  | handle => cases he
  | launch =>
    simp only [Connection.step] at hs
    split at hs
    · split at hs
      · obtain ⟨phase, _, rfl⟩ := Option.map_eq_some_iff.mp hs
        rfl
      · cases hs
    · cases hs
  | _ =>
    simp only [Connection.step] at hs
    repeat' split at hs
    all_goals
      cases hs
      try rfl

/-- A result that is handled in step is that of the next transaction. -/
theorem ready_inStep (h : InStep vector all n c) {trans : Bluetooth.ReadyTransaction} (hready : ready c = some trans) :
    ∃ t, all[c.outcomes.length]? = some t ∧ trans = ⟨t.code, decide (t.code < 0), t.value.2, .ok t.value.1⟩ := by
  obtain ⟨above, below, c₁, d, rfl, hcomputer, htablet, hlinked⟩ := h.sides
  unfold ready at hready
  split at hready
  · rename_i code program htransfer
    rw [htransfer] at hcomputer
    obtain ⟨n, order, t, ts, hdrop, rfl, hfollows, rfl, rfl⟩ := hcomputer.of_transfer
    obtain ⟨hall, hrest⟩ := drop_cons hdrop
    split at hready
    · rename_i data success hdone
      obtain ⟨rfl, hvalue⟩ := hfollows.ended hdone
      refine ⟨t, hall, ?_⟩
      rw [← hvalue]
      exact (Option.some.inj hready).symm
    · rename_i e hthrows
      exact absurd hthrows hfollows.not_throws
    · cases hready
  · cases hready

theorem brought_eq {k : Nat} {t : Transaction} (hvalid : Valid vector k t) :
    brought parseJson ⟨t.code, decide (t.code < 0), t.value.2, .ok t.value.1⟩ = matchData parseJson t := by
  cases t with
  | send code first second => rfl
  | receive code payload persists =>
    have hread : decide ((Transaction.receive code payload persists).code < 0) = false :=
      decide_eq_false (Int8.not_lt.mpr hvalid.1)
    rw [hread]
    simp [brought, matchData, Transaction.code, Transaction.value]

/-- Handling it adds its outcome. -/
theorem outcomes_handle {k : Nat} {t : Transaction} (hvalid : Valid vector k t)
    (hready : ready c = some ⟨t.code, decide (t.code < 0), t.value.2, .ok t.value.1⟩) {inserts : Nat → Bool}
    {parent : Bluetooth.TabletInfo} {table : Table}
    (hs : Connection.step server parseJson vector c (.handle inserts parent table) = some c') :
    c'.outcomes = c.outcomes ++ [t.outcome] := by
  unfold ready at hready
  split at hready
  · rename_i code program htransfer
    split at hready
    · rename_i data success hdone
      have houtcome : (⟨code, .ok data, success⟩ : Outcome) = t.outcome := by
        injection hready with hrecord
        injection hrecord with hcode _ hsuccess hdata
        rw [hcode, hsuccess, hdata]
        rfl
      simp only [Connection.step, htransfer, hdone] at hs
      rw [houtcome, handleResult_inStep hvalid] at hs
      cases hs
      rfl
    · rename_i e hthrows
      injection hready with hrecord
      injection hrecord with _ _ _ hdata
      cases hdata
    · cases hready
  · cases hready

variable (server parseJson) in
/-- What handling a transaction makes of the table. -/
theorem handleTransResult_eq {k : Nat} {t : Transaction} (hvalid : Valid vector k t) (inserts : Nat → Bool)
    (info : Bluetooth.TabletInfo) (table : Table) :
    ∃ info', Bluetooth.handleTransResult server parseJson inserts ⟨t.code, decide (t.code < 0), t.value.2, .ok t.value.1⟩
      info table = .ok (info', addMatchDatapoints server inserts 0 (matchData parseJson t) table) := by
  cases t with
  | send code first second => exact ⟨info, if_pos (decide_eq_true hvalid.1)⟩
  | receive code payload persists =>
    have hread : decide ((Transaction.receive code payload persists).code < 0) = false :=
      decide_eq_false (Int8.not_lt.mpr hvalid.1)
    rw [hread]
    show ∃ info', Bluetooth.handleTransResult server parseJson inserts ⟨code, false, true, .ok (some payload)⟩ info table = _
    unfold matchData Bluetooth.handleTransResult
    simp only [Bool.false_eq_true, if_false, if_true]
    by_cases hmatch : code = TRANS_RECV_MATCH
    · rw [if_pos hmatch, if_pos hmatch]
      exact ⟨_, rfl⟩
    · rw [if_neg hmatch, if_neg hmatch, addMatchDatapoints]
      split
      · exact ⟨_, rfl⟩
      · split <;> exact ⟨_, rfl⟩

end

/-! ### One step of the system -/

section
variable {server : Server} {parseJson : Text → Option Json} {vector : ι → Nat → TransactionType → Option (List UInt8)}
  {all : ι → List Transaction} {s s' : System ι}

/-- Every tablet is in step with the computer. -/
def AllInStep (vector : ι → Nat → TransactionType → Option (List UInt8)) (all : ι → List Transaction) (s : System ι) : Prop :=
  ∀ i, ∃ n, InStep (vector i) (all i) n (s.tablets i)

/-- The datapoints in the transactions of a tablet that have been handled. -/
def handedOver (parseJson : Text → Option Json) (all : ι → List Transaction) (s : System ι) (i : ι) : List (Datapoint Text) :=
  ((all i).take (s.tablets i).outcomes.length).flatMap (matchData parseJson)

theorem AllInStep.update (h : AllInStep vector all s) {i : ι} {n : Nat} {c : Connection.State}
    (hc : InStep (vector i) (all i) n c) {tablets : ι → Connection.State} (htablets : tablets = Function.update s.tablets i c)
    (infos : ι → Bluetooth.TabletInfo) (office : Upload.State) : AllInStep vector all ⟨tablets, infos, office⟩ := by
  intro j
  show ∃ n, InStep (vector j) (all j) n (tablets j)
  rw [htablets]
  by_cases hj : j = i
  · subst hj
    rw [Function.update_self]
    exact ⟨n, hc⟩
  · rw [Function.update_of_ne hj]
    exact h j

/-- What a step delivers: every tablet stays in step, what is posted and what awaits its
upload are what awaited it before and what arrives, and what arrives from a tablet is what
it has handed over since. -/
theorem delivers_step (hvalid : ∀ i (k : Nat) t, (all i)[k]? = some t → Valid (vector i) k t)
    (hwilling : ∀ i, ∀ t ∈ all i, t.Willing) (h : AllInStep vector all s) {e : Event ι} (hrule : Rule server parseJson s e)
    (hs : step server parseJson vector s e = some s') :
    AllInStep vector all s' ∧
      (postings server s e ++ Upload.awaiting s'.office.table).map some =
        (Upload.awaiting s.office.table).map some ++
          ((arrivals server parseJson s e).map Prod.snd).map (Upload.reported server) ∧
        ∀ i, handedOver parseJson all s' i = handedOver parseJson all s i ++ ofTablet i (arrivals server parseJson s e) := by
  cases e with
  | connection i e =>
    rw [step] at hs
    split at hs
    · cases hs
    · rename_i hhandles
      obtain ⟨c, hc, rfl⟩ := Option.map_eq_some_iff.mp hs
      obtain ⟨n, hi⟩ := h i
      obtain ⟨n', hnext⟩ := inStep_next (hvalid i) (hwilling i) hi hrule hc
      refine ⟨h.update hnext rfl s.infos s.office, (List.append_nil _).symm, fun j => ?_⟩
      show handedOver parseJson all _ j = handedOver parseJson all s j ++ []
      rw [List.append_nil, handedOver, handedOver]
      by_cases hj : j = i
      · subst hj
        dsimp only
        rw [Function.update_self, outcomes_step (Bool.eq_false_iff.mpr hhandles) hc]
      · dsimp only
        rw [Function.update_of_ne hj]
  | handle i inserts =>
    rw [step] at hs
    cases hready : ready (s.tablets i) with
    | none =>
      rw [hready] at hs
      cases hs
    | some transaction =>
      cases hhandle : Connection.step server parseJson (vector i) (s.tablets i)
        (.handle inserts (s.infos i) s.office.table) with
      | none =>
        rw [hready, hhandle] at hs
        cases hs
      | some c =>
        obtain ⟨n, hi⟩ := h i
        obtain ⟨t, hall, rfl⟩ := ready_inStep hi hready
        have ht := hvalid i _ t hall
        obtain ⟨info, hresult⟩ := handleTransResult_eq server parseJson ht inserts (s.infos i) s.office.table
        obtain ⟨n', hnext⟩ := inStep_next (hvalid i) (hwilling i) hi (e := .handle inserts (s.infos i) s.office.table) trivial hhandle
        have houtcomes := outcomes_handle ht hready hhandle
        have heffective := hrule _ hready
        rw [brought_eq ht] at heffective
        have htaken := Upload.takenIn_all heffective
        have harrive : arrivals server parseJson s (.handle i inserts) = (matchData parseJson t).map fun d => (i, d) := by
          rw [arrivals, hready]
          dsimp only
          rw [brought_eq ht, htaken]
        rw [hready, hhandle] at hs
        dsimp only at hs
        rw [hresult] at hs
        cases hs
        rw [harrive]
        refine ⟨h.update hnext rfl _ _, ?_, fun j => ?_⟩
        · have hawaiting := Upload.awaiting_received server inserts 0 (matchData parseJson t) s.office.table
          rw [htaken] at hawaiting
          rw [List.map_map, List.map_map]
          exact hawaiting
        · rw [handedOver, handedOver, ofTablet]
          by_cases hj : j = i
          · subst hj
            dsimp only
            rw [Function.update_self, houtcomes, List.length_append, List.length_singleton, List.take_add_one, hall,
              List.flatMap_append]
            simp [List.filter_map, Function.comp_def]
          · have hother : ¬ i = j := fun heq => hj heq.symm
            dsimp only
            rw [Function.update_of_ne hj]
            simp [List.filter_map, Function.comp_def, hother]
  | upload text o =>
    rw [step] at hs
    obtain ⟨office, hoffice, rfl⟩ := Option.map_eq_some_iff.mp hs
    have hposts := Upload.awaiting_step (e := .upload text o) hrule hoffice
    exact ⟨h, hposts, fun j => (List.append_nil _).symm⟩

/-! ### Whole runs -/

theorem delivers_run (hvalid : ∀ i (k : Nat) t, (all i)[k]? = some t → Valid (vector i) k t)
    (hwilling : ∀ i, ∀ t ∈ all i, t.Willing) (h : AllInStep vector all s) {events : List (Event ι)}
    (hrule : Machine.Meets (step server parseJson vector) (Rule server parseJson) s events)
    (hrun : Machine.run (step server parseJson vector) s events = some s') :
    AllInStep vector all s' ∧
      (Machine.notes (step server parseJson vector) (postings server) s events ++ Upload.awaiting s'.office.table).map some =
        (Upload.awaiting s.office.table).map some ++
          ((Machine.notes (step server parseJson vector) (arrivals server parseJson) s events).map Prod.snd).map
            (Upload.reported server) ∧
        ∀ i, handedOver parseJson all s' i = handedOver parseJson all s i ++
          ofTablet i (Machine.notes (step server parseJson vector) (arrivals server parseJson) s events) := by
  induction events generalizing s with
  | nil =>
    cases hrun
    exact ⟨h, (List.append_nil _).symm, fun i => (List.append_nil _).symm⟩
  | cons e events ih =>
    obtain ⟨s₁, h₁, h₂⟩ := Machine.run_cons hrun
    obtain ⟨hstep, hposts, hhanded⟩ := delivers_step hvalid hwilling h hrule.1 h₁
    obtain ⟨hall, hposts', hhanded'⟩ := ih hstep (hrule.2 s₁ h₁) h₂
    rw [Machine.notes, Machine.notes, h₁, Option.elim_some, Option.elim_some]
    refine ⟨hall, ?_, fun i => ?_⟩
    · rw [List.map_append] at hposts hposts'
      rw [List.append_assoc, List.map_append, List.map_append, hposts', ← List.append_assoc, hposts, List.map_append,
        List.map_append, List.append_assoc]
    · rw [hhanded' i, hhanded i, ofTablet, ofTablet, ofTablet, List.filter_append, List.map_append, List.append_assoc]

end

/-! ### Two tablets -/

/-- A parser for which every text is the document of one match. -/
def parseOneMatch (_ : Text) : Option Json := some (.object
  [("scoutingData".toList, .array [.object
    [("AllianceID".toList, .string ['0']), ("CompID".toList, .string "2026casac".toList),
      ("DatapointID".toList, .string ['1']), ("DatapointTimestamp".toList, .string "17".toList),
      ("DatapointValue".toList, .string "true".toList), ("MatchID".toList, .string ['5']),
      ("ScouterID".toList, .string ['3']), ("TeamID".toList, .string "1138".toList)]])])

def sendsMatch : List Transaction := [.receive TRANS_RECV_MATCH [65] false]

/-- The steps in which its bytes arrive. -/
def matchBytes : List Connection.Event :=
  [.begin_, .say 1, .turn, .request, .getTime, .malloc, .recv 1 0, .launch, .test, .malloc, .send 3, .hear 3, .turn,
    .say 4, .turn, .getTime, .malloc, .recv 4 0, .malloc, .send 3, .hear 3, .turn, .say 1, .turn, .getTime, .malloc,
    .recv 1 0]

def matchArrives (i : Bool) : List (Event Bool) :=
  matchBytes.map (.connection i) ++ [.handle i fun _ => true, .connection i .finish]

def bothArrive : List (Event Bool) :=
  matchArrives true ++ matchArrives false ++ [.upload [] ⟨true, ['7'], fun _ => true, fun _ => true, true, true⟩]

def noInfos (_ : Bool) : Bluetooth.TabletInfo := ⟨[], []⟩

theorem sendsMatch_valid (k : Nat) (t : Transaction) (h : sendsMatch[k]? = some t) : Valid (fun _ _ => none) k t ∧ t.Willing := by
  cases k with
  | zero =>
    cases h
    have hwilling : TRANS_RECV_MATCH ≠ TRANS_CLOSE_SOCKET := by decide
    exact ⟨⟨by decide, by decide⟩, hwilling⟩
  | succ k => cases h

theorem parseOneMatch_rule (transaction : Bluetooth.ReadyTransaction) :
    EveryPass (fun k d => takesEffect plainServer (fun _ => true) ['0'] k d = true) 0 (brought parseOneMatch transaction) := by
  have hone : EveryPass (fun k d => takesEffect plainServer (fun _ => true) ['0'] k d = true) 0 Upload.oneMatch :=
    (everyPass_cons _ 0 _ []).mpr ⟨by decide, everyPass_nil _ 1⟩
  rw [brought]
  split
  · split
    · exact hone
    · exact everyPass_nil _ 0
  · exact everyPass_nil _ 0

theorem matchArrives_rule (i : Bool) (e : Event Bool) (he : e ∈ matchArrives i) (s : System Bool) :
    Rule plainServer parseOneMatch s e := by
  have hprompt : matchBytes.all Event.prompt = true := by decide
  rcases List.mem_append.mp he with he | he
  · obtain ⟨e', he', rfl⟩ := List.mem_map.mp he
    exact prompt_inTime (List.all_eq_true.mp hprompt e' he') _
  · rcases List.mem_cons.mp he with rfl | he
    · exact fun transaction _ => parseOneMatch_rule transaction
    · cases List.mem_singleton.mp he
      trivial

theorem bothArrive_rule (e : Event Bool) (he : e ∈ bothArrive) (s : System Bool) : Rule plainServer parseOneMatch s e := by
  rcases List.mem_append.mp he with he | he
  · rcases List.mem_append.mp he with he | he
    · exact matchArrives_rule true e he s
    · exact matchArrives_rule false e he s
  · cases List.mem_singleton.mp he
    intro _
    by_cases hnone : Upload.unsent s.office.table = []
    · exact .inr (.inr (.inl hnone))
    · exact .inr (.inr (.inr ⟨rfl, by decide, 0, List.length_pos_iff.mpr hnone, rfl⟩))

end ScoutingComputer.Delivery
