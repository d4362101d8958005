import ScoutingComputer.Bluetooth.Agreement

/-! Which bytes are read as codes.

A receive that is late ends a transfer while its bytes are still on the way. The computer
then reads codes again only if the transfer was not one of a match or of a match list,
whose handling throws. -/
namespace ScoutingComputer.Connection
open Socket

variable {vector : Nat → TransactionType → Option (List UInt8)} {all : List Transaction} {s s' : State}

/-! ### A connection that reads no more codes -/

/-- The computer will not take another byte: its socket is closed, an exception has left
the frame, or one of the two is certain. -/
inductive Over : Phase → Prop
  | closed : Over .closed
  | crashed : Over .crashed
  | typing {program : OsProgram TransactionType} : Loses (· = TRANS_SOCKET_ERROR) program → Over (.typing program)
  | transfer {program : OsProgram (Option (List UInt8) × Bool)} {code : TransactionType} (tested : Bool) :
      code = TRANS_RECV_MATCH ∨ code = TRANS_RECV_TAB_MATCH_LIST → Loses NoData program →
      Over (.transfer code tested program)

theorem Over.after {phase : Phase} (h : Over phase) (a : Answer) : Over (phase.after a) := by
  cases h with
  | closed => exact .closed
  | crashed => exact .crashed
  | typing hloses => exact .typing (hloses.after a)
  | transfer tested hcode hloses => exact .transfer tested hcode (hloses.after a)

theorem call_eq_some {α : Type} {program : OsProgram α} {call : Call} (h : program.call = some call) :
    program [] = .asks call := by
  unfold Program.call at h
  split at h
  · rename_i call' hasks
    cases h
    exact hasks
  · cases h

theorem Over.deaf {phase : Phase} (h : Over phase) (len : Int) : phase.call ≠ some (.recv len) := by
  intro hcall
  cases h with
  | closed | crashed => cases hcall
  | typing hloses => exact hloses.deaf [] len (call_eq_some hcall)
  | transfer tested hcode hloses => exact hloses.deaf [] len (call_eq_some hcall)

section
variable {server : Server} {parseJson : Text → Option Json}

/-- A match or a match list without data is not handled. -/
theorem handleResult_crashes {inserts : Nat → Bool} {parent : Bluetooth.TabletInfo} {t : Table} {outcome : Outcome}
    (hcode : outcome.code = TRANS_RECV_MATCH ∨ outcome.code = TRANS_RECV_TAB_MATCH_LIST)
    (hdata : ∀ bytes, outcome.data ≠ .ok (some bytes)) :
    handleResult server parseJson inserts parent t outcome s = {s with computer := .crashed} := by
  obtain ⟨code, data, success⟩ := outcome
  have herror : ∃ e, Bluetooth.handleTransResult server parseJson inserts ⟨code, decide (code < 0), success, data⟩
      parent t = .error e := by
    cases data with
    | error e => obtain rfl | rfl := hcode <;> exact ⟨e, rfl⟩
    | ok value =>
      cases value with
      | none => obtain rfl | rfl := hcode <;> exact ⟨_, rfl⟩
      | some bytes => exact absurd rfl (hdata bytes)
  obtain ⟨e, herror⟩ := herror
  unfold handleResult
  simp only [herror]

/-- What a step does to the computer, and to the parts that it has read as codes. -/
inductive Computes (server : Server) (parseJson : Text → Option Json)
    (vector : Nat → TransactionType → Option (List UInt8)) (s s' : State) : Prop
  | rests : s'.computer = s.computer → s'.codeParts = s.codeParts → Computes server parseJson vector s s'
  | begins : s.computer = .waiting → Computes server parseJson vector s s'
  | answered {call : Call} (a : Answer) : s.computer.call = some call → s'.computer = s.computer.after a →
      ((∀ len, call ≠ .recv len) → s'.codeParts = s.codeParts) → Computes server parseJson vector s s'
  | launched {program : OsProgram TransactionType} {code : TransactionType} : s.computer = .typing program →
      program [] = .done code [] → launch vector s.outcomes.length code = some s'.computer →
      s'.codeParts = s.codeParts → Computes server parseJson vector s s'
  | tested {code : TransactionType} {program : OsProgram (Option (List UInt8) × Bool)} :
      s.computer = .transfer code false program → s'.computer = .closed ∨ s'.computer = .transfer code true program →
      s'.codeParts = s.codeParts → Computes server parseJson vector s s'
  | handled {inserts : Nat → Bool} {parent : Bluetooth.TabletInfo} {t : Table} {outcome : Outcome}
      {program : OsProgram (Option (List UInt8) × Bool)} : s.computer = .transfer outcome.code true program →
      (∀ value, outcome.data = .ok value → program [] = .done (value, outcome.success) []) →
      s' = handleResult server parseJson inserts parent t outcome s → Computes server parseJson vector s s'

theorem step_computes {e : Event} (hs : step server parseJson vector s e = some s') :
    Computes server parseJson vector s s' := by
  cases e with
  | wait ms =>
    cases hs
    exact .rests rfl rfl
  | request =>
    simp only [step] at hs
    split at hs
    · rename_i hwaiting
      exact .begins hwaiting
    · cases hs
  | malloc =>
    simp only [step] at hs
    split at hs
    · rename_i size hcall
      cases hs
      exact .answered _ hcall rfl fun _ => rfl
    · cases hs
  | getTime =>
    simp only [step] at hs
    split at hs
    · rename_i hcall
      cases hs
      exact .answered _ hcall rfl fun _ => rfl
    · cases hs
  | recv k late =>
    simp only [step] at hs
    split at hs
    · rename_i len hcall
      split at hs
      · cases hs
        exact .answered _ hcall rfl fun _ => rfl
      · split at hs
        · cases hs
          exact .answered _ hcall rfl fun hother => absurd rfl (hother len)
        · cases hs
    · cases hs
  | send k =>
    simp only [step] at hs
    split at hs
    · rename_i data hcall
      split at hs
      · cases hs
        exact .answered _ hcall rfl fun _ => rfl
      · split at hs
        · cases hs
          exact .answered _ hcall rfl fun _ => rfl
        · cases hs
    · cases hs
  | launch =>
    simp only [step] at hs
    split at hs
    · rename_i program htyping
      split at hs
      · rename_i code hdone
        obtain ⟨phase, hlaunch, rfl⟩ := Option.map_eq_some_iff.mp hs
        exact .launched htyping hdone hlaunch rfl
      · cases hs
    · cases hs
  | test =>
    simp only [step] at hs
    split at hs
    · rename_i code program htransfer
      split at hs
      · cases hs
        exact .tested htransfer (.inl rfl) rfl
      · cases hs
        exact .tested htransfer (.inr rfl) rfl
    · cases hs
  | handle inserts parent table =>
    simp only [step] at hs
    split at hs
    · rename_i code program htransfer
      split at hs
      · rename_i data success hdone
        cases hs
        refine .handled htransfer ?_ rfl
        rintro value ⟨⟩
        exact hdone
      · cases hs
        refine .handled htransfer ?_ rfl
        rintro value ⟨⟩
      · cases hs
    · cases hs
  | begin_ =>
    simp only [step] at hs
    split at hs
    · cases hs
      exact .rests rfl rfl
    · cases hs
  | say k =>
    simp only [step] at hs
    split at hs
    · split at hs
      · cases hs
        exact .rests rfl rfl
      · cases hs
    · cases hs
  | hear k =>
    simp only [step] at hs
    split at hs
    · split at hs
      · cases hs
        exact .rests rfl rfl
      · cases hs
    · cases hs
  | turn =>
    simp only [step] at hs
    split at hs
    · cases hs
      exact .rests rfl rfl
    · split at hs
      · cases hs
        exact .rests rfl rfl
      · cases hs
    · cases hs
  | finish =>
    simp only [step] at hs
    split at hs
    · cases hs
      exact .rests rfl rfl
    · cases hs

theorem over_step {e : Event} (h : Over s.computer) (hs : step server parseJson vector s e = some s') :
    Over s'.computer ∧ s'.codeParts = s.codeParts := by
  cases step_computes hs with
  | rests hsame hparts => exact ⟨hsame ▸ h, hparts⟩
  | begins hwaiting =>
    rw [hwaiting] at h
    cases h
  | answered a hcall hafter hparts =>
    refine ⟨hafter ▸ h.after a, hparts fun len hrecv => ?_⟩
    exact h.deaf len (hrecv ▸ hcall)
  | launched htyping hdone hlaunch hparts =>
    rw [htyping] at h
    cases h with
    | typing hloses =>
      have herror := hloses.value [] _ [] hdone
      have hclosed : launch vector s.outcomes.length _ = some .closed := if_pos (.inl herror)
      rw [Option.some.inj (hlaunch.symm.trans hclosed)]
      exact ⟨.closed, hparts⟩
  | tested htransfer hphase hparts =>
    rw [htransfer] at h
    cases h with
    | transfer _ hcode hloses =>
      refine ⟨?_, hparts⟩
      obtain hclosed | htested := hphase
      · rw [hclosed]
        exact .closed
      · rw [htested]
        exact .transfer true hcode hloses
  | handled htransfer hvalue hhandle =>
    rw [htransfer] at h
    cases h with
    | transfer _ hcode hloses =>
      rw [handleResult_crashes hcode] at hhandle
      · subst hhandle
        exact ⟨.crashed, rfl⟩
      · intro bytes hdata
        cases hloses.value [] _ [] (hvalue _ hdata)

/-! ### Runs -/

/-- No receive of a transfer is late, but of those whose handling does not go on without
data. -/
def Punctual (s : State) (e : Event) : Prop :=
  ∀ code tested program, s.computer = .transfer code tested program →
    code = TRANS_RECV_MATCH ∨ code = TRANS_RECV_TAB_MATCH_LIST ∨ InTime s e

/-- The computer is in step, or over; only codes have been read as codes. -/
def Framed (vector : Nat → TransactionType → Option (List UInt8)) (all : List Transaction) (s : State) : Prop :=
  (∃ n, InStep vector all n s) ∨ Over s.computer ∧ ∀ part ∈ s.codeParts, part = .code

theorem after_transfer {phase : Phase} {a : Answer} {code : TransactionType} {tested : Bool}
    {program : OsProgram (Option (List UInt8) × Bool)} (h : phase.after a = .transfer code tested program) :
    ∃ program', phase = .transfer code tested program' := by
  cases phase with
  | transfer code' tested' program' =>
    cases h
    exact ⟨program', rfl⟩
  | waiting | typing | closed | crashed => cases h

/-- A step that is late is a receive, and leaves the program waiting in it with an answer. -/
theorem late_recv {e : Event} (hlate : ¬ InTime s e) (hs : step server parseJson vector s e = some s') :
    ∃ a, s'.computer = s.computer.after a := by
  cases e with
  | recv k late =>
    simp only [step] at hs
    split at hs
    · split at hs
      · cases hs
        exact ⟨_, rfl⟩
      · split at hs
        · cases hs
          exact ⟨_, rfl⟩
        · cases hs
    · cases hs
  | _ => exact absurd trivial hlate

theorem framed_step (hvalid : ∀ (k : Nat) t, all[k]? = some t → Valid vector k t) (s : State) (e : Event) (s' : State)
    (h : Framed vector all s) (hrule : Punctual s e) (hs : step server parseJson vector s e = some s') :
    Framed vector all s' := by
  obtain ⟨n, hstep⟩ | ⟨hover, hparts⟩ := h
  · obtain ⟨n', hadvances, _⟩ | ⟨⟨hlate, hphase⟩ | ⟨_, hclosed⟩, hparts⟩ := step_inStep hvalid hstep hs
    · exact .inl ⟨n', hadvances⟩
    · refine .inr ⟨?_, hparts⟩
      obtain ⟨a, hafter⟩ := late_recv hlate hs
      generalize hcomputer : s'.computer = phase at hphase hafter ⊢
      cases hphase with
      | typing hloses => exact .typing hloses
      | transfer code tested hloses =>
        obtain ⟨program', hbefore⟩ := after_transfer hafter.symm
        obtain hcode | hcode | hintime := hrule code tested program' hbefore
        · exact .transfer tested (.inl hcode) hloses
        · exact .transfer tested (.inr hcode) hloses
        · exact absurd hintime hlate
    · refine .inr ⟨?_, hparts⟩
      rw [hclosed]
      exact .closed
  · obtain ⟨hover', hsame⟩ := over_step hover hs
    exact .inr ⟨hover', hsame ▸ hparts⟩

end

/-! ### A number that is late -/

/-- The tablet says nothing for more than fifteen seconds, and then the number of bytes. -/
def nameIsLate : List Event :=
  [.begin_, .say 1, .turn, .request, .getTime, .malloc, .recv 1 0, .launch, .test, .malloc, .send 3, .getTime, .malloc,
    .recv 0 15001, .malloc, .send 3, handled, .hear 3, .turn, .say 4, .request, .getTime, .malloc, .recv 1 0]

/-- **Only codes are read as codes** in every run without a late receive, but of a match
or a match list. -/
theorem framing_kept (server : Server) (parseJson : Text → Option Json)
    (vector : Nat → TransactionType → Option (List UInt8)) (all : List Transaction) (events : List Event) (s : State)
    (hvalid : ∀ (k : Nat) t, all[k]? = some t → Valid vector k t)
    (hrule : Machine.Meets (step server parseJson vector) Punctual (start all) events)
    (hrun : Machine.run (step server parseJson vector) (start all) events = some s) :
    ∀ part ∈ s.codeParts, part = .code := by
  have hframed : Framed vector all s :=
    Machine.invariant_run (framed_step hvalid) (.inl ⟨_, inStep_start vector all⟩) hrule hrun
  obtain ⟨n, h⟩ | ⟨_, hparts⟩ := hframed
  · exact h.parts
  · exact hparts

theorem framing_kept_name :
    ∃ s, Machine.run (step plainServer (fun _ => none) fun _ _ => none) (start sendsName) nameArrives =
        some s ∧
      s.codeParts = [.code] ∧ ∀ part ∈ s.codeParts, part = .code :=
  ⟨_, rfl, rfl, framing_kept plainServer (fun _ => none) (fun _ _ => none) sendsName nameArrives _
    (fun k t h => (sendsName_valid k t h).1)
    (Machine.Meets.mono (fun _ _ h _ _ _ _ => .inr (.inr h)) (meets_prompt rfl _)) rfl⟩

/-- The transfer of the name is given up, and the first byte of the number is read as a
code. -/
theorem late_number_is_read_as_code :
    ∃ s, Machine.run (step plainServer (fun _ => none) fun _ _ => none) (start sendsName) nameIsLate =
        some s ∧
      s.codeParts = [.code, .length] ∧ ¬ ∀ part ∈ s.codeParts, part = .code := by
  have hparts : (Machine.run (step plainServer (fun _ => none) fun _ _ => none) (start sendsName) nameIsLate).map
      State.codeParts = some [.code, .length] := by decide +kernel
  obtain ⟨s, hrun, hparts⟩ := Option.map_eq_some_iff.mp hparts
  refine ⟨s, hrun, hparts, ?_⟩
  rw [hparts]
  decide

end ScoutingComputer.Connection
