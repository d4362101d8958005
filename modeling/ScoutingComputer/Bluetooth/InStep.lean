import ScoutingComputer.Bluetooth.Conversation
import ScoutingComputer.Foundation.Dialogue

/-! A computer and a tablet in step.

The programs of the computer follow the order of the bytes, the talk of the tablet does,
and the two are `Linked` at their places in it by the bytes under way: that is `InStep`,
with a budget that every step that gets on lowers. The steps of the computer leave it only
when a receive is late, or when the socket is closed. -/
namespace ScoutingComputer.Connection
open Socket Dialogue

variable {vector : Nat → TransactionType → Option (List UInt8)}

/-! ### The invariant -/

section
variable (vector : Nat → TransactionType → Option (List UInt8))

/-- Where the computer is, with transactions left from `k` on: the bytes it has left to
exchange and a bound on its steps. -/
inductive ComputerAt (q k : Nat) : List Transaction → Phase → Nat → Order → Prop
  | waiting (ts : List Transaction) : ComputerAt q k ts .waiting (computerCost vector k ts) (orderFrom vector k ts)
  | typing {n : Nat} {program : OsProgram TransactionType} {order : Order} {t : Transaction} {ts : List Transaction} :
      Follows (· = TRANS_SOCKET_ERROR) n q program order t.code → (∀ b, Sum.inl b ∈ order → b.1 = .code) →
      ComputerAt q k (t :: ts) (.typing program)
        (n + (t.size (dataOf vector k t) + 19 + computerCost vector (k + 1) ts))
        (order ++ (t.rest (dataOf vector k t) ++ orderFrom vector (k + 1) ts))
  | transfer {n : Nat} {program : OsProgram (Option (List UInt8) × Bool)} {order : Order} {t : Transaction}
      {ts : List Transaction} (tested : Bool) :
      Follows NoData n q program order t.value →
      ComputerAt q k (t :: ts) (.transfer t.code tested program)
        (n + ((if tested then 1 else 2) + computerCost vector (k + 1) ts)) (order ++ orderFrom vector (k + 1) ts)

/-- Where the tablet is; the transactions it has not begun are `ts`. -/
inductive TabletAt (k : Nat) : List Transaction → Option Talk → List Transaction → Nat → Order → Prop
  | idle (ts : List Transaction) : TabletAt k ts none ts (tabletCost vector k ts) (orderFrom vector k ts)
  | talking {n : Nat} {talk : Talk} {order : Order} {t : Transaction} {ts : List Transaction} :
      Talks n talk order (t.got (dataOf vector k t)) →
      TabletAt k (t :: ts) (some talk) ts (n + tabletCost vector (k + 1) ts) (order ++ orderFrom vector (k + 1) ts)

/-- Both are in the same conversation, and what they have done is as agreed; `n` bounds
the steps that are left. -/
structure InStep (all : List Transaction) (n : Nat) (s : State) : Prop where
  outcomes : ∀ (k : Nat) o, s.outcomes[k]? = some o → ∃ t, all[k]? = some t ∧ o = Transaction.outcome t
  received : ∀ (k : Nat) r, s.received[k]? = some r → ∃ t, all[k]? = some t ∧ r = Transaction.got (dataOf vector k t) t
  parts : ∀ part ∈ s.codeParts, part = .code
  sides : ∃ above below c d, n = c + d ∧
    ComputerAt vector s.quietSince s.outcomes.length (all.drop s.outcomes.length) s.computer c above ∧
    TabletAt vector s.received.length (all.drop s.received.length) s.talk s.transactions d below ∧
    Linked above below s.up s.down

end

/-- A receive was late: the computer gets nothing more, and fails. -/
inductive Late : Phase → Prop
  | typing {program : OsProgram TransactionType} : Loses (· = TRANS_SOCKET_ERROR) program → Late (.typing program)
  | transfer {program : OsProgram (Option (List UInt8) × Bool)} (code : TransactionType) (tested : Bool) :
      Loses NoData program → Late (.transfer code tested program)

theorem inStep_start (vector : Nat → TransactionType → Option (List UInt8)) (all : List Transaction) :
    InStep vector all (computerCost vector 0 all + tabletCost vector 0 all) (start all) :=
  ⟨fun k o h => (by cases h), fun k r h => (by cases h), fun part h => (by cases h),
    ⟨orderFrom vector 0 all, orderFrom vector 0 all, _, _, rfl, .waiting all, .idle all, linked_level _⟩⟩

/-! ### The calls of the computer -/

/-- What is known of a computer that waits in a call: its program follows the order up to
the `tail`, and goes on as a program that does. -/
inductive Calling (vector : Nat → TransactionType → Option (List UInt8)) (q k : Nat) (ts : List Transaction)
    (phase : Phase) (c : Nat) (above : Order) : Prop
  | mk {α : Type} {Lost : α → Prop} {n extra : Nat} {program : OsProgram α} {order tail : Order} {value : α}
      (wrap : OsProgram α → Phase) (follows : Follows Lost n q program order value)
      (call : phase.call = program.call) (cost : c = n + extra) (left : above = order ++ tail)
      (after : ∀ a, phase.after a = wrap (program.after a))
      (goesOn : ∀ n q program order', (∀ b : Byte, Sum.inl b ∈ order' → Sum.inl b ∈ order) →
        Follows Lost n q program order' value → ComputerAt vector q k ts (wrap program) (n + extra) (order' ++ tail))
      (late : ∀ program, Loses Lost program → Late (wrap program))
      (parts : phase.isTyping = true → ∀ b : Byte, Sum.inl b ∈ order → b.1 = .code)

variable {all ts : List Transaction} {s s' : State} {n q k c : Nat} {phase : Phase} {above : Order}

theorem ComputerAt.calling {call : Call} (h : ComputerAt vector q k ts phase c above) (hcall : phase.call = some call) :
    Calling vector q k ts phase c above := by
  cases h with
  | waiting => cases hcall
  | typing hfollows hparts =>
    refine .mk .typing hfollows rfl rfl rfl (fun a => rfl) ?_ (fun program hloses => .typing hloses) fun _ => hparts
    intro n q program order' hsub hfollows'
    exact .typing hfollows' fun b hb => hparts b (hsub b hb)
  | transfer tested hfollows =>
    refine .mk (.transfer _ tested) hfollows rfl rfl rfl (fun a => rfl) ?_
      (fun program hloses => .transfer _ tested hloses) fun htyping => by cases htyping
    intro n q program order' _ hfollows'
    exact .transfer tested hfollows'

/-- The next state is in step, with a lower budget if the step gets on. -/
def Advances (vector : Nat → TransactionType → Option (List UInt8)) (all : List Transaction) (n : Nat) (e : Event)
    (s : State) : Prop :=
  ∃ n', InStep vector all n' s ∧ n' ≤ n ∧ (e.gains = true → n' < n)

section
variable {server : Server} {parseJson : Text → Option Json}

theorem malloc_inStep (h : InStep vector all n s) (hs : step server parseJson vector s .malloc = some s') :
    Advances vector all n .malloc s' := by
  obtain ⟨above, below, c, d, rfl, hcomputer, htablet, hlinked⟩ := h.sides
  simp only [step] at hs
  split at hs
  · rename_i size hcall
    cases hs
    obtain ⟨wrap, hfollows, hsame, rfl, rfl, hafter, hgoesOn, _, _⟩ := hcomputer.calling hcall
    obtain ⟨m, rfl, hfollows'⟩ := hfollows.malloc_inv (hsame ▸ hcall)
    have hat := hgoesOn _ _ _ _ (fun _ hb => hb) hfollows'
    rw [← hafter] at hat
    exact ⟨_, ⟨h.outcomes, h.received, h.parts, _, _, _, _, rfl, hat, htablet, hlinked⟩, by omega, fun _ => by omega⟩
  · cases hs

theorem getTime_inStep (h : InStep vector all n s) (hs : step server parseJson vector s .getTime = some s') :
    Advances vector all n .getTime s' := by
  obtain ⟨above, below, c, d, rfl, hcomputer, htablet, hlinked⟩ := h.sides
  simp only [step] at hs
  split at hs
  · rename_i hcall
    cases hs
    obtain ⟨wrap, hfollows, hsame, rfl, rfl, hafter, hgoesOn, _, _⟩ := hcomputer.calling hcall
    obtain ⟨m, rfl, hfollows'⟩ := hfollows.getTime_inv (hsame ▸ hcall)
    have hat := hgoesOn _ _ _ _ (fun _ hb => hb) (hfollows' s.now)
    rw [← hafter] at hat
    exact ⟨_, ⟨h.outcomes, h.received, h.parts, _, _, _, _, rfl, hat, htablet, hlinked⟩, by omega, fun _ => by omega⟩
  · cases hs

theorem send_inStep {k : Nat} (h : InStep vector all n s)
    (hs : step server parseJson vector s (.send k) = some s') : Advances vector all n (.send k) s' := by
  obtain ⟨above, below, c, d, rfl, hcomputer, htablet, hlinked⟩ := h.sides
  simp only [step] at hs
  split at hs
  · rename_i data hcall
    obtain ⟨wrap, hfollows, hsame, rfl, rfl, hafter, hgoesOn, _, _⟩ := hcomputer.calling hcall
    obtain ⟨m, order, rfl, rfl, _, hpause, hsent⟩ := hfollows.send_inv (hsame ▸ hcall)
    split at hs
    · rename_i hnone
      cases hs
      have hat := hgoesOn _ _ _ _ (fun _ hb => hb) hfollows
      rw [← hpause, ← hafter] at hat
      refine ⟨_, ⟨h.outcomes, h.received, h.parts, _, _, _, _, rfl, hat, htablet, hlinked⟩, le_rfl, fun hgains => ?_⟩
      rw [Event.gains, hnone] at hgains
      cases hgains
    · split at hs
      · rename_i hpos hle
        cases hs
        have hat := hgoesOn _ _ _ _ (fun b hb => ?_) (hsent k (Nat.pos_of_ne_zero hpos) hle)
        · rw [← hafter] at hat
          have hsplit : data.map Sum.inr ++ order =
              (data.take k).map Sum.inr ++ ((data.drop k).map Sum.inr ++ order) := by
            rw [← List.append_assoc, ← List.map_append, List.take_append_drop]
          rw [hsplit, List.append_assoc] at hlinked
          exact ⟨_, ⟨h.outcomes, h.received, h.parts, _, _, _, _, rfl, hat, htablet, hlinked.send_down⟩, by omega,
            fun _ => by omega⟩
        · simp only [List.mem_append, List.mem_map, reduceCtorEq, and_false, exists_false, false_or] at hb ⊢
          exact hb
      · cases hs
  · cases hs

/-- What a receive takes is expected, and a late one fails. -/
theorem recv_inStep {k late : Nat} (h : InStep vector all n s)
    (hs : step server parseJson vector s (.recv k late) = some s') :
    Advances vector all n (.recv k late) s' ∨ ¬ InTime s (.recv k late) ∧ Late s'.computer ∧
      ∀ part ∈ s'.codeParts, part = .code := by
  obtain ⟨above, below, c, d, rfl, hcomputer, htablet, hlinked⟩ := h.sides
  simp only [step] at hs
  split at hs
  · rename_i len hcall
    obtain ⟨wrap, hfollows, hsame, rfl, rfl, hafter, hgoesOn, hlate, hparts⟩ := hcomputer.calling hcall
    obtain ⟨m, bytes, order, rfl, rfl, rfl, _, hpause, hlateError, htaken, hlateBytes⟩ :=
      hfollows.recv_inv (hsame ▸ hcall)
    split at hs
    · rename_i hnone
      cases hs
      by_cases htime : s.now + late ≤ s.quietSince + timeout
      · left
        have hat := hgoesOn _ _ _ _ (fun _ hb => hb) hfollows
        rw [← hpause s.now (s.now + late) htime, ← hafter] at hat
        refine ⟨_, ⟨h.outcomes, h.received, h.parts, _, _, _, _, rfl, hat, htablet, hlinked⟩, le_rfl,
          fun hgains => ?_⟩
        rw [Event.gains, hnone] at hgains
        cases hgains
      · refine .inr ⟨fun hintime => htime ?_, ?_, h.parts⟩
        · rwa [InTime, if_pos hnone] at hintime
        · have hlost := hlate _ (hlateError s.now (s.now + late) (by omega))
          rwa [← hafter] at hlost
    · rename_i hpos
      split at hs
      · rename_i hroom
        cases hs
        rw [← List.take_append_drop k s.up] at hlinked
        obtain ⟨above', habove, hlinked'⟩ := hlinked.receive_up
        rw [List.append_assoc] at habove
        have hlength : (s.up.take k).length = k := List.length_take_of_le hroom.1
        obtain ⟨rest, rfl, rfl⟩ := expected_split (fun _ _ => Sum.inl.inj) habove (by omega)
        have hne : s.up.take k ≠ [] := by
          intro hnone
          rw [hnone] at hlength
          exact hpos hlength.symm
        have hcode : ∀ part ∈ (if s.computer.isTyping then s.codeParts ++ (s.up.take k).map Prod.fst else s.codeParts),
            part = .code := by
          intro part hpart
          split at hpart
          · rename_i htyping
            obtain hpart | hpart := List.mem_append.mp hpart
            · exact h.parts part hpart
            · obtain ⟨b, hb, rfl⟩ := List.mem_map.mp hpart
              apply hparts htyping b
              rw [List.map_append]
              exact List.mem_append_left _ (List.mem_append_left _ (List.mem_map_of_mem hb))
          · exact h.parts part hpart
        by_cases htime : late ≤ timeout
        · left
          have hat := hgoesOn _ _ _ _ (fun b hb => ?_)
            (htaken (s.up.take k) rest s.now (s.now + late) hne rfl (by omega))
          · rw [← hafter, List.append_assoc] at hat
            exact ⟨_, ⟨h.outcomes, h.received, hcode, _, _, _, _, rfl, hat, htablet, hlinked'⟩, by omega,
              fun _ => by omega⟩
          · rw [List.map_append, List.append_assoc]
            exact List.mem_append_right _ hb
        · refine .inr ⟨fun hintime => htime ?_, ?_, hcode⟩
          · rwa [InTime, if_neg hpos] at hintime
          · have hlost := hlate _ (hlateBytes ((s.up.take k).map Prod.snd) s.now (s.now + late) (by simpa using hne)
              (by omega))
            rwa [← hafter] at hlost
      · cases hs
  · cases hs

/-! ### Between the programs -/

theorem drop_cons {t : Transaction} (h : all.drop k = t :: ts) : all[k]? = some t ∧ all.drop (k + 1) = ts := by
  constructor
  · rw [← List.head?_drop, h]
    rfl
  · rw [← List.tail_drop, h]
    rfl

theorem ComputerAt.of_waiting (h : ComputerAt vector q k ts .waiting c above) :
    c = computerCost vector k ts ∧ above = orderFrom vector k ts := by
  cases h
  exact ⟨rfl, rfl⟩

theorem ComputerAt.typed {program : OsProgram TransactionType} (h : ComputerAt vector q k ts (.typing program) c above)
    (hcall : program.call = none) : ∃ code, program [] = .done code [] := by
  cases h with
  | typing hfollows _ => exact ⟨_, hfollows.done_of_call hcall⟩

/-- A code that has been read is that of the next transaction. -/
theorem ComputerAt.of_typed {program : OsProgram TransactionType} {code : TransactionType} {unused : List Answer}
    (h : ComputerAt vector q k ts (.typing program) c above) (hdone : program [] = .done code unused) :
    ∃ t ts', ts = t :: ts' ∧ code = t.code ∧
      t.size (dataOf vector k t) + 19 + computerCost vector (k + 1) ts' ≤ c ∧
      above = t.rest (dataOf vector k t) ++ orderFrom vector (k + 1) ts' := by
  cases h with
  | @typing n _ order t ts hfollows _ =>
    obtain ⟨rfl, rfl⟩ := hfollows.ended hdone
    exact ⟨t, ts, rfl, rfl, by omega, rfl⟩

theorem request_inStep (h : InStep vector all n s) (hs : step server parseJson vector s .request = some s') :
    Advances vector all n .request s' := by
  obtain ⟨above, below, c, d, rfl, hcomputer, htablet, hlinked⟩ := h.sides
  simp only [step] at hs
  split at hs
  · rename_i hwaiting
    rw [hwaiting] at hcomputer
    obtain ⟨rfl, rfl⟩ := hcomputer.of_waiting
    split at hs
    · cases hs
    · rename_i hbytes
      cases hs
      cases hdrop : all.drop s.outcomes.length with
      | nil =>
        rw [hdrop] at hlinked
        exact absurd (Linked.above_finished hlinked) hbytes
      | cons t ts =>
        rw [hdrop] at hlinked
        have hcode := getTransactionType_follows Part.code t.code.toUInt8 s.quietSince
        have hat : ComputerAt vector s.quietSince s.outcomes.length (t :: ts) (.typing getTransactionType) _ _ :=
          .typing hcode fun b hb => by
            cases List.mem_singleton.mp hb
            rfl
        rw [← hdrop] at hat
        refine ⟨_, ⟨h.outcomes, h.received, h.parts, _, _, _, _, rfl, hat, htablet, hlinked⟩, ?_, fun _ => ?_⟩
        · simp only [computerCost]
          omega
        · simp only [computerCost]
          omega
  · cases hs

theorem ComputerAt.of_transfer {code : TransactionType} {tested : Bool}
    {program : OsProgram (Option (List UInt8) × Bool)}
    (h : ComputerAt vector q k ts (.transfer code tested program) c above) :
    ∃ n order t ts', ts = t :: ts' ∧ code = t.code ∧ Follows NoData n q program order t.value ∧
      c = n + ((if tested then 1 else 2) + computerCost vector (k + 1) ts') ∧
      above = order ++ orderFrom vector (k + 1) ts' := by
  cases h with
  | transfer _ hfollows => exact ⟨_, _, _, _, rfl, rfl, hfollows, rfl, rfl⟩

/-- The computer closes the socket: the tablet has asked for it, or the transfer of a
transaction that fails has ended. -/
inductive Closes (all : List Transaction) : Prop
  | asked (t : Transaction) : t ∈ all → t.code = TRANS_CLOSE_SOCKET → Closes all
  | failed (t : Transaction) : t ∈ all → t.value.2 = false → Closes all

theorem launch_inStep (hvalid : ∀ (k : Nat) t, all[k]? = some t → Valid vector k t) (h : InStep vector all n s)
    (hs : step server parseJson vector s .launch = some s') :
    Advances vector all n .launch s' ∨
      Closes all ∧ s'.computer = .closed ∧ ∀ part ∈ s'.codeParts, part = .code := by
  obtain ⟨above, below, c, d, rfl, hcomputer, htablet, hlinked⟩ := h.sides
  simp only [step] at hs
  split at hs
  · rename_i program htyping
    rw [htyping] at hcomputer
    split at hs
    · rename_i code hdone
      obtain ⟨t, ts, hdrop, rfl, hcost, rfl⟩ := hcomputer.of_typed hdone
      obtain ⟨hall, hrest⟩ := drop_cons hdrop
      rw [Option.map_eq_some_iff] at hs
      obtain ⟨phase, hlaunch, rfl⟩ := hs
      obtain ⟨rfl, hclose⟩ | ⟨program', rfl, hfollows⟩ := launch_follows (hvalid _ t hall) hlaunch
      · exact .inr ⟨.asked t (List.mem_of_getElem? hall) hclose, rfl, h.parts⟩
      · left
        have hat : ComputerAt vector s.quietSince s.outcomes.length (t :: ts) (.transfer t.code false program') _ _ :=
          .transfer false (hfollows s.quietSince)
        rw [← hdrop] at hat
        have hbudget : t.size (dataOf vector s.outcomes.length t) + 16 +
            ((if false = true then 1 else 2) + computerCost vector (s.outcomes.length + 1) ts) < c := by
          simp only [Bool.false_eq_true, if_false]
          omega
        exact ⟨_, ⟨h.outcomes, h.received, h.parts, _, _, _, _, rfl, hat, htablet, hlinked⟩, by omega,
          fun _ => by omega⟩
    · cases hs
  · cases hs

theorem test_inStep (h : InStep vector all n s) (hs : step server parseJson vector s .test = some s') :
    Advances vector all n .test s' ∨
      Closes all ∧ s'.computer = .closed ∧ ∀ part ∈ s'.codeParts, part = .code := by
  obtain ⟨above, below, c, d, rfl, hcomputer, htablet, hlinked⟩ := h.sides
  simp only [step] at hs
  split at hs
  · rename_i code program htransfer
    rw [htransfer] at hcomputer
    obtain ⟨n, order, t, ts, hdrop, rfl, hfollows, rfl, rfl⟩ := hcomputer.of_transfer
    split at hs
    · rename_i data hdone
      cases hs
      obtain ⟨rfl, hvalue⟩ := hfollows.ended hdone
      exact .inr ⟨.failed t (List.mem_of_getElem? (drop_cons hdrop).1) (by rw [← hvalue]), rfl, h.parts⟩
    · cases hs
      left
      have hat : ComputerAt vector s.quietSince s.outcomes.length (t :: ts) (.transfer t.code true program) _ _ :=
        .transfer true hfollows
      rw [← hdrop] at hat
      simp only [Bool.false_eq_true, if_false, if_true] at hat ⊢
      exact ⟨_, ⟨h.outcomes, h.received, h.parts, _, _, _, _, rfl, hat, htablet, hlinked⟩, by omega, fun _ => by omega⟩
  · cases hs

/-- A transfer in step that has ended is handled without an exception. -/
theorem handleResult_inStep {inserts : Nat → Bool} {parent : Bluetooth.TabletInfo} {table : Table} {t : Transaction}
    (hvalid : Valid vector k t) :
    handleResult server parseJson inserts parent table t.outcome s =
      {s with
        computer := .waiting
        outcomes := s.outcomes ++ [t.outcome]} := by
  have hok : ∃ result, Bluetooth.handleTransResult server parseJson inserts
      ⟨t.code, decide (t.code < 0), t.value.2, .ok t.value.1⟩ parent table = .ok result := by
    unfold Bluetooth.handleTransResult
    cases t with
    | receive code payload persists =>
      split
      · exact ⟨_, rfl⟩
      · split
        · exact ⟨_, rfl⟩
        · split
          · exact ⟨_, rfl⟩
          · split <;> exact ⟨_, rfl⟩
    | send code first second =>
      exact ⟨_, if_pos (decide_eq_true hvalid.1)⟩
  obtain ⟨result, hok⟩ := hok
  unfold handleResult Transaction.outcome
  simp only [hok]

/-- One more of the things that are agreed on. -/
theorem agreed_concat {α : Type} {f : Nat → Transaction → α} {l : List α} {t : Transaction}
    (h : ∀ (k : Nat) a, l[k]? = some a → ∃ t, all[k]? = some t ∧ a = f k t) (hall : all[l.length]? = some t) :
    ∀ (k : Nat) a, (l ++ [f l.length t])[k]? = some a → ∃ t, all[k]? = some t ∧ a = f k t := by
  intro k a ha
  rw [List.getElem?_append] at ha
  split at ha
  · exact h k a ha
  · rename_i hk
    have hlast : k = l.length := by
      have hlt := (List.getElem?_eq_some_iff.mp ha).1
      rw [List.length_singleton] at hlt
      omega
    rw [hlast, Nat.sub_self] at ha
    cases ha
    exact ⟨t, hlast ▸ hall, by rw [hlast]⟩

theorem handle_inStep {inserts : Nat → Bool} {parent : Bluetooth.TabletInfo} {table : Table}
    (hvalid : ∀ (k : Nat) t, all[k]? = some t → Valid vector k t) (h : InStep vector all n s)
    (hs : step server parseJson vector s (.handle inserts parent table) = some s') :
    Advances vector all n (.handle inserts parent table) s' := by
  obtain ⟨above, below, c, d, rfl, hcomputer, htablet, hlinked⟩ := h.sides
  simp only [step] at hs
  split at hs
  · rename_i code program htransfer
    rw [htransfer] at hcomputer
    obtain ⟨n, order, t, ts, hdrop, rfl, hfollows, rfl, rfl⟩ := hcomputer.of_transfer
    obtain ⟨hall, hrest⟩ := drop_cons hdrop
    split at hs
    · rename_i data success hdone
      obtain ⟨rfl, hvalue⟩ := hfollows.ended hdone
      have houtcome : (⟨t.code, .ok data, success⟩ : Outcome) = t.outcome := by
        unfold Transaction.outcome
        rw [← hvalue]
      rw [houtcome, handleResult_inStep (hvalid _ t hall)] at hs
      cases hs
      have hat : ComputerAt vector s.quietSince (s.outcomes ++ [t.outcome]).length
          (all.drop (s.outcomes ++ [t.outcome]).length) .waiting (computerCost vector (s.outcomes.length + 1) ts)
          (orderFrom vector (s.outcomes.length + 1) ts) := by
        rw [List.length_append, List.length_singleton, hrest]
        exact .waiting ts
      exact ⟨_, ⟨agreed_concat h.outcomes hall, h.received, h.parts, _, _, _, _, rfl, hat, htablet, hlinked⟩, by omega,
        fun _ => by simp only [if_true]; omega⟩
    · rename_i e hthrows
      exact absurd hthrows hfollows.not_throws
    · cases hs
  · cases hs

end

end ScoutingComputer.Connection
