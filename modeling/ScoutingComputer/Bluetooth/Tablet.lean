import ScoutingComputer.Bluetooth.InStep

/-! The steps of the tablet, and one step of either party.

The tablet speaks and hears as its talk says, and the bytes it hears are those of its
order. With the steps of the computer this gives what one step of the connection does to
two parties in step. -/
namespace ScoutingComputer.Connection
open Socket Dialogue

variable {vector : Nat → TransactionType → Option (List UInt8)} {all ts : List Transaction} {s s' : State}
  {n q k c : Nat} {phase : Phase} {above : Order}

section
variable {server : Server} {parseJson : Text → Option Json}

/-! ### The steps of the tablet -/

variable {d : Nat} {below order : Order} {talk : Talk} {got : Option (List UInt8) × Bool}

theorem TabletAt.of_idle {rest : List Transaction} (h : TabletAt vector k ts none rest d below) :
    rest = ts ∧ d = tabletCost vector k ts ∧ below = orderFrom vector k ts := by
  cases h
  exact ⟨rfl, rfl, rfl⟩

theorem TabletAt.of_talking {rest : List Transaction} (h : TabletAt vector k ts (some talk) rest d below) :
    ∃ n order t, ts = t :: rest ∧ Talks n talk order (t.got (dataOf vector k t)) ∧
      d = n + tabletCost vector (k + 1) rest ∧ below = order ++ orderFrom vector (k + 1) rest := by
  cases h with
  | talking htalks => exact ⟨_, _, _, rfl, htalks, rfl, rfl⟩

theorem Talks.say_inv {bytes : List Byte} {next : Talk} (h : Talks n (.say bytes next) order got) :
    ∃ m order', n = m + bytes.length + 1 ∧ order = bytes.map .inl ++ order' ∧ Talks m next order' got := by
  cases h with
  | say h => exact ⟨_, _, rfl, rfl, h⟩

theorem Talks.hear_inv {total : Nat} {before : List UInt8} {next : List UInt8 → Talk}
    (h : Talks n (.hear total before next) order got) :
    ∃ m bytes order', n = m + bytes.length + 1 ∧ order = told bytes ++ order' ∧
      before.length + bytes.length = total ∧ Talks m (next (before ++ bytes)) order' got := by
  cases h with
  | hear htotal h => exact ⟨_, _, _, rfl, rfl, htotal, h⟩

theorem Talks.finish_inv {received : Option (List UInt8)} {success : Bool}
    (h : Talks n (.finish received success) order got) : n = 1 ∧ order = [] ∧ (received, success) = got := by
  cases h
  exact ⟨rfl, rfl, rfl⟩

theorem begin_inStep (hvalid : ∀ (k : Nat) t, all[k]? = some t → Valid vector k t) (h : InStep vector all n s)
    (hs : step server parseJson vector s .begin_ = some s') : Advances vector all n .begin_ s' := by
  obtain ⟨above, below, c, d, rfl, hcomputer, htablet, hlinked⟩ := h.sides
  simp only [step] at hs
  split at hs
  · rename_i t ts hnone htransactions
    cases hs
    rw [hnone, htransactions] at htablet
    obtain ⟨hdrop, rfl, rfl⟩ := htablet.of_idle
    obtain ⟨m, hle, htalks⟩ := talk_talks (hvalid _ t (drop_cons hdrop.symm).1)
    have hat : TabletAt vector s.received.length (t :: ts) (some t.talk) ts _ _ := .talking htalks
    rw [hdrop, List.append_assoc] at hat
    rw [← hdrop] at hlinked ⊢
    refine ⟨_, ⟨h.outcomes, h.received, h.parts, _, _, _, _, rfl, hcomputer, hat, hlinked⟩, ?_, fun _ => ?_⟩
    · simp only [tabletCost]
      omega
    · simp only [tabletCost]
      omega
  · cases hs

theorem say_inStep (h : InStep vector all n s) (hs : step server parseJson vector s (.say k) = some s') :
    Advances vector all n (.say k) s' := by
  obtain ⟨above, below, c, d, rfl, hcomputer, htablet, hlinked⟩ := h.sides
  simp only [step] at hs
  split at hs
  · rename_i bytes next htalk
    rw [htalk] at htablet
    obtain ⟨n, order, t, hdrop, htalks, rfl, rfl⟩ := htablet.of_talking
    obtain ⟨m, order, rfl, rfl, hnext⟩ := htalks.say_inv
    split at hs
    · rename_i hk
      cases hs
      have hat : TabletAt vector s.received.length (t :: s.transactions) (some (.say (bytes.drop k) next))
          s.transactions _ _ := .talking (.say hnext)
      rw [← hdrop] at hat
      have hsplit : bytes.map Sum.inl ++ order =
          (bytes.take k).map Sum.inl ++ ((bytes.drop k).map Sum.inl ++ order) := by
        rw [← List.append_assoc, ← List.map_append, List.take_append_drop]
      rw [hsplit, List.append_assoc] at hlinked
      have hlength : (bytes.drop k).length = bytes.length - k := List.length_drop
      exact ⟨_, ⟨h.outcomes, h.received, h.parts, _, _, _, _, rfl, hcomputer, hat, hlinked.send_up⟩, by omega,
        fun _ => by omega⟩
    · cases hs
  · cases hs

theorem hear_inStep (h : InStep vector all n s) (hs : step server parseJson vector s (.hear k) = some s') :
    Advances vector all n (.hear k) s' := by
  obtain ⟨above, below, c, d, rfl, hcomputer, htablet, hlinked⟩ := h.sides
  simp only [step] at hs
  split at hs
  · rename_i total before next htalk
    rw [htalk] at htablet
    obtain ⟨n, order, t, hdrop, htalks, rfl, rfl⟩ := htablet.of_talking
    obtain ⟨m, bytes, order, rfl, rfl, htotal, hnext⟩ := htalks.hear_inv
    split at hs
    · rename_i hk
      cases hs
      rw [← List.take_append_drop k s.down] at hlinked
      obtain ⟨below', hbelow, hlinked'⟩ := hlinked.receive_down
      rw [List.append_assoc] at hbelow
      have hlength : (s.down.take k).length = k := List.length_take_of_le hk.2.1
      obtain ⟨rest, rfl, rfl⟩ := expected_split (fun _ _ => Sum.inr.inj) hbelow (by omega)
      rw [List.length_append, hlength] at htotal ⊢
      rw [← List.append_assoc] at hnext
      have hat : TabletAt vector s.received.length (t :: s.transactions)
          (some (.hear total (before ++ s.down.take k) next)) s.transactions _ _ :=
        .talking (.hear (by rw [List.length_append, hlength]; omega) hnext)
      rw [← hdrop, List.append_assoc] at hat
      exact ⟨_, ⟨h.outcomes, h.received, h.parts, _, _, _, _, rfl, hcomputer, hat, hlinked'⟩, by omega,
        fun _ => by omega⟩
    · cases hs
  · cases hs

theorem turn_inStep (h : InStep vector all n s) (hs : step server parseJson vector s .turn = some s') :
    Advances vector all n .turn s' := by
  obtain ⟨above, below, c, d, rfl, hcomputer, htablet, hlinked⟩ := h.sides
  simp only [step] at hs
  split at hs
  · rename_i next htalk
    cases hs
    rw [htalk] at htablet
    obtain ⟨n, order, t, hdrop, htalks, rfl, rfl⟩ := htablet.of_talking
    obtain ⟨m, order, rfl, rfl, hnext⟩ := htalks.say_inv
    have hat : TabletAt vector s.received.length (t :: s.transactions) (some next) s.transactions _ _ := .talking hnext
    rw [← hdrop] at hat
    exact ⟨_, ⟨h.outcomes, h.received, h.parts, _, _, _, _, rfl, hcomputer, hat, hlinked⟩, by omega, fun _ => by omega⟩
  · rename_i total before next htalk
    rw [htalk] at htablet
    obtain ⟨n, order, t, hdrop, htalks, rfl, rfl⟩ := htablet.of_talking
    obtain ⟨m, bytes, order, rfl, rfl, htotal, hnext⟩ := htalks.hear_inv
    split at hs
    · rename_i hfull
      cases hs
      cases List.length_eq_zero_iff.mp (show bytes.length = 0 by omega)
      rw [List.append_nil] at hnext
      have hat : TabletAt vector s.received.length (t :: s.transactions) (some (next before)) s.transactions _ _ :=
        .talking hnext
      rw [← hdrop] at hat
      exact ⟨_, ⟨h.outcomes, h.received, h.parts, _, _, _, _, rfl, hcomputer, hat, hlinked⟩, by omega,
        fun _ => by omega⟩
    · cases hs
  · cases hs

theorem finish_inStep (h : InStep vector all n s) (hs : step server parseJson vector s .finish = some s') :
    Advances vector all n .finish s' := by
  obtain ⟨above, below, c, d, rfl, hcomputer, htablet, hlinked⟩ := h.sides
  simp only [step] at hs
  split at hs
  · rename_i received success htalk
    cases hs
    rw [htalk] at htablet
    obtain ⟨n, order, t, hdrop, htalks, rfl, rfl⟩ := htablet.of_talking
    obtain ⟨rfl, rfl, hgot⟩ := htalks.finish_inv
    obtain ⟨hall, hrest⟩ := drop_cons hdrop
    have hat : TabletAt vector (s.received ++ [(received, success)]).length
        (all.drop (s.received ++ [(received, success)]).length) none s.transactions
        (tabletCost vector (s.received.length + 1) s.transactions)
        (orderFrom vector (s.received.length + 1) s.transactions) := by
      rw [List.length_append, List.length_singleton, hrest]
      exact .idle s.transactions
    have hreceived : ∀ (k : Nat) r, (s.received ++ [(received, success)])[k]? = some r →
        ∃ t, all[k]? = some t ∧ r = Transaction.got (dataOf vector k t) t := by
      rw [hgot]
      exact agreed_concat h.received hall
    exact ⟨_, ⟨h.outcomes, hreceived, h.parts, _, _, _, _, rfl, hcomputer, hat, hlinked⟩, by omega, fun _ => by omega⟩
  · cases hs

/-! ### One step -/

/-- A step of two parties in step leaves them in step, unless a receive is late or the
computer closes the socket. -/
theorem step_inStep {e : Event} (hvalid : ∀ (k : Nat) t, all[k]? = some t → Valid vector k t)
    (h : InStep vector all n s) (hs : step server parseJson vector s e = some s') :
    Advances vector all n e s' ∨ (¬ InTime s e ∧ Late s'.computer ∨ Closes all ∧ s'.computer = .closed) ∧
      ∀ part ∈ s'.codeParts, part = .code := by
  cases e with
  | wait ms =>
    cases hs
    exact .inl ⟨n, ⟨h.outcomes, h.received, h.parts, h.sides⟩, le_rfl, fun hgains => by cases hgains⟩
  | request => exact .inl (request_inStep h hs)
  | malloc => exact .inl (malloc_inStep h hs)
  | getTime => exact .inl (getTime_inStep h hs)
  | recv k late =>
    obtain hadvances | ⟨hlate, hphase, hparts⟩ := recv_inStep h hs
    · exact .inl hadvances
    · exact .inr ⟨.inl ⟨hlate, hphase⟩, hparts⟩
  | send k => exact .inl (send_inStep h hs)
  | launch =>
    obtain hadvances | ⟨hcloses, hclosed, hparts⟩ := launch_inStep hvalid h hs
    · exact .inl hadvances
    · exact .inr ⟨.inr ⟨hcloses, hclosed⟩, hparts⟩
  | test =>
    obtain hadvances | ⟨hcloses, hclosed, hparts⟩ := test_inStep h hs
    · exact .inl hadvances
    · exact .inr ⟨.inr ⟨hcloses, hclosed⟩, hparts⟩
  | handle inserts parent table => exact .inl (handle_inStep hvalid h hs)
  | begin_ => exact .inl (begin_inStep hvalid h hs)
  | say k => exact .inl (say_inStep h hs)
  | hear k => exact .inl (hear_inStep h hs)
  | turn => exact .inl (turn_inStep h hs)
  | finish => exact .inl (finish_inStep h hs)

end

end ScoutingComputer.Connection
