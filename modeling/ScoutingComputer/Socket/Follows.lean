import ScoutingComputer.Socket.Transfer

/-! Programs that keep to an order of bytes.

The order says which bytes come next and from which side: `inl` those to be received, each
with a mark of what it is, `inr` those to be sent. `Follows` says that a program makes
exactly these exchanges, whatever the splitting and the pauses, and ends with a given
value: a pause leaves the program as it is, and each call that gets on lowers a budget.
A receive that is late gives the program up; what it then ends with is `Lost`. -/
namespace ScoutingComputer.Socket
open Program (bind_asks bind_done bind_after call_bind_of_call)

variable {U α β : Type}

/-- The program receives nothing any more, and if it ends, it ends with such a value. -/
structure Loses (Lost : α → Prop) (p : OsProgram α) : Prop where
  value : ∀ answers v rest, p answers = .done v rest → Lost v
  deaf : ∀ answers len, p answers ≠ .asks (.recv len)

/-- The program makes the exchanges of the order and ends with the value. `q` is when the
current silence began, and `n` bounds the calls that get on. -/
inductive Follows (Lost : α → Prop) : Nat → Nat → OsProgram α → List ((U × UInt8) ⊕ UInt8) → α → Prop
  | done (n q : Nat) (v : α) : Follows Lost n q (Pure.pure v) [] v
  | malloc {n q size : Nat} {p : OsProgram α} {order : List ((U × UInt8) ⊕ UInt8)} {v : α} :
      p.call = some (.malloc size) → Follows Lost n q (p.after (.malloc true)) order v →
      Follows Lost (n + 1) q p order v
  | getTime {n q : Nat} {p : OsProgram α} {order : List ((U × UInt8) ⊕ UInt8)} {v : α} :
      p.call = some .getTime → (∀ now, Follows Lost n now (p.after (.getTime now)) order v) →
      Follows Lost (n + 1) q p order v
  | recv {n q : Nat} {p : OsProgram α} {bytes : List (U × UInt8)} {order : List ((U × UInt8) ⊕ UInt8)} {v : α} :
      p.call = some (.recv bytes.length) → bytes ≠ [] →
      (∀ moved checked, checked ≤ q + timeout → p.after (.recv (.error WSAEWOULDBLOCK) moved checked) = p) →
      (∀ moved checked, q + timeout < checked →
        Loses Lost (p.after (.recv (.error WSAEWOULDBLOCK) moved checked))) →
      (∀ taken rest moved checked, taken ≠ [] → bytes = taken ++ rest → checked ≤ moved + timeout →
        Follows Lost n moved (p.after (.recv (.bytes (taken.map Prod.snd)) moved checked))
          (rest.map .inl ++ order) v) →
      (∀ taken moved checked, taken ≠ [] → moved + timeout < checked →
        Loses Lost (p.after (.recv (.bytes taken) moved checked))) →
      Follows Lost (n + 1) q p (bytes.map .inl ++ order) v
  | send {n q : Nat} {p : OsProgram α} {data : List UInt8} {order : List ((U × UInt8) ⊕ UInt8)} {v : α} :
      p.call = some (.send data) → data ≠ [] → p.after (.send (.error WSAEWOULDBLOCK)) = p →
      (∀ k, 0 < k → k ≤ data.length →
        Follows Lost n q (p.after (.send (.count k))) ((data.drop k).map .inr ++ order) v) →
      Follows Lost (n + 1) q p (data.map .inr ++ order) v

variable {Lost : α → Prop}

theorem Follows.mono {n m q : Nat} {p : OsProgram α} {order : List ((U × UInt8) ⊕ UInt8)} {v : α}
    (h : Follows Lost n q p order v) (hle : n ≤ m) : Follows Lost m q p order v := by
  induction h generalizing m with
  | done n q v => exact .done m q v
  | malloc hcall _ ih =>
    obtain ⟨m, rfl⟩ := Nat.exists_eq_add_of_le' (Nat.le_of_add_left_le hle)
    exact .malloc hcall (ih (by omega))
  | getTime hcall _ ih =>
    obtain ⟨m, rfl⟩ := Nat.exists_eq_add_of_le' (Nat.le_of_add_left_le hle)
    exact .getTime hcall fun now => ih now (by omega)
  | recv hcall hne hpause hlate _ hlast ih =>
    obtain ⟨m, rfl⟩ := Nat.exists_eq_add_of_le' (Nat.le_of_add_left_le hle)
    exact .recv hcall hne hpause hlate
      (fun taken rest moved checked ht hb hc => ih taken rest moved checked ht hb hc (by omega)) hlast
  | send hcall hne hpause _ ih =>
    obtain ⟨m, rfl⟩ := Nat.exists_eq_add_of_le' (Nat.le_of_add_left_le hle)
    exact .send hcall hne hpause fun k hk hk' => ih k hk hk' (by omega)

theorem Loses.after {p : OsProgram α} (h : Loses Lost p) (a : Answer) : Loses Lost (p.after a) :=
  ⟨fun answers => h.value (a :: answers), fun answers => h.deaf (a :: answers)⟩

theorem loses_pure {v : α} (h : Lost v) : Loses Lost (Pure.pure v) := by
  refine ⟨fun answers w rest hp => ?_, fun answers len hp => ?_⟩
  · cases hp
    exact h
  · cases hp

theorem Loses.bind {Lost' : β → Prop} {p : OsProgram α} {f : α → OsProgram β} (h : Loses Lost p)
    (hf : ∀ v, Lost v → Loses Lost' (f v)) : Loses Lost' (p >>= f) := by
  refine ⟨fun answers w rest hp => ?_, fun answers len hp => ?_⟩
  · obtain ⟨v, middle, hv, hw⟩ := bind_done hp
    exact (hf v (h.value answers v middle hv)).value middle w rest hw
  · obtain hp | ⟨v, middle, hv, hp⟩ := bind_asks hp
    · exact h.deaf answers len hp
    · exact (hf v (h.value answers v middle hv)).deaf middle len hp

/-- A first part that follows its order, and a second part that follows what comes after. -/
theorem Follows.bind {L : β → Prop} {n m q : Nat} {p : OsProgram α} {f : α → OsProgram β}
    {order o : List ((U × UInt8) ⊕ UInt8)} {v : α} {w : β} (h : Follows Lost n q p order v)
    (hf : ∀ q, Follows L m q (f v) o w) (hlost : ∀ v, Lost v → Loses L (f v)) :
    Follows L (n + m) q (p >>= f) (order ++ o) w := by
  induction h with
  | done n q v => exact (hf q).mono (Nat.le_add_left m n)
  | malloc hcall _ ih =>
    rw [Nat.add_right_comm]
    exact .malloc (call_bind_of_call hcall f) (ih hf)
  | getTime hcall _ ih =>
    rw [Nat.add_right_comm]
    exact .getTime (call_bind_of_call hcall f) fun now => ih now hf
  | recv hcall hne hpause hlate _ hlast ih =>
    rw [Nat.add_right_comm, List.append_assoc]
    refine .recv (call_bind_of_call hcall f) hne ?_ ?_ ?_ ?_
    · intro moved checked hc
      rw [bind_after, hpause moved checked hc]
    · intro moved checked hc
      exact (hlate moved checked hc).bind hlost
    · intro taken rest moved checked ht hb hc
      have := ih taken rest moved checked ht hb hc hf
      rwa [List.append_assoc] at this
    · intro taken moved checked ht hc
      exact (hlast taken moved checked ht hc).bind hlost
  | send hcall hne hpause _ ih =>
    rw [Nat.add_right_comm, List.append_assoc]
    refine .send (call_bind_of_call hcall f) hne ?_ ?_
    · rw [bind_after, hpause]
    · intro k hk hk'
      have := ih k hk hk' hf
      rwa [List.append_assoc] at this

/-- A program that has ended has followed its order to the end. -/
theorem Follows.ended {n q : Nat} {p : OsProgram α} {order : List ((U × UInt8) ⊕ UInt8)} {v w : α} {rest : List Answer}
    (h : Follows Lost n q p order v) (hp : p [] = .done w rest) : order = [] ∧ w = v := by
  have hcall : p.call = none := by
    unfold Program.call
    rw [hp]
  cases h with
  | done =>
    cases hp
    exact ⟨rfl, rfl⟩
  | malloc h | getTime h | recv h | send h =>
    rw [hcall] at h
    cases h

/-- A program that follows its order and makes no call has ended. -/
theorem Follows.done_of_call {n q : Nat} {p : OsProgram α} {order : List ((U × UInt8) ⊕ UInt8)} {v : α}
    (h : Follows Lost n q p order v) (hcall : p.call = none) : p [] = .done v [] := by
  cases h with
  | done => rfl
  | malloc h | getTime h | recv h | send h =>
    rw [hcall] at h
    cases h

/-- It does not throw. -/
theorem Follows.not_throws {n q : Nat} {p : OsProgram α} {order : List ((U × UInt8) ⊕ UInt8)} {v : α} {e : Exception}
    {rest : List Answer} (h : Follows Lost n q p order v) : p [] ≠ .throws e rest := by
  intro hp
  have hcall : p.call = none := by
    unfold Program.call
    rw [hp]
  cases h with
  | done => cases hp
  | malloc h | getTime h | recv h | send h =>
    rw [hcall] at h
    cases h

/-! ### What a call can do -/

theorem Follows.malloc_inv {n q size : Nat} {p : OsProgram α} {order : List ((U × UInt8) ⊕ UInt8)} {v : α}
    (h : Follows Lost n q p order v) (hcall : p.call = some (.malloc size)) :
    ∃ m, n = m + 1 ∧ Follows Lost m q (p.after (.malloc true)) order v := by
  cases h with
  | done =>
    rw [Program.call_pure] at hcall
    cases hcall
  | malloc _ h => exact ⟨_, rfl, h⟩
  | getTime h | recv h | send h =>
    rw [h] at hcall
    cases hcall

theorem Follows.getTime_inv {n q : Nat} {p : OsProgram α} {order : List ((U × UInt8) ⊕ UInt8)} {v : α}
    (h : Follows Lost n q p order v) (hcall : p.call = some .getTime) :
    ∃ m, n = m + 1 ∧ ∀ now, Follows Lost m now (p.after (.getTime now)) order v := by
  cases h with
  | done =>
    rw [Program.call_pure] at hcall
    cases hcall
  | getTime _ h => exact ⟨_, rfl, h⟩
  | malloc h | recv h | send h =>
    rw [h] at hcall
    cases hcall

/-- A receive waits for the next bytes of the order. -/
theorem Follows.recv_inv {n q : Nat} {len : Int} {p : OsProgram α} {order : List ((U × UInt8) ⊕ UInt8)} {v : α}
    (h : Follows Lost n q p order v) (hcall : p.call = some (.recv len)) :
    ∃ m bytes order', n = m + 1 ∧ order = bytes.map .inl ++ order' ∧ len = bytes.length ∧ bytes ≠ [] ∧
      (∀ moved checked, checked ≤ q + timeout → p.after (.recv (.error WSAEWOULDBLOCK) moved checked) = p) ∧
      (∀ moved checked, q + timeout < checked →
        Loses Lost (p.after (.recv (.error WSAEWOULDBLOCK) moved checked))) ∧
      (∀ taken rest moved checked, taken ≠ [] → bytes = taken ++ rest → checked ≤ moved + timeout →
        Follows Lost m moved (p.after (.recv (.bytes (taken.map Prod.snd)) moved checked))
          (rest.map .inl ++ order') v) ∧
      ∀ taken moved checked, taken ≠ [] → moved + timeout < checked →
        Loses Lost (p.after (.recv (.bytes taken) moved checked)) := by
  cases h with
  | done =>
    rw [Program.call_pure] at hcall
    cases hcall
  | recv h hne hpause hlate htaken hlast =>
    rw [h] at hcall
    cases hcall
    exact ⟨_, _, _, rfl, rfl, rfl, hne, hpause, hlate, htaken, hlast⟩
  | malloc h | getTime h | send h =>
    rw [h] at hcall
    cases hcall

/-- A send has the next bytes of the order. -/
theorem Follows.send_inv {n q : Nat} {data : List UInt8} {p : OsProgram α} {order : List ((U × UInt8) ⊕ UInt8)} {v : α}
    (h : Follows Lost n q p order v) (hcall : p.call = some (.send data)) :
    ∃ m order', n = m + 1 ∧ order = data.map .inr ++ order' ∧ data ≠ [] ∧
      p.after (.send (.error WSAEWOULDBLOCK)) = p ∧
      ∀ k, 0 < k → k ≤ data.length →
        Follows Lost m q (p.after (.send (.count k))) ((data.drop k).map .inr ++ order') v := by
  cases h with
  | done =>
    rw [Program.call_pure] at hcall
    cases hcall
  | send h hne hpause hsent =>
    rw [h] at hcall
    cases hcall
    exact ⟨_, _, rfl, rfl, hne, hpause, hsent⟩
  | malloc h | getTime h | recv h =>
    rw [h] at hcall
    cases hcall

/-! ### The loops -/

theorem receiveLoop_lateBytes {sizeExpected : Nat} {dataRecvd data : List UInt8} {timeoutTime moved checked : Nat}
    (h : dataRecvd.length < sizeExpected) (hd : data ≠ []) (ht : moved + timeout < checked) :
    (receiveLoop sizeExpected dataRecvd timeoutTime).after (.recv (.bytes data) moved checked) = Pure.pure none := by
  funext rest
  simp [Program.after, receiveLoop, h, hd, ht, Program.pure_def]

theorem receiveLoop_follows (bytes : List (U × UInt8)) (dataRecvd : List UInt8) (q : Nat)
    (hsize : dataRecvd.length + bytes.length < 2 ^ 31) :
    Follows (· = none) bytes.length q (receiveLoop (dataRecvd.length + bytes.length) dataRecvd (q + timeout))
      (bytes.map .inl) (some (dataRecvd ++ bytes.map Prod.snd)) := by
  generalize hn : bytes.length = n
  induction n using Nat.strong_induction_on generalizing bytes dataRecvd q with
  | _ n ih =>
    cases n with
    | zero =>
      cases List.length_eq_zero_iff.mp hn
      rw [receiveLoop_full (by omega), List.map_nil, List.map_nil, List.append_nil]
      exact .done ..
    | succ n =>
      have hne : bytes ≠ [] := by
        intro h
        rw [h] at hn
        cases hn
      have hlt : dataRecvd.length < dataRecvd.length + (n + 1) := by omega
      rw [← List.append_nil (bytes.map Sum.inl)]
      refine .recv ?_ hne ?_ ?_ ?_ ?_
      · rw [receiveLoop_call hlt, intOfSize_natCast (by omega), hn]
        congr 2
        omega
      · intro moved checked hc
        exact receiveLoop_pause hlt hc (.inl rfl)
      · intro moved checked hc
        rw [receiveLoop_late hlt hc]
        exact loses_pure rfl
      · intro taken rest moved checked ht hb hc
        have htaken : taken.map Prod.snd ≠ [] := by simpa using ht
        have hpos : 0 < taken.length := List.length_pos_iff.mpr ht
        have hlength : taken.length + rest.length = n + 1 := by rw [← hn, hb, List.length_append]
        rw [receiveLoop_bytes hlt htaken hc, List.append_nil]
        have hrest := ih rest.length (by omega) rest (dataRecvd ++ taken.map Prod.snd) moved
          (by simp only [List.length_append, List.length_map]; omega) rfl
        have htotal : (dataRecvd ++ taken.map Prod.snd).length + rest.length = dataRecvd.length + (n + 1) := by
          simp only [List.length_append, List.length_map]
          omega
        have hvalue : dataRecvd ++ taken.map Prod.snd ++ rest.map Prod.snd = dataRecvd ++ bytes.map Prod.snd := by
          rw [hb, List.map_append, List.append_assoc]
        rw [htotal, hvalue] at hrest
        exact hrest.mono (by omega)
      · intro taken moved checked ht hc
        rw [receiveLoop_lateBytes hlt ht hc]
        exact loses_pure rfl

theorem sendToSocket_follows (Lost : Bool → Prop) (data : List UInt8) (q : Nat) :
    Follows (U := U) Lost data.length q (sendToSocket data) (data.map .inr) true := by
  generalize hn : data.length = n
  induction n using Nat.strong_induction_on generalizing data with
  | _ n ih =>
    by_cases hne : data = []
    · subst hne
      rw [sendToSocket_nil]
      exact .done ..
    · have hpos : 0 < data.length := List.length_pos_iff.mpr hne
      obtain ⟨m, rfl⟩ : ∃ m, n = m + 1 := ⟨n - 1, by omega⟩
      rw [← List.append_nil (data.map Sum.inr)]
      refine .send (sendToSocket_call hne) hne (sendToSocket_pause hne) ?_
      intro k hk hk'
      rw [sendToSocket_count hne, List.append_nil]
      have hlength : (data.drop k).length = m + 1 - k := by rw [List.length_drop, hn]
      exact (ih (m + 1 - k) (by omega) (data.drop k) hlength).mono (by omega)

/-! ### The parts of a transfer -/

theorem readAllSocketData_follows (bytes : List (U × UInt8)) (q : Nat) (hsize : bytes.length < 2 ^ 31) :
    Follows (· = none) (bytes.length + 2) q (readAllSocketData bytes.length) (bytes.map .inl)
      (some (bytes.map Prod.snd)) := by
  refine .getTime rfl fun now => ?_
  show Follows _ _ _ (if bytes.length < 1 then Pure.pure (some []) else _) _ _
  by_cases hnone : bytes.length < 1
  · cases List.length_eq_zero_iff.mp (Nat.lt_one_iff.mp hnone)
    rw [if_pos hnone]
    exact .done ..
  · rw [if_neg hnone]
    refine .malloc rfl ?_
    have hgranted : (true && decide (bytes.length < 2 ^ 63)) = true := by
      rw [Bool.true_and, decide_eq_true_eq]
      omega
    rw [bind_after, malloc_after, hgranted]
    have hloop := receiveLoop_follows bytes [] now (by simpa using hsize)
    rw [List.length_nil, Nat.zero_add, List.nil_append] at hloop
    exact hloop

theorem sendWord_follows (Lost : Bool → Prop) (data : List UInt8) (q : Nat) :
    Follows (U := U) Lost (data.length + 1) q (sendWord data) (data.map .inr) true := by
  refine .malloc rfl ?_
  exact sendToSocket_follows Lost data q

/-- An acknowledgement or any other three bytes. -/
theorem readAck_follows (bytes : List (U × UInt8)) (q : Nat) (hsize : bytes.length = 3) :
    Follows (· = false) 6 q readAck (bytes.map .inl) (bytes.map Prod.snd == ack) := by
  refine .malloc rfl ?_
  have hread := readAllSocketData_follows bytes q (by omega)
  rw [hsize] at hread
  rw [← List.append_nil (bytes.map Sum.inl)]
  refine hread.bind (m := 0) (fun q => ?_) (fun v hv => ?_)
  · have htake : (bytes.map Prod.snd).take 3 = bytes.map Prod.snd := List.take_of_length_le (by simp [hsize])
    simp only [htake]
    exact .done ..
  · rw [hv]
    exact loses_pure rfl

theorem getTransactionType_follows (u : U) (b : UInt8) (q : Nat) :
    Follows (· = TRANS_SOCKET_ERROR) 3 q getTransactionType [.inl (u, b)] b.toInt8 := by
  have hread := readAllSocketData_follows [(u, b)] q (by simp)
  rw [← List.append_nil [Sum.inl (u, b)]]
  refine hread.bind (m := 0) (fun q => ?_) (fun v hv => ?_)
  · exact .done ..
  · rw [hv]
    exact loses_pure rfl

/-! ### The two transfers -/

/-- The value of a transfer that gave its data up. -/
def NoData (v : Option (List UInt8) × Bool) : Prop := v.1 = none

theorem sendToSocket_loses (data : List UInt8) : Loses (fun _ => True) (sendToSocket data) := by
  refine ⟨fun _ _ _ _ => trivial, fun answers len hp => ?_⟩
  induction answers generalizing data with
  | nil =>
    unfold sendToSocket at hp
    split at hp <;> cases hp
  | cons answer answers ih =>
    unfold sendToSocket at hp
    split at hp
    · cases hp
    · split at hp
      · exact ih _ hp
      · split at hp
        · exact ih _ hp
        · cases hp
      · cases hp

theorem sendNack_loses : Loses (fun _ => True) sendNack := by
  have hmalloc : Loses (fun _ => True) (malloc 3) := by
    refine ⟨fun _ _ _ _ => trivial, fun answers len hp => ?_⟩
    unfold malloc at hp
    split at hp <;> cases hp
  refine hmalloc.bind fun granted _ => ?_
  split
  · exact sendToSocket_loses nack
  · exact loses_pure trivial

/-- A read that fails sends a NACK and has no data. -/
theorem loses_nack : Loses NoData (sendNack >>= fun _ => Pure.pure (none, false)) :=
  sendNack_loses.bind fun _ _ => loses_pure rfl

theorem internalRead_follows (length payload : List (U × UInt8)) (q : Nat)
    (hlength : length.map Prod.snd = bytesOfSize payload.length) (hsize : payload.length < 2 ^ 31) :
    Follows NoData (payload.length + 16) q internalRead
      (ack.map .inr ++ (length.map .inl ++ (ack.map .inr ++ payload.map .inl)))
      (some (payload.map Prod.snd), true) := by
  have hfour : length.length = 4 := by
    have := congrArg List.length hlength
    rwa [List.length_map] at this
  have hexpected : intOfBytes (length.map Prod.snd) = payload.length := by
    rw [hlength, intOfBytes_bytesOfSize _ hsize]
  have hbytes := fun q => readAllSocketData_follows payload q hsize
  have hnumber := fun q => readAllSocketData_follows length q (by omega)
  rw [hfour] at hnumber
  have hack := fun q => sendWord_follows (U := U) (fun _ => False) ack q
  have hbudget : payload.length + 16 = (ack.length + 1) + ((4 + 2) + ((ack.length + 1) + (payload.length + 2))) := by
    show payload.length + 16 = 4 + (6 + (4 + (payload.length + 2)))
    omega
  rw [hbudget]
  unfold internalRead sendAck
  refine (hack q).bind (fun q => ?_) (fun v hv => hv.elim)
  simp only [if_true]
  refine (hnumber q).bind (fun q => ?_) (fun v hv => ?_)
  · simp only [hexpected, sizeOfInt_natCast _ hsize, Int.toNat_natCast]
    refine (hack q).bind (fun q => ?_) (fun v hv => hv.elim)
    simp only [if_true]
    rw [← List.append_nil (payload.map Sum.inl)]
    refine (hbytes q).bind (m := 0) (fun q => ?_) (fun v hv => ?_)
    · have htake : (payload.map Prod.snd).take payload.length = payload.map Prod.snd :=
        List.take_of_length_le (by simp)
      simp only [htake, if_neg (Int.not_lt.mpr (Int.natCast_nonneg payload.length))]
      exact .done ..
    · rw [hv]
      exact loses_nack
  · rw [hv]
    exact loses_nack

theorem loses_noData : Loses NoData (Pure.pure (none, false)) := loses_pure rfl

/-- A write to a tablet that acknowledges the number of bytes and answers the data. -/
theorem internalWrite_follows (data : List UInt8) (first second : List (U × UInt8)) (q : Nat)
    (hfirst : first.map Prod.snd = ack) (hsecond : second.length = 3) :
    Follows NoData (data.length + 16) q (internalWrite data)
      ((bytesOfSize data.length).map .inr ++ (first.map .inl ++ (data.map .inr ++ second.map .inl)))
      (none, second.map Prod.snd == ack) := by
  have hthree : first.length = 3 := by
    have := congrArg List.length hfirst
    rwa [List.length_map] at this
  have hnumber := fun q => sendToSocket_follows (U := U) (fun _ => False) (bytesOfSize data.length) q
  have hdata := fun q => sendToSocket_follows (U := U) (fun _ => False) data q
  have hack := fun q => readAck_follows first q hthree
  rw [hfirst] at hack
  have hanswer := fun q => readAck_follows second q hsecond
  have hend : ∀ q, Follows NoData 6 q (readAck >>= fun success => Pure.pure (none, success))
      (second.map .inl) (none, second.map Prod.snd == ack) := by
    intro q
    have hbind := (hanswer q).bind (m := 0) (o := []) (L := NoData) (w := (none, second.map Prod.snd == ack))
      (f := fun success => Pure.pure (none, success)) (fun q => .done ..) (fun v _ => loses_pure rfl)
    rw [List.append_nil] at hbind
    exact hbind
  have hbudget : data.length + 16 = (bytesOfSize data.length).length + (6 + (data.length + 6)) := by
    show data.length + 16 = 4 + (6 + (data.length + 6))
    omega
  rw [hbudget]
  unfold internalWrite
  refine (hnumber q).bind (fun q => ?_) (fun v hv => hv.elim)
  simp only [if_true]
  refine (hack q).bind (fun q => ?_) (fun v hv => ?_)
  · have hyes : (ack == ack) = true := rfl
    simp only [hyes, if_true]
    refine (hdata q).bind (fun q => ?_) (fun v hv => hv.elim)
    simp only [if_true]
    exact hend q
  · rw [hv]
    exact loses_noData

/-- A write to a tablet that does not acknowledge the number of bytes. -/
theorem internalWrite_refused (data : List UInt8) (answer : List (U × UInt8)) (q : Nat)
    (hlength : answer.length = 3) (hanswer : answer.map Prod.snd ≠ ack) :
    Follows NoData 10 q (internalWrite data) ((bytesOfSize data.length).map .inr ++ answer.map .inl) (none, false) := by
  have hnumber := fun q => sendToSocket_follows (U := U) (fun _ => False) (bytesOfSize data.length) q
  have hack := fun q => readAck_follows answer q hlength
  have hno : (answer.map Prod.snd == ack) = false := beq_eq_false_iff_ne.mpr hanswer
  rw [hno] at hack
  show Follows NoData ((bytesOfSize data.length).length + (6 + 0)) q _ _ _
  unfold internalWrite
  refine (hnumber q).bind (fun q => ?_) (fun v hv => hv.elim)
  simp only [if_true]
  rw [← List.append_nil (answer.map Sum.inl)]
  refine (hack q).bind (fun q => ?_) (fun v hv => ?_)
  · simp only [Bool.false_eq_true, if_false]
    exact .done ..
  · rw [hv]
    exact loses_noData

end ScoutingComputer.Socket
