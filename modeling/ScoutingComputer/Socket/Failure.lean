import ScoutingComputer.Socket.Transfer

/-! How a read ends.

A read throws only where a receive reports an error code that the table of codes does
not have, and it uses no answer after that one. Every other failure is followed by an
attempt to send a NACK. So the last answer a read has used tells whether it threw
(`reportsUnknown_of_throws`, `not_reportsUnknown_of_done`). -/
namespace ScoutingComputer.Socket
open Program (bind_done bind_throws)

/-- The last answer is an error code of a receive, and the table does not have it. -/
def ReportsUnknown (answers : List Answer) : Prop :=
  ∃ code moved checked, answers.getLast? = some (.recv (.error code) moved checked) ∧
    ¬ WinsockErrorDesc.Known code

/-- The last answer is not an error code of a receive. -/
def Quiet (used : List Answer) : Prop :=
  ∀ code moved checked, used.getLast? ≠ some (.recv (.error code) moved checked)

theorem Quiet.append {a b : List Answer} (ha : Quiet a) (hb : Quiet b) : Quiet (a ++ b) := by
  intro code moved checked h
  rw [List.getLast?_append] at h
  cases hlast : b.getLast? with
  | none =>
    rw [hlast] at h
    exact ha code moved checked h
  | some answer =>
    rw [hlast] at h
    exact hb code moved checked (hlast.trans h)

theorem Quiet.append_right {a b : List Answer} (hb : Quiet b) (hne : b ≠ []) : Quiet (a ++ b) := by
  intro code moved checked h
  rw [List.getLast?_append_of_ne_nil _ hne] at h
  exact hb code moved checked h

theorem quiet_nil : Quiet [] := fun _ _ _ h => by cases h

theorem quiet_singleton {answer : Answer} (h : ∀ code moved checked, answer ≠ .recv (.error code) moved checked) :
    Quiet [answer] := by
  intro code moved checked hlast
  exact h code moved checked (Option.some.inj hlast)

theorem Quiet.cons {answer : Answer} {used : List Answer}
    (h : ∀ code moved checked, answer ≠ .recv (.error code) moved checked)
    (hused : Quiet used) : Quiet (answer :: used) :=
  (quiet_singleton h).append hused

/-! ### The calls -/

theorem malloc_done {size : Nat} {answers rest : List Answer} {granted : Bool}
    (h : malloc size answers = .done granted rest) :
    ∃ given, answers = .malloc given :: rest ∧ (granted = true → size < 2 ^ 63) := by
  unfold malloc at h
  split at h
  · rename_i given rest'
    cases h
    exact ⟨given, rfl, fun h => by simpa using (Bool.and_eq_true_iff.mp h).2⟩
  · cases h

theorem malloc_throws {size : Nat} {answers rest : List Answer} {e : Exception} :
    malloc size answers ≠ .throws e rest := by
  unfold malloc
  split <;> exact fun h => by cases h

theorem getTime_done {answers rest : List Answer} {now : Nat} (h : getTime answers = .done now rest) :
    answers = .getTime now :: rest := by
  unfold getTime at h
  split at h
  · cases h
    rfl
  · cases h

theorem getTime_throws {answers rest : List Answer} {e : Exception} : getTime answers ≠ .throws e rest := by
  unfold getTime
  split <;> exact fun h => by cases h

/-- A loop that sends uses up answers to its sends alone. -/
theorem sendToSocket_done {data : List UInt8} {answers rest : List Answer} {sent : Bool}
    (h : sendToSocket data answers = .done sent rest) : ∃ used, answers = used ++ rest ∧ Quiet used := by
  induction answers generalizing data with
  | nil =>
    unfold sendToSocket at h
    split at h
    · cases h
      exact ⟨[], rfl, quiet_nil⟩
    · cases h
  | cons answer answers ih =>
    unfold sendToSocket at h
    split at h
    · cases h
      exact ⟨[], rfl, quiet_nil⟩
    · split at h
      · obtain ⟨used, hused, hquiet⟩ := ih h
        exact ⟨_ :: used, by rw [hused]; rfl, hquiet.cons (by simp)⟩
      · split at h
        · obtain ⟨used, hused, hquiet⟩ := ih h
          exact ⟨_ :: used, by rw [hused]; rfl, hquiet.cons (by simp)⟩
        · cases h
          exact ⟨[_], rfl, quiet_singleton (by simp)⟩
      · cases h

theorem sendToSocket_throws {data : List UInt8} {answers rest : List Answer} {e : Exception} :
    sendToSocket data answers ≠ .throws e rest := by
  induction answers generalizing data with
  | nil =>
    unfold sendToSocket
    split <;> exact fun h => by cases h
  | cons answer answers ih =>
    unfold sendToSocket
    split
    · exact fun h => by cases h
    · split
      · exact ih
      · split
        · exact ih
        · exact fun h => by cases h
      · exact fun h => by cases h

/-- What the loop can do with one answer. -/
theorem receiveLoop_cases {sizeExpected : Nat} {dataRecvd : List UInt8} (timeoutTime : Nat) (answer : Answer)
    (answers : List Answer) (h : dataRecvd.length < sizeExpected) :
    (∃ call, receiveLoop sizeExpected dataRecvd timeoutTime (answer :: answers) = .asks call) ∨
    receiveLoop sizeExpected dataRecvd timeoutTime (answer :: answers) = .done none answers ∨
    (∃ code moved checked, answer = .recv (.error code) moved checked ∧ ¬ WinsockErrorDesc.Known code ∧
      receiveLoop sizeExpected dataRecvd timeoutTime (answer :: answers) = .throws .outOfRange answers) ∨
    (∃ data moved checked deadline, answer = .recv (.bytes data) moved checked ∧
      receiveLoop sizeExpected dataRecvd timeoutTime (answer :: answers) =
        receiveLoop sizeExpected (dataRecvd ++ data) deadline answers) ∨
    receiveLoop sizeExpected dataRecvd timeoutTime (answer :: answers) =
      receiveLoop sizeExpected dataRecvd timeoutTime answers := by
  cases answer with
  | malloc granted => exact .inl ⟨.recv _, by simp only [receiveLoop, if_pos h]; rfl⟩
  | getTime now => exact .inl ⟨.recv _, by simp only [receiveLoop, if_pos h]; rfl⟩
  | send result => exact .inl ⟨.recv _, by simp only [receiveLoop, if_pos h]; rfl⟩
  | recv result moved checked =>
    cases result with
    | bytes data =>
      simp only [receiveLoop, if_pos h]
      by_cases hlate : checked > if data ≠ [] then moved + timeout else timeoutTime
      · exact .inr (.inl (if_pos hlate))
      · rw [if_neg hlate]
        by_cases hclosed : data = []
        · exact .inr (.inl (if_pos hclosed))
        · rw [if_neg hclosed]
          exact .inr (.inr (.inr (.inl ⟨data, moved, checked, _, rfl, rfl⟩)))
    | error code =>
      simp only [receiveLoop, if_pos h]
      by_cases hlate : checked > timeoutTime
      · exact .inr (.inl (if_pos hlate))
      · rw [if_neg hlate]
        by_cases hpause : code = WSAEWOULDBLOCK ∨ code = WSAEINPROGRESS
        · rw [if_pos hpause]
          exact .inr (.inr (.inr (.inr rfl)))
        · rw [if_neg hpause]
          cases hknown : WinsockErrorDesc.get code with
          | none => exact .inr (.inr (.inl ⟨code, moved, checked, rfl, by simp [WinsockErrorDesc.Known, hknown], rfl⟩))
          | some name => exact .inr (.inl rfl)

/-- A receive loop that returns bytes ends with bytes, if it uses any answer. -/
theorem receiveLoop_done {sizeExpected : Nat} {dataRecvd : List UInt8} {timeoutTime : Nat}
    {answers rest : List Answer} {result : Option (List UInt8)}
    (h : receiveLoop sizeExpected dataRecvd timeoutTime answers = .done result rest) :
    ∃ used, answers = used ++ rest ∧
      (result.isSome → Quiet used ∧ (dataRecvd.length < sizeExpected → used ≠ [])) := by
  induction answers generalizing dataRecvd timeoutTime with
  | nil =>
    rw [receiveLoop] at h
    split at h
    · cases h
    · rename_i hfull
      cases h
      exact ⟨[], rfl, fun _ => ⟨quiet_nil, fun hlt => absurd hlt hfull⟩⟩
  | cons answer answers ih =>
    by_cases hfull : dataRecvd.length < sizeExpected
    · rcases receiveLoop_cases timeoutTime answer answers hfull with
        ⟨call, hcall⟩ | hnone | ⟨_, _, _, _, _, hthrow⟩ | ⟨data, moved, checked, deadline, rfl, hmore⟩ | hpause
      · rw [hcall] at h
        cases h
      · rw [hnone] at h
        cases h
        exact ⟨[answer], rfl, fun hsome => by cases hsome⟩
      · rw [hthrow] at h
        cases h
      · rw [hmore] at h
        obtain ⟨used, hused, hquiet⟩ := ih h
        exact ⟨_ :: used, by rw [hused]; rfl, fun hsome => ⟨(hquiet hsome).1.cons (by simp), fun _ => by simp⟩⟩
      · rw [hpause] at h
        obtain ⟨used, hused, hquiet⟩ := ih h
        refine ⟨answer :: used, by rw [hused]; rfl, fun hsome => ?_⟩
        obtain ⟨hq, hne⟩ := hquiet hsome
        have hlast : Quiet ([answer] ++ used) := hq.append_right (hne hfull)
        exact ⟨hlast, fun _ => by simp⟩
    · rw [receiveLoop_full (by omega)] at h
      cases h
      exact ⟨[], rfl, fun _ => ⟨quiet_nil, fun hlt => absurd hlt hfull⟩⟩

/-- A receive loop throws at an unknown code, which is the last answer it uses. -/
theorem receiveLoop_throws {sizeExpected : Nat} {dataRecvd : List UInt8} {timeoutTime : Nat}
    {answers rest : List Answer} {e : Exception}
    (h : receiveLoop sizeExpected dataRecvd timeoutTime answers = .throws e rest) :
    ∃ used code moved checked, answers = used ++ .recv (.error code) moved checked :: rest ∧
      ¬ WinsockErrorDesc.Known code := by
  induction answers generalizing dataRecvd timeoutTime with
  | nil =>
    rw [receiveLoop] at h
    split at h <;> cases h
  | cons answer answers ih =>
    by_cases hfull : dataRecvd.length < sizeExpected
    · rcases receiveLoop_cases timeoutTime answer answers hfull with
        ⟨call, hcall⟩ | hnone | ⟨code, moved, checked, rfl, hunknown, hthrow⟩ |
        ⟨data, moved, checked, deadline, rfl, hmore⟩ | hpause
      · rw [hcall] at h
        cases h
      · rw [hnone] at h
        cases h
      · rw [hthrow] at h
        cases h
        exact ⟨[], code, moved, checked, rfl, hunknown⟩
      · rw [hmore] at h
        obtain ⟨used, code, moved, checked, hused, hunknown⟩ := ih h
        exact ⟨_ :: used, code, moved, checked, by rw [hused]; rfl, hunknown⟩
      · rw [hpause] at h
        obtain ⟨used, code, moved, checked, hused, hunknown⟩ := ih h
        exact ⟨answer :: used, code, moved, checked, by rw [hused]; rfl, hunknown⟩
    · rw [receiveLoop_full (by omega)] at h
      cases h

/-! ### The parts of a transfer -/

/-- Bytes are read only into memory that was granted. -/
theorem readAllSocketData_done {sizeExpected : Nat} {answers rest : List Answer} {result : Option (List UInt8)}
    (h : readAllSocketData sizeExpected answers = .done result rest) :
    ∃ used, answers = used ++ rest ∧ (result.isSome → Quiet used ∧ sizeExpected < 2 ^ 63) := by
  obtain ⟨now, middle, htime, hmiddle⟩ := bind_done h
  cases getTime_done htime
  split at hmiddle
  · rename_i hnone
    cases hmiddle
    exact ⟨[_], rfl, fun _ => ⟨quiet_singleton (by simp), by omega⟩⟩
  · obtain ⟨granted, middle', hmalloc, h⟩ := bind_done hmiddle
    obtain ⟨given, rfl, hsize⟩ := malloc_done hmalloc
    cases granted with
    | false =>
      cases h
      exact ⟨[_, _], rfl, fun hsome => by cases hsome⟩
    | true =>
      rw [if_pos rfl] at h
      obtain ⟨used, rfl, hquiet⟩ := receiveLoop_done h
      refine ⟨.getTime now :: .malloc given :: used, rfl, fun hsome => ⟨?_, hsize rfl⟩⟩
      exact ((hquiet hsome).1.cons (by simp)).cons (by simp)

theorem readAllSocketData_throws {sizeExpected : Nat} {answers rest : List Answer} {e : Exception}
    (h : readAllSocketData sizeExpected answers = .throws e rest) :
    ∃ used code moved checked, answers = used ++ .recv (.error code) moved checked :: rest ∧
      ¬ WinsockErrorDesc.Known code := by
  rcases bind_throws h with h | ⟨now, middle, htime, hmiddle⟩
  · exact absurd h getTime_throws
  · cases getTime_done htime
    split at hmiddle
    · cases hmiddle
    · rcases bind_throws hmiddle with h | ⟨granted, middle', hmalloc, h⟩
      · exact absurd h malloc_throws
      · obtain ⟨given, rfl, _⟩ := malloc_done hmalloc
        cases granted with
        | false => cases h
        | true =>
          rw [if_pos rfl] at h
          obtain ⟨used, code, moved, checked, rfl, hunknown⟩ := receiveLoop_throws h
          exact ⟨_ :: _ :: used, code, moved, checked, rfl, hunknown⟩

theorem sendWord_done {data : List UInt8} {answers rest : List Answer} {sent : Bool}
    (h : sendWord data answers = .done sent rest) : ∃ used, answers = used ++ rest ∧ used ≠ [] ∧ Quiet used := by
  obtain ⟨granted, middle, hmalloc, h⟩ := bind_done h
  obtain ⟨given, rfl, _⟩ := malloc_done hmalloc
  cases granted with
  | false =>
    cases h
    exact ⟨[_], rfl, by simp, quiet_singleton (by simp)⟩
  | true =>
    rw [if_pos rfl] at h
    obtain ⟨used, rfl, hquiet⟩ := sendToSocket_done h
    exact ⟨_ :: used, rfl, by simp, hquiet.cons (by simp)⟩

theorem sendWord_throws {data : List UInt8} {answers rest : List Answer} {e : Exception} :
    sendWord data answers ≠ .throws e rest := by
  intro h
  rcases bind_throws h with h | ⟨granted, middle, _, h⟩
  · exact malloc_throws h
  · cases granted with
    | false => cases h
    | true =>
      rw [if_pos rfl] at h
      exact sendToSocket_throws h

/-! ### A whole read -/

theorem negative_size {n : Int} (hlow : -2 ^ 31 ≤ n) (h : n < 0) : ¬ sizeOfInt n < 2 ^ 63 := by
  unfold sizeOfInt
  omega

theorem intOfBytes_ge (bytes : List UInt8) : -2 ^ 31 ≤ intOfBytes bytes := by
  unfold intOfBytes
  have := @Int.le_bmod (littleEndian (bytes.take 4)) (2 ^ 32) (by decide)
  omega

/-- A read that returns has not ended at an error code. -/
theorem internalRead_done {answers rest : List Answer} {result : Option (List UInt8) × Bool}
    (h : internalRead answers = .done result rest) : ∃ used, answers = used ++ rest ∧ Quiet used := by
  obtain ⟨acked, rest₁, hack, h₁⟩ := bind_done h
  obtain ⟨used₁, rfl, _, hquiet₁⟩ := sendWord_done hack
  split at h₁
  · obtain ⟨size, rest₂, hsize, h₂⟩ := bind_done h₁
    obtain ⟨used₂, rfl, _⟩ := readAllSocketData_done hsize
    split at h₂
    · obtain ⟨_, rest₃, hnack, h₃⟩ := bind_done h₂
      obtain ⟨used₃, rfl, hne, hquiet₃⟩ := sendWord_done hnack
      cases h₃
      have hend : Quiet (used₁ ++ (used₂ ++ used₃)) := (hquiet₃.append_right hne).append_right (by simp [hne])
      exact ⟨_, by simp, hend⟩
    · obtain ⟨acked, rest₃, hack', h₃⟩ := bind_done h₂
      obtain ⟨used₃, rfl, hne₃, hquiet₃⟩ := sendWord_done hack'
      have hmiddle : Quiet (used₁ ++ (used₂ ++ used₃)) := (hquiet₃.append_right hne₃).append_right (by simp [hne₃])
      split at h₃
      · obtain ⟨message, rest₄, hmessage, h₄⟩ := bind_done h₃
        obtain ⟨used₄, rfl, hquiet₄⟩ := readAllSocketData_done hmessage
        split at h₄
        · obtain ⟨_, rest₅, hnack, h₅⟩ := bind_done h₄
          obtain ⟨used₅, rfl, hne, hquiet₅⟩ := sendWord_done hnack
          cases h₅
          have hend : Quiet (used₁ ++ (used₂ ++ (used₃ ++ (used₄ ++ used₅)))) :=
            (((hquiet₅.append_right hne).append_right (by simp [hne])).append_right (by simp [hne])).append_right
              (by simp [hne])
          exact ⟨_, by simp, hend⟩
        · split at h₄
          · cases h₄
          · cases h₄
            exact ⟨_, by simp, hmiddle.append (hquiet₄ rfl).1⟩
      · cases h₃
        exact ⟨_, by simp, hmiddle⟩
  · cases h₁
    exact ⟨used₁, rfl, hquiet₁⟩

/-- A read that throws has ended at an unknown error code. -/
theorem internalRead_throws {answers rest : List Answer} {e : Exception}
    (h : internalRead answers = .throws e rest) :
    ∃ used code moved checked, answers = used ++ .recv (.error code) moved checked :: rest ∧
      ¬ WinsockErrorDesc.Known code := by
  rcases bind_throws h with h₁ | ⟨acked, rest₁, hack, h₁⟩
  · exact absurd h₁ sendWord_throws
  obtain ⟨used₁, rfl, _, _⟩ := sendWord_done hack
  split at h₁
  · rcases bind_throws h₁ with h₂ | ⟨size, rest₂, hsize, h₂⟩
    · obtain ⟨used, code, moved, checked, rfl, hunknown⟩ := readAllSocketData_throws h₂
      exact ⟨used₁ ++ used, code, moved, checked, by simp, hunknown⟩
    obtain ⟨used₂, rfl, _⟩ := readAllSocketData_done hsize
    cases size with
    | none =>
      rcases bind_throws h₂ with h₃ | ⟨_, _, _, h₃⟩
      · exact absurd h₃ sendWord_throws
      · cases h₃
    | some sizeData =>
      rcases bind_throws h₂ with h₃ | ⟨acked, rest₃, hack', h₃⟩
      · exact absurd h₃ sendWord_throws
      obtain ⟨used₃, rfl, _, _⟩ := sendWord_done hack'
      split at h₃
      · rcases bind_throws h₃ with h₄ | ⟨message, rest₄, hmessage, h₄⟩
        · obtain ⟨used, code, moved, checked, rfl, hunknown⟩ := readAllSocketData_throws h₄
          exact ⟨used₁ ++ (used₂ ++ (used₃ ++ used)), code, moved, checked, by simp, hunknown⟩
        obtain ⟨used₄, rfl, hgranted⟩ := readAllSocketData_done hmessage
        cases message with
        | none =>
          rcases bind_throws h₄ with h₅ | ⟨_, _, _, h₅⟩
          · exact absurd h₅ sendWord_throws
          · cases h₅
        | some messageData =>
          have hsize : sizeOfInt (intOfBytes sizeData) < 2 ^ 63 := (hgranted rfl).2
          by_cases hnegative : intOfBytes sizeData < 0
          -- no memory is granted for a negative size
          · exact absurd hsize (negative_size (intOfBytes_ge sizeData) hnegative)
          · simp only [if_neg hnegative] at h₄
            cases h₄
      · cases h₃
  · cases h₁

theorem reportsUnknown_of_throws {answers : List Answer} {e : Exception} (h : internalRead answers = .throws e []) :
    ReportsUnknown answers := by
  obtain ⟨used, code, moved, checked, rfl, hunknown⟩ := internalRead_throws h
  exact ⟨code, moved, checked, by simp, hunknown⟩

theorem not_reportsUnknown_of_done {answers : List Answer} {result : Option (List UInt8) × Bool}
    (h : internalRead answers = .done result []) : ¬ ReportsUnknown answers := by
  obtain ⟨used, rfl, hquiet⟩ := internalRead_done h
  rintro ⟨code, moved, checked, hlast, _⟩
  rw [List.append_nil] at hlast
  exact hquiet code moved checked hlast

end ScoutingComputer.Socket
