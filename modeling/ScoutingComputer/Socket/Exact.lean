import ScoutingComputer.Socket.Failure
import ScoutingComputer.Socket.Schedule

/-! When a read returns, and what.

A read returns a vector exactly on the answers of `Delivers`: both acknowledgements go
out, the number comes in and is not negative, and as many bytes as it says come in, in
time. It then has taken the number and these bytes off the stream and has put two
acknowledgements on it. Every other end of a read is an empty optional without success, or
the exception of an error code that the table does not have. -/
namespace ScoutingComputer.Socket
open Program

/-! ### The parts of a read -/

/-- An acknowledgement goes out. -/
def Acks (answers : List Answer) : Prop := ∃ sends, answers = .malloc true :: sends ∧ Sends ack sends

/-- `n` bytes come in; for none of them nothing is asked but the time. -/
def Reads (n : Nat) (answers : List Answer) (bytes : List UInt8) : Prop :=
  (n = 0 ∧ bytes = [] ∧ ∃ now, answers = [.getTime now]) ∨
    (0 < n ∧ ∃ now receives, answers = .getTime now :: .malloc true :: receives ∧
      Arrives n (now + timeout) receives bytes)

theorem Reads.length {n : Nat} {answers : List Answer} {bytes : List UInt8} (h : Reads n answers bytes) :
    bytes.length = n := by
  obtain ⟨rfl, rfl, -⟩ | ⟨-, now, receives, -, harrives⟩ := h
  · rfl
  · exact harrives.length

theorem malloc_exchanges {size : Nat} (h : size < 2 ^ 63) : Exchanges (malloc size) [.malloc true] true [] [] := by
  refine ⟨.of_call rfl ?_, rfl, rfl⟩
  rw [malloc_after, decide_eq_true h]
  rfl

theorem getTime_exchanges (now : Nat) : Exchanges getTime [.getTime now] now [] [] :=
  ⟨.of_call rfl rfl, rfl, rfl⟩

theorem malloc_granted {size : Nat} {answers rest : List Answer} (h : malloc size answers = .done true rest) :
    answers = .malloc true :: rest ∧ size < 2 ^ 63 := by
  unfold malloc at h
  split at h
  · rename_i granted rest'
    obtain ⟨hgranted, rfl⟩ := Progress.done.inj h
    obtain ⟨rfl, hsize⟩ := Bool.and_eq_true_iff.mp hgranted
    exact ⟨rfl, of_decide_eq_true hsize⟩
  · cases h

theorem sendAck_eq :
    sendAck = (malloc 3 >>= fun granted => if granted then sendToSocket ack else Pure.pure false) := rfl

theorem readAllSocketData_eq (n : Nat) :
    readAllSocketData n = (getTime >>= fun now =>
      if n < 1 then Pure.pure (some [])
      else malloc n >>= fun granted =>
        if granted then receiveLoop n [] (now + timeout) else Pure.pure none) := rfl

theorem Acks.exchanges {answers : List Answer} (h : Acks answers) : Exchanges sendAck answers true [] ack := by
  obtain ⟨sends, rfl, hsends⟩ := h
  exact (malloc_exchanges (by decide)).bind hsends.exchanges

theorem sendAck_acks {answers rest : List Answer} (h : sendAck answers = .done true rest)
    (hfits : Answered sendAck answers) : ∃ used, answers = used ++ rest ∧ Acks used := by
  obtain ⟨granted, middle, hmalloc, hsend⟩ := bind_done h
  cases granted with
  | false => cases hsend
  | true =>
    obtain ⟨rfl, -⟩ := malloc_granted hmalloc
    rw [sendAck_eq, ← List.singleton_append] at hfits
    have hsends := hfits.right (malloc_exchanges (by decide)).returns
    rw [if_pos rfl] at hsends hsend
    obtain ⟨sends, rfl, hused⟩ := sendToSocket_sends hsend hsends
    exact ⟨_, rfl, sends, rfl, hused⟩

theorem Reads.exchanges {n : Nat} {answers : List Answer} {bytes : List UInt8} (h : Reads n answers bytes)
    (hn : n < 2 ^ 31) : Exchanges (readAllSocketData n) answers (some bytes) bytes [] := by
  obtain ⟨rfl, rfl, now, rfl⟩ | ⟨hpos, now, receives, rfl, harrives⟩ := h
  · exact (getTime_exchanges now).bind (.pure _)
  · have hloop := harrives.exchanges []
    rw [List.length_nil, Nat.zero_add, List.nil_append] at hloop
    rw [readAllSocketData_eq]
    refine (getTime_exchanges now).bind ?_
    rw [if_neg (by omega)]
    exact (malloc_exchanges (by omega)).bind hloop

theorem readAllSocketData_reads {n : Nat} {answers rest : List Answer} {message : List UInt8} (hn : n < 2 ^ 31)
    (h : readAllSocketData n answers = .done (some message) rest) (hfits : Answered (readAllSocketData n) answers) :
    ∃ used, answers = used ++ rest ∧ Reads n used message := by
  obtain ⟨now, middle, htime, hmiddle⟩ := bind_done h
  obtain rfl := getTime_done htime
  rw [readAllSocketData_eq, ← List.singleton_append] at hfits
  have hfits := hfits.right (getTime_exchanges now).returns
  by_cases hnone : n < 1
  · rw [if_pos hnone] at hmiddle
    cases hmiddle
    exact ⟨[_], rfl, .inl ⟨by omega, rfl, now, rfl⟩⟩
  · rw [if_neg hnone] at hmiddle hfits
    obtain ⟨granted, middle', hmalloc, hloop⟩ := bind_done hmiddle
    cases granted with
    | false => cases hloop
    | true =>
      obtain ⟨rfl, hsize⟩ := malloc_granted hmalloc
      rw [← List.singleton_append] at hfits
      have hfits := hfits.right (malloc_exchanges hsize).returns
      rw [if_pos rfl] at hloop hfits
      have hzero : n = ([] : List UInt8).length + n := (Nat.zero_add n).symm
      rw [hzero] at hloop hfits
      obtain ⟨receives, bytes, rfl, rfl, harrives⟩ := receiveLoop_arrives hn hloop hfits
      exact ⟨_, rfl, .inr ⟨by omega, now, receives, rfl, harrives⟩⟩

/-! ### A whole read -/

/-- The four parts of a read that delivers `message`, and what is left of the answers. -/
def Delivers (answers : List Answer) (message : List UInt8) (rest : List Answer) : Prop :=
  ∃ first number second content bytes,
    answers = first ++ (number ++ (second ++ (content ++ rest))) ∧
      Acks first ∧ Reads 4 number bytes ∧ Acks second ∧
      0 ≤ intOfBytes bytes ∧ Reads (intOfBytes bytes).toNat content message

theorem intOfBytes_lt (bytes : List UInt8) : intOfBytes bytes < 2 ^ 31 := by
  unfold intOfBytes
  have := @Int.bmod_lt (littleEndian (bytes.take 4)) (2 ^ 32) (by decide)
  omega

theorem sizeOfInt_toNat {bytes : List UInt8} (h : 0 ≤ intOfBytes bytes) :
    sizeOfInt (intOfBytes bytes) = (intOfBytes bytes).toNat := by
  have hlt := intOfBytes_lt bytes
  obtain ⟨n, hn⟩ := Int.eq_ofNat_of_zero_le h
  rw [hn] at hlt ⊢
  exact sizeOfInt_natCast n (by omega)

/-- What follows the second acknowledgement. -/
def readContent (sizeData : List UInt8) : OsProgram (Option (List UInt8) × Bool) :=
  readAllSocketData (sizeOfInt (intOfBytes sizeData)) >>= fun message =>
    match message with
    | none => sendNack >>= fun _ => Pure.pure (none, false)
    | some messageData =>
      if intOfBytes sizeData < 0 then throwing .lengthError
      else Pure.pure (some (messageData.take (intOfBytes sizeData).toNat), true)

/-- What follows the first acknowledgement. -/
def readNumber : OsProgram (Option (List UInt8) × Bool) :=
  readAllSocketData 4 >>= fun numOfByteData =>
    match numOfByteData with
    | none => sendNack >>= fun _ => Pure.pure (none, false)
    | some sizeData => sendAck >>= fun acked => if acked then readContent sizeData else Pure.pure (none, false)

theorem internalRead_eq :
    internalRead = (sendAck >>= fun acked => if acked then readNumber else Pure.pure (none, false)) := rfl

/-- A read that delivers: its number and its bytes come in, two acknowledgements go out. -/
theorem Delivers.exchanges {answers rest : List Answer} {message : List UInt8} (h : Delivers answers message rest) :
    ∃ used bytes, answers = used ++ rest ∧ bytes.length = 4 ∧ intOfBytes bytes = message.length ∧
      Exchanges internalRead used (some message, true) (bytes ++ message) (ack ++ ack) := by
  obtain ⟨first, number, second, content, bytes, rfl, hfirst, hnumber, hsecond, hsign, hcontent⟩ := h
  have hlt := intOfBytes_lt bytes
  have hlength := hcontent.length
  refine ⟨first ++ (number ++ (second ++ content)), bytes, by simp, hnumber.length, by omega, ?_⟩
  have hread := hcontent.exchanges (by omega)
  rw [← sizeOfInt_toNat hsign] at hread
  have hend : Exchanges (if intOfBytes bytes < 0 then throwing .lengthError
      else Pure.pure (some (message.take (intOfBytes bytes).toNat), true)) [] (some message, true) [] [] := by
    rw [if_neg (by omega), ← hlength, List.take_length]
    exact .pure _
  have hcontent : Exchanges (readContent bytes) (content ++ []) (some message, true) (message ++ []) ([] ++ []) :=
    hread.bind hend
  have hsecond : Exchanges (sendAck >>= fun acked => if acked then readContent bytes else Pure.pure (none, false))
      (second ++ (content ++ [])) (some message, true) ([] ++ (message ++ [])) (ack ++ ([] ++ [])) :=
    hsecond.exchanges.bind hcontent
  have hnumber : Exchanges readNumber (number ++ (second ++ (content ++ []))) (some message, true)
      (bytes ++ ([] ++ (message ++ []))) ([] ++ (ack ++ ([] ++ []))) :=
    (hnumber.exchanges (by decide)).bind hsecond
  have hread := hfirst.exchanges.bind (f := fun acked => if acked then readNumber else Pure.pure (none, false)) hnumber
  rw [← internalRead_eq] at hread
  simpa only [List.append_nil, List.nil_append] using hread

/-- A read returns a vector only when it delivers it. -/
theorem internalRead_delivers {answers rest : List Answer} {message : List UInt8} {success : Bool}
    (h : internalRead answers = .done (some message, success) rest) (hfits : Answered internalRead answers) :
    success = true ∧ Delivers answers message rest := by
  rw [internalRead_eq] at h hfits
  obtain ⟨acked, rest₁, hack, h₁⟩ := bind_done h
  cases acked with
  | false => cases h₁
  | true =>
  obtain ⟨first, rfl, hfirst⟩ := sendAck_acks hack hfits.left
  have hfits₁ := hfits.right hfirst.exchanges.returns
  rw [if_pos rfl] at h₁ hfits₁
  obtain ⟨size, rest₂, hsize, h₂⟩ := bind_done h₁
  cases size with
  | none =>
    obtain ⟨_, _, _, h₃⟩ := bind_done h₂
    cases h₃
  | some bytes =>
  obtain ⟨number, rfl, hnumber⟩ := readAllSocketData_reads (by decide) hsize hfits₁.left
  have hfits₂ := hfits₁.right (hnumber.exchanges (by decide)).returns
  obtain ⟨acked, rest₃, hack', h₃⟩ := bind_done h₂
  cases acked with
  | false => cases h₃
  | true =>
  obtain ⟨second, rfl, hsecond⟩ := sendAck_acks hack' hfits₂.left
  have hfits₃ := hfits₂.right hsecond.exchanges.returns
  rw [if_pos rfl] at h₃ hfits₃
  obtain ⟨content, rest₄, hcontent, h₄⟩ := bind_done h₃
  cases content with
  | none =>
    obtain ⟨_, _, _, h₅⟩ := bind_done h₄
    cases h₅
  | some messageData =>
  have hgranted : sizeOfInt (intOfBytes bytes) < 2 ^ 63 := by
    obtain ⟨_, _, hgranted⟩ := readAllSocketData_done hcontent
    exact (hgranted rfl).2
  have hsign : 0 ≤ intOfBytes bytes := by
    by_contra hnegative
    exact negative_size (intOfBytes_ge bytes) (by omega) hgranted
  have hlt := intOfBytes_lt bytes
  have hfits₄ := hfits₃.left
  rw [sizeOfInt_toNat hsign] at hcontent hfits₄
  obtain ⟨used, rfl, hread⟩ := readAllSocketData_reads (by omega) hcontent hfits₄
  have hlength := hread.length
  simp only [if_neg (Int.not_lt.mpr hsign), ← hlength, List.take_length] at h₄
  cases h₄
  exact ⟨rfl, first, number, second, used, bytes, rfl, hfirst, hnumber, hsecond, hsign, hread⟩

/-! ### Every read ends -/

/-- Time passes, and no send is put off for ever. -/
structure Lasting (env : Environment Call Answer) : Prop where
  fits : ∀ k call, Fits call (env k call)
  passes : ∀ t, ∃ k₀, ∀ k ≥ k₀, ∀ len result moved checked, env k (.recv len) = .recv result moved checked → t < checked
  sends : ∀ k₀, ∃ k ≥ k₀, ∀ data ≠ [], env k (.send data) ≠ .send (.error WSAEWOULDBLOCK) ∧
    env k (.send data) ≠ .send (.count 0)

section
variable {env : Environment Call Answer}

theorem malloc_ends (h : Lasting env) (size k : Nat) : Ends env (malloc size) k := by
  have hcall : (malloc size).call = some (.malloc size) := rfl
  refine .step hcall ?_
  have hfit := h.fits k (.malloc size)
  cases hanswer : env k (.malloc size) with
  | malloc granted =>
    rw [malloc_after]
    exact .pure _ _
  | getTime | recv | send => exact (hanswer ▸ hfit).elim

theorem getTime_ends (h : Lasting env) (k : Nat) : Ends env getTime k := by
  have hcall : getTime.call = some .getTime := rfl
  refine .step hcall ?_
  have hfit := h.fits k .getTime
  cases hanswer : env k .getTime with
  | getTime now => exact .pure _ _
  | malloc | recv | send => exact (hanswer ▸ hfit).elim

/-- A send moves bytes, fails, or is put off. -/
theorem sendToSocket_after {data : List UInt8} {answer : Answer} (hdata : data ≠ [])
    (hfit : Fits (.send data) answer) :
    (∃ n, 0 < n ∧ (sendToSocket data).after answer = sendToSocket (data.drop n)) ∨
    (sendToSocket data).after answer = Pure.pure false ∨
    ((answer = .send (.error WSAEWOULDBLOCK) ∨ answer = .send (.count 0)) ∧
      (sendToSocket data).after answer = sendToSocket data) := by
  cases answer with
  | malloc | getTime | recv => exact hfit.elim
  | send result =>
    cases result with
    | count n =>
      rw [sendToSocket_count hdata]
      by_cases hn : n = 0
      · subst hn
        exact .inr (.inr ⟨.inr rfl, rfl⟩)
      · exact .inl ⟨n, Nat.pos_of_ne_zero hn, rfl⟩
    | error code =>
      by_cases hcode : code = WSAEWOULDBLOCK
      · subst hcode
        exact .inr (.inr ⟨.inl rfl, sendToSocket_pause hdata⟩)
      · refine .inr (.inl ?_)
        funext rest
        simp [Program.after, sendToSocket, hdata, hcode, pure_def]

theorem sendToSocket_ends (h : Lasting env) (data : List UInt8) (k : Nat) : Ends env (sendToSocket data) k := by
  generalize hlength : data.length = length
  induction length using Nat.strong_induction_on generalizing data k with
  | _ length ih =>
    by_cases hdata : data = []
    · rw [hdata, sendToSocket_nil]
      exact .pure _ _
    have hpos : 0 < data.length := List.length_pos_iff.mpr hdata
    have hless : ∀ n k, 0 < n → Ends env (sendToSocket (data.drop n)) k := fun n k hn =>
      ih (data.drop n).length (by rw [List.length_drop]; omega) (data.drop n) k rfl
    obtain ⟨last, hlast, hmoves⟩ := h.sends k
    refine Ends.retries (sendToSocket_call hdata) hlast fun k' _ => ?_
    obtain ⟨n, hn, hafter⟩ | hafter | ⟨hoff, hafter⟩ := sendToSocket_after hdata (h.fits k' (.send data))
    · rw [hafter]
      exact .inl (hless n _ hn)
    · rw [hafter]
      exact .inl (.pure _ _)
    · refine .inr ⟨?_, hafter⟩
      rintro rfl
      obtain ⟨hblock, hzero⟩ := hmoves data hdata
      exact hoff.elim hblock hzero

/-- A receive moves bytes, ends the loop, or is repeated before the deadline. -/
theorem receiveLoop_after {sizeExpected : Nat} {dataRecvd : List UInt8} {answer : Answer} {len : Int} (deadline : Nat)
    (hlt : dataRecvd.length < sizeExpected) (hfit : Fits (.recv len) answer) :
    ∃ result moved checked, answer = .recv result moved checked ∧
      let next := (receiveLoop sizeExpected dataRecvd deadline).after answer
      (∃ data ≠ [], next = receiveLoop sizeExpected (dataRecvd ++ data) (moved + timeout)) ∨
      next = Pure.pure none ∨ next = throwing .outOfRange ∨
      (checked ≤ deadline ∧ next = receiveLoop sizeExpected dataRecvd deadline) := by
  cases answer with
  | malloc | getTime | send => exact hfit.elim
  | recv result moved checked =>
    refine ⟨result, moved, checked, rfl, ?_⟩
    cases result with
    | bytes data =>
      by_cases hdata : data = []
      · refine .inr (.inl ?_)
        funext rest
        simp [Program.after, receiveLoop, hlt, hdata, pure_def]
      · by_cases hlate : moved + timeout < checked
        · refine .inr (.inl ?_)
          funext rest
          simp [Program.after, receiveLoop, hlt, hdata, hlate, pure_def]
        · exact .inl ⟨data, hdata, receiveLoop_bytes hlt hdata (Nat.not_lt.mp hlate)⟩
    | error code =>
      by_cases hlate : deadline < checked
      · exact .inr (.inl (receiveLoop_late hlt hlate))
      by_cases hpause : code = WSAEWOULDBLOCK ∨ code = WSAEINPROGRESS
      · exact .inr (.inr (.inr ⟨Nat.not_lt.mp hlate, receiveLoop_pause hlt (Nat.not_lt.mp hlate) hpause⟩))
      · cases hknown : WinsockErrorDesc.get code with
        | none =>
          refine .inr (.inr (.inl ?_))
          funext rest
          simp [Program.after, receiveLoop, hlt, hlate, hpause, hknown, throwing]
        | some name =>
          refine .inr (.inl ?_)
          funext rest
          simp [Program.after, receiveLoop, hlt, hlate, hpause, hknown, pure_def]

theorem receiveLoop_ends (h : Lasting env) (sizeExpected : Nat) (dataRecvd : List UInt8) (deadline k : Nat) :
    Ends env (receiveLoop sizeExpected dataRecvd deadline) k := by
  generalize hmissing : sizeExpected - dataRecvd.length = missing
  induction missing using Nat.strong_induction_on generalizing dataRecvd deadline k with
  | _ missing ih =>
    by_cases hfull : sizeExpected ≤ dataRecvd.length
    · rw [receiveLoop_full hfull]
      exact .pure _ _
    have hlt := Nat.not_le.mp hfull
    have hmore : ∀ data deadline k, data ≠ [] → Ends env (receiveLoop sizeExpected (dataRecvd ++ data) deadline) k := by
      intro data deadline k hdata
      have hpos : 0 < data.length := List.length_pos_iff.mpr hdata
      exact ih (sizeExpected - (dataRecvd ++ data).length) (by rw [List.length_append]; omega) _ deadline k rfl
    obtain ⟨late, hlate⟩ := h.passes deadline
    refine Ends.retries (receiveLoop_call hlt deadline) (Nat.le_max_left k late) fun k' _ => ?_
    obtain ⟨result, moved, checked, hanswer, ⟨data, hdata, hnext⟩ | hnext | hnext | ⟨hintime, hnext⟩⟩ :=
      receiveLoop_after deadline hlt (h.fits k' (.recv (intOfSize (sizeExpected - dataRecvd.length))))
    · rw [hnext]
      exact .inl (hmore data _ _ hdata)
    · rw [hnext]
      exact .inl (.pure _ _)
    · rw [hnext]
      exact .inl (.throwing _ _)
    · refine .inr ⟨?_, hnext⟩
      rintro rfl
      have := hlate _ (Nat.le_max_right k late) _ result moved checked hanswer
      omega

theorem readAllSocketData_ends (h : Lasting env) (n k : Nat) : Ends env (readAllSocketData n) k := by
  rw [readAllSocketData_eq]
  refine (getTime_ends h k).bind fun now k => ?_
  split
  · exact .pure _ _
  · refine (malloc_ends h n k).bind fun granted k => ?_
    split
    · exact receiveLoop_ends h n [] _ k
    · exact .pure _ _

theorem sendWord_ends (h : Lasting env) (dataToSend : List UInt8) (k : Nat) : Ends env (sendWord dataToSend) k := by
  refine (malloc_ends h 3 k).bind (f := fun granted => if granted then sendToSocket dataToSend else Pure.pure false)
    fun granted k => ?_
  split
  · exact sendToSocket_ends h dataToSend k
  · exact .pure _ _

theorem readContent_ends (h : Lasting env) (bytes : List UInt8) (k : Nat) : Ends env (readContent bytes) k := by
  refine (readAllSocketData_ends h _ k).bind fun message k => ?_
  split
  · exact (sendWord_ends h nack k).bind fun _ k => .pure _ _
  · split
    · exact .throwing _ _
    · exact .pure _ _

theorem readNumber_ends (h : Lasting env) (k : Nat) : Ends env readNumber k := by
  refine (readAllSocketData_ends h 4 k).bind fun size k => ?_
  split
  · exact (sendWord_ends h nack k).bind fun _ k => .pure _ _
  · refine (sendWord_ends h ack k).bind fun acked k => ?_
    split
    · exact readContent_ends h _ k
    · exact .pure _ _

theorem internalRead_ends (h : Lasting env) (k : Nat) : Ends env internalRead k := by
  rw [internalRead_eq]
  refine (sendWord_ends h ack k).bind fun acked k => ?_
  split
  · exact readNumber_ends h k
  · exact .pure _ _

end

/-! ### The result -/

/-- A read without a vector is one without success. -/
theorem internalRead_none {answers rest : List Answer} {success : Bool}
    (h : internalRead answers = .done (none, success) rest) : success = false := by
  rw [internalRead_eq] at h
  obtain ⟨acked, rest₁, -, h₁⟩ := bind_done h
  cases acked with
  | false =>
    cases h₁
    rfl
  | true =>
  obtain ⟨size, rest₂, -, h₂⟩ := bind_done h₁
  cases size with
  | none =>
    obtain ⟨_, _, -, h₃⟩ := bind_done h₂
    cases h₃
    rfl
  | some bytes =>
  obtain ⟨acked, rest₃, -, h₃⟩ := bind_done h₂
  cases acked with
  | false =>
    cases h₃
    rfl
  | true =>
  obtain ⟨content, rest₄, -, h₄⟩ := bind_done h₃
  cases content with
  | none =>
    obtain ⟨_, _, -, h₅⟩ := bind_done h₄
    cases h₅
    rfl
  | some message =>
  simp only at h₄
  split at h₄ <;> cases h₄

/-- A read returns a vector exactly when it is delivered; its bytes and two
acknowledgements are then all that went over the stream. Whatever else the system
answers, a read that is not waiting has returned without a vector and without success, as
long as the table has the error codes; and no read waits for ever. -/
theorem internalRead_exact :
    (∀ answers, Answered internalRead answers →
      (∀ message success rest, internalRead answers = .done (some message, success) rest ↔
        success = true ∧ Delivers answers message rest) ∧
      (∀ message rest, Delivers answers message rest →
        ∃ bytes, bytes.length = 4 ∧ intOfBytes bytes = message.length ∧
          received (trace internalRead answers) = bytes ++ message ∧
          written (trace internalRead answers) = ack ++ ack) ∧
      ((∀ code moved checked, Answer.recv (.error code) moved checked ∈ answers → WinsockErrorDesc.Known code) →
        (∃ call, internalRead answers = .asks call) ∨ (∃ message rest, Delivers answers message rest) ∨
          ∃ rest, internalRead answers = .done (none, false) rest)) ∧
    ∀ env, Lasting env → ∃ n, ∀ call, internalRead (answersFrom env internalRead 0 n) ≠ .asks call := by
  refine ⟨fun answers hfits => ⟨fun message success rest => ⟨?_, ?_⟩, ?_, ?_⟩, ?_⟩
  · intro h
    exact internalRead_delivers h hfits
  · rintro ⟨rfl, hdelivers⟩
    obtain ⟨used, bytes, rfl, -, -, hread⟩ := hdelivers.exchanges
    exact hread.returns.done rest
  · intro message rest hdelivers
    obtain ⟨used, bytes, rfl, hfour, hlength, hread⟩ := hdelivers.exchanges
    refine ⟨bytes, hfour, hlength, ?_, ?_⟩
    · rw [hread.returns.trace_append, hread.received]
    · rw [hread.returns.trace_append, hread.written]
  · intro hknown
    cases h : internalRead answers with
    | asks call => exact .inl ⟨call, rfl⟩
    | done result rest =>
      obtain ⟨value, success⟩ := result
      cases value with
      | some message => exact .inr (.inl ⟨message, rest, (internalRead_delivers h hfits).2⟩)
      | none =>
        obtain rfl := internalRead_none h
        exact .inr (.inr ⟨rest, rfl⟩)
    | throws e rest =>
      obtain ⟨used, code, moved, checked, rfl, hunknown⟩ := internalRead_throws h
      exact absurd (hknown code moved checked (by simp)) hunknown
  · intro env h
    exact (internalRead_ends h 0).not_asks

/-- One byte, in parts and after a pause. -/
def oneByte : List Answer := [
  .malloc true, .send (.count 1), .send (.error WSAEWOULDBLOCK), .send (.count 2),
  .getTime 0, .malloc true, .recv (.error WSAEINPROGRESS) 5 6, .recv (.bytes [1]) 8 9, .recv (.bytes [0, 0, 0]) 9 9,
  .malloc true, .send (.count 3),
  .getTime 10, .malloc true, .recv (.bytes [65]) 20 20]

theorem internalRead_exact_oneByte : internalRead oneByte = .done (some [65], true) [] := by
  have hfits : Answered internalRead oneByte := by
    unfold Answered
    decide
  have hfirst : Acks [.malloc true, .send (.count 1), .send (.error WSAEWOULDBLOCK), .send (.count 2)] :=
    ⟨_, rfl, .part (by decide) (by decide) (.pause (by decide) (.part (by decide) (by decide) .all))⟩
  have hnumber : Reads 4 [.getTime 0, .malloc true, .recv (.error WSAEINPROGRESS) 5 6, .recv (.bytes [1]) 8 9,
      .recv (.bytes [0, 0, 0]) 9 9] ([1] ++ ([0, 0, 0] ++ [])) :=
    .inr ⟨by decide, 0, _, rfl, .pause (by decide) (.inr rfl) (by decide)
      (.part (by decide) (by decide) (by decide) (.part (by decide) (by decide) (by decide) (.all _)))⟩
  have hsecond : Acks [.malloc true, .send (.count 3)] :=
    ⟨_, rfl, .part (by decide) (by decide) .all⟩
  have hcontent : Reads 1 [.getTime 10, .malloc true, .recv (.bytes [65]) 20 20] ([65] ++ []) :=
    .inr ⟨by decide, 10, _, rfl, .part (by decide) (by decide) (by decide) (.all _)⟩
  have hone : intOfBytes ([1] ++ ([0, 0, 0] ++ [])) = (1 : Nat) := intOfBytes_bytesOfSize 1 (by decide)
  refine ((internalRead_exact.1 oneByte hfits).1 [65] true []).mpr
    ⟨rfl, _, _, _, [.getTime 10, .malloc true, .recv (.bytes [65]) 20 20], _, rfl, hfirst, hnumber, hsecond, ?_, ?_⟩
  · rw [hone]
    exact Int.natCast_nonneg 1
  · rw [hone]
    exact hcontent

end ScoutingComputer.Socket
