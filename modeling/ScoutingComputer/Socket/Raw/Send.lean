import Mathlib.Algebra.Ring.Int.Defs
import Mathlib.Algebra.Ring.Nat
import ScoutingComputer.Socket.Raw
import ScoutingComputer.Socket.Schedule

/-! What the loop of `sendToSocket` hands to the socket.

Counter and pointer move together, by what each call took, so the calls hand over the
places of the buffer one after another. A call that would block moves neither. -/
namespace ScoutingComputer.Socket.Raw
open Program

/-- An `int` that `send` or `recv` returns as a number of bytes is kept as it is. -/
theorem sizeOfInt_count {result : Int} (hnonneg : 0 ≤ result) (hlt : result < 2 ^ 31) :
    sizeOfInt result = result.toNat ∧ result.toNat ≠ sizeOfInt SOCKET_ERROR := by
  unfold sizeOfInt SOCKET_ERROR
  omega

section
variable {size dataCurr sentData : Nat}

theorem sendLoop_full (h : size ≤ sentData) : sendLoop size dataCurr sentData = Pure.pure true := by
  funext answers
  cases answers <;> simp [sendLoop, Nat.not_lt.mpr h, pure_def]

variable (h : sentData < size)
include h

theorem sendLoop_call :
    (sendLoop size dataCurr sentData).call = some (.send dataCurr (intOfSize (size - sentData))) := by
  simp [Program.call, sendLoop, h]

theorem sendLoop_count {result : Int} (hnonneg : 0 ≤ result) (hlt : result < 2 ^ 31) (lastError : Int) :
    (sendLoop size dataCurr sentData).after (.send result lastError) =
      sendLoop size (dataCurr + result.toNat) ((sentData + result.toNat) % 2 ^ 64) := by
  obtain ⟨hcount, herror⟩ := sizeOfInt_count hnonneg hlt
  funext rest
  rw [Program.after, sendLoop, if_pos h]
  simp only [hcount, if_neg herror]

theorem sendLoop_block :
    (sendLoop size dataCurr sentData).after (.send SOCKET_ERROR WSAEWOULDBLOCK) = sendLoop size dataCurr sentData := by
  funext rest
  rw [Program.after, sendLoop, if_pos h]
  simp only [if_true]

theorem sendLoop_fails {lastError : Int} (hcode : lastError ≠ WSAEWOULDBLOCK) :
    (sendLoop size dataCurr sentData).after (.send SOCKET_ERROR lastError) = Pure.pure false := by
  funext rest
  rw [Program.after, sendLoop, if_pos h]
  simp only [if_true, if_neg hcode]
  rfl

end

/-- The places of the buffer that a call hands over. -/
def handedBy : Call × Answer → List Nat
  | (.send dataCurr _, .send result _) => List.range' dataCurr result.toNat
  | _ => []

def handed (trace : List (Call × Answer)) : List Nat := trace.flatMap handedBy

/-- What a documented answer to a call does to the loop: the call has taken a number of
bytes, or would block, or has failed. -/
inductive Sent (size sent : Nat) : Answer → RawProgram Bool → Prop where
  | count {n : Nat} {lastError : Int} (hn : n ≤ size - sent) :
    Sent size sent (.send n lastError) (sendLoop size (sent + n) (sent + n))
  | block : Sent size sent (.send SOCKET_ERROR WSAEWOULDBLOCK) (sendLoop size sent sent)
  | fails {lastError : Int} (hcode : lastError ≠ WSAEWOULDBLOCK) :
    Sent size sent (.send SOCKET_ERROR lastError) (Pure.pure false)

theorem sendLoop_after {size sent : Nat} (hsize : size < 2 ^ 64) (hsent : sent < size) {answer : Answer}
    (hfit : Fits (.send sent (intOfSize (size - sent))) answer) :
    Sent size sent answer ((sendLoop size sent sent).after answer) := by
  cases answer with
  | malloc | getTime | recv => exact hfit.elim
  | send result lastError =>
    obtain rfl | ⟨hnonneg, hle⟩ := hfit
    · by_cases hcode : lastError = WSAEWOULDBLOCK
      · subst hcode
        rw [sendLoop_block hsent]
        exact .block
      · rw [sendLoop_fails hsent hcode]
        exact .fails hcode
    · have hlt : result < 2 ^ 31 := Int.lt_of_le_of_lt hle (intOfSize_lt _)
      have hroom := Int.le_trans hle (intOfSize_le (size - sent))
      rw [sendLoop_count hsent hnonneg hlt]
      obtain ⟨n, rfl⟩ := Int.eq_ofNat_of_zero_le hnonneg
      rw [Int.toNat_natCast, Nat.mod_eq_of_lt (by omega)]
      exact .count (by omega)

/-- The loop from any place on. -/
theorem sendLoop_hands {size sent : Nat} (hsize : size < 2 ^ 64) (hsent : sent ≤ size) {answers : List Answer}
    (h : Answered (sendLoop size sent sent) answers) :
    ∃ n, sent + n ≤ size ∧ handed (trace (sendLoop size sent sent) answers) = List.range' sent n ∧
      (∀ rest, sendLoop size sent sent answers = .done true rest → sent + n = size) ∧
      (∀ rest, sendLoop size sent sent answers = .done false rest → sent + n < size ∧
        ∃ used lastError, answers = used ++ .send SOCKET_ERROR lastError :: rest ∧ lastError ≠ WSAEWOULDBLOCK) ∧
      ∀ fault rest, sendLoop size sent sent answers ≠ .throws fault rest := by
  induction answers generalizing sent with
  | nil =>
    have hnil : sendLoop size sent sent [] =
        if sent < size then .asks (.send sent (intOfSize (size - sent))) else .done true [] := rfl
    rw [hnil]
    refine ⟨0, hsent, rfl, fun rest hdone => ?_, fun rest hdone => ?_, fun fault rest hthrows => ?_⟩
    · split at hdone
      · cases hdone
      · omega
    · split at hdone <;> cases hdone
    · split at hthrows <;> cases hthrows
  | cons answer answers ih =>
    by_cases hlt : sent < size
    · obtain ⟨hfit, hrest⟩ := h.step (sendLoop_call hlt)
      have hafter := sendLoop_after hsize hlt hfit
      rw [trace_cons (sendLoop_call hlt)]
      have hrun : sendLoop size sent sent (answer :: answers) = (sendLoop size sent sent).after answer answers := rfl
      rw [hrun]
      generalize (sendLoop size sent sent).after answer = next at hafter hrest
      cases hafter with
      | count hn =>
        rename_i n lastError
        obtain ⟨m, hle, hhanded, htrue, hfalse, hthrows⟩ := ih (by omega) hrest
        refine ⟨n + m, by omega, ?_, fun rest hdone => ?_, fun rest hdone => ?_, hthrows⟩
        · rw [handed, List.flatMap_cons, ← handed, hhanded]
          exact List.range'_append_1 ..
        · have := htrue rest hdone
          omega
        · obtain ⟨hmore, used, code, hused, hcode⟩ := hfalse rest hdone
          exact ⟨by omega, _ :: used, code, by rw [hused]; rfl, hcode⟩
      | block =>
        obtain ⟨m, hle, hhanded, htrue, hfalse, hthrows⟩ := ih hsent hrest
        refine ⟨m, hle, hhanded, htrue, fun rest hdone => ?_, hthrows⟩
        obtain ⟨hmore, used, code, hused, hcode⟩ := hfalse rest hdone
        exact ⟨hmore, _ :: used, code, by rw [hused]; rfl, hcode⟩
      | fails hcode =>
        refine ⟨0, hsent, ?_, fun rest hdone => ?_, fun rest hdone => ?_, fun fault rest hthrows => ?_⟩
        · rw [trace_pure]
          rfl
        · cases hdone
        · cases hdone
          exact ⟨hlt, [], _, rfl, hcode⟩
        · cases hthrows
    · obtain rfl : sent = size := by omega
      rw [sendLoop_full le_rfl, trace_pure]
      refine ⟨0, le_rfl, rfl, fun rest _ => rfl, fun rest hdone => ?_, fun fault rest hthrows => ?_⟩
      · cases hdone
      · cases hthrows

theorem sendToSocket_eq (size : Nat) : sendToSocket size = sendLoop size 0 0 := by
  unfold sendToSocket
  split
  · rw [sendLoop_full (by omega)]
  · rfl

/-- The loop that has not stopped, or its result. -/
inductive Sending (size : Nat) : RawProgram Bool → Prop where
  | loop (sent : Nat) : Sending size (sendLoop size sent sent)
  | stopped (result : Bool) : Sending size (Pure.pure result)

/-- Only the loop that has not stopped makes a call. -/
theorem Sending.calls {size : Nat} {p : RawProgram Bool} {call : Call} (h : Sending size p)
    (hcall : p.call = some call) :
    ∃ sent < size, p = sendLoop size sent sent ∧ call = .send sent (intOfSize (size - sent)) := by
  cases h with
  | stopped => cases hcall
  | loop sent =>
    by_cases hlt : sent < size
    · rw [sendLoop_call hlt] at hcall
      cases hcall
      exact ⟨sent, hlt, rfl, rfl⟩
    · rw [sendLoop_full (Nat.not_lt.mp hlt), call_pure] at hcall
      cases hcall

/-- No call reads behind the buffer. -/
theorem sendLoop_inBounds {size : Nat} (hsize : size < 2 ^ 64) {answers : List Answer}
    (h : Answered (sendLoop size 0 0) answers) : ∀ e ∈ trace (sendLoop size 0 0) answers, e.1.InBounds size := by
  refine h.forall_trace (I := Sending size) (fun p call hp hcall => ?_)
    (fun p call answer hp hcall hfit => ?_) (.loop 0)
  · obtain ⟨sent, hlt, -, rfl⟩ := hp.calls hcall
    have hle := intOfSize_le (size - sent)
    show (sent + intOfSize (size - sent) : Int) ≤ size
    omega
  · obtain ⟨sent, hlt, rfl, rfl⟩ := hp.calls hcall
    have hafter := sendLoop_after hsize hlt hfit
    generalize (sendLoop size sent sent).after answer = next at hafter
    cases hafter with
    | count _ => exact .loop _
    | block => exact .loop sent
    | fails _ => exact .stopped false

/-- The bytes at the places that were handed over. -/
def bytesHanded (data : List UInt8) (trace : List (Call × Answer)) : List UInt8 :=
  (handed trace).filterMap fun i => data[i]?

theorem filterMap_range (data : List UInt8) (n : Nat) : (List.range n).filterMap (fun i => data[i]?) = data.take n := by
  induction n with
  | zero => rfl
  | succ n ih =>
    rw [List.range_succ, List.filterMap_append, ih, List.take_add_one, List.filterMap_cons, List.filterMap_nil]
    cases data[n]? <;> rfl

/-- **A buffer is sent once and in order**: what is handed over are its first places, each
once, and it is all of them when the result is true, and fewer, after an error, when it is
false. -/
theorem sends_once_in_order (data : List UInt8) (hsize : data.length < 2 ^ 64) (answers : List Answer)
    (h : Answered (sendToSocket data.length) answers) :
    ∃ n ≤ data.length, handed (trace (sendToSocket data.length) answers) = List.range n ∧
      bytesHanded data (trace (sendToSocket data.length) answers) = data.take n ∧
      (∀ e ∈ trace (sendToSocket data.length) answers, e.1.InBounds data.length) ∧
      (∀ rest, sendToSocket data.length answers = .done true rest → n = data.length) ∧
      (∀ rest, sendToSocket data.length answers = .done false rest → n < data.length ∧
        ∃ used lastError, answers = used ++ .send SOCKET_ERROR lastError :: rest ∧ lastError ≠ WSAEWOULDBLOCK) ∧
      ∀ fault rest, sendToSocket data.length answers ≠ .throws fault rest := by
  rw [sendToSocket_eq] at h ⊢
  obtain ⟨n, hle, hhanded, htrue, hfalse, hthrows⟩ := sendLoop_hands hsize (Nat.zero_le _) h
  rw [Nat.zero_add] at hle htrue hfalse
  rw [← List.range_eq_range'] at hhanded
  refine ⟨n, hle, hhanded, ?_, sendLoop_inBounds hsize h, htrue, hfalse, hthrows⟩
  rw [bytesHanded, hhanded, filterMap_range]

/-- An acknowledgement in two parts, with a call that would block between them. -/
def twoParts : List Answer := [.send 1 0, .send SOCKET_ERROR WSAEWOULDBLOCK, .send 2 0]

theorem sends_once_in_order_twoParts :
    sendToSocket 3 twoParts = .done true [] ∧ bytesHanded ack (trace (sendToSocket 3) twoParts) = ack := by
  have hfits : Answered (sendToSocket ack.length) twoParts := by
    unfold Answered AnsweredBy
    decide
  have hdone : sendToSocket ack.length twoParts = .done true [] := by decide
  obtain ⟨n, _, _, hbytes, _, htrue, _⟩ := sends_once_in_order ack (by decide) twoParts hfits
  refine ⟨hdone, hbytes.trans ?_⟩
  rw [htrue [] hdone]
  rfl

/-! ### The loop over lists -/

/-- The loop with the pointer does what the loop over the bytes does. -/
theorem sendLoop_matches {data : List UInt8} (hsize : data.length < 2 ^ 64) {sent : Nat} {answers : List Answer}
    (h : Answered (sendLoop data.length sent sent) answers) :
    Matches data (sendLoop data.length sent sent answers)
      (Socket.sendToSocket (data.drop sent) (answers.map Answer.listed)) := by
  induction answers generalizing sent with
  | nil =>
    by_cases hlt : sent < data.length
    · have hne : data.drop sent ≠ [] := by
        rw [Ne, List.drop_eq_nil_iff]
        omega
      have hasks : Socket.sendToSocket (data.drop sent) [] = .asks (.send (data.drop sent)) := if_neg hne
      rw [List.map_nil, hasks, sendLoop, if_pos hlt]
      exact .asks (.send sent _)
    · rw [sendLoop_full (Nat.not_lt.mp hlt), List.drop_eq_nil_of_le (Nat.not_lt.mp hlt), Socket.sendToSocket_nil]
      exact .done true []
  | cons answer answers ih =>
    by_cases hlt : sent < data.length
    · have hne : data.drop sent ≠ [] := by
        rw [Ne, List.drop_eq_nil_iff]
        omega
      obtain ⟨hfit, hrest⟩ := h.step (sendLoop_call hlt)
      have hafter := sendLoop_after hsize hlt hfit
      show Matches data ((sendLoop data.length sent sent).after answer answers)
        ((Socket.sendToSocket (data.drop sent)).after answer.listed (answers.map Answer.listed))
      generalize (sendLoop data.length sent sent).after answer = next at hafter hrest
      cases hafter with
      | count hn =>
        rename_i n lastError
        have hlisted : (Answer.send n lastError).listed = .send (.count n) := by
          have herror : (n : Int) ≠ SOCKET_ERROR := by
            unfold SOCKET_ERROR
            omega
          rw [Answer.listed, if_neg herror, Int.toNat_natCast]
        rw [hlisted, Socket.sendToSocket_count hne, List.drop_drop]
        exact ih hrest
      | block =>
        have hlisted : (Answer.send SOCKET_ERROR WSAEWOULDBLOCK).listed = .send (.error WSAEWOULDBLOCK) := rfl
        rw [hlisted, Socket.sendToSocket_pause hne]
        exact ih hrest
      | fails hcode =>
        rename_i lastError
        have hfails : (Socket.sendToSocket (data.drop sent)).after (Answer.send SOCKET_ERROR lastError).listed =
            Pure.pure false := by
          have hlisted : (Answer.send SOCKET_ERROR lastError).listed = .send (.error lastError) := rfl
          funext rest
          rw [hlisted, Program.after, Socket.sendToSocket, if_neg hne]
          simp only [if_neg hcode]
          rfl
        rw [hfails]
        exact .done false answers
    · rw [sendLoop_full (Nat.not_lt.mp hlt), List.drop_eq_nil_of_le (Nat.not_lt.mp hlt), Socket.sendToSocket_nil]
      exact .done true (answer :: answers)

/-- What is handed to the socket is what the loop over the bytes sends. -/
theorem sendToSocket_matches {data : List UInt8} (hsize : data.length < 2 ^ 64) {answers : List Answer}
    (h : Answered (sendToSocket data.length) answers) :
    Matches data (sendToSocket data.length answers) (Socket.sendToSocket data (answers.map Answer.listed)) := by
  rw [sendToSocket_eq] at h ⊢
  exact sendLoop_matches hsize h

end ScoutingComputer.Socket.Raw
