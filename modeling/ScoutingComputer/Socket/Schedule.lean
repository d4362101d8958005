import ScoutingComputer.Foundation.Trace
import ScoutingComputer.Socket.Transfer

/-! What the system does in a transfer: how an acknowledgement is sent, how bytes arrive.

`Sends` and `Arrives` say it of the answers alone: the bytes go out, or come in, in parts
of any size, with pauses between them; what comes in is in time. The two loops return
with all bytes exactly on such answers (`sendToSocket_sends`, `receiveLoop_arrives`). -/
namespace ScoutingComputer.Socket
open Program

/-- What the documentation of a call promises of its answer. -/
def Fits : Call → Answer → Prop
  | .malloc _, .malloc _ => True
  | .getTime, .getTime _ => True
  | .recv len, .recv (.bytes data) _ _ => data.length ≤ len
  | .recv _, .recv (.error _) _ _ => True
  | .send data, .send (.count n) => n ≤ data.length
  | .send _, .send (.error _) => True
  | _, _ => False

instance (call : Call) (answer : Answer) : Decidable (Fits call answer) := by
  unfold Fits
  split <;> infer_instance

/-- Every call of the program is answered as documented. -/
def Answered {α : Type} (p : OsProgram α) (answers : List Answer) : Prop :=
  ∀ e ∈ trace p answers, Fits e.1 e.2

section
variable {α β : Type} {p : OsProgram α}

theorem Answered.left {f : α → OsProgram β} {answers : List Answer} (h : Answered (p >>= f) answers) :
    Answered p answers := AnsweredBy.left h

theorem Answered.right {f : α → OsProgram β} {used rest : List Answer} {a : α}
    (h : Answered (p >>= f) (used ++ rest)) (hp : Returns p used a) : Answered (f a) rest := AnsweredBy.right h hp

theorem Answered.step {call : Call} {answer : Answer} {answers : List Answer} (h : Answered p (answer :: answers))
    (hcall : p.call = some call) : Fits call answer ∧ Answered (p.after answer) answers := AnsweredBy.step h hcall

end

/-- The bytes a call takes off the stream. -/
def receivedBy : Call × Answer → List UInt8
  | (.recv _, .recv (.bytes data) _ _) => data
  | _ => []

/-- The bytes a call puts on the stream. -/
def writtenBy : Call × Answer → List UInt8
  | (.send data, .send (.count n)) => data.take n
  | _ => []

def received (trace : List (Call × Answer)) : List UInt8 := trace.flatMap receivedBy

def written (trace : List (Call × Answer)) : List UInt8 := trace.flatMap writtenBy

/-- The program returns after exactly these answers, and has taken and put these bytes. -/
structure Exchanges {α : Type} (p : OsProgram α) (used : List Answer) (value : α) (taken put : List UInt8) : Prop where
  returns : Returns p used value
  received : received (trace p used) = taken
  written : written (trace p used) = put

section
variable {α β : Type} {p : OsProgram α} {f : α → OsProgram β} {used used' : List Answer} {a : α} {b : β}
  {taken taken' put put' : List UInt8}

theorem Exchanges.pure (value : α) : Exchanges (Pure.pure value) [] value [] [] := ⟨.pure value, rfl, rfl⟩

theorem Exchanges.step {call : Call} {answer : Answer} (h : p.call = some call)
    (hrest : Exchanges (p.after answer) used a taken put) :
    Exchanges p (answer :: used) a (receivedBy (call, answer) ++ taken) (writtenBy (call, answer) ++ put) := by
  refine ⟨.step h hrest.returns, ?_, ?_⟩
  · rw [trace_cons h, ← hrest.received]
    rfl
  · rw [trace_cons h, ← hrest.written]
    rfl

theorem Exchanges.bind (hp : Exchanges p used a taken put) (hf : Exchanges (f a) used' b taken' put') :
    Exchanges (p >>= f) (used ++ used') b (taken ++ taken') (put ++ put') := by
  refine ⟨hp.returns.bind hf.returns, ?_, ?_⟩
  · rw [hp.returns.trace_bind, ← hp.received, ← hf.received]
    exact List.flatMap_append
  · rw [hp.returns.trace_bind, ← hp.written, ← hf.written]
    exact List.flatMap_append

end

/-- All of `data` goes out. -/
inductive Sends : List UInt8 → List Answer → Prop where
  | all : Sends [] []
  | part {data : List UInt8} {n : Nat} {answers : List Answer} (hdata : data ≠ []) (hn : n ≤ data.length)
      (hrest : Sends (data.drop n) answers) : Sends data (.send (.count n) :: answers)
  | pause {data : List UInt8} {answers : List Answer} (hdata : data ≠ []) (hrest : Sends data answers) :
      Sends data (.send (.error WSAEWOULDBLOCK) :: answers)

/-- `n` bytes come in, none of them after a silence that reaches the deadline. -/
inductive Arrives : Nat → Nat → List Answer → List UInt8 → Prop where
  | all (deadline : Nat) : Arrives 0 deadline [] []
  | part {n deadline moved checked : Nat} {data bytes : List UInt8} {answers : List Answer} (hdata : data ≠ [])
      (hn : data.length ≤ n) (hintime : checked ≤ moved + timeout)
      (hrest : Arrives (n - data.length) (moved + timeout) answers bytes) :
      Arrives n deadline (.recv (.bytes data) moved checked :: answers) (data ++ bytes)
  | pause {n deadline moved checked : Nat} {code : Int} {bytes : List UInt8} {answers : List Answer} (hn : 0 < n)
      (hcode : code = WSAEWOULDBLOCK ∨ code = WSAEINPROGRESS) (hintime : checked ≤ deadline)
      (hrest : Arrives n deadline answers bytes) :
      Arrives n deadline (.recv (.error code) moved checked :: answers) bytes

theorem Arrives.length {n deadline : Nat} {answers : List Answer} {bytes : List UInt8}
    (h : Arrives n deadline answers bytes) : bytes.length = n := by
  induction h with
  | all => rfl
  | part _ hn _ _ ih =>
    rw [List.length_append, ih]
    omega
  | pause _ _ _ _ ih => exact ih

/-! ### The loop that sends -/

theorem Sends.exchanges {data : List UInt8} {answers : List Answer} (h : Sends data answers) :
    Exchanges (sendToSocket data) answers true [] data := by
  induction h with
  | all =>
    rw [sendToSocket_nil]
    exact .pure true
  | @part data n answers hdata _ _ ih =>
    rw [← sendToSocket_count hdata] at ih
    have hstep := Exchanges.step (sendToSocket_call hdata) ih
    rwa [show writtenBy (.send data, .send (.count n)) = data.take n from rfl, List.take_append_drop] at hstep
  | pause hdata _ ih =>
    rw [← sendToSocket_pause hdata] at ih
    exact .step (sendToSocket_call hdata) ih

/-- The loop returns with success only after such answers. -/
theorem sendToSocket_sends {data : List UInt8} {answers rest : List Answer}
    (h : sendToSocket data answers = .done true rest) (hfits : Answered (sendToSocket data) answers) :
    ∃ used, answers = used ++ rest ∧ Sends data used := by
  induction answers generalizing data with
  | nil =>
    unfold sendToSocket at h
    split at h
    · rename_i hdata
      cases h
      exact ⟨[], rfl, hdata ▸ .all⟩
    · cases h
  | cons answer answers ih =>
    by_cases hdata : data = []
    · subst hdata
      rw [sendToSocket_nil] at h
      cases h
      exact ⟨[], rfl, .all⟩
    · obtain ⟨hfit, hrest⟩ := hfits.step (sendToSocket_call hdata)
      cases answer with
      | malloc | getTime | recv => exact hfit.elim
      | send result =>
        cases result with
        | count n =>
          rw [sendToSocket_count hdata] at hrest
          rw [sendToSocket, if_neg hdata] at h
          obtain ⟨used, rfl, hused⟩ := ih h hrest
          exact ⟨_, rfl, .part hdata hfit hused⟩
        | error code =>
          rw [sendToSocket, if_neg hdata] at h
          by_cases hcode : code = WSAEWOULDBLOCK
          · subst hcode
            rw [sendToSocket_pause hdata] at hrest
            obtain ⟨used, rfl, hused⟩ := ih h hrest
            exact ⟨_, rfl, .pause hdata hused⟩
          · simp only [if_neg hcode] at h
            cases h

/-! ### The loop that receives -/

theorem Arrives.exchanges {n deadline : Nat} {answers : List Answer} {bytes : List UInt8}
    (h : Arrives n deadline answers bytes) (dataRecvd : List UInt8) :
    Exchanges (receiveLoop (dataRecvd.length + n) dataRecvd deadline) answers (some (dataRecvd ++ bytes)) bytes [] := by
  induction h generalizing dataRecvd with
  | all deadline =>
    rw [receiveLoop_full (by omega), List.append_nil]
    exact .pure _
  | @part n deadline moved checked data bytes answers hdata hn hintime _ ih =>
    have hpos : 0 < data.length := List.length_pos_iff.mpr hdata
    have hlt : dataRecvd.length < dataRecvd.length + n := by omega
    have hrest := ih (dataRecvd ++ data)
    rw [List.length_append, show dataRecvd.length + data.length + (n - data.length) = dataRecvd.length + n by omega,
      ← receiveLoop_bytes hlt hdata hintime, List.append_assoc] at hrest
    exact .step (receiveLoop_call hlt deadline) hrest
  | @pause n deadline moved checked code bytes answers hn hcode hintime _ ih =>
    have hlt : dataRecvd.length < dataRecvd.length + n := by omega
    have hrest := ih dataRecvd
    have hpause := @receiveLoop_pause _ _ deadline moved checked code hlt hintime hcode
    rw [← hpause] at hrest
    exact .step (receiveLoop_call hlt deadline) hrest

/-- The loop returns bytes only after such answers. -/
theorem receiveLoop_arrives {n deadline : Nat} {dataRecvd message : List UInt8} {answers rest : List Answer}
    (hn : n < 2 ^ 31)
    (h : receiveLoop (dataRecvd.length + n) dataRecvd deadline answers = .done (some message) rest)
    (hfits : Answered (receiveLoop (dataRecvd.length + n) dataRecvd deadline) answers) :
    ∃ used bytes, answers = used ++ rest ∧ message = dataRecvd ++ bytes ∧ Arrives n deadline used bytes := by
  induction answers generalizing n dataRecvd deadline with
  | nil =>
    rw [receiveLoop] at h
    split at h
    · cases h
    · cases h
      obtain rfl : n = 0 := by omega
      exact ⟨[], [], rfl, (List.append_nil _).symm, .all deadline⟩
  | cons answer answers ih =>
    cases n with
    | zero =>
      rw [receiveLoop_full (by omega)] at h
      cases h
      exact ⟨[], [], rfl, (List.append_nil _).symm, .all deadline⟩
    | succ n =>
      have hlt : dataRecvd.length < dataRecvd.length + (n + 1) := by omega
      obtain ⟨hfit, hrest⟩ := hfits.step (receiveLoop_call hlt deadline)
      cases answer with
      | malloc | getTime | send => exact hfit.elim
      | recv result moved checked =>
        cases result with
        | bytes data =>
          simp only [receiveLoop, if_pos hlt] at h
          by_cases hdata : data = []
          · simp only [hdata, if_true, ite_self] at h
            cases h
          rw [if_pos hdata] at h
          by_cases hintime : checked > moved + timeout
          · rw [if_pos hintime] at h
            cases h
          rw [if_neg hintime, if_neg hdata] at h
          rw [receiveLoop_bytes hlt hdata (Nat.not_lt.mp hintime)] at hrest
          have hlength : data.length ≤ n + 1 := by
            rw [Fits, Nat.add_sub_cancel_left, intOfSize_natCast hn] at hfit
            exact_mod_cast hfit
          have hsize : dataRecvd.length + (n + 1) = (dataRecvd ++ data).length + (n + 1 - data.length) := by
            rw [List.length_append]
            omega
          rw [hsize] at h hrest
          obtain ⟨used, bytes, rfl, hmessage, harrives⟩ := ih (by omega) h hrest
          exact ⟨_ :: used, data ++ bytes, rfl, by rw [hmessage, List.append_assoc],
            .part hdata hlength (Nat.not_lt.mp hintime) harrives⟩
        | error code =>
          simp only [receiveLoop, if_pos hlt] at h
          by_cases hlate : checked > deadline
          · rw [if_pos hlate] at h
            cases h
          rw [if_neg hlate] at h
          by_cases hpause : code = WSAEWOULDBLOCK ∨ code = WSAEINPROGRESS
          · rw [if_pos hpause] at h
            rw [receiveLoop_pause hlt (Nat.not_lt.mp hlate) hpause] at hrest
            obtain ⟨used, bytes, rfl, hmessage, harrives⟩ := ih hn h hrest
            exact ⟨_ :: used, bytes, rfl, hmessage,
              .pause (Nat.succ_pos n) hpause (Nat.not_lt.mp hlate) harrives⟩
          · rw [if_neg hpause] at h
            split at h <;> cases h

end ScoutingComputer.Socket
