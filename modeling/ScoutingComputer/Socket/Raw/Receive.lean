import Mathlib.Algebra.Order.Archimedean.Basic
import Mathlib.Algebra.Order.Ring.Rat
import Mathlib.Tactic.Linarith
import ScoutingComputer.Socket.Raw.Send

/-! What the loop of `readAllSocketData` takes from the socket.

The bytes that have come in are the first of the memory, and pointer and counter stand
behind them (`receiving`). A part of the message is written there and moves the deadline
to fifteen seconds after it, before the clock is checked; so a part is never too late, but
the check after it may be. -/
namespace ScoutingComputer.Socket.Raw
open Program

/-- The loop when `data` has come in and the memory behind it is `left`. -/
def receiving (data left : List UInt8) (timeoutTime : Rat) : RawProgram (Option (List UInt8)) :=
  receiveLoop (data ++ left).length (data ++ left) data.length data.length timeoutTime

theorem length_room {data left filled : List UInt8} (hroom : filled.length ≤ left.length) :
    (data ++ filled ++ left.drop filled.length).length = (data ++ left).length := by
  simp only [List.length_append, List.length_drop]
  omega

theorem write_room {data left filled : List UInt8} (hroom : filled.length ≤ left.length) :
    write (data ++ left) data.length filled = some (data ++ filled ++ left.drop filled.length) := by
  have hmem : data.length + filled.length ≤ (data ++ left).length := by
    rw [List.length_append]
    omega
  rw [write, if_pos hmem, List.take_left, ← List.drop_drop, List.drop_left]

theorem write_nothing (data left : List UInt8) : write (data ++ left) data.length [] = some (data ++ left) := by
  rw [write_room (Nat.zero_le _), List.append_nil, List.length_nil, List.drop_zero]

theorem receiving_full (data : List UInt8) (timeoutTime : Rat) : receiving data [] timeoutTime = Pure.pure (some data) := by
  funext answers
  cases answers <;> simp [receiving, receiveLoop, pure_def]

section
variable {data left : List UInt8} {timeoutTime moved checked : Rat} (hleft : left ≠ [])
include hleft

theorem room_left : data.length < (data ++ left).length := by
  have := List.length_pos_iff.mpr hleft
  rw [List.length_append]
  omega

theorem receiving_call :
    (receiving data left timeoutTime).call = some (.recv data.length (intOfSize left.length)) := by
  have hroom : (data ++ left).length - data.length = left.length := by
    rw [List.length_append]
    omega
  simp only [Program.call, receiving, receiveLoop, if_pos (room_left hleft), hroom]

/-- An error leaves the deadline and the memory. -/
theorem receiving_error (lastError : Int) (rest : List Answer) :
    receiving data left timeoutTime (.recv SOCKET_ERROR [] lastError moved checked :: rest) =
      if checked > timeoutTime then .done none rest
      else if lastError = WSAEWOULDBLOCK ∨ lastError = WSAEINPROGRESS then receiving data left timeoutTime rest
      else match WinsockErrorDesc.get lastError with
        | none => .throws (.threw .outOfRange) rest
        | some _ => .done none rest := by
  have hunmoved : (if sizeOfInt SOCKET_ERROR > 0 ∧ sizeOfInt SOCKET_ERROR ≠ sizeOfInt SOCKET_ERROR then moved + timeout
      else timeoutTime) = timeoutTime := if_neg fun h => h.2 rfl
  have hpos : sizeOfInt SOCKET_ERROR ≠ 0 := by decide
  rw [receiving, receiveLoop, if_pos (room_left hleft)]
  cases WinsockErrorDesc.get lastError <;> simp only [write_nothing, hunmoved, if_neg hpos, if_true]

/-- No bytes are a close. -/
theorem receiving_close (lastError : Int) (rest : List Answer) :
    receiving data left timeoutTime (.recv 0 [] lastError moved checked :: rest) = .done none rest := by
  have hzero : sizeOfInt 0 = 0 := rfl
  rw [receiving, receiveLoop, if_pos (room_left hleft)]
  simp only [write_nothing, hzero, if_true, ite_self]

/-- Bytes move the deadline and stand behind the others, unless the clock is checked too
late. -/
theorem receiving_bytes (hsize : (data ++ left).length < 2 ^ 64) {filled : List UInt8} (hfilled : filled ≠ [])
    (hroom : filled.length ≤ left.length) (hcount : filled.length < 2 ^ 31) (lastError : Int) (rest : List Answer) :
    receiving data left timeoutTime (.recv filled.length filled lastError moved checked :: rest) =
      if checked > moved + timeout then .done none rest
      else receiving (data ++ filled) (left.drop filled.length) (moved + timeout) rest := by
  have hpos := List.length_pos_iff.mpr hfilled
  obtain ⟨hresult, herror⟩ := sizeOfInt_count (Int.natCast_nonneg filled.length) (by exact_mod_cast hcount)
  rw [Int.toNat_natCast] at hresult herror
  have hmoved : (if filled.length > 0 ∧ filled.length ≠ sizeOfInt SOCKET_ERROR then moved + timeout else timeoutTime) =
      moved + timeout := if_pos ⟨hpos, herror⟩
  have hwrap : (data ++ filled).length % 2 ^ 64 = (data ++ filled).length := by
    rw [List.length_append] at hsize ⊢
    exact Nat.mod_eq_of_lt (by omega)
  rw [receiving, receiveLoop, if_pos (room_left hleft)]
  simp only [write_room hroom, hresult, hmoved, ← @length_room data left filled hroom, if_neg (Nat.ne_of_gt hpos),
    if_neg herror, ← List.length_append, hwrap]
  rfl

theorem receiving_pause {lastError : Int} (hcode : lastError = WSAEWOULDBLOCK ∨ lastError = WSAEINPROGRESS)
    (hintime : checked ≤ timeoutTime) :
    (receiving data left timeoutTime).after (.recv SOCKET_ERROR [] lastError moved checked) =
      receiving data left timeoutTime := by
  funext rest
  rw [Program.after, receiving_error hleft, if_neg (not_lt.mpr hintime), if_pos hcode]

theorem receiving_part (hsize : (data ++ left).length < 2 ^ 64) {filled : List UInt8} (hfilled : filled ≠ [])
    (hroom : filled.length ≤ left.length) (hcount : filled.length < 2 ^ 31) (lastError : Int)
    (hintime : checked ≤ moved + timeout) :
    (receiving data left timeoutTime).after (.recv filled.length filled lastError moved checked) =
      receiving (data ++ filled) (left.drop filled.length) (moved + timeout) := by
  funext rest
  rw [Program.after, receiving_bytes hleft hsize hfilled hroom hcount, if_neg (not_lt.mpr hintime)]

end

/-! ### One turn of the loop -/

/-- What a documented answer does to the loop, when `last` is where the clock stood at the
last part, or at the start. -/
inductive Turn (data left : List UInt8) (last : Rat) : Answer → RawProgram (Option (List UInt8)) → Prop where
  | part {filled : List UInt8} {lastError : Int} {moved checked : Rat} (hfilled : filled ≠ [])
    (hroom : filled.length ≤ left.length) (hintime : checked ≤ moved + timeout) :
    Turn data left last (.recv filled.length filled lastError moved checked)
      (receiving (data ++ filled) (left.drop filled.length) (moved + timeout))
  | pause {lastError : Int} {moved checked : Rat} (hcode : lastError = WSAEWOULDBLOCK ∨ lastError = WSAEINPROGRESS)
    (hintime : checked ≤ last + timeout) :
    Turn data left last (.recv SOCKET_ERROR [] lastError moved checked) (receiving data left (last + timeout))
  | fails {result : Int} {filled : List UInt8} {lastError : Int} {moved checked : Rat}
    (hroom : filled.length ≤ left.length) :
    Turn data left last (.recv result filled lastError moved checked) (Pure.pure none)
  | throws {lastError : Int} {moved checked : Rat} (hcode : ¬ WinsockErrorDesc.Known lastError) :
    Turn data left last (.recv SOCKET_ERROR [] lastError moved checked) (throwing (.threw .outOfRange))

section
variable {data left : List UInt8} {last : Rat}

theorem receiving_after (hleft : left ≠ []) (hsize : (data ++ left).length < 2 ^ 64) {answer : Answer}
    (hfit : Fits (.recv data.length (intOfSize left.length)) answer) :
    Turn data left last answer ((receiving data left (last + timeout)).after answer) := by
  cases answer with
  | malloc | getTime | send => exact hfit.elim
  | recv result filled lastError moved checked =>
    obtain ⟨rfl, rfl⟩ | ⟨-, hle, hlength⟩ := hfit
    · have hnext : (receiving data left (last + timeout)).after (.recv SOCKET_ERROR [] lastError moved checked) =
          fun rest => _ := funext (receiving_error hleft lastError)
      rw [hnext]
      by_cases hlate : checked > last + timeout
      · simp only [if_pos hlate]
        exact .fails (Nat.zero_le _)
      · simp only [if_neg hlate]
        by_cases hcode : lastError = WSAEWOULDBLOCK ∨ lastError = WSAEINPROGRESS
        · simp only [if_pos hcode]
          exact .pause hcode (not_lt.mp hlate)
        · simp only [if_neg hcode]
          cases hknown : WinsockErrorDesc.get lastError with
          | none => exact .throws (by rw [WinsockErrorDesc.Known, hknown]; exact Bool.false_ne_true)
          | some name => exact .fails (Nat.zero_le _)
    · rw [← hlength] at hle ⊢
      have hroom : filled.length ≤ left.length := by exact_mod_cast hle.trans (intOfSize_le left.length)
      have hcount : filled.length < 2 ^ 31 := by exact_mod_cast hle.trans_lt (intOfSize_lt left.length)
      by_cases hfilled : filled = []
      · subst hfilled
        have hnext : (receiving data left (last + timeout)).after (.recv 0 [] lastError moved checked) = Pure.pure none :=
          funext (receiving_close hleft lastError)
        rw [List.length_nil, Nat.cast_zero, hnext]
        exact .fails hroom
      · have hnext : (receiving data left (last + timeout)).after (.recv filled.length filled lastError moved checked) =
            fun rest => _ := funext (receiving_bytes hleft hsize hfilled hroom hcount lastError)
        rw [hnext]
        by_cases hlate : checked > moved + timeout
        · simp only [if_pos hlate]
          exact .fails hroom
        · simp only [if_neg hlate]
          exact .part hfilled hroom (not_lt.mp hlate)

end

/-! ### A whole run -/

/-- The bytes a call takes off the stream. -/
def takenBy : Call × Answer → List UInt8
  | (.recv _ _, .recv _ filled _ _ _) => filled
  | _ => []

def taken (trace : List (Call × Answer)) : List UInt8 := trace.flatMap takenBy

/-- `n` bytes come in. Every check of the clock is at most fifteen seconds after the last
of them, that of its own turn if there are any, or after the start. -/
inductive Comes : Nat → Rat → List Answer → List UInt8 → Prop where
  | all (last : Rat) : Comes 0 last [] []
  | part {n : Nat} {last moved checked : Rat} {lastError : Int} {filled bytes : List UInt8} {answers : List Answer}
    (hfilled : filled ≠ []) (hroom : filled.length ≤ n) (hintime : checked ≤ moved + timeout)
    (hrest : Comes (n - filled.length) moved answers bytes) :
    Comes n last (.recv filled.length filled lastError moved checked :: answers) (filled ++ bytes)
  | pause {n : Nat} {last moved checked : Rat} {lastError : Int} {bytes : List UInt8} {answers : List Answer} (hn : 0 < n)
    (hcode : lastError = WSAEWOULDBLOCK ∨ lastError = WSAEINPROGRESS) (hintime : checked ≤ last + timeout)
    (hrest : Comes n last answers bytes) :
    Comes n last (.recv SOCKET_ERROR [] lastError moved checked :: answers) bytes

theorem Comes.length {n : Nat} {last : Rat} {receives : List Answer} {bytes : List UInt8}
    (h : Comes n last receives bytes) : bytes.length = n := by
  induction h with
  | all => rfl
  | part _ hroom _ _ ih =>
    rw [List.length_append, ih]
    omega
  | pause _ _ _ _ ih => exact ih

section
variable {data left : List UInt8} {last : Rat}

/-- On such answers the loop returns with their bytes, and these are what it has taken. -/
theorem Comes.returns {n : Nat} {receives rest : List Answer} {bytes : List UInt8} (h : Comes n last receives bytes)
    (hn : left.length = n) (hsize : (data ++ left).length < 2 ^ 64)
    (hfits : Answered (receiving data left (last + timeout)) (receives ++ rest)) :
    Returns (receiving data left (last + timeout)) receives (some (data ++ bytes)) ∧
      taken (trace (receiving data left (last + timeout)) receives) = bytes := by
  induction h generalizing data left with
  | all last =>
    rw [List.eq_nil_of_length_eq_zero hn, receiving_full, List.append_nil]
    exact ⟨.pure _, rfl⟩
  | @part n last moved checked lastError filled bytes answers hfilled hroom hintime _ ih =>
    have hleft : left ≠ [] := by
      rintro rfl
      exact hfilled (List.eq_nil_of_length_eq_zero (by rw [List.length_nil] at hn; omega))
    obtain ⟨hfit, hrest⟩ := hfits.step (receiving_call hleft)
    subst hn
    have hcount : filled.length < 2 ^ 31 := by
      obtain ⟨-, rfl⟩ | ⟨-, hle, -⟩ := hfit
      · exact absurd rfl hfilled
      · exact_mod_cast hle.trans_lt (intOfSize_lt left.length)
    have hnext := @receiving_part _ _ (last + timeout) _ _ hleft hsize _ hfilled hroom hcount lastError hintime
    rw [hnext] at hrest
    obtain ⟨hreturns, htaken⟩ := ih List.length_drop (by rw [length_room hroom]; exact hsize) hrest
    rw [← hnext] at hreturns
    refine ⟨.step (receiving_call hleft) (by rw [← List.append_assoc]; exact hreturns), ?_⟩
    rw [trace_cons (receiving_call hleft), hnext, taken, List.flatMap_cons, ← taken, htaken]
    rfl
  | @pause n last moved checked lastError bytes answers hpos hcode hintime _ ih =>
    have hleft : left ≠ [] := List.length_pos_iff.mp (by omega)
    obtain ⟨-, hrest⟩ := hfits.step (receiving_call hleft)
    have hnext := @receiving_pause data left _ moved _ hleft _ hcode hintime
    rw [hnext] at hrest
    obtain ⟨hreturns, htaken⟩ := ih hn hsize hrest
    rw [← hnext] at hreturns
    refine ⟨.step (receiving_call hleft) hreturns, ?_⟩
    rw [trace_cons (receiving_call hleft), hnext, taken, List.flatMap_cons, ← taken, htaken]
    rfl

/-- The loop from any place on: what it has taken fits behind what there is, it returns
bytes only when they come, and throws only for a code that is not in the table. -/
theorem receiving_run (hsize : (data ++ left).length < 2 ^ 64) {answers : List Answer}
    (h : Answered (receiving data left (last + timeout)) answers) :
    (taken (trace (receiving data left (last + timeout)) answers)).length ≤ left.length ∧
      (∀ message rest, receiving data left (last + timeout) answers = .done (some message) rest →
        ∃ receives bytes, answers = receives ++ rest ∧ message = data ++ bytes ∧
          Comes left.length last receives bytes) ∧
      ∀ fault rest, receiving data left (last + timeout) answers = .throws fault rest → fault = .threw .outOfRange ∧
        ∃ lastError moved checked, .recv SOCKET_ERROR [] lastError moved checked ∈ answers ∧
          ¬ WinsockErrorDesc.Known lastError := by
  induction answers generalizing data left last with
  | nil =>
    refine ⟨Nat.zero_le _, fun message rest hdone => ?_, fun fault rest hthrows => ?_⟩
    · by_cases hleft : left = []
      · subst hleft
        rw [receiving_full] at hdone
        cases hdone
        exact ⟨[], [], rfl, (List.append_nil _).symm, .all last⟩
      · rw [receiving, receiveLoop, if_pos (room_left hleft)] at hdone
        cases hdone
    · rw [receiving, receiveLoop] at hthrows
      split at hthrows <;> cases hthrows
  | cons answer answers ih =>
    by_cases hleft : left = []
    · subst hleft
      rw [receiving_full] at h ⊢
      refine ⟨?_, fun message rest hdone => ?_, fun fault rest hthrows => ?_⟩
      · rw [trace_pure]
        exact le_rfl
      · cases hdone
        exact ⟨[], [], rfl, (List.append_nil _).symm, .all last⟩
      · cases hthrows
    · obtain ⟨hfit, hrest⟩ := h.step (receiving_call hleft)
      have hturn : Turn data left last _ _ := receiving_after hleft hsize hfit
      have hrun : receiving data left (last + timeout) (answer :: answers) =
          (receiving data left (last + timeout)).after answer answers := rfl
      rw [hrun, trace_cons (receiving_call hleft), taken, List.flatMap_cons, ← taken]
      -- From here on the next program is known only by what the turn says of it.
      generalize (receiving data left (last + timeout)).after answer = next at hturn hrest
      cases hturn with
      | part hfilled hroom hintime =>
        rename_i filled lastError moved checked
        obtain ⟨htaken, hdone, hthrows⟩ := ih (by rw [length_room hroom]; exact hsize) hrest
        rw [List.length_drop] at htaken
        refine ⟨?_, fun message rest hmessage => ?_, fun fault rest hfault => ?_⟩
        · rw [List.length_append]
          exact (Nat.add_le_add_left htaken filled.length).trans (by omega)
        · obtain ⟨receives, bytes, rfl, rfl, hcomes⟩ := hdone message rest hmessage
          rw [List.length_drop] at hcomes
          exact ⟨_ :: receives, filled ++ bytes, rfl, List.append_assoc .., .part hfilled hroom hintime hcomes⟩
        · obtain ⟨rfl, code, moved, checked, hmem, hcode⟩ := hthrows fault rest hfault
          exact ⟨rfl, code, moved, checked, List.mem_cons_of_mem _ hmem, hcode⟩
      | pause hcode hintime =>
        obtain ⟨htaken, hdone, hthrows⟩ := ih hsize hrest
        refine ⟨htaken, fun message rest hmessage => ?_, fun fault rest hfault => ?_⟩
        · obtain ⟨receives, bytes, rfl, rfl, hcomes⟩ := hdone message rest hmessage
          exact ⟨_ :: receives, bytes, rfl, rfl, .pause (List.length_pos_iff.mpr hleft) hcode hintime hcomes⟩
        · obtain ⟨rfl, code, moved, checked, hmem, hcode⟩ := hthrows fault rest hfault
          exact ⟨rfl, code, moved, checked, List.mem_cons_of_mem _ hmem, hcode⟩
      | fails hroom =>
        refine ⟨?_, fun message rest hdone => ?_, fun fault rest hthrows => ?_⟩
        · rw [trace_pure, List.length_append]
          exact hroom
        · cases hdone
        · cases hthrows
      | throws hcode =>
        refine ⟨?_, fun message rest hdone => ?_, fun fault rest hthrows => ?_⟩
        · have hnone : trace (throwing (.threw .outOfRange) : RawProgram (Option (List UInt8))) answers = [] := by
            cases answers <;> rfl
          rw [hnone]
          exact Nat.zero_le _
        · cases hdone
        · cases hthrows
          exact ⟨rfl, _, _, _, List.mem_cons_self, hcode⟩

end

/-- Where the loop is, with the memory of `size` bytes: it has not stopped, or it is at its
end. -/
inductive Reached (size : Nat) : RawProgram (Option (List UInt8)) → Prop where
  | loop (data left : List UInt8) (last : Rat) (hsize : (data ++ left).length = size) :
    Reached size (receiving data left (last + timeout))
  | failed : Reached size (Pure.pure none)
  | thrown : Reached size (throwing (.threw .outOfRange))

/-- Only the loop that has not stopped makes a call. -/
theorem Reached.calls {size : Nat} {p : RawProgram (Option (List UInt8))} {call : Call} (h : Reached size p)
    (hcall : p.call = some call) : ∃ data left last, left ≠ [] ∧ (data ++ left).length = size ∧
      p = receiving data left (last + timeout) ∧ call = .recv data.length (intOfSize left.length) := by
  cases h with
  | failed | thrown => cases hcall
  | loop data left last hsize =>
    by_cases hleft : left = []
    · subst hleft
      rw [receiving_full, call_pure] at hcall
      cases hcall
    · rw [receiving_call hleft] at hcall
      cases hcall
      exact ⟨data, left, last, hleft, hsize, rfl, rfl⟩

/-- No call writes behind the memory. -/
theorem receiving_inBounds {memory : List UInt8} {last : Rat} (hsize : memory.length < 2 ^ 64) {answers : List Answer}
    (h : Answered (receiving [] memory (last + timeout)) answers) :
    ∀ e ∈ trace (receiving [] memory (last + timeout)) answers, e.1.InBounds memory.length := by
  refine h.forall_trace (I := Reached memory.length) (fun p call hp hcall => ?_)
    (fun p call answer hp hcall hfit => ?_) (.loop [] memory last rfl)
  · obtain ⟨data, left, last, -, hmemory, -, rfl⟩ := hp.calls hcall
    have hle := intOfSize_le left.length
    rw [List.length_append] at hmemory
    show (data.length + intOfSize left.length : Int) ≤ memory.length
    omega
  · obtain ⟨data, left, last, hleft, hmemory, rfl, rfl⟩ := hp.calls hcall
    have hturn : Turn data left last _ _ := receiving_after hleft (hmemory ▸ hsize) hfit
    generalize (receiving data left (last + timeout)).after answer = next at hturn
    cases hturn with
    | part _ hroom _ => exact .loop _ _ _ (by rw [length_room hroom, hmemory])
    | pause => exact .loop _ _ _ hmemory
    | fails => exact .failed
    | throws => exact .thrown

/-! ### Every run ends -/

/-- The answers are documented, and the clock that is read runs on without a bound. -/
structure Clocked (clock : Nat → Rat) (env : Environment Call Answer) : Prop where
  fits : ∀ k call, Fits call (env k call)
  reads : ∀ k call result filled lastError moved checked, env k call = .recv result filled lastError moved checked →
    moved = clock (2 * k) ∧ checked = clock (2 * k + 1)
  monotone : Monotone clock
  unbounded : ∀ time, ∃ n, time < clock n

theorem Clocked.late {clock : Nat → Rat} {env : Environment Call Answer} (h : Clocked clock env) (deadline : Rat) :
    ∃ n, ∀ k ≥ n, ∀ call result filled lastError moved checked,
      env k call = .recv result filled lastError moved checked → deadline < checked := by
  obtain ⟨n, hn⟩ := h.unbounded deadline
  refine ⟨n, fun k hk call result filled lastError moved checked hanswer => ?_⟩
  obtain ⟨-, rfl⟩ := h.reads k call result filled lastError moved checked hanswer
  exact hn.trans_le (h.monotone (by omega))

/-- A turn moves bytes, ends the loop, or is before the deadline; so the bytes that are
missing are counted down, and before each of them the turns to the deadline. -/
theorem receiving_ends {clock : Nat → Rat} {env : Environment Call Answer} (h : Clocked clock env)
    (data left : List UInt8) (last : Rat) (hsize : (data ++ left).length < 2 ^ 64) (k : Nat) :
    Ends env (receiving data left (last + timeout)) k := by
  generalize hmissing : left.length = missing
  induction missing using Nat.strong_induction_on generalizing data left last k with
  | _ missing ih =>
    by_cases hleft : left = []
    · rw [hleft, receiving_full]
      exact .pure _ _
    have hpos := List.length_pos_iff.mpr hleft
    have hmore : ∀ {filled : List UInt8} {moved : Rat} (k : Nat), filled ≠ [] → filled.length ≤ left.length →
        Ends env (receiving (data ++ filled) (left.drop filled.length) (moved + timeout)) k := by
      intro filled moved k hfilled hroom
      have := List.length_pos_iff.mpr hfilled
      exact ih _ (by rw [List.length_drop]; omega) _ _ _ (by rw [length_room hroom]; exact hsize) _ rfl
    obtain ⟨late, hlate⟩ := h.late (last + timeout)
    refine Ends.retries (receiving_call hleft) (le_max_left k late) fun k' _ => ?_
    have hfit := h.fits k' (.recv data.length (intOfSize left.length))
    have hturn : Turn data left last _ _ := receiving_after hleft hsize hfit
    generalize hanswer : env k' (.recv data.length (intOfSize left.length)) = answer at hturn
    generalize (receiving data left (last + timeout)).after answer = next at hturn
    cases hturn with
    | part hfilled hroom _ => exact .inl (hmore _ hfilled hroom)
    | pause hcode hintime =>
      refine .inr ⟨?_, rfl⟩
      rintro rfl
      exact absurd (hlate _ (le_max_right k late) _ _ _ _ _ _ hanswer) (not_lt.mpr hintime)
    | fails => exact .inl (.pure _ _)
    | throws => exact .inl (.throwing _ _)

/-! ### The result -/

/-- An error has a code that the table describes. -/
def Described : Answer → Prop
  | .recv result _ lastError _ _ => result = SOCKET_ERROR → WinsockErrorDesc.Known lastError
  | _ => True

theorem readAllSocketData_eq (sizeExpected : Nat) :
    readAllSocketData sizeExpected = (getTime >>= fun now =>
      if sizeExpected < 1 then Pure.pure (some [])
      else malloc sizeExpected >>= fun memory => match memory with
        | none => Pure.pure none
        | some memory => receiveLoop sizeExpected memory 0 0 (now + timeout)) := rfl

theorem granted_range {sizeExpected : Nat} (hsize : sizeExpected < 2 ^ 63) {memory : List UInt8}
    (hmemory : memory.length = sizeExpected) : (([] : List UInt8) ++ memory).length < 2 ^ 64 := by
  rw [List.nil_append, hmemory]
  exact hsize.trans (by decide)

section
variable {sizeExpected : Nat} (hpos : 1 ≤ sizeExpected) (hsize : sizeExpected < 2 ^ 63)
include hpos

theorem readAllSocketData_now (now : Rat) :
    (readAllSocketData sizeExpected).after (.getTime now) = (malloc sizeExpected >>= fun memory => match memory with
      | none => Pure.pure none
      | some memory => receiveLoop sizeExpected memory 0 0 (now + timeout)) := by
  rw [readAllSocketData_eq, bind_after]
  exact if_neg (Nat.not_lt.mpr hpos)

theorem readAllSocketData_call_malloc (now : Rat) :
    ((readAllSocketData sizeExpected).after (.getTime now)).call = some (.malloc sizeExpected) := by
  rw [readAllSocketData_now hpos]
  exact call_bind_of_call rfl _

theorem readAllSocketData_denied (now : Rat) :
    ((readAllSocketData sizeExpected).after (.getTime now)).after (.malloc none) = Pure.pure none := by
  have hdenied : (malloc sizeExpected).after (.malloc none) = Pure.pure none := by
    funext rest
    exact congrArg (Progress.done · rest) (ite_self _)
  rw [readAllSocketData_now hpos, bind_after, hdenied]
  rfl

include hsize

theorem readAllSocketData_granted (now : Rat) {memory : List UInt8} (hmemory : memory.length = sizeExpected) :
    ((readAllSocketData sizeExpected).after (.getTime now)).after (.malloc (some memory)) =
      receiving [] memory (now + timeout) := by
  have hgranted : (malloc sizeExpected).after (.malloc (some memory)) = Pure.pure (some memory) := by
    funext rest
    exact congrArg (Progress.done · rest) (if_pos hsize)
  rw [readAllSocketData_now hpos, bind_after, hgranted, ← hmemory]
  rfl

/-- A run of the loop, or one that has stopped before it. -/
theorem readAllSocketData_run {answers : List Answer} (h : Answered (readAllSocketData sizeExpected) answers) :
    (∃ now memory rest, answers = .getTime now :: .malloc (some memory) :: rest ∧ memory.length = sizeExpected ∧
      Answered (receiving [] memory (now + timeout)) rest ∧
      readAllSocketData sizeExpected answers = receiving [] memory (now + timeout) rest ∧
      trace (readAllSocketData sizeExpected) answers = (.getTime, .getTime now) ::
        (.malloc sizeExpected, .malloc (some memory)) :: trace (receiving [] memory (now + timeout)) rest) ∨
    (taken (trace (readAllSocketData sizeExpected) answers) = [] ∧
      (∀ e ∈ trace (readAllSocketData sizeExpected) answers, e.1.InBounds sizeExpected) ∧
      ((∃ call, readAllSocketData sizeExpected answers = .asks call) ∨
        ∃ rest, readAllSocketData sizeExpected answers = .done none rest)) := by
  have hcall : (readAllSocketData sizeExpected).call = some .getTime := rfl
  cases answers with
  | nil => exact .inr ⟨rfl, fun e he => absurd he List.not_mem_nil, .inl ⟨_, rfl⟩⟩
  | cons answer answers =>
    obtain ⟨hfit, hrest⟩ := h.step hcall
    cases answer with
    | malloc | recv | send => exact hfit.elim
    | getTime now =>
      have hmalloc := readAllSocketData_call_malloc hpos now
      have hrun : readAllSocketData sizeExpected (.getTime now :: answers) =
          (readAllSocketData sizeExpected).after (.getTime now) answers := rfl
      rw [hrun, trace_cons hcall]
      cases answers with
      | nil =>
        refine .inr ⟨rfl, fun e he => ?_, .inl ⟨.malloc sizeExpected, ?_⟩⟩
        · rw [List.mem_singleton.mp he]
          trivial
        · rw [readAllSocketData_now hpos]
          rfl
      | cons answer answers =>
        obtain ⟨hfit', hrest'⟩ := hrest.step hmalloc
        cases answer with
        | getTime | recv | send => exact hfit'.elim
        | malloc memory =>
          have hrun' : (readAllSocketData sizeExpected).after (.getTime now) (.malloc memory :: answers) =
              ((readAllSocketData sizeExpected).after (.getTime now)).after (.malloc memory) answers := rfl
          rw [hrun', trace_cons hmalloc]
          cases memory with
          | none =>
            rw [readAllSocketData_denied hpos, trace_pure]
            refine .inr ⟨rfl, fun e he => ?_, .inr ⟨answers, rfl⟩⟩
            obtain rfl | he := List.mem_cons.mp he
            · trivial
            · rw [List.mem_singleton.mp he]
              trivial
          | some memory =>
            have hmemory : memory.length = sizeExpected := hfit' memory rfl
            rw [readAllSocketData_granted hpos hsize now hmemory] at hrest' ⊢
            exact .inl ⟨now, memory, answers, rfl, hmemory, hrest', rfl, rfl⟩

theorem readAllSocketData_ends {clock : Nat → Rat} {env : Environment Call Answer} (h : Clocked clock env) (k : Nat) :
    Ends env (readAllSocketData sizeExpected) k := by
  refine .step rfl ?_
  have hfit := h.fits k .getTime
  cases hanswer : env k .getTime with
  | malloc | recv | send => exact (hanswer ▸ hfit).elim
  | getTime now =>
    refine .step (readAllSocketData_call_malloc hpos now) ?_
    have hfit' := h.fits (k + 1) (.malloc sizeExpected)
    cases hanswer' : env (k + 1) (.malloc sizeExpected) with
    | getTime | recv | send => exact (hanswer' ▸ hfit').elim
    | malloc memory =>
      cases memory with
      | none =>
        rw [readAllSocketData_denied hpos]
        exact .pure _ _
      | some memory =>
        rw [hanswer'] at hfit'
        have hmemory : memory.length = sizeExpected := hfit' memory rfl
        rw [readAllSocketData_granted hpos hsize now hmemory]
        exact receiving_ends h [] memory now (granted_range hsize hmemory) _

/-- On such answers it returns with their bytes, and these are what it has taken. -/
theorem Comes.read {now : Rat} {memory message : List UInt8} {receives rest : List Answer}
    (hcomes : Comes sizeExpected now receives message)
    (h : Answered (readAllSocketData sizeExpected) (.getTime now :: .malloc (some memory) :: (receives ++ rest))) :
    readAllSocketData sizeExpected (.getTime now :: .malloc (some memory) :: (receives ++ rest)) =
        .done (some message) rest ∧
      taken (trace (readAllSocketData sizeExpected) (.getTime now :: .malloc (some memory) :: (receives ++ rest))) =
        message := by
  have hcall : (readAllSocketData sizeExpected).call = some .getTime := rfl
  have hmalloc := readAllSocketData_call_malloc hpos now
  obtain ⟨-, hrest⟩ := h.step hcall
  obtain ⟨hfit, hrest⟩ := hrest.step hmalloc
  have hmemory : memory.length = sizeExpected := hfit memory rfl
  have hgranted := readAllSocketData_granted hpos hsize now hmemory
  rw [hgranted] at hrest
  obtain ⟨hreturns, htaken⟩ := hcomes.returns hmemory (granted_range hsize hmemory) hrest
  constructor
  · have hdone := hreturns.done rest
    rw [← hgranted] at hdone
    exact hdone
  · rw [trace_cons hcall, trace_cons hmalloc, hgranted, hreturns.trace_append]
    exact htaken

/-- It returns bytes only on such answers. -/
theorem readAllSocketData_comes {answers rest : List Answer} {message : List UInt8}
    (h : Answered (readAllSocketData sizeExpected) answers)
    (hdone : readAllSocketData sizeExpected answers = .done (some message) rest) :
    ∃ now memory receives, answers = .getTime now :: .malloc (some memory) :: (receives ++ rest) ∧
      Comes sizeExpected now receives message := by
  obtain ⟨now, memory, turns, rfl, hmemory, hfits, hrun, -⟩ | ⟨-, -, ⟨call, hasks⟩ | ⟨left, hnone⟩⟩ :=
    readAllSocketData_run hpos hsize h
  · rw [hrun] at hdone
    obtain ⟨-, hbytes, -⟩ := receiving_run (granted_range hsize hmemory) hfits
    obtain ⟨receives, bytes, rfl, rfl, hcomes⟩ := hbytes message rest hdone
    exact ⟨now, memory, receives, rfl, hmemory ▸ hcomes⟩
  · rw [hasks] at hdone
    cases hdone
  · rw [hnone] at hdone
    cases hdone

theorem readAllSocketData_taken_le {answers : List Answer} (h : Answered (readAllSocketData sizeExpected) answers) :
    (taken (trace (readAllSocketData sizeExpected) answers)).length ≤ sizeExpected := by
  obtain ⟨now, memory, turns, rfl, rfl, hfits, -, htrace⟩ | ⟨hnone, -, -⟩ := readAllSocketData_run hpos hsize h
  · rw [htrace]
    exact (receiving_run (granted_range hsize rfl) hfits).1
  · rw [hnone]
    exact Nat.zero_le _

theorem readAllSocketData_inBounds {answers : List Answer} (h : Answered (readAllSocketData sizeExpected) answers) :
    ∀ e ∈ trace (readAllSocketData sizeExpected) answers, e.1.InBounds sizeExpected := by
  obtain ⟨now, memory, turns, rfl, rfl, hfits, -, htrace⟩ | ⟨-, hinBounds, -⟩ := readAllSocketData_run hpos hsize h
  · rw [htrace]
    intro e he
    obtain rfl | he := List.mem_cons.mp he
    · trivial
    obtain rfl | he := List.mem_cons.mp he
    · trivial
    · exact receiving_inBounds (granted_range hsize rfl) hfits e he
  · exact hinBounds

theorem readAllSocketData_throws {answers rest : List Answer} {fault : Fault}
    (h : Answered (readAllSocketData sizeExpected) answers)
    (hthrows : readAllSocketData sizeExpected answers = .throws fault rest) :
    fault = .threw .outOfRange ∧ ∃ answer ∈ answers, ¬ Described answer := by
  obtain ⟨now, memory, turns, rfl, hmemory, hfits, hrun, -⟩ | ⟨-, -, ⟨call, hasks⟩ | ⟨left, hnone⟩⟩ :=
    readAllSocketData_run hpos hsize h
  · rw [hrun] at hthrows
    obtain ⟨-, -, hfault⟩ := receiving_run (granted_range hsize hmemory) hfits
    obtain ⟨rfl, lastError, moved, checked, hmem, hcode⟩ := hfault fault rest hthrows
    exact ⟨rfl, _, List.mem_cons_of_mem _ (List.mem_cons_of_mem _ hmem), fun hdescribed => hcode (hdescribed rfl)⟩
  · rw [hasks] at hthrows
    cases hthrows
  · rw [hnone] at hthrows
    cases hthrows

end

/-- **A message is reassembled.** It is returned exactly when all of it comes, and it then
is what the stream starts with, and no later byte is taken. No run takes more bytes than
are expected, or writes outside the memory; when the errors have codes of the table none
throws, and with a clock that runs on every run returns. -/
theorem reassembles_exactly (sizeExpected : Nat) (hpos : 1 ≤ sizeExpected) (hsize : sizeExpected < 2 ^ 63) :
    (∀ answers, Answered (readAllSocketData sizeExpected) answers →
      (∀ message rest, readAllSocketData sizeExpected answers = .done (some message) rest ↔
        ∃ now memory receives, answers = .getTime now :: .malloc (some memory) :: (receives ++ rest) ∧
          Comes sizeExpected now receives message) ∧
      (∀ message rest stream, readAllSocketData sizeExpected answers = .done (some message) rest →
        taken (trace (readAllSocketData sizeExpected) answers) <+: stream →
        message = stream.take sizeExpected ∧ taken (trace (readAllSocketData sizeExpected) answers) = message) ∧
      (taken (trace (readAllSocketData sizeExpected) answers)).length ≤ sizeExpected ∧
      (∀ e ∈ trace (readAllSocketData sizeExpected) answers, e.1.InBounds sizeExpected) ∧
      (∀ rest, readAllSocketData sizeExpected answers ≠ .throws .outOfBounds rest) ∧
      ((∀ answer ∈ answers, Described answer) → ∀ fault rest,
        readAllSocketData sizeExpected answers ≠ .throws fault rest)) ∧
    ∀ clock env, Clocked clock env → (∀ k call, Described (env k call)) → ∃ n result rest,
      readAllSocketData sizeExpected (answersFrom env (readAllSocketData sizeExpected) 0 n) = .done result rest := by
  refine ⟨fun answers h => ⟨fun message rest => ⟨readAllSocketData_comes hpos hsize h, ?_⟩,
    fun message rest stream hdone hstream => ?_, readAllSocketData_taken_le hpos hsize h,
    readAllSocketData_inBounds hpos hsize h, fun rest hthrows => ?_, fun hdescribed fault rest hthrows => ?_⟩,
    fun clock env h hdescribed => ?_⟩
  · rintro ⟨now, memory, receives, rfl, hcomes⟩
    exact (hcomes.read hpos hsize h).1
  · obtain ⟨now, memory, receives, rfl, hcomes⟩ := readAllSocketData_comes hpos hsize h hdone
    have htaken := (hcomes.read hpos hsize h).2
    rw [htaken] at hstream
    refine ⟨?_, htaken⟩
    rw [List.prefix_iff_eq_take.mp hstream, hcomes.length]
  · obtain ⟨hfault, -⟩ := readAllSocketData_throws hpos hsize h hthrows
    cases hfault
  · obtain ⟨-, answer, hmem, hcode⟩ := readAllSocketData_throws hpos hsize h hthrows
    exact hcode (hdescribed answer hmem)
  · obtain ⟨n, hn⟩ := (readAllSocketData_ends hpos hsize h 0).not_asks
    refine ⟨n, ?_⟩
    cases hrun : readAllSocketData sizeExpected (answersFrom env (readAllSocketData sizeExpected) 0 n) with
    | done result rest => exact ⟨result, rest, rfl⟩
    | asks call => exact absurd hrun (hn call)
    | throws fault rest =>
      obtain ⟨-, answer, hmem, hcode⟩ :=
        readAllSocketData_throws hpos hsize (answeredBy_answersFrom h.fits _ 0 n) hrun
      obtain ⟨k, call, rfl⟩ := mem_answersFrom hmem
      exact absurd (hdescribed k call) hcode

/-- Three bytes in two parts, each after a pause. -/
def inParts : List Answer := [
  .getTime 0, .malloc (some [0, 0, 0]), .recv SOCKET_ERROR [] WSAEWOULDBLOCK 10 11, .recv 1 [65] 0 14 15,
  .recv SOCKET_ERROR [] WSAEINPROGRESS 28 29, .recv 2 [66, 67] 0 29 30]

/-- A socket on which nothing comes, and a clock that counts the calls. -/
def silent (k : Nat) : Call → Answer
  | .malloc size => .malloc (some (List.replicate size 0))
  | .getTime => .getTime k
  | .recv _ _ => .recv SOCKET_ERROR [] WSAEWOULDBLOCK (2 * k : Nat) (2 * k + 1 : Nat)
  | .send _ _ => .send SOCKET_ERROR WSAEWOULDBLOCK

theorem silent_clocked : Clocked (fun n => n) silent where
  fits k call := by
    cases call with
    | malloc size =>
      intro bytes hbytes
      cases hbytes
      exact List.length_replicate
    | getTime => trivial
    | recv => exact .inl ⟨rfl, rfl⟩
    | send => exact .inl rfl
  reads k call result filled lastError moved checked h := by
    cases call with
    | recv =>
      cases h
      exact ⟨rfl, rfl⟩
    | malloc | getTime | send => cases h
  monotone := Nat.mono_cast
  unbounded := exists_nat_gt

theorem reassembles_exactly_inParts :
    readAllSocketData 3 inParts = .done (some [65, 66, 67]) [] ∧
      taken (trace (readAllSocketData 3) inParts) = [65, 66, 67] ∧
      ∃ n result rest, readAllSocketData 3 (answersFrom silent (readAllSocketData 3) 0 n) = .done result rest := by
  obtain ⟨hruns, hends⟩ := reassembles_exactly 3 (by decide) (by decide)
  have hfits : Answered (readAllSocketData 3) inParts := by
    unfold Answered AnsweredBy
    decide +kernel
  obtain ⟨hdone, hstream, -⟩ := hruns inParts hfits
  have hsecond : Comes 2 14 [.recv 2 [66, 67] 0 29 30] ([66, 67] ++ []) :=
    @Comes.part 2 14 29 30 0 [66, 67] [] [] (by decide) (by decide) (by decide +kernel) (.all 29)
  have hcomes : Comes 3 0 (inParts.drop 2) ([65] ++ ([66, 67] ++ [])) :=
    .pause (by decide) (.inl rfl) (by decide +kernel) (@Comes.part 3 0 14 15 0 [65] _ _ (by decide) (by decide)
      (by decide +kernel) (.pause (by decide) (.inr rfl) (by decide +kernel) hsecond))
  have hmessage : readAllSocketData 3 inParts = .done (some [65, 66, 67]) [] :=
    (hdone _ _).mpr ⟨0, [0, 0, 0], inParts.drop 2, rfl, hcomes⟩
  refine ⟨hmessage, ?_, hends _ silent silent_clocked fun k call => ?_⟩
  · exact (hstream _ _ _ hmessage (List.prefix_refl _)).2
  · cases call with
    | recv => exact fun _ => by decide
    | malloc | getTime | send => trivial

/-- The same with the silence measured from one part to the next. -/
inductive Gapless : Nat → Rat → List Answer → List UInt8 → Prop where
  | all (last : Rat) : Gapless 0 last [] []
  | part {n : Nat} {last moved checked : Rat} {lastError : Int} {filled bytes : List UInt8} {answers : List Answer}
    (hfilled : filled ≠ []) (hroom : filled.length ≤ n) (hgap : moved ≤ last + timeout)
    (hrest : Gapless (n - filled.length) moved answers bytes) :
    Gapless n last (.recv filled.length filled lastError moved checked :: answers) (filled ++ bytes)
  | pause {n : Nat} {last moved checked : Rat} {lastError : Int} {bytes : List UInt8} {answers : List Answer} (hn : 0 < n)
    (hcode : lastError = WSAEWOULDBLOCK ∨ lastError = WSAEINPROGRESS) (hrest : Gapless n last answers bytes) :
    Gapless n last (.recv SOCKET_ERROR [] lastError moved checked :: answers) bytes

theorem Gapless.gap {n : Nat} {last : Rat} {receives answers : List Answer} {bytes filled : List UInt8} {result lastError : Int}
    {moved checked : Rat} (h : Gapless n last receives bytes)
    (hreceives : receives = .recv result filled lastError moved checked :: answers) (hfilled : filled ≠ []) :
    moved ≤ last + timeout := by
  cases h with
  | all => cases hreceives
  | part _ _ hgap _ =>
    cases hreceives
    exact hgap
  | pause =>
    cases hreceives
    exact absurd rfl hfilled

/-- A part that comes after sixteen seconds is taken, and one that comes at once is lost
when the clock is checked sixteen seconds after it. -/
theorem late_part_taken :
    Answered (readAllSocketData 1) [.getTime 0, .malloc (some [0]), .recv 1 [65] 0 16 16] ∧
      readAllSocketData 1 [.getTime 0, .malloc (some [0]), .recv 1 [65] 0 16 16] = .done (some [65]) [] ∧
      ¬ Gapless 1 0 [.recv 1 [65] 0 16 16] [65] ∧
    Answered (readAllSocketData 1) [.getTime 0, .malloc (some [0]), .recv 1 [65] 0 1 17] ∧
      readAllSocketData 1 [.getTime 0, .malloc (some [0]), .recv 1 [65] 0 1 17] = .done none [] ∧
      Gapless 1 0 [.recv 1 [65] 0 1 17] [65] := by
  have hlate : ¬ (16 : Rat) ≤ 0 + timeout := by decide +kernel
  have hsoon : (1 : Rat) ≤ 0 + timeout := by decide +kernel
  refine ⟨?_, by decide +kernel, fun h => ?_, ?_, by decide +kernel,
    @Gapless.part 1 0 1 17 0 [65] [] [] (by decide) (by decide) hsoon (.all 1)⟩
  · unfold Answered AnsweredBy
    decide +kernel
  · exact hlate (h.gap rfl (by decide))
  · unfold Answered AnsweredBy
    decide +kernel

/-! ### The loop over lists -/

/-- A reading of whole milliseconds. -/
def Whole (time : Rat) : Prop := (milliseconds time : Rat) = 1000 * time

def Answer.Whole : Answer → Prop
  | .getTime now => Raw.Whole now
  | .recv _ _ _ moved checked => Raw.Whole moved ∧ Raw.Whole checked
  | _ => True

theorem Whole.timeout {time : Rat} (h : Whole time) :
    milliseconds (time + Raw.timeout) = milliseconds time + Socket.timeout := by
  have hsum : 1000 * (time + Raw.timeout) = ((milliseconds time + Socket.timeout : Nat) : Rat) := by
    rw [mul_add, ← h, Nat.cast_add]
    congr 1
    norm_num [Raw.timeout, Socket.timeout]
  rw [milliseconds, hsum, Int.floor_natCast, Int.toNat_natCast]

theorem Whole.later {time : Rat} (h : Whole time) : Whole (time + Raw.timeout) := by
  rw [Whole, h.timeout, Nat.cast_add, h, mul_add]
  congr 1
  norm_num [Raw.timeout, Socket.timeout]

theorem Whole.lt {s t : Rat} (hs : Whole s) (ht : Whole t) : milliseconds s < milliseconds t ↔ s < t := by
  rw [← Nat.cast_lt (α := Rat), hs, ht]
  exact mul_lt_mul_iff_right₀ (by norm_num)

/-- The loop with the pointer does what the loop over the bytes does, on readings of whole
milliseconds. -/
theorem receiving_matches {data left : List UInt8} {last : Rat} {answers : List Answer}
    (hsize : (data ++ left).length < 2 ^ 64) (h : Answered (receiving data left (last + timeout)) answers)
    (hlast : Whole last) (hwhole : ∀ answer ∈ answers, answer.Whole) (buffer : List UInt8) :
    Matches buffer (receiving data left (last + timeout) answers)
      (Socket.receiveLoop (data ++ left).length data (milliseconds last + Socket.timeout) (answers.map Answer.listed)) := by
  induction answers generalizing data left last with
  | nil =>
    by_cases hleft : left = []
    · subst hleft
      rw [receiving_full, List.append_nil, Socket.receiveLoop_full le_rfl]
      exact .done (some data) []
    · have hlt := @room_left data left hleft
      have hroom : (data ++ left).length - data.length = left.length := by
        rw [List.length_append]
        omega
      rw [receiving, receiveLoop, if_pos hlt, List.map_nil, Socket.receiveLoop, if_pos hlt]
      exact .asks (.recv data.length _)
  | cons answer answers ih =>
    by_cases hleft : left = []
    · subst hleft
      rw [receiving_full, List.append_nil, Socket.receiveLoop_full le_rfl]
      exact .done (some data) (answer :: answers)
    have hlt := @room_left data left hleft
    obtain ⟨hfit, hrest⟩ := h.step (receiving_call hleft)
    have hlater := fun answer hmem => hwhole answer (List.mem_cons_of_mem _ hmem)
    cases answer with
    | malloc | getTime | send => exact hfit.elim
    | recv result filled lastError moved checked =>
      obtain ⟨hmoved, hchecked⟩ := hwhole _ List.mem_cons_self
      obtain ⟨rfl, rfl⟩ | ⟨-, hle, hlength⟩ := hfit
      · have hlate := hlast.later.lt hchecked
        rw [hlast.timeout] at hlate
        have herror : (Answer.recv SOCKET_ERROR [] lastError moved checked).listed =
            .recv (.error lastError) (milliseconds moved) (milliseconds checked) := rfl
        rw [List.map_cons, herror, receiving_error hleft, Socket.receiveLoop, if_pos hlt]
        by_cases hchecked : checked > last + timeout
        · simp only [if_pos hchecked, if_pos (hlate.mpr hchecked)]
          exact .done none answers
        · simp only [if_neg hchecked, if_neg (mt hlate.mp hchecked)]
          by_cases hcode : lastError = WSAEWOULDBLOCK ∨ lastError = WSAEINPROGRESS
          · rw [receiving_pause hleft hcode (not_lt.mp hchecked)] at hrest
            rw [if_pos hcode, if_pos hcode]
            exact ih hsize hrest hlast hlater
          · rw [if_neg hcode, if_neg hcode]
            cases WinsockErrorDesc.get lastError with
            | none => exact .throws .outOfRange answers
            | some name => exact .done none answers
      · rw [← hlength] at hle hrest ⊢
        have hroom : filled.length ≤ left.length := by exact_mod_cast hle.trans (intOfSize_le left.length)
        have hcount : filled.length < 2 ^ 31 := by exact_mod_cast hle.trans_lt (intOfSize_lt left.length)
        have hlisted : (Answer.recv filled.length filled lastError moved checked).listed =
            .recv (.bytes filled) (milliseconds moved) (milliseconds checked) := by
          have herror : (filled.length : Int) ≠ SOCKET_ERROR := by
            unfold SOCKET_ERROR
            omega
          rw [Answer.listed, if_neg herror]
        rw [List.map_cons, hlisted, Socket.receiveLoop, if_pos hlt]
        by_cases hfilled : filled = []
        · subst hfilled
          rw [List.length_nil, Nat.cast_zero, receiving_close hleft]
          simp only [if_true, ite_self]
          exact .done none answers
        · have hlate := hmoved.later.lt hchecked
          rw [hmoved.timeout] at hlate
          rw [receiving_bytes hleft hsize hfilled hroom hcount]
          simp only [ne_eq, hfilled, not_false_eq_true, if_true, if_false]
          by_cases hchecked : checked > moved + timeout
          · rw [if_pos hchecked, if_pos (hlate.mpr hchecked)]
            exact .done none answers
          · rw [receiving_part hleft hsize hfilled hroom hcount lastError (not_lt.mp hchecked)] at hrest
            rw [if_neg hchecked, if_neg (mt hlate.mp hchecked), ← length_room hroom]
            exact ih (by rw [length_room hroom]; exact hsize) hrest hmoved hlater

/-- A read from the socket is a read of the loop over the bytes. -/
theorem readAllSocketData_matches {sizeExpected : Nat} (hpos : 1 ≤ sizeExpected) (hsize : sizeExpected < 2 ^ 63)
    {answers : List Answer} (h : Answered (readAllSocketData sizeExpected) answers)
    (hwhole : ∀ answer ∈ answers, answer.Whole) (buffer : List UInt8) :
    Matches buffer (readAllSocketData sizeExpected answers)
      (Socket.readAllSocketData sizeExpected (answers.map Answer.listed)) := by
  cases answers with
  | nil => exact .asks .getTime
  | cons answer answers =>
    have hcall : (readAllSocketData sizeExpected).call = some .getTime := rfl
    obtain ⟨hfit, hrest⟩ := h.step hcall
    cases answer with
    | malloc | recv | send => exact hfit.elim
    | getTime now =>
      have hnow : Whole now := hwhole _ List.mem_cons_self
      have hlisted : Socket.readAllSocketData sizeExpected ((Answer.getTime now :: answers).map Answer.listed) =
          (if sizeExpected < 1 then Pure.pure (some []) else Socket.malloc sizeExpected >>= fun granted =>
            if granted then Socket.receiveLoop sizeExpected [] (milliseconds now + Socket.timeout)
            else Pure.pure none) (answers.map Answer.listed) := rfl
      rw [hlisted, if_neg (Nat.not_lt.mpr hpos)]
      cases answers with
      | nil =>
        have hrun : readAllSocketData sizeExpected [.getTime now] = .asks (.malloc sizeExpected) :=
          congrFun (readAllSocketData_now hpos now) []
        rw [hrun]
        exact .asks (.malloc sizeExpected)
      | cons answer answers =>
        have hmalloc := readAllSocketData_call_malloc hpos now
        obtain ⟨hfit, hrest⟩ := hrest.step hmalloc
        have hrun : readAllSocketData sizeExpected (.getTime now :: answer :: answers) =
            ((readAllSocketData sizeExpected).after (.getTime now)).after answer answers := rfl
        rw [hrun]
        cases answer with
        | getTime | recv | send => exact hfit.elim
        | malloc memory =>
          cases memory with
          | none =>
            rw [readAllSocketData_denied hpos]
            exact .done none answers
          | some memory =>
            have hmemory : memory.length = sizeExpected := hfit memory rfl
            have hgranted : (Socket.malloc sizeExpected >>= fun granted =>
                if granted then Socket.receiveLoop sizeExpected [] (milliseconds now + Socket.timeout)
                else Pure.pure none) ((Answer.malloc (some memory) :: answers).map Answer.listed) =
                (if decide (sizeExpected < 2 ^ 63) then
                  Socket.receiveLoop sizeExpected [] (milliseconds now + Socket.timeout) else Pure.pure none)
                  (answers.map Answer.listed) := rfl
            rw [readAllSocketData_granted hpos hsize now hmemory] at hrest ⊢
            rw [hgranted, if_pos (decide_eq_true hsize), ← hmemory]
            exact receiving_matches (granted_range hsize hmemory) hrest hnow
              (fun answer hmem => hwhole answer (List.mem_cons_of_mem _ (List.mem_cons_of_mem _ hmem))) buffer

end ScoutingComputer.Socket.Raw
