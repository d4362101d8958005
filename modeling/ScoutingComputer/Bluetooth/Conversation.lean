import ScoutingComputer.Bluetooth.Connection
import ScoutingComputer.Socket.Follows

/-! The order of the bytes of a transaction, which both parties follow.

The computer hears the code and what the tablet sends, and the tablet is told what the
computer sends. The transfers of the computer follow the order to the value that they end
with, and the talk of the tablet exchanges the same bytes. -/
namespace ScoutingComputer.Connection
open Socket

/-! ### The order of a transaction -/

/-- Bytes in the order of a conversation. -/
abbrev Order := List (Byte ⊕ UInt8)

def heard (part : Part) (bytes : List UInt8) : Order := (marked part bytes).map .inl

def told (bytes : List UInt8) : Order := bytes.map .inr

namespace Transaction

/-- The bytes after the code; `data` are those of a sent transaction. -/
def rest (data : List UInt8) : Transaction → Order
  | receive _ payload _ =>
    told Socket.ack ++ (heard .length (bytesOfSize payload.length) ++ (told Socket.ack ++ heard .payload payload))
  | send _ first second =>
    if first then
      told (bytesOfSize data.length) ++
        (heard .ack Socket.ack ++ (told data ++ heard .ack (if second then Socket.ack else nack)))
    else told (bytesOfSize data.length) ++ heard .ack nack

/-- What the transfer of the computer ends with. -/
def value : Transaction → Option (List UInt8) × Bool
  | receive _ payload _ => (some payload, true)
  | send _ first second => (none, first && second)

def outcome (t : Transaction) : Outcome := ⟨t.code, .ok t.value.1, t.value.2⟩

/-- What the tablet gets, and whether it succeeds. -/
def got (data : List UInt8) : Transaction → Option (List UInt8) × Bool
  | receive _ _ _ => (none, true)
  | send _ first second => if first then (some data, second) else (none, false)

def size (data : List UInt8) : Transaction → Nat
  | receive _ payload _ => payload.length
  | send _ _ _ => data.length

end Transaction

section
variable (vector : Nat → TransactionType → Option (List UInt8))

/-- The data of transaction `k`. -/
def dataOf (k : Nat) (t : Transaction) : List UInt8 := (vector k t.code).getD []

/-- The codes of reads are not negative, those of writes are and have data; sizes are
those of an `int`. -/
def Valid (k : Nat) : Transaction → Prop
  | .receive code payload _ => 0 ≤ code ∧ payload.length < 2 ^ 31
  | .send code _ _ => code < 0 ∧ code ≠ TRANS_SOCKET_ERROR ∧
      ∃ data, vector k code = some data ∧ data.length < 2 ^ 31

def orderFrom : Nat → List Transaction → Order
  | _, [] => []
  | k, t :: ts => heard .code [t.code.toUInt8] ++ (t.rest (dataOf vector k t) ++ orderFrom (k + 1) ts)

/-- A bound on the steps of the computer from transaction `k` on. -/
def computerCost : Nat → List Transaction → Nat
  | _, [] => 0
  | k, t :: ts => t.size (dataOf vector k t) + 23 + computerCost (k + 1) ts

/-- A bound on the steps of the tablet. -/
def tabletCost : Nat → List Transaction → Nat
  | _, [] => 0
  | k, t :: ts => t.size (dataOf vector k t) + 18 + tabletCost (k + 1) ts

end

/-! ### The transfers follow the order -/

theorem marked_snd (part : Part) (bytes : List UInt8) : (marked part bytes).map Prod.snd = bytes := by
  unfold marked
  rw [List.map_map]
  exact List.map_id bytes

theorem marked_length (part : Part) (bytes : List UInt8) : (marked part bytes).length = bytes.length :=
  List.length_map ..

variable {vector : Nat → TransactionType → Option (List UInt8)}

theorem internalRead_rest (code : TransactionType) (payload : List UInt8) (persists : Bool)
    (data : List UInt8) (q : Nat) (h : payload.length < 2 ^ 31) :
    Follows NoData (payload.length + 16) q internalRead ((Transaction.receive code payload persists).rest data)
      (some payload, true) := by
  have hread := internalRead_follows (marked .length (bytesOfSize payload.length)) (marked .payload payload) q
    (by rw [marked_snd, marked_length]) (by rwa [marked_length])
  rw [marked_snd, marked_length] at hread
  exact hread

theorem internalWrite_rest (code : TransactionType) (first second : Bool) (data : List UInt8) (q : Nat) :
    Follows NoData (data.length + 16) q (internalWrite data) ((Transaction.send code first second).rest data)
      (none, first && second) := by
  cases first with
  | true =>
    have hanswer : (if second then Socket.ack else nack).length = 3 := by cases second <;> rfl
    have hwrite := internalWrite_follows data (marked .ack Socket.ack)
      (marked .ack (if second then Socket.ack else nack)) q (marked_snd ..) (by rw [marked_length, hanswer])
    have hsecond : ((marked .ack (if second then Socket.ack else nack)).map Prod.snd == Socket.ack) = second := by
      rw [marked_snd]
      cases second <;> rfl
    rw [hsecond] at hwrite
    exact hwrite
  | false =>
    have hwrite := internalWrite_refused data (marked .ack nack) q rfl (by rw [marked_snd]; decide)
    exact hwrite.mono (by omega)

/-- The program that is launched follows the rest of the order, or the socket is closed. -/
theorem launch_follows {k : Nat} {t : Transaction} {phase : Phase} (hvalid : Valid vector k t)
    (h : launch vector k t.code = some phase) :
    phase = .closed ∧ t.code = TRANS_CLOSE_SOCKET ∨
      ∃ program, phase = .transfer t.code false program ∧
        ∀ q, Follows NoData (t.size (dataOf vector k t) + 16) q program (t.rest (dataOf vector k t)) t.value := by
  cases t with
  | receive code payload persists =>
    obtain ⟨hcode, hsize⟩ := hvalid
    have hnegative : ¬ code < 0 := Int8.not_lt.mpr hcode
    replace h : launch vector k code = some phase := h
    unfold launch at h
    rw [if_neg hnegative] at h
    split at h
    · rename_i hcloses
      obtain rfl | rfl := hcloses
      · exact absurd hcode (by decide)
      · cases h
        exact .inl ⟨rfl, rfl⟩
    · cases h
      exact .inr ⟨internalRead, rfl, fun q => internalRead_rest code payload persists _ q hsize⟩
  | send code first second =>
    obtain ⟨hcode, herror, data, hdata, _⟩ := hvalid
    have hopen : ¬ (code = TRANS_SOCKET_ERROR ∨ code = TRANS_CLOSE_SOCKET) := by
      rintro (rfl | rfl)
      · exact herror rfl
      · exact absurd hcode (by decide)
    replace h : launch vector k code = some phase := h
    unfold launch at h
    rw [if_neg hopen, if_pos hcode, hdata] at h
    cases h
    refine .inr ⟨internalWrite data, rfl, fun q => ?_⟩
    have hsame : dataOf vector k (.send code first second) = data := by
      unfold dataOf Transaction.code
      rw [hdata]
      rfl
    rw [hsame]
    exact internalWrite_rest code first second data q

/-! ### The talk of the tablet -/

/-- The talk exchanges the bytes of the order and ends with what the tablet got; `n` bounds
its steps. -/
inductive Talks : Nat → Talk → Order → Option (List UInt8) × Bool → Prop
  | finish (received : Option (List UInt8)) (success : Bool) : Talks 1 (.finish received success) [] (received, success)
  | say {n : Nat} {bytes : List Byte} {next : Talk} {order : Order} {got : Option (List UInt8) × Bool} :
      Talks n next order got → Talks (n + bytes.length + 1) (.say bytes next) (bytes.map .inl ++ order) got
  | hear {n total : Nat} {before bytes : List UInt8} {next : List UInt8 → Talk} {order : Order}
      {got : Option (List UInt8) × Bool} :
      before.length + bytes.length = total → Talks n (next (before ++ bytes)) order got →
      Talks (n + bytes.length + 1) (.hear total before next) (told bytes ++ order) got

/-- The tablet hears the bytes from their beginning. -/
theorem Talks.hears (bytes : List UInt8) {n : Nat} {next : List UInt8 → Talk} {order : Order}
    {got : Option (List UInt8) × Bool} (h : Talks n (next bytes) order got) :
    Talks (n + bytes.length + 1) (.hear bytes.length [] next) (told bytes ++ order) got :=
  .hear (by simp) h

theorem Talks.says (part : Part) (bytes : List UInt8) {n : Nat} {next : Talk} {order : Order}
    {got : Option (List UInt8) × Bool} (h : Talks n next order got) :
    Talks (n + bytes.length + 1) (.say (marked part bytes) next) (heard part bytes ++ order) got := by
  have hsay : Talks (n + (marked part bytes).length + 1) (.say (marked part bytes) next) _ got := h.say
  rwa [marked_length] at hsay

theorem Talks.last (part : Part) (bytes : List UInt8) (received : Option (List UInt8)) (success : Bool) :
    Talks (1 + bytes.length + 1) (.say (marked part bytes) (.finish received success)) (heard part bytes)
      (received, success) := by
  have hlast := Talks.says part bytes (.finish received success)
  rwa [List.append_nil] at hlast

/-- The talk of a transaction keeps to its order. -/
theorem talk_talks {k : Nat} {t : Transaction} (hvalid : Valid vector k t) :
    ∃ n ≤ t.size (dataOf vector k t) + 17,
      Talks n t.talk (heard .code [t.code.toUInt8] ++ t.rest (dataOf vector k t)) (t.got (dataOf vector k t)) := by
  cases t with
  | receive code payload persists =>
    refine ⟨((((1 + payload.length + 1) + 3 + 1) + 4 + 1) + 3 + 1) + 1 + 1, ?_, ?_⟩
    · show _ ≤ payload.length + 17
      omega
    · refine Talks.says .code [code.toUInt8] (Talks.hears Socket.ack ?_)
      rw [if_pos (.inl rfl)]
      refine Talks.says .length (bytesOfSize payload.length) (Talks.hears Socket.ack ?_)
      rw [if_pos (.inl rfl)]
      exact Talks.last .payload payload none true
  | send code first second =>
    obtain ⟨_, _, data, hdata, hsize⟩ := hvalid
    have hsame : dataOf vector k (.send code first second) = data := by
      unfold dataOf Transaction.code
      rw [hdata]
      rfl
    rw [hsame]
    have hlength : (intOfBytes (bytesOfSize data.length)).toNat = data.length := by
      rw [intOfBytes_bytesOfSize data.length hsize, Int.toNat_natCast]
    cases first with
    | true =>
      refine ⟨((((1 + 3 + 1) + data.length + 1) + 3 + 1) + 4 + 1) + 1 + 1, ?_, ?_⟩
      · show _ ≤ data.length + 17
        omega
      · refine Talks.says .code [code.toUInt8] (Talks.hears (bytesOfSize data.length) ?_)
        rw [if_pos rfl]
        refine Talks.says .ack Socket.ack ?_
        rw [hlength]
        refine Talks.hears data ?_
        cases second with
        | true => exact Talks.last .ack Socket.ack (some data) true
        | false => exact Talks.last .ack nack (some data) false
    | false =>
      refine ⟨((1 + 3 + 1) + 4 + 1) + 1 + 1, ?_, ?_⟩
      · show _ ≤ data.length + 17
        omega
      · refine Talks.says .code [code.toUInt8] (Talks.hears (bytesOfSize data.length) ?_)
        exact Talks.last .ack nack none false

end ScoutingComputer.Connection
