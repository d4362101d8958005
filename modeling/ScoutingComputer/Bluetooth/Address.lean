import Mathlib.Data.List.Basic
import Mathlib.Data.Nat.Digits.Defs
import ScoutingComputer.Types

/-! The text that a tablet scans to find this computer.

It holds the address of the local radio, in hexadecimal from the highest byte down, and the
port that the listener got. -/
namespace ScoutingComputer.Bluetooth

/-- `rgBytes[i]` of an address, the bytes of `ullLong`. -/
def rgBytes (ullLong : UInt64) (i : Nat) : UInt8 := UInt8.ofNat (ullLong.toNat / 256 ^ i)

/-- What the stream is given for a byte: two digits at least. -/
def hexByte (b : UInt8) : Text := (if b ≤ 0x0f then ['0'] else []) ++ Nat.toDigits 16 b.toNat

def getMacStr (addr : UInt64) : Text :=
  (([5, 4, 3, 2, 1].flatMap fun i => hexByte (rgBytes addr i) ++ [':']) ++ hexByte (rgBytes addr 0)).map Char.toUpper

/-- `getLocalPort`: the port as an `int`. -/
def getLocalPort (port : UInt32) : Int := if port.toNat < 2 ^ 31 then port.toNat else (port.toNat : Int) - 2 ^ 32

/-- The text of the QR code. -/
def pairingText (localAddr : UInt64) (port : UInt32) : Text := getMacStr localAddr ++ [';'] ++ decimal (getLocalPort port)

/-! ### Reading it -/

def hexValue (c : Char) : Nat := if c.isDigit then c.toNat - '0'.toNat else c.toNat - 'A'.toNat + 10

/-- The number that hexadecimal digits stand for, behind the digits of `n` and without the colons. -/
def hexFrom (n : Nat) (text : Text) : Nat := (text.filter (· ≠ ':')).foldl (fun n c => n * 16 + hexValue c) n

def readDecimal : Text → Int
  | '-' :: digits => -(Nat.ofDigitChars 10 digits 0 : Nat)
  | digits => (Nat.ofDigitChars 10 digits 0 : Nat)

/-- The address and the port. -/
def readPairing (text : Text) : Nat × Int :=
  (hexFrom 0 (text.takeWhile (· ≠ ';')), readDecimal ((text.dropWhile (· ≠ ';')).drop 1))

/-! ### The address -/

def hexPair (b : UInt8) : Text := (hexByte b).map Char.toUpper

/-- Neither a separator nor the end of a string. -/
def isPlain (c : Char) : Bool := c != ':' && c != ';' && c != '\x00' && decide (c.toNat < 256)

theorem hexPair_table : ∀ n < 256, (hexPair (UInt8.ofNat n)).length = 2 ∧ (hexPair (UInt8.ofNat n)).all isPlain = true ∧
    hexFrom 0 (hexPair (UInt8.ofNat n)) = n := by decide +kernel

theorem hexPair_ok (b : UInt8) :
    (hexPair b).length = 2 ∧ (hexPair b).all isPlain = true ∧ hexFrom 0 (hexPair b) = b.toNat := by
  have h := hexPair_table b.toNat b.toNat_lt
  rwa [UInt8.ofNat_toNat] at h

theorem hexFrom_append (n : Nat) (a b : Text) : hexFrom n (a ++ b) = hexFrom (hexFrom n a) b := by
  rw [hexFrom, List.filter_append, List.foldl_append]
  rfl

theorem hexFrom_pair (n : Nat) (b : UInt8) : hexFrom n (hexPair b) = n * 256 + b.toNat := by
  obtain ⟨hlen, hplain, hvalue⟩ := hexPair_ok b
  obtain ⟨x, y, hxy⟩ := List.length_eq_two.mp hlen
  rw [hxy] at hplain hvalue ⊢
  have hcolons : [x, y].filter (· ≠ ':') = [x, y] := by
    refine List.filter_eq_self.mpr fun c hc => ?_
    have := List.all_eq_true.mp hplain c hc
    simp only [isPlain, Bool.and_eq_true] at this
    simpa using this.1.1.1
  rw [hexFrom, hcolons] at hvalue ⊢
  simp only [List.foldl_cons, List.foldl_nil] at hvalue ⊢
  omega

theorem getMacStr_eq (addr : UInt64) : getMacStr addr =
    hexPair (rgBytes addr 5) ++ [':'] ++ (hexPair (rgBytes addr 4) ++ [':']) ++ (hexPair (rgBytes addr 3) ++ [':']) ++
      (hexPair (rgBytes addr 2) ++ [':']) ++ (hexPair (rgBytes addr 1) ++ [':']) ++ hexPair (rgBytes addr 0) := by
  simp [getMacStr, hexPair]

theorem toNat_rgBytes (addr : UInt64) (i : Nat) : (rgBytes addr i).toNat = addr.toNat / 256 ^ i % 256 := UInt8.toNat_ofNat' ..

/-- The six bytes are read back. -/
theorem hexFrom_getMacStr (addr : UInt64) : hexFrom 0 (getMacStr addr) = addr.toNat % 2 ^ 48 := by
  have hcolon : ∀ n, hexFrom n [':'] = n := fun n => rfl
  simp only [getMacStr_eq, hexFrom_append, hexFrom_pair, hcolon, toNat_rgBytes]
  omega

theorem length_getMacStr (addr : UInt64) : (getMacStr addr).length = 17 := by
  simp [getMacStr_eq, (hexPair_ok _).1]

theorem getMacStr_chars (addr : UInt64) : ∀ c ∈ getMacStr addr, c = ':' ∨ isPlain c = true := by
  have hpair : ∀ b, ∀ c ∈ hexPair b, isPlain c = true := fun b => List.all_eq_true.mp (hexPair_ok b).2.1
  intro c hc
  simp only [getMacStr_eq, List.mem_append, List.mem_singleton] at hc
  rcases hc with ((((((h | h) | (h | h)) | (h | h)) | (h | h)) | (h | h)) | h)
  all_goals first
    | exact .inl h
    | exact .inr (hpair _ c h)

/-! ### The port -/

theorem readDecimal_decimal (k : Int) : readDecimal (decimal k) = k := by
  cases k with
  | ofNat n =>
    have hnot : ∀ digits, Nat.toDigits 10 n ≠ '-' :: digits := by
      intro digits h
      have hmem : '-' ∈ Nat.toDigits 10 n := h ▸ List.mem_cons_self ..
      exact absurd (Nat.isDigit_of_mem_toDigits (by decide) (by decide) hmem) (by decide)
    rw [decimal, readDecimal]
    · rw [Nat.ofDigitChars_ten_toDigits]
      rfl
    · exact hnot
  | negSucc n =>
    rw [decimal, readDecimal, Nat.ofDigitChars_ten_toDigits]
    rfl

theorem decimal_chars (k : Int) : ∀ c ∈ decimal k, isPlain c = true := by
  have hdigits : ∀ n, ∀ c ∈ Nat.toDigits 10 n, isPlain c = true := by
    intro n c hc
    obtain ⟨hlow, hhigh⟩ := Char.isDigit_iff_toNat.mp (Nat.isDigit_of_mem_toDigits (by decide) (by decide) hc)
    have hne : ∀ d : Char, '9'.toNat < d.toNat ∨ d.toNat < '0'.toNat → c ≠ d := by
      rintro d hd rfl
      omega
    have hbyte : c.toNat < 256 := hhigh.trans_lt (by decide)
    simp only [isPlain, Bool.and_eq_true, bne_iff_ne, decide_eq_true_eq]
    exact ⟨⟨⟨hne ':' (by decide), hne ';' (by decide)⟩, hne '\x00' (by decide)⟩, hbyte⟩
  intro c hc
  cases k with
  | ofNat n => exact hdigits n c hc
  | negSucc n =>
    rcases List.mem_cons.mp hc with rfl | hc
    · decide
    · exact hdigits _ c hc

theorem getLocalPort_bounds (port : UInt32) : -2 ^ 31 ≤ getLocalPort port ∧ getLocalPort port < 2 ^ 31 := by
  have := port.toNat_lt
  rw [getLocalPort]
  split <;> omega

theorem length_decimal {k : Int} (hlow : -2 ^ 31 ≤ k) (hhigh : k < 2 ^ 31) : (decimal k).length ≤ 11 := by
  cases k with
  | ofNat n =>
    rw [Int.ofNat_eq_natCast] at hhigh
    have := Nat.toDigits_length 10 n 10 (by decide) (by omega)
    rw [decimal]
    omega
  | negSucc n =>
    have := Nat.toDigits_length 10 (n + 1) 10 (by decide) (by omega)
    rw [decimal, List.length_cons]
    omega

/-! ### The text -/

theorem pairingText_chars (localAddr : UInt64) (port : UInt32) :
    ∀ c ∈ pairingText localAddr port, c ≠ '\x00' ∧ c.toNat < 256 := by
  have hplain : ∀ c, isPlain c = true → c ≠ '\x00' ∧ c.toNat < 256 := by
    intro c h
    simp only [isPlain, Bool.and_eq_true, bne_iff_ne, decide_eq_true_eq] at h
    exact ⟨h.1.2, h.2⟩
  intro c hc
  simp only [pairingText, List.mem_append, List.mem_singleton] at hc
  rcases hc with (hc | rfl) | hc
  · rcases getMacStr_chars localAddr c hc with rfl | h
    · decide
    · exact hplain c h
  · decide
  · exact hplain c (decimal_chars _ c hc)

/-- What is scanned names this computer: the address and the port are read back from the
text. -/
theorem readPairing_pairingText (localAddr : UInt64) (port : UInt32) :
    readPairing (pairingText localAddr port) = (localAddr.toNat % 2 ^ 48, getLocalPort port) := by
  have hmac : ∀ c ∈ getMacStr localAddr, decide (c ≠ ';') = true := by
    intro c hc
    rcases getMacStr_chars localAddr c hc with rfl | h
    · decide
    · simp only [isPlain, Bool.and_eq_true, bne_iff_ne] at h
      exact decide_eq_true h.1.1.2
  rw [readPairing, pairingText, List.append_assoc, List.takeWhile_append_of_pos hmac, List.dropWhile_append_of_pos hmac]
  show (hexFrom 0 (getMacStr localAddr ++ []), readDecimal (decimal (getLocalPort port))) = _
  rw [List.append_nil, hexFrom_getMacStr, readDecimal_decimal]

end ScoutingComputer.Bluetooth
