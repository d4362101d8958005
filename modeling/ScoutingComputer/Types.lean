import Mathlib.Data.List.TakeWhile

/-! Strings and exceptions of the C++ standard library. -/
namespace ScoutingComputer

/-- A `std::string`. -/
abbrev Text := List Char

/-- What `strlen` sees of a string passed by `c_str`. -/
def cString (text : Text) : Text := text.takeWhile (· ≠ '\x00')

/-- `std::to_string` of an `int`. -/
def decimal : Int → Text
  | .ofNat n => Nat.toDigits 10 n
  | .negSucc n => '-' :: Nat.toDigits 10 (n + 1)

theorem cString_cString (text : Text) : cString (cString text) = cString text :=
  List.takeWhile_idem

theorem cString_eq_self_iff (text : Text) : cString text = text ↔ '\x00' ∉ text := by
  unfold cString
  rw [List.takeWhile_eq_self_iff]
  constructor
  · intro h hmem
    have := h _ hmem
    simp at this
  · intro h c hc
    simp only [ne_eq, decide_not, Bool.not_eq_true', decide_eq_false_iff_not]
    exact fun heq => h (heq ▸ hc)

/-! ### Texts and vectors of `char` -/

def toBytes (text : Text) : List UInt8 := text.map fun c => UInt8.ofNat c.toNat

def ofBytes (bytes : List UInt8) : Text := bytes.map fun b => Char.ofNat b.toNat

theorem ofBytes_toBytes {text : Text} (h : ∀ c ∈ text, c.toNat < 256) : ofBytes (toBytes text) = text := by
  induction text with
  | nil => rfl
  | cons c text ih =>
    have hc : (UInt8.ofNat c.toNat).toNat = c.toNat := by
      rw [UInt8.toNat_ofNat']
      exact Nat.mod_eq_of_lt (h c (List.mem_cons_self ..))
    have hrest : ofBytes (toBytes text) = text := ih fun c' hc' => h c' (List.mem_cons_of_mem c hc')
    show Char.ofNat (UInt8.ofNat c.toNat).toNat :: ofBytes (toBytes text) = c :: text
    rw [hc, Char.ofNat_toNat, hrest]

/-- For a text that can be evaluated. -/
theorem bytes_of_all {text : Text} (h : text.all (fun c => decide (c.toNat < 256)) = true) :
    ∀ c ∈ text, c.toNat < 256 := by
  intro c hc
  exact of_decide_eq_true (List.all_eq_true.mp h c hc)

/-- The exceptions that this program can raise. -/
inductive Exception where
  /-- `std::out_of_range`, from `at`. -/
  | outOfRange
  /-- `std::bad_optional_access`, from `optional::value`. -/
  | badOptionalAccess
  /-- `std::length_error`, from `vector::reserve`. -/
  | lengthError
  deriving DecidableEq, Repr

end ScoutingComputer
