import Mathlib.Data.List.Basic

/-! Parts written one after another with a separator between them.

A part that contains no separator ends where the first separator stands, so lists of
such parts that are not empty can be told apart by what they are written as
(`join_injective`). Decimal numbers are such parts. -/
namespace ScoutingComputer.Separated
variable {α : Type}

def join (separator : α) : List (List α) → List α
  | [] => []
  | [p] => p
  | p :: q :: parts => p ++ separator :: join separator (q :: parts)

/-- The first separator is where the first part ends. -/
theorem append_separator_inj {separator : α} {p q x y : List α} (hp : separator ∉ p) (hq : separator ∉ q)
    (h : p ++ separator :: x = q ++ separator :: y) : p = q ∧ x = y := by
  induction p generalizing q with
  | nil =>
    cases q with
    | nil => exact ⟨rfl, (List.cons.inj h).2⟩
    | cons b q =>
      have hb := (List.cons.inj h).1
      exact absurd (List.mem_cons.mpr (.inl hb)) hq
  | cons a p ih =>
    cases q with
    | nil =>
      have ha := (List.cons.inj h).1
      exact absurd (List.mem_cons.mpr (.inl ha.symm)) hp
    | cons b q =>
      obtain ⟨hab, h⟩ := List.cons.inj h
      obtain ⟨hpq, hxy⟩ := ih (fun hs => hp (List.mem_cons_of_mem a hs))
        (fun hs => hq (List.mem_cons_of_mem b hs)) h
      exact ⟨by rw [hab, hpq], hxy⟩

/-- The last separator is where the last part begins. -/
theorem append_separator_inj_last {separator : α} {p q x y : List α} (hx : separator ∉ x) (hy : separator ∉ y)
    (h : p ++ separator :: x = q ++ separator :: y) : p = q ∧ x = y := by
  have hreverse := congrArg List.reverse h
  simp only [List.reverse_append, List.reverse_cons, List.append_assoc, List.singleton_append] at hreverse
  obtain ⟨hxy, hpq⟩ := append_separator_inj (by simpa using hx) (by simpa using hy) hreverse
  exact ⟨List.reverse_inj.mp hpq, List.reverse_inj.mp hxy⟩

/-- A part that may stand between separators. -/
def Part (separator : α) (p : List α) : Prop := p ≠ [] ∧ separator ∉ p

/-- What stands after the first part. -/
def afterFirst (separator : α) (parts : List (List α)) : List α :=
  if parts = [] then [] else separator :: join separator parts

theorem join_cons (separator : α) (p : List α) (parts : List (List α)) :
    join separator (p :: parts) = p ++ afterFirst separator parts := by
  cases parts with
  | nil => simp [join, afterFirst]
  | cons q parts => simp [join, afterFirst]

theorem join_ne_nil {separator : α} {p : List α} {parts : List (List α)} (h : p ≠ []) :
    join separator (p :: parts) ≠ [] := by
  cases parts with
  | nil => exact h
  | cons q parts => simp [join]

theorem join_injective {separator : α} {ps qs : List (List α)} (hp : ∀ p ∈ ps, Part separator p)
    (hq : ∀ q ∈ qs, Part separator q) (h : join separator ps = join separator qs) : ps = qs := by
  induction ps generalizing qs with
  | nil =>
    cases qs with
    | nil => rfl
    | cons q qs => exact absurd h.symm (join_ne_nil (hq q (List.mem_cons_self ..)).1)
  | cons p ps ih =>
    have hpart := hp p (List.mem_cons_self ..)
    cases qs with
    | nil => exact absurd h (join_ne_nil hpart.1)
    | cons q qs =>
      have hqart := hq q (List.mem_cons_self ..)
      cases ps with
      | nil =>
        cases qs with
        | nil =>
          simp only [join] at h
          rw [h]
        | cons q' qs =>
          simp only [join] at h
          exact absurd (by rw [h]; simp) hpart.2
      | cons p' ps =>
        cases qs with
        | nil =>
          simp only [join] at h
          exact absurd (by rw [← h]; simp) hqart.2
        | cons q' qs =>
          obtain ⟨hpq, hrest⟩ := append_separator_inj hpart.2 hqart.2 h
          have := ih (fun r hr => hp r (List.mem_cons_of_mem p hr))
            (fun r hr => hq r (List.mem_cons_of_mem q hr)) hrest
          rw [hpq, this]

theorem mem_join {separator c : α} {parts : List (List α)} (h : c ∈ join separator parts) :
    c = separator ∨ ∃ p ∈ parts, c ∈ p := by
  induction parts with
  | nil => cases h
  | cons p parts ih =>
    cases parts with
    | nil => exact .inr ⟨p, List.mem_cons_self .., h⟩
    | cons q parts =>
      rw [join, List.mem_append, List.mem_cons] at h
      rcases h with h | rfl | h
      · exact .inr ⟨p, List.mem_cons_self .., h⟩
      · exact .inl rfl
      · rcases ih h with hs | ⟨r, hr, hc⟩
        · exact .inl hs
        · exact .inr ⟨r, List.mem_cons_of_mem p hr, hc⟩

/-! ### Decimal numbers -/

theorem part_toDigits {separator : Char} (hs : separator.isDigit = false) (n : Nat) :
    Part separator (Nat.toDigits 10 n) := by
  refine ⟨Nat.toDigits_ne_nil, fun h => ?_⟩
  have := Nat.isDigit_of_mem_toDigits (by decide) (by decide) h
  rw [hs] at this
  cases this

theorem toDigits_injective {m n : Nat} (h : Nat.toDigits 10 m = Nat.toDigits 10 n) : m = n := by
  rw [← @Nat.ofDigitChars_ten_toDigits m, h, Nat.ofDigitChars_ten_toDigits]

/-- Different lists of numbers are written differently. -/
theorem join_toDigits_injective {separator : Char} (hs : separator.isDigit = false) {ms ns : List Nat}
    (h : join separator (ms.map (Nat.toDigits 10)) = join separator (ns.map (Nat.toDigits 10))) :
    ms = ns := by
  have hparts : ∀ ks : List Nat, ∀ p ∈ ks.map (Nat.toDigits 10), Part separator p := by
    intro ks p hp
    obtain ⟨n, _, rfl⟩ := List.mem_map.mp hp
    exact part_toDigits hs n
  have hmap := join_injective (hparts ms) (hparts ns) h
  exact List.map_injective_iff.mpr (fun _ _ => toDigits_injective) hmap

end ScoutingComputer.Separated
