import Mathlib.Data.List.Nodup
import Mathlib.Logic.Function.Basic

/-! Values laid out along a path of places. -/
namespace ScoutingComputer.Path
variable {ι α : Type} [DecidableEq ι]

/-- The values written one after the other. -/
def write : List ι → List α → (ι → α) → ι → α
  | p :: path, v :: values, f => write path values (Function.update f p v)
  | _, _, f => f

theorem write_append {path path' : List ι} {values values' : List α} (hlen : path.length = values.length) (f : ι → α) :
    write (path ++ path') (values ++ values') f = write path' values' (write path values f) := by
  induction path generalizing values f with
  | nil =>
    obtain rfl := List.length_eq_zero_iff.mp hlen.symm
    rfl
  | cons p path ih =>
    cases values with
    | nil => cases hlen
    | cons v values => exact ih (Nat.succ.inj hlen) _

theorem write_of_notMem {path : List ι} {i : ι} (h : i ∉ path) (values : List α) (f : ι → α) :
    write path values f i = f i := by
  induction path generalizing values f with
  | nil => rfl
  | cons p path ih =>
    cases values with
    | nil => rfl
    | cons v values =>
      rw [write, ih (fun hmem => h (List.mem_cons_of_mem p hmem)),
        Function.update_of_ne fun heq => h (List.mem_cons.mpr (.inl heq))]

/-- The path shows the values, and behind them what was there. -/
theorem map_write {path : List ι} (h : path.Nodup) {values : List α} (hlen : values.length ≤ path.length) (f : ι → α) :
    path.map (write path values f) = values ++ (path.drop values.length).map f := by
  induction path generalizing values f with
  | nil => simpa using hlen
  | cons p path ih =>
    cases values with
    | nil => rfl
    | cons v values =>
      obtain ⟨hp, hnodup⟩ := List.nodup_cons.mp h
      have hrest : (path.drop values.length).map (Function.update f p v) = (path.drop values.length).map f := by
        refine List.map_congr_left fun i hi => ?_
        exact Function.update_of_ne (fun heq : i = p => hp (heq ▸ List.mem_of_mem_drop hi)) v f
      rw [List.map_cons]
      show write path values (Function.update f p v) p :: path.map (write path values (Function.update f p v)) = _
      rw [ih hnodup (Nat.le_of_succ_le_succ hlen), write_of_notMem hp, Function.update_self, hrest]
      rfl

/-- What stood on a path that is written all over does not matter. -/
theorem write_of_mem {path : List ι} {values : List α} (hlen : path.length ≤ values.length) {i : ι} (h : i ∈ path)
    (f g : ι → α) : write path values f i = write path values g i := by
  induction path generalizing values f g with
  | nil => cases h
  | cons p path ih =>
    cases values with
    | nil => exact absurd hlen (Nat.not_succ_le_zero _)
    | cons v values =>
      by_cases hi : i ∈ path
      · exact ih (Nat.le_of_succ_le_succ hlen) hi _ _
      · obtain rfl := (List.mem_cons.mp h).resolve_right hi
        rw [write, write, write_of_notMem hi, write_of_notMem hi, Function.update_self, Function.update_self]

/-- The value that stands at a place. -/
def read : List ι → List α → ι → Option α
  | p :: path, v :: values, i => if i = p then some v else read path values i
  | _, _, _ => none

theorem read_map {path : List ι} (f : ι → α) {i : ι} (h : i ∈ path) : read path (path.map f) i = some (f i) := by
  induction path with
  | nil => cases h
  | cons p path ih =>
    rw [List.map_cons, read]
    by_cases heq : i = p
    · rw [if_pos heq, heq]
    · rw [if_neg heq]
      exact ih ((List.mem_cons.mp h).resolve_left heq)

end ScoutingComputer.Path
