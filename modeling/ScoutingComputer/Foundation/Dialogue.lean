import Mathlib.Data.List.Basic

/-! A conversation over two byte channels.

Two parties exchange messages in an agreed order over two first-in first-out
channels. The order is a list of bytes, each marked with who sends it: `inl` from
below to above (on the channel `up`), `inr` from above to below (on `down`). Each
party is somewhere in that list. `Linked` says how the two places and the channels
fit together, whatever the splitting of the bytes on the way: one party is ahead of
the other by bytes it sent itself, those bytes are its channel's content, and the
other channel is empty. From it: what is received is what the order says comes
next, both channels are empty whenever the parties are level, and some party can
always move until both have finished. -/
namespace ScoutingComputer.Dialogue
variable {U V : Type}

/-- The places `above` and `below` in the order (what each has left to do) and the
bytes under way. -/
def Linked (above below : List (U ⊕ V)) (up : List U) (down : List V) : Prop :=
  (below = down.map .inr ++ above ∧ up = []) ∨ (above = up.map .inl ++ below ∧ down = [])

theorem linked_level (order : List (U ⊕ V)) : Linked order order [] [] := .inl ⟨rfl, rfl⟩

/-- Parties at the same place have nothing under way. -/
theorem Linked.level {order : List (U ⊕ V)} {up : List U} {down : List V}
    (h : Linked order order up down) : up = [] ∧ down = [] := by
  rcases h with ⟨h, rfl⟩ | ⟨h, rfl⟩
  · exact ⟨rfl, by simpa using h⟩
  · exact ⟨by simpa using h, rfl⟩

/-- The party above sends the next bytes of the order. -/
theorem Linked.send_down {sent : List V} {above below : List (U ⊕ V)} {up : List U} {down : List V}
    (h : Linked (sent.map .inr ++ above) below up down) : Linked above below up (down ++ sent) := by
  rcases h with ⟨h, rfl⟩ | ⟨h, rfl⟩
  · exact .inl ⟨by simp [h], rfl⟩
  · cases sent with
    | nil => exact .inr ⟨by simpa using h, rfl⟩
    | cons b bs =>
      cases up with
      | nil => exact .inl ⟨by simpa using h.symm, rfl⟩
      | cons u us => simp at h

/-- The party below sends the next bytes of the order. -/
theorem Linked.send_up {sent : List U} {above below : List (U ⊕ V)} {up : List U} {down : List V}
    (h : Linked above (sent.map .inl ++ below) up down) : Linked above below (up ++ sent) down := by
  rcases h with ⟨h, rfl⟩ | ⟨h, rfl⟩
  · cases sent with
    | nil => exact .inl ⟨by simpa using h, rfl⟩
    | cons b bs =>
      cases down with
      | nil => exact .inr ⟨by simpa using h.symm, rfl⟩
      | cons u us => simp at h
  · exact .inr ⟨by simp [h], rfl⟩

/-- What the party above takes off its channel is what the order says comes next. -/
theorem Linked.receive_up {taken up : List U} {above below : List (U ⊕ V)} {down : List V}
    (h : Linked above below (taken ++ up) down) :
    ∃ above', above = taken.map .inl ++ above' ∧ Linked above' below up down := by
  rcases h with ⟨h, hup⟩ | ⟨h, rfl⟩
  · obtain ⟨rfl, rfl⟩ := List.append_eq_nil_iff.mp hup
    exact ⟨above, rfl, .inl ⟨h, rfl⟩⟩
  · exact ⟨up.map .inl ++ below, by simp [h], .inr ⟨rfl, rfl⟩⟩

/-- What the party below takes off its channel is what the order says comes next. -/
theorem Linked.receive_down {taken down : List V} {above below : List (U ⊕ V)} {up : List U}
    (h : Linked above below up (taken ++ down)) :
    ∃ below', below = taken.map .inr ++ below' ∧ Linked above below' up down := by
  rcases h with ⟨h, rfl⟩ | ⟨h, hdown⟩
  · exact ⟨down.map .inr ++ above, by simp [h], .inl ⟨rfl, rfl⟩⟩
  · obtain ⟨rfl, rfl⟩ := List.append_eq_nil_iff.mp hdown
    exact ⟨below, rfl, .inr ⟨h, rfl⟩⟩

/-- Elements taken from the front of those that are expected. -/
theorem expected_split {α β : Type} {f : α → β} (hf : Function.Injective f) {taken expected : List α}
    {order order' : List β} (h : expected.map f ++ order = taken.map f ++ order')
    (hle : taken.length ≤ expected.length) : ∃ rest, expected = taken ++ rest ∧ order' = rest.map f ++ order := by
  induction taken generalizing expected with
  | nil => exact ⟨expected, rfl, h.symm⟩
  | cons first taken ih =>
    cases expected with
    | nil => cases hle
    | cons first' expected =>
      simp only [List.map_cons, List.cons_append, List.cons.injEq] at h
      obtain rfl := hf h.1
      obtain ⟨rest, rfl, horder⟩ := ih h.2 (Nat.le_of_succ_le_succ hle)
      exact ⟨rest, rfl, horder⟩

/-- No bytes are on the way to a party that has finished. -/
theorem Linked.above_finished {below : List (U ⊕ V)} {up : List U} {down : List V}
    (h : Linked [] below up down) : up = [] := by
  rcases h with ⟨_, h⟩ | ⟨h, _⟩
  · exact h
  · simpa using (List.append_eq_nil_iff.mp h.symm).1

theorem Linked.below_finished {above : List (U ⊕ V)} {up : List U} {down : List V}
    (h : Linked above [] up down) : down = [] := by
  rcases h with ⟨h, _⟩ | ⟨_, h⟩
  · simpa using (List.append_eq_nil_iff.mp h.symm).1
  · exact h

/-- When the party above is about to receive, either bytes wait for it or the party
below has not finished. -/
theorem Linked.hearing_up {u : U} {above below : List (U ⊕ V)} {up : List U} {down : List V}
    (h : Linked (.inl u :: above) below up down) : up ≠ [] ∨ down ≠ [] ∨ ∃ below', below = .inl u :: below' := by
  rcases h with ⟨h, rfl⟩ | ⟨h, rfl⟩
  · cases down with
    | nil => exact .inr (.inr ⟨above, by simpa using h⟩)
    | cons b bs => exact .inr (.inl (by simp))
  · cases up with
    | nil => exact .inr (.inr ⟨above, by simpa using h.symm⟩)
    | cons b bs => exact .inl (by simp)

/-- When the party below is about to receive, either bytes wait for it or the party
above has not finished. -/
theorem Linked.hearing_down {v : V} {above below : List (U ⊕ V)} {up : List U} {down : List V}
    (h : Linked above (.inr v :: below) up down) : down ≠ [] ∨ up ≠ [] ∨ ∃ above', above = .inr v :: above' := by
  rcases h with ⟨h, rfl⟩ | ⟨h, rfl⟩
  · cases down with
    | nil => exact .inr (.inr ⟨below, by simpa using h.symm⟩)
    | cons b bs => exact .inl (by simp)
  · cases up with
    | nil => exact .inr (.inr ⟨below, by simpa using h⟩)
    | cons b bs => exact .inr (.inl (by simp))

end ScoutingComputer.Dialogue
