import Mathlib.Order.Lattice

namespace running_max

variable {α R : Type} [LinearOrder R] (threshold : R) (value : α → R)

/-- A loop that keeps the greatest value so far, and its element where the value reaches a
    threshold. -/
def pick : Option α → R → List α → Option α × R
  | best, greatest, [] => (best, greatest)
  | best, greatest, a :: rest =>
    if value a > greatest then
      pick (if value a ≥ threshold then some a else best) (value a) rest
    else pick best greatest rest

/-- Either no element goes beyond the start, or the first one of the greatest value is kept. -/
theorem pick_spec (best : Option α) (greatest : R) (l : List α) :
    ((∀ a ∈ l, value a ≤ greatest) ∧ pick threshold value best greatest l = (best, greatest)) ∨
      ∃ front a back, l = front ++ a :: back ∧ greatest < value a ∧
        (∀ b ∈ front, value b < value a) ∧ (∀ b ∈ back, value b ≤ value a) ∧
        pick threshold value best greatest l =
          (if value a ≥ threshold then some a else best, value a) := by
  induction l generalizing best greatest with
  | nil => exact .inl ⟨fun a ha => (by cases ha), rfl⟩
  | cons x rest ih =>
    rw [pick]
    by_cases hx : value x > greatest
    · right
      rw [if_pos hx]
      obtain ⟨hrest, hpick⟩ | ⟨front, a, back, hrest, hlt, hfront, hback, hpick⟩ :=
        ih (if value x ≥ threshold then some x else best) (value x)
      · exact ⟨[], x, rest, rfl, hx, fun b hb => (by cases hb), hrest, hpick⟩
      · refine ⟨x :: front, a, back, by rw [hrest, List.cons_append], lt_trans hx hlt, ?_, hback, ?_⟩
        · intro b hb
          obtain rfl | hb := List.mem_cons.mp hb
          · exact hlt
          · exact hfront b hb
        · rw [hpick]
          by_cases ha : value a ≥ threshold
          · rw [if_pos ha, if_pos ha]
          · have hbelow : ¬ value x ≥ threshold := fun h => ha (le_trans h (le_of_lt hlt))
            rw [if_neg ha, if_neg ha, if_neg hbelow]
    · have hle : value x ≤ greatest := not_lt.mp hx
      rw [if_neg hx]
      obtain ⟨hrest, hpick⟩ | ⟨front, a, back, hrest, hlt, hfront, hback, hpick⟩ := ih best greatest
      · left
        refine ⟨fun b hb => ?_, hpick⟩
        obtain rfl | hb := List.mem_cons.mp hb
        · exact hle
        · exact hrest b hb
      · right
        refine ⟨x :: front, a, back, by rw [hrest, List.cons_append], hlt, ?_, hback, hpick⟩
        intro b hb
        obtain rfl | hb := List.mem_cons.mp hb
        · exact lt_of_le_of_lt hle hlt
        · exact hfront b hb

end running_max
