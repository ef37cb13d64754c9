import Mathlib.Data.List.DropRight

namespace recency

variable {α : Type} [DecidableEq α]

/-- In a history of uses, `b` is used after the last use of `a`. -/
def Older (uses : List α) (a b : α) : Prop := b ∈ uses.rtakeWhile (· ≠ a)

instance (uses : List α) (a b : α) : Decidable (Older uses a b) :=
  inferInstanceAs (Decidable (b ∈ uses.rtakeWhile (· ≠ a)))

theorem older_concat (uses : List α) (a b c : α) :
    Older (uses ++ [c]) a b ↔ c ≠ a ∧ (b = c ∨ Older uses a b) := by
  unfold Older
  by_cases hc : c = a
  · rw [List.rtakeWhile_concat_neg _ _ _ (by simp [hc])]
    simp [hc]
  · rw [List.rtakeWhile_concat_pos _ _ _ (by simp [hc]), List.mem_append, List.mem_singleton]
    simp [hc, or_comm]

/-- Stamps of some of the used elements, taken from a clock, that tell the order of
    their last uses. -/
structure Stamps (stamp : α → Option Nat) (clock : Nat) (uses : List α) : Prop where
  le_clock : ∀ {a n}, stamp a = some n → n ≤ clock
  injective : ∀ {a b n}, stamp a = some n → stamp b = some n → a = b
  lt_iff : ∀ {a b m n}, stamp a = some m → stamp b = some n → (m < n ↔ Older uses a b)

namespace Stamps

variable {stamp stamp' : α → Option Nat} {clock : Nat} {uses : List α}

theorem empty {stamp : α → Option Nat} (hnone : ∀ a, stamp a = none) (clock : Nat) :
    Stamps stamp clock ([] : List α) where
  le_clock h := by simp [hnone] at h
  injective h := by simp [hnone] at h
  lt_iff h := by simp [hnone] at h

/-- Time may pass without a use, and stamps may be dropped. -/
theorem mono (h : Stamps stamp clock uses) {clock' : Nat} (hclock : clock ≤ clock')
    (hkept : ∀ {a n}, stamp' a = some n → stamp a = some n) : Stamps stamp' clock' uses where
  le_clock ha := (h.le_clock (hkept ha)).trans hclock
  injective ha hb := h.injective (hkept ha) (hkept hb)
  lt_iff ha hb := h.lt_iff (hkept ha) (hkept hb)

/-- A use gives the element the next stamp and keeps the stamps of others, or drops them. -/
theorem touch (h : Stamps stamp clock uses) (c : α)
    (hstamp : ∀ {a n}, stamp' a = some n → (a = c ∧ n = clock + 1) ∨ (a ≠ c ∧ stamp a = some n)) :
    Stamps stamp' (clock + 1) (uses ++ [c]) where
  le_clock ha := by
    obtain ⟨-, rfl⟩ | ⟨-, ha⟩ := hstamp ha
    · exact le_rfl
    · exact (h.le_clock ha).trans (Nat.le_succ clock)
  injective ha hb := by
    obtain ⟨rfl, rfl⟩ | ⟨hac, ha⟩ := hstamp ha <;> obtain ⟨rfl, hn⟩ | ⟨hbc, hb⟩ := hstamp hb
    · rfl
    · have hle := h.le_clock hb
      omega
    · have hle := h.le_clock ha
      omega
    · exact h.injective ha hb
  lt_iff ha hb := by
    rw [older_concat]
    obtain ⟨rfl, rfl⟩ | ⟨hac, ha⟩ := hstamp ha <;> obtain ⟨rfl, rfl⟩ | ⟨hbc, hb⟩ := hstamp hb
    · simp
    · have hle := h.le_clock hb
      simp only [ne_eq, not_true_eq_false, false_and, iff_false]
      omega
    · have hle := h.le_clock ha
      simp only [ne_eq, Ne.symm hac, not_false_eq_true, true_or, and_true, iff_true]
      omega
    · rw [h.lt_iff ha hb]
      simp [Ne.symm hac, hbc]

end Stamps

end recency
