import Mathlib.Algebra.Ring.Parity

namespace quoted

variable {α : Type} [DecidableEq α] (quote sep : α)

/-- A separator outside quotes has an even number of quotes before it. -/
def Boundary (s : List α) (p : Nat) : Prop :=
  s[p]? = some sep ∧ Even ((s.take p).count quote)

/-- A scan has read a text: it is inside quotes after an odd number of them, and its field starts
    behind the last boundary. -/
structure Reads (s : List α) (inside : Bool) (start : Nat) : Prop where
  odd : inside = true ↔ Odd (s.count quote)
  behind : start = 0 ∨ ∃ p, Boundary quote sep s p ∧ start = p + 1
  last : ∀ p, Boundary quote sep s p → p < start

variable {quote sep}

theorem boundary_concat_iff {s : List α} {b : α} {p : Nat} :
    Boundary quote sep (s ++ [b]) p ↔
      Boundary quote sep s p ∨ p = s.length ∧ b = sep ∧ Even (s.count quote) := by
  unfold Boundary
  obtain hlt | rfl | hgt := Nat.lt_trichotomy p s.length
  · rw [List.getElem?_append_left hlt, List.take_append_of_le_length (Nat.le_of_lt hlt)]
    simp [Nat.ne_of_lt hlt]
  · rw [List.getElem?_concat_length, List.take_left]
    simp
  · have hbeyond : (s ++ [b])[p]? = none :=
      List.getElem?_eq_none (by rw [List.length_append, List.length_singleton]; omega)
    rw [hbeyond, List.getElem?_eq_none (Nat.le_of_lt hgt)]
    simp [Nat.ne_of_gt hgt]

namespace Reads

variable {s : List α} {inside : Bool} {start : Nat}

theorem nil : Reads quote sep [] false 0 where
  odd := by simp
  behind := .inl rfl
  last p h := by simp [Boundary] at h

/-- Two scans of one text have the same field. -/
theorem start_unique {inside' : Bool} {start' : Nat} (h : Reads quote sep s inside start)
    (h' : Reads quote sep s inside' start') : start = start' := by
  have hle : ∀ {inside inside' : Bool} {start start' : Nat}, Reads quote sep s inside start →
      Reads quote sep s inside' start' → start ≤ start' := by
    intro inside inside' start start' h h'
    obtain rfl | ⟨p, hp, rfl⟩ := h.behind
    · exact Nat.zero_le start'
    · exact h'.last p hp
  exact Nat.le_antisymm (hle h h') (hle h' h)

/-- Reading what is no boundary. -/
theorem concat {b : α} {inside' : Bool} (h : Reads quote sep s inside start)
    (hodd : inside' = true ↔ Odd ((s ++ [b]).count quote))
    (hb : b = sep → Odd (s.count quote)) : Reads quote sep (s ++ [b]) inside' start where
  odd := hodd
  behind := by
    refine h.behind.imp_right ?_
    rintro ⟨p, hp, hstart⟩
    exact ⟨p, boundary_concat_iff.mpr (.inl hp), hstart⟩
  last p hp := by
    obtain hp | ⟨-, hsep, heven⟩ := boundary_concat_iff.mp hp
    · exact h.last p hp
    · exact absurd heven (Nat.not_even_iff_odd.mpr (hb hsep))

theorem concat_quote (h : Reads quote sep s inside start) (hne : quote ≠ sep) :
    Reads quote sep (s ++ [quote]) (!inside) start := by
  refine h.concat ?_ fun hsep => absurd hsep hne
  rw [List.count_append, List.count_singleton_self, Nat.odd_add_one, ← h.odd, Bool.not_eq_true',
    Bool.not_eq_true]

/-- Two quotes in a row leave the scan as it was. -/
theorem concat_quote_quote (h : Reads quote sep s inside start) (hne : quote ≠ sep) :
    Reads quote sep (s ++ [quote, quote]) inside start := by
  have htwice := (h.concat_quote hne).concat_quote hne
  rwa [Bool.not_not, List.append_assoc] at htwice

theorem concat_other {b : α} (h : Reads quote sep s inside start) (hquote : b ≠ quote)
    (hsep : b = sep → inside = true) : Reads quote sep (s ++ [b]) inside start := by
  refine h.concat ?_ fun hb => h.odd.mp (hsep hb)
  rw [List.count_append, List.count_singleton, if_neg (by simpa using hquote)]
  exact h.odd

theorem concat_sep (h : Reads quote sep s false start) (hne : quote ≠ sep) :
    Reads quote sep (s ++ [sep]) false (s.length + 1) where
  odd := by
    rw [List.count_append, List.count_singleton, if_neg (by simpa using hne.symm)]
    exact h.odd
  behind := by
    have heven : Even (s.count quote) := by
      rw [← Nat.not_odd_iff_even, ← h.odd]
      exact Bool.false_ne_true
    exact .inr ⟨s.length, boundary_concat_iff.mpr (.inr ⟨rfl, rfl, heven⟩), rfl⟩
  last p hp := by
    have hlt := (List.getElem?_eq_some_iff.mp hp.1).choose
    rwa [List.length_append, List.length_singleton] at hlt

/-- Reading symbols that are neither quotes nor separators. -/
theorem append_other {t : List α} (h : Reads quote sep s inside start)
    (ht : ∀ b ∈ t, b ≠ quote ∧ b ≠ sep) : Reads quote sep (s ++ t) inside start := by
  induction t generalizing s with
  | nil => rwa [List.append_nil]
  | cons b t ih =>
    obtain ⟨⟨hquote, hsep⟩, ht⟩ := List.forall_mem_cons.mp ht
    have hnext := ih (h.concat_other hquote fun hb => absurd hb hsep) ht
    rwa [List.append_assoc] at hnext

end Reads

end quoted
