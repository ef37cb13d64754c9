import Mathlib.Data.List.Basic
import Mathlib.Tactic.Common

namespace Template

variable {α : Type}

/-- A template of some lists: the common element where they all agree, and a
    wildcard where they do not. -/
structure Summarizes (wildcard : α) (members : List (List α)) (template : List α) : Prop where
  length_eq : ∀ member ∈ members, member.length = template.length
  common : ∀ i a, i < template.length → (∀ member ∈ members, member[i]? = some a) →
    template[i]? = some a
  mixed : ∀ i, i < template.length → (¬ ∃ a, ∀ member ∈ members, member[i]? = some a) →
    template[i]? = some wildcard

/-- One more list taken into a template. -/
def merge [DecidableEq α] (wildcard : α) (template member : List α) : List α :=
  List.zipWith (fun t a => if t = a then t else wildcard) template member

theorem summarizes_singleton (wildcard : α) (member : List α) :
    Summarizes wildcard [member] member where
  length_eq := by simp
  common i a _ hall := hall member List.mem_cons_self
  mixed i hi hnone := by
    refine absurd ⟨member[i], ?_⟩ hnone
    simp [hi]

/-- What stands in a template besides the wildcard stands in every member. -/
theorem Summarizes.getElem?_eq {wildcard a : α} {members : List (List α)} {template : List α}
    (h : Summarizes wildcard members template) {i : Nat} (hi : template[i]? = some a)
    (ha : a ≠ wildcard) : ∀ member ∈ members, member[i]? = some a := by
  obtain ⟨hlt, -⟩ := List.getElem?_eq_some_iff.mp hi
  by_cases hcommon : ∃ b, ∀ member ∈ members, member[i]? = some b
  · obtain ⟨b, hb⟩ := hcommon
    have hab := hi.symm.trans (h.common i b hlt hb)
    rw [Option.some.inj hab]
    exact hb
  · exact absurd (Option.some.inj (hi.symm.trans (h.mixed i hlt hcommon))) ha

theorem exists_getElem? {l l' : List α} (hlength : l.length = l'.length) {i : Nat} {a : α}
    (ha : l[i]? = some a) : ∃ b, l'[i]? = some b := by
  obtain ⟨hi, -⟩ := List.getElem?_eq_some_iff.mp ha
  exact ⟨_, List.getElem?_eq_getElem (hlength ▸ hi)⟩

theorem getElem?_merge [DecidableEq α] {wildcard t a : α} {template member : List α} {i : Nat}
    (ht : template[i]? = some t) (ha : member[i]? = some a) :
    (merge wildcard template member)[i]? = some (if t = a then t else wildcard) := by
  simp [merge, List.getElem?_zipWith, ht, ha]

theorem length_merge [DecidableEq α] {wildcard : α} {template member : List α}
    (hlength : member.length = template.length) :
    (merge wildcard template member).length = template.length := by
  simp [merge, hlength]

theorem merge_self [DecidableEq α] (wildcard : α) (member : List α) :
    merge wildcard member member = member := by
  induction member with
  | nil => rfl
  | cons a member ih =>
    rw [merge] at ih ⊢
    rw [List.zipWith_cons_cons, if_pos rfl, ih]

/-- The template with one more list taken in summarizes one more list. -/
theorem Summarizes.merge [DecidableEq α] {wildcard : α} {members : List (List α)}
    {template member : List α} (h : Summarizes wildcard members template)
    (hlength : member.length = template.length) :
    Summarizes wildcard (members ++ [member]) (merge wildcard template member) where
  length_eq := by
    intro m hm
    rw [length_merge hlength]
    obtain hm | hm := List.mem_append.mp hm
    · exact h.length_eq m hm
    · rw [List.mem_singleton.mp hm, hlength]
  common := by
    intro i a hi hall
    rw [length_merge hlength] at hi
    have ht := h.common i a hi fun m hm => hall m (List.mem_append_left _ hm)
    rw [getElem?_merge ht (hall member (by simp)), if_pos rfl]
  mixed := by
    intro i hi hnone
    rw [length_merge hlength] at hi
    obtain ⟨t, ht⟩ : ∃ t, template[i]? = some t := ⟨_, List.getElem?_eq_getElem hi⟩
    obtain ⟨a, ha⟩ := exists_getElem? hlength.symm ht
    rw [getElem?_merge ht ha]
    split
    · -- the new list agrees with the template, so the template is a wildcard already
      rename_i hta
      subst hta
      by_contra htw
      refine hnone ⟨t, fun m hm => ?_⟩
      obtain hm | hm := List.mem_append.mp hm
      · exact h.getElem?_eq ht (fun hw => htw (congrArg some hw)) m hm
      · rw [List.mem_singleton.mp hm, ha]
    · rfl

end Template
