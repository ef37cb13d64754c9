import Mathlib.Algebra.BigOperators.Finprod

namespace pending

variable {ι T M : Type} [AddCommMonoid M] {amount : T → M} {idle : T} {threads : ι → T}

/-- What all threads together still owe to a shared value. -/
noncomputable def total (amount : T → M) (threads : ι → T) : M := ∑ᶠ i, amount (threads i)

/-- Only finitely many threads are at work. -/
def FewBusy (idle : T) (threads : ι → T) : Prop := {i | threads i ≠ idle}.Finite

theorem fewBusy_idle (idle : T) : FewBusy idle fun _ : ι => idle := by
  simp [FewBusy]

theorem FewBusy.update [DecidableEq ι] (h : FewBusy idle threads) (i : ι) (thread : T) :
    FewBusy idle (Function.update threads i thread) := by
  refine (h.insert i).subset ?_
  intro j hj
  by_cases hij : j = i
  · exact .inl hij
  · right
    rwa [Set.mem_ofPred_eq, Function.update_of_ne hij] at hj

theorem total_eq_zero (h : ∀ i, amount (threads i) = 0) : total amount threads = 0 :=
  finsum_eq_zero_of_forall_eq_zero h

/-- When one thread moves, the total changes by what that thread owes less or more. -/
theorem total_update [DecidableEq ι] (amount : T → M) (hidle : amount idle = 0)
    (h : FewBusy idle threads) (i : ι) (thread : T) :
    total amount (Function.update threads i thread) + amount (threads i) =
      total amount threads + amount thread := by
  have hbusy : {j | threads j ≠ idle}.Finite := h
  have hsum : ∀ others : ι → T, (∀ j, j ≠ i → others j = threads j) →
      total amount others = amount (others i) + ∑ j ∈ hbusy.toFinset.erase i, amount (threads j) := by
    intro others hothers
    have hsupport : (Function.support fun j => amount (others j)) ⊆
        ((insert i hbusy.toFinset : Finset ι) : Set ι) := by
      intro j hj
      rw [Finset.coe_insert, Set.Finite.coe_toFinset]
      by_cases hij : j = i
      · exact .inl hij
      · refine .inr fun hrest => hj ?_
        rw [← hothers j hij] at hrest
        exact (congrArg amount hrest).trans hidle
    rw [total, finsum_eq_sum_of_support_subset _ hsupport,
      ← Finset.add_sum_erase _ _ (Finset.mem_insert_self ..), Finset.erase_insert_eq_erase]
    congr 1
    refine Finset.sum_congr rfl fun j hj => ?_
    rw [hothers j (Finset.ne_of_mem_erase hj)]
  rw [hsum threads fun _ _ => rfl, hsum (Function.update threads i thread) fun j hj =>
    Function.update_of_ne hj .., Function.update_self, add_right_comm, add_comm (amount thread),
    add_right_comm]

end pending
