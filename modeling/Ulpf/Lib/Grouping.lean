import Mathlib.Algebra.BigOperators.Group.Finset.Piecewise
import Mathlib.Algebra.Order.BigOperators.Group.Finset
import Mathlib.Data.Finset.Lattice.Fold
import Mathlib.Order.Lattice.Nat

namespace Grouping

variable {α κ ι ι' : Type}

/-- Rows that are together in one grouping are together in the other. -/
def Refines (rows : List α) (f : α → ι) (g : α → ι') : Prop :=
  ∀ a ∈ rows, ∀ b ∈ rows, f a = f b → g a = g b

theorem Refines.subset {rows rows' : List α} {f : α → ι} {g : α → ι'} (h : Refines rows f g)
    (hsubset : rows' ⊆ rows) : Refines rows' f g :=
  fun a ha b hb => h a (hsubset ha) b (hsubset hb)

theorem refines_concat {rows : List α} {a : α} {f : α → ι} {g : α → ι'} :
    Refines (rows ++ [a]) f g ↔ Refines rows f g ∧ ∀ b ∈ rows, f b = f a → g b = g a := by
  constructor
  · intro h
    have hmem : a ∈ rows ++ [a] := List.mem_append_right _ List.mem_cons_self
    exact ⟨h.subset (List.subset_append_left _ _),
      fun b hb => h b (List.mem_append_left _ hb) a hmem⟩
  · rintro ⟨hrows, hlast⟩ b hb c hc hf
    rw [List.mem_append, List.mem_singleton] at hb hc
    obtain hb | rfl := hb
    · obtain hc | rfl := hc
      · exact hrows b hb c hc hf
      · exact hlast b hb hf
    · obtain hc | rfl := hc
      · exact (hlast c hc hf.symm).symm
      · rfl

theorem refines_map {β : Type} (h : β → α) (rows : List β) (f : α → ι) (g : α → ι') :
    Refines (rows.map h) f g ↔ Refines rows (fun b => f (h b)) fun b => g (h b) := by
  simp [Refines]

variable [DecidableEq κ] [DecidableEq ι] [DecidableEq ι']

/-- How many rows of a group have the class that most of its rows have. -/
def majority (rows : List α) (cls : α → κ) (f : α → ι) (i : ι) : Nat :=
  (rows.map cls).toFinset.sup fun k => rows.countP fun a => f a = i ∧ cls a = k

/-- The rows that have the majority class of their group. -/
def agreement (rows : List α) (cls : α → κ) (f : α → ι) : Nat :=
  ∑ i ∈ (rows.map f).toFinset, majority rows cls f i

theorem agreement_map {β : Type} (h : β → α) (rows : List β) (cls : α → κ) (f : α → ι) :
    agreement (rows.map h) cls f = agreement rows (fun b => cls (h b)) fun b => f (h b) := by
  simp [agreement, majority, List.countP_map, Function.comp_def]

section

variable (rows : List α)

/-- Counting group by group. -/
theorem sum_countP_fiber (p : α → Prop) [DecidablePred p] (f : α → ι) {s : Finset ι}
    (hs : ∀ a ∈ rows, p a → f a ∈ s) :
    ∑ i ∈ s, rows.countP (fun a => p a ∧ f a = i) = rows.countP fun a => p a := by
  induction rows with
  | nil => simp
  | cons a rows ih =>
    have ih := ih fun b hb => hs b (List.mem_cons_of_mem a hb)
    have hhead : (∑ i ∈ s, if p a ∧ f a = i then 1 else 0) = if p a then 1 else 0 := by
      by_cases hp : p a
      · simp [hp, hs a List.mem_cons_self hp]
      · simp [hp]
    simp only [List.countP_cons, decide_eq_true_eq, Finset.sum_add_distrib, ih, hhead]

theorem countP_le_majority (cls : α → κ) (f : α → ι) (i : ι) {k : κ}
    (hk : k ∈ (rows.map cls).toFinset) :
    rows.countP (fun a => f a = i ∧ cls a = k) ≤ majority rows cls f i :=
  Finset.le_sup (f := fun k => rows.countP fun a => f a = i ∧ cls a = k) hk

variable {rows}

/-- A group is split into the groups of a refinement, each of which has a majority of its own. -/
theorem majority_le_sum (cls : α → κ) {f : α → ι} {g : α → ι'} (j : ι') :
    majority rows cls g j ≤
      ∑ i ∈ ((rows.filter fun a => g a = j).map f).toFinset, majority rows cls f i := by
  refine Finset.sup_le fun k hk => ?_
  have hfiber := sum_countP_fiber rows (fun a => g a = j ∧ cls a = k) f
    (s := ((rows.filter fun a => g a = j).map f).toFinset) ?_
  · rw [← hfiber]
    refine Finset.sum_le_sum fun i _ => le_trans ?_ (countP_le_majority rows cls f i hk)
    refine List.countP_mono_left fun a _ ha => ?_
    simp only [decide_eq_true_eq] at ha ⊢
    exact ⟨ha.2, ha.1.2⟩
  · intro a ha hp
    rw [List.mem_toFinset]
    exact List.mem_map_of_mem (List.mem_filter.mpr ⟨ha, decide_eq_true hp.1⟩)

/-- A finer grouping agrees with any classes at least as well. -/
theorem Refines.agreement_le {f : α → ι} {g : α → ι'} (h : Refines rows f g) (cls : α → κ) :
    agreement rows cls g ≤ agreement rows cls f := by
  let parts := fun j => ((rows.filter fun a => g a = j).map f).toFinset
  have hdisjoint : ((rows.map g).toFinset : Set ι').PairwiseDisjoint parts := by
    intro j _ j' _ hne
    rw [Function.onFun, Finset.disjoint_left]
    intro i hi hi'
    rw [List.mem_toFinset] at hi hi'
    obtain ⟨a, ha, rfl⟩ := List.mem_map.mp hi
    obtain ⟨b, hb, hba⟩ := List.mem_map.mp hi'
    obtain ⟨ha, hga⟩ := List.mem_filter.mp ha
    obtain ⟨hb, hgb⟩ := List.mem_filter.mp hb
    refine hne ?_
    rw [← of_decide_eq_true hga, ← of_decide_eq_true hgb]
    exact h a ha b hb hba.symm
  have hunion : (rows.map g).toFinset.biUnion parts = (rows.map f).toFinset := by
    ext i
    simp only [Finset.mem_biUnion, List.mem_toFinset, List.mem_map, List.mem_filter, parts,
      decide_eq_true_eq]
    constructor
    · rintro ⟨j, -, a, ⟨ha, -⟩, rfl⟩
      exact ⟨a, ha, rfl⟩
    · rintro ⟨a, ha, rfl⟩
      exact ⟨g a, ⟨a, ha, rfl⟩, a, ⟨ha, rfl⟩, rfl⟩
  calc agreement rows cls g
      ≤ ∑ j ∈ (rows.map g).toFinset, ∑ i ∈ parts j, majority rows cls f i :=
        Finset.sum_le_sum fun j _ => majority_le_sum cls j
    _ = ∑ i ∈ (rows.map g).toFinset.biUnion parts, majority rows cls f i :=
        (Finset.sum_biUnion hdisjoint).symm
    _ = agreement rows cls f := by rw [hunion, agreement]

theorem sum_countP_group (f : α → ι) :
    ∑ i ∈ (rows.map f).toFinset, rows.countP (fun a => f a = i) = rows.length := by
  have hfiber := sum_countP_fiber rows (fun _ => True) f (s := (rows.map f).toFinset) fun a ha _ =>
    List.mem_toFinset.mpr (List.mem_map_of_mem ha)
  simpa using hfiber

/-- Whatever majority class is chosen for each group, as many rows have it. -/
theorem countP_choice {cls : α → κ} {f : α → ι} {choice : ι → κ}
    (h : ∀ a ∈ rows, rows.countP (fun b => f b = f a ∧ cls b = choice (f a)) =
      majority rows cls f (f a)) :
    rows.countP (fun a => cls a = choice (f a)) = agreement rows cls f := by
  rw [← sum_countP_fiber rows (fun a => cls a = choice (f a)) f (s := (rows.map f).toFinset)
    fun a ha _ => List.mem_toFinset.mpr (List.mem_map_of_mem ha), agreement]
  refine Finset.sum_congr rfl fun i hi => ?_
  obtain ⟨a, ha, rfl⟩ := List.mem_map.mp (List.mem_toFinset.mp hi)
  rw [← h a ha]
  refine List.countP_congr fun b _ => ?_
  simp only [decide_eq_true_eq]
  constructor
  · rintro ⟨hcls, hf⟩
    exact ⟨hf, hf ▸ hcls⟩
  · rintro ⟨hf, hcls⟩
    exact ⟨hf ▸ hcls, hf⟩

/-- Groups of one class each agree everywhere. -/
theorem length_le_agreement {cls : α → κ} {g : α → ι'}
    (hcls : ∀ a ∈ rows, ∀ b ∈ rows, g a = g b → cls a = cls b) :
    rows.length ≤ agreement rows cls g := by
  rw [← sum_countP_group g]
  refine Finset.sum_le_sum fun j hj => ?_
  rw [List.mem_toFinset] at hj
  obtain ⟨a, ha, rfl⟩ := List.mem_map.mp hj
  refine le_trans ?_ (countP_le_majority rows cls g (g a)
    (List.mem_toFinset.mpr (List.mem_map_of_mem ha)))
  refine List.countP_mono_left fun b hb hgb => ?_
  have hgb := of_decide_eq_true hgb
  exact decide_eq_true ⟨hgb, hcls b hb a ha hgb⟩

theorem majority_le_countP (cls : α → κ) (f : α → ι) (i : ι) :
    majority rows cls f i ≤ rows.countP fun a => f a = i := by
  refine Finset.sup_le fun k _ => List.countP_mono_left fun a _ ha => ?_
  exact decide_eq_true (of_decide_eq_true ha).1

/-- A row of another class is not in the majority of its group. -/
theorem countP_lt {p q : α → Prop} [DecidablePred p] [DecidablePred q] (hqp : ∀ a ∈ rows, q a → p a)
    {a : α} (ha : a ∈ rows) (hp : p a) (hq : ¬ q a) :
    rows.countP (fun a => q a) < rows.countP fun a => p a := by
  obtain ⟨front, back, rfl⟩ := List.append_of_mem ha
  have hmono : ∀ l, l ⊆ front ++ a :: back →
      l.countP (fun a => decide (q a)) ≤ l.countP fun a => decide (p a) := fun l hl =>
    List.countP_mono_left fun b hb hqb => decide_eq_true (hqp b (hl hb) (of_decide_eq_true hqb))
  have hfront := hmono front (List.subset_append_left _ _)
  have hback := hmono back fun b hb => List.mem_append_right _ (List.mem_cons_of_mem _ hb)
  simp only [List.countP_append, List.countP_cons, hp, hq, decide_true, decide_false, if_true]
  simp only [Bool.false_eq_true, if_false]
  omega

/-- A group with two classes does not agree everywhere. -/
theorem agreement_lt_length {cls : α → κ} {f : α → ι} {a b : α} (ha : a ∈ rows) (hb : b ∈ rows)
    (hf : f a = f b) (hcls : cls a ≠ cls b) : agreement rows cls f < rows.length := by
  rw [← sum_countP_group f]
  have hmem : f a ∈ (rows.map f).toFinset := List.mem_toFinset.mpr (List.mem_map_of_mem ha)
  refine Finset.sum_lt_sum (fun i _ => majority_le_countP cls f i) ⟨f a, hmem, ?_⟩
  have hpos : 0 < rows.countP fun c => f c = f a :=
    List.countP_pos_iff.mpr ⟨a, ha, decide_eq_true rfl⟩
  refine (Finset.sup_lt_iff hpos).mpr fun k _ => ?_
  by_cases hk : cls a = k
  · refine countP_lt (fun c _ hc => hc.1) hb hf.symm ?_
    rintro ⟨-, hkb⟩
    exact hcls (hk.trans hkb.symm)
  · refine countP_lt (fun c _ hc => hc.1) ha rfl ?_
    rintro ⟨-, hka⟩
    exact hk hka

/-- Only a finer grouping agrees as well with the other grouping taken as the classes. -/
theorem refines_of_agreement_le {cls : α → κ} {f : α → ι} {g : α → ι'}
    (hcls : ∀ a ∈ rows, ∀ b ∈ rows, cls a = cls b ↔ g a = g b)
    (hle : agreement rows cls g ≤ agreement rows cls f) : Refines rows f g := by
  intro a ha b hb hf
  by_contra hg
  have hlt := agreement_lt_length ha hb hf fun h => hg ((hcls a ha b hb).mp h)
  have hall := length_le_agreement fun a ha b hb => (hcls a ha b hb).mpr
  omega

end

end Grouping
