import Mathlib.Data.Nat.Log
import Mathlib.Data.List.Basic
import Mathlib.Tactic

namespace merkle_tree_hash

/-- Position of a sibling relative to the branch it completes. -/
inductive Side where
  | Left
  | Right
  deriving DecidableEq, Repr

/-- The left subtree of an unbalanced tree with `n` leaves: the largest power
    of two strictly below `n`. Meaningful from two leaves on. -/
def splitPoint (n : Nat) : Nat := 2 ^ Nat.log2 (n - 1)

theorem splitPoint_pos (n : Nat) : 0 < splitPoint n := Nat.two_pow_pos _

theorem splitPoint_lt {n : Nat} (hn : 1 < n) : splitPoint n < n := by
  have hle : 2 ^ Nat.log2 (n - 1) ≤ n - 1 := Nat.log2_self_le (by omega)
  unfold splitPoint
  omega

theorem le_two_mul_splitPoint {n : Nat} (hn : 1 < n) : n ≤ 2 * splitPoint n := by
  have hlt : n - 1 < 2 ^ (Nat.log2 (n - 1) + 1) := (Nat.log2_lt (by omega)).mp (Nat.lt_succ_self _)
  rw [pow_succ] at hlt
  unfold splitPoint
  omega

/-- The split point is determined by the power-of-two window `k < n ≤ 2k`, so
    every size in the same window splits at the same place. -/
theorem splitPoint_eq_of_mem_window {m n : Nat} (hlo : splitPoint n < m) (hhi : m ≤ n) :
    splitPoint m = splitPoint n := by
  have hpos := splitPoint_pos n
  have hwindow : n ≤ 2 * splitPoint n := le_two_mul_splitPoint (by omega)
  unfold splitPoint at *
  congr 1
  apply (Nat.log2_eq_iff (by omega)).mpr
  rw [pow_succ]
  omega

/-- The left subtree is one level lower than the whole. -/
theorem clog_splitPoint {n : Nat} (hn : 1 < n) :
    Nat.clog 2 (splitPoint n) + 1 = Nat.clog 2 n := by
  have hlow : splitPoint n < n := splitPoint_lt hn
  have hhigh : n ≤ 2 * splitPoint n := le_two_mul_splitPoint hn
  unfold splitPoint at *
  rw [Nat.clog_pow 2 _ Nat.one_lt_two]
  apply le_antisymm
  · exact (Nat.lt_clog_iff_pow_lt Nat.one_lt_two).mpr hlow
  · apply Nat.clog_le_of_le_pow
    rwa [pow_succ']

section Head

variable {H : Type} (node : H → H → H) (empty : H)

/-- The tree head of a list of leaf hashes. -/
def mth (leaves : List H) : H :=
  if _hsize : 1 < leaves.length then
    node (mth (leaves.take (splitPoint leaves.length)))
      (mth (leaves.drop (splitPoint leaves.length)))
  else leaves.headD empty
termination_by leaves.length
decreasing_by
  · have hlt := splitPoint_lt _hsize
    rw [List.length_take]
    omega
  · have hpos := splitPoint_pos leaves.length
    rw [List.length_drop]
    omega

@[simp] theorem mth_singleton (leaf : H) : mth node empty [leaf] = leaf := by
  rw [mth, dif_neg (by simp), List.headD_cons]

theorem mth_split {leaves : List H} (hsize : 1 < leaves.length) :
    mth node empty leaves =
      node (mth node empty (leaves.take (splitPoint leaves.length)))
        (mth node empty (leaves.drop (splitPoint leaves.length))) := by
  rw [mth, dif_pos hsize]

@[simp] theorem mth_pair (left right : H) : mth node empty [left, right] = node left right := by
  have hsplit : splitPoint 2 = 1 := by decide
  rw [mth_split node empty (by simp)]
  simp [hsplit]

/-- Induction along the tree: a property of every singleton that passes from
    the two halves of a list to the list holds of every non-empty list. -/
theorem split_induction {P : (leaves : List H) → leaves ≠ [] → Prop}
    (single : ∀ leaf, P [leaf] (List.cons_ne_nil _ _))
    (split : ∀ (leaves : List H) (hsize : 1 < leaves.length)
      (hleft : leaves.take (splitPoint leaves.length) ≠ [])
      (hright : leaves.drop (splitPoint leaves.length) ≠ []),
      P _ hleft → P _ hright → P leaves (List.ne_nil_of_length_pos (by omega)))
    (leaves : List H) (hne : leaves ≠ []) : P leaves hne := by
  induction hlen : leaves.length using Nat.strong_induction_on generalizing leaves with
  | _ n ih =>
    subst hlen
    match leaves, hne with
    | [leaf], _ => exact single leaf
    | first :: second :: rest, _ =>
      have hsize : 1 < (first :: second :: rest).length := by simp
      have hlt := splitPoint_lt hsize
      have hpos := splitPoint_pos (first :: second :: rest).length
      have hleft : ((first :: second :: rest).take (splitPoint _)).length = splitPoint _ :=
        List.length_take_of_le hlt.le
      have hright := List.length_drop
        (i := splitPoint (first :: second :: rest).length) (l := first :: second :: rest)
      apply split _ hsize
      · exact ih _ (by omega) _ (List.ne_nil_of_length_pos (by omega)) rfl
      · exact ih _ (by omega) _ (List.ne_nil_of_length_pos (by omega)) rfl

/-- Induction along the way to the end of a prefix: it is the whole list, or it ends in the left
    half, or in the right half. -/
theorem prefix_induction {P : (leaves : List H) → (m : Nat) → 1 ≤ m → m ≤ leaves.length → Prop}
    (full : ∀ (leaves : List H) (hpos : 1 ≤ leaves.length), P leaves leaves.length hpos le_rfl)
    (left : ∀ (leaves : List H) (m : Nat) (_hsize : 1 < leaves.length) (hlo : 1 ≤ m)
      (hhi : m ≤ leaves.length) (_hm : m ≤ splitPoint leaves.length)
      (hleft : m ≤ (leaves.take (splitPoint leaves.length)).length),
      P _ m hlo hleft → P leaves m hlo hhi)
    (right : ∀ (leaves : List H) (m : Nat) (_hsize : 1 < leaves.length) (hlo : 1 ≤ m)
      (hhi : m ≤ leaves.length) (_hm : splitPoint leaves.length < m) (_hne : m ≠ leaves.length)
      (hrest : 1 ≤ m - splitPoint leaves.length)
      (hright : m - splitPoint leaves.length ≤ (leaves.drop (splitPoint leaves.length)).length),
      P _ _ hrest hright → P leaves m hlo hhi)
    (leaves : List H) (m : Nat) (hlo : 1 ≤ m) (hhi : m ≤ leaves.length) : P leaves m hlo hhi := by
  have hne : leaves ≠ [] := List.ne_nil_of_length_pos (by omega)
  induction leaves, hne using split_induction generalizing m with
  | single leaf =>
    obtain rfl : m = [leaf].length := le_antisymm hhi hlo
    exact full [leaf] hlo
  | split leaves hsize _ _ ihl ihr =>
    by_cases hfull : m = leaves.length
    · subst hfull
      exact full leaves hlo
    by_cases hm : m ≤ splitPoint leaves.length
    · have hleft : m ≤ (leaves.take (splitPoint leaves.length)).length := by
        rwa [List.length_take_of_le (splitPoint_lt hsize).le]
      exact left leaves m hsize hlo hhi hm hleft (ihl m hlo hleft)
    · have hrest : 1 ≤ m - splitPoint leaves.length := by omega
      have hright : m - splitPoint leaves.length ≤
          (leaves.drop (splitPoint leaves.length)).length := by
        rw [List.length_drop]
        omega
      exact right leaves m hsize hlo hhi (by omega) hfull hrest hright (ihr _ hrest hright)

/-- A head over an injective node hash determines the leaves, once their
    number is known. -/
theorem mth_injective (hnode : ∀ a b c d, node a b = node c d → a = c ∧ b = d) :
    ∀ {xs ys : List H}, xs.length = ys.length →
      mth node empty xs = mth node empty ys → xs = ys := by
  intro xs ys hlen hroot
  by_cases hxs : xs = []
  · subst hxs
    exact (List.eq_nil_of_length_eq_zero hlen.symm).symm
  induction xs, hxs using split_induction generalizing ys with
  | single x =>
    obtain ⟨y, rfl⟩ := List.length_eq_one_iff.mp hlen.symm
    simpa using hroot
  | split xs hsize _ _ ihl ihr =>
    have hsize' : 1 < ys.length := hlen ▸ hsize
    rw [mth_split node empty hsize, mth_split node empty hsize', ← hlen] at hroot
    obtain ⟨hleft, hright⟩ := hnode _ _ _ _ hroot
    rw [← List.take_append_drop (splitPoint xs.length) xs,
      ← List.take_append_drop (splitPoint xs.length) ys,
      ihl (by simp [hlen]) hleft, ihr (by simp [hlen]) hright]

/-- The head of a prefix that reaches into the right subtree keeps the whole
    left subtree and shortens the right one. -/
theorem mth_take_of_split_lt {leaves : List H} {m : Nat}
    (hlo : splitPoint leaves.length < m) (hhi : m ≤ leaves.length) :
    mth node empty (leaves.take m) =
      node (mth node empty (leaves.take (splitPoint leaves.length)))
        (mth node empty ((leaves.drop (splitPoint leaves.length)).take
          (m - splitPoint leaves.length))) := by
  have hpos := splitPoint_pos leaves.length
  have hlen : (leaves.take m).length = m := by simp [hhi]
  rw [mth_split node empty (by omega), hlen, splitPoint_eq_of_mem_window hlo hhi,
    List.take_take, Nat.min_eq_left hlo.le, List.drop_take]

end Head

section Audit

variable {H : Type} (node : H → H → H) (empty : H)

/-- Recompute a head from a leaf hash and its siblings, listed from the leaf up. -/
def climb (leaf : H) (path : List (H × Side)) : H :=
  path.foldl (fun current step =>
    match step.2 with
    | .Right => node current step.1
    | .Left => node step.1 current) leaf

@[simp] theorem climb_nil (leaf : H) : climb node leaf [] = leaf := rfl

@[simp] theorem climb_append_right (leaf sibling : H) (path : List (H × Side)) :
    climb node leaf (path ++ [(sibling, .Right)]) = node (climb node leaf path) sibling := by
  simp [climb]

@[simp] theorem climb_append_left (leaf sibling : H) (path : List (H × Side)) :
    climb node leaf (path ++ [(sibling, .Left)]) = node sibling (climb node leaf path) := by
  simp [climb]

/-- The siblings met on the way from the leaf at `index` up to the head. -/
def auditPath (leaves : List H) (index : Nat) : List (H × Side) :=
  if _hsize : 1 < leaves.length then
    if index < splitPoint leaves.length then
      auditPath (leaves.take (splitPoint leaves.length)) index ++
        [(mth node empty (leaves.drop (splitPoint leaves.length)), .Right)]
    else
      auditPath (leaves.drop (splitPoint leaves.length)) (index - splitPoint leaves.length) ++
        [(mth node empty (leaves.take (splitPoint leaves.length)), .Left)]
  else []
termination_by leaves.length
decreasing_by
  · have hlt := splitPoint_lt _hsize
    rw [List.length_take]
    omega
  · have hpos := splitPoint_pos leaves.length
    rw [List.length_drop]
    omega

@[simp] theorem auditPath_singleton (leaf : H) (index : Nat) :
    auditPath node empty [leaf] index = [] := by
  rw [auditPath, dif_neg (by simp)]

theorem auditPath_left {leaves : List H} {index : Nat} (hsize : 1 < leaves.length)
    (hindex : index < splitPoint leaves.length) :
    auditPath node empty leaves index =
      auditPath node empty (leaves.take (splitPoint leaves.length)) index ++
        [(mth node empty (leaves.drop (splitPoint leaves.length)), .Right)] := by
  rw [auditPath, dif_pos hsize, if_pos hindex]

theorem auditPath_right {leaves : List H} {index : Nat} (hsize : 1 < leaves.length)
    (hindex : ¬ index < splitPoint leaves.length) :
    auditPath node empty leaves index =
      auditPath node empty (leaves.drop (splitPoint leaves.length))
          (index - splitPoint leaves.length) ++
        [(mth node empty (leaves.take (splitPoint leaves.length)), .Left)] := by
  rw [auditPath, dif_pos hsize, if_neg hindex]

/-- Every leaf climbs along its own audit path to the head. -/
theorem climb_auditPath {leaves : List H} (hne : leaves ≠ []) :
    ∀ {index : Nat} {leaf : H}, leaves[index]? = some leaf →
      climb node leaf (auditPath node empty leaves index) = mth node empty leaves := by
  induction leaves, hne using split_induction with
  | single x =>
    intro index leaf hleaf
    cases index with
    | zero => simpa using hleaf.symm
    | succ index => simp at hleaf
  | split leaves hsize _ _ ihl ihr =>
    intro index leaf hleaf
    rw [mth_split node empty hsize]
    by_cases hindex : index < splitPoint leaves.length
    · rw [auditPath_left node empty hsize hindex, climb_append_right,
        ihl (by simpa [List.getElem?_take, hindex] using hleaf)]
    · rw [auditPath_right node empty hsize hindex, climb_append_left, ihr]
      rwa [List.getElem?_drop, Nat.add_sub_cancel' (by omega)]

/-- No leaf lies deeper than the logarithm of their number. -/
theorem length_auditPath_le {leaves : List H} (hne : leaves ≠ []) :
    ∀ index, (auditPath node empty leaves index).length ≤ Nat.clog 2 leaves.length := by
  induction leaves, hne using split_induction with
  | single leaf =>
    intro index
    rw [auditPath_singleton]
    exact Nat.zero_le _
  | split leaves hsize _ _ ihl ihr =>
    intro index
    rw [← clog_splitPoint hsize]
    by_cases hindex : index < splitPoint leaves.length
    · have hleft := ihl index
      rw [List.length_take_of_le (splitPoint_lt hsize).le] at hleft
      rw [auditPath_left node empty hsize hindex, List.length_append, List.length_singleton]
      exact Nat.succ_le_succ hleft
    · have hright := ihr (index - splitPoint leaves.length)
      have hsmaller : leaves.length - splitPoint leaves.length ≤ splitPoint leaves.length := by
        have hwindow := le_two_mul_splitPoint hsize
        omega
      rw [List.length_drop] at hright
      rw [auditPath_right node empty hsize hindex, List.length_append, List.length_singleton]
      exact Nat.succ_le_succ (hright.trans (Nat.clog_mono_right 2 hsmaller))

/-- The first leaf lies at that depth: every left subtree is a full one. -/
theorem length_auditPath_zero {leaves : List H} (hne : leaves ≠ []) :
    (auditPath node empty leaves 0).length = Nat.clog 2 leaves.length := by
  induction leaves, hne using split_induction with
  | single leaf => simp
  | split leaves hsize _ _ ihl _ =>
    rw [List.length_take_of_le (splitPoint_lt hsize).le] at ihl
    rw [auditPath_left node empty hsize (splitPoint_pos _), List.length_append, List.length_singleton,
      ihl, clog_splitPoint hsize]

/-- What an arbitrary path can prove: over an injective node hash whose values
    are never leaves, a climb that reaches the head starts at some leaf of the
    list and follows exactly that leaf's audit path. -/
theorem exists_auditPath_of_climb_eq
    (hnode : ∀ a b c d, node a b = node c d → a = c ∧ b = d) {leaf : H}
    (hleaf : ∀ a b, leaf ≠ node a b) {leaves : List H} (hne : leaves ≠ [])
    (hleaves : ∀ x ∈ leaves, ∀ a b, x ≠ node a b) :
    ∀ {path : List (H × Side)}, climb node leaf path = mth node empty leaves →
      ∃ index, leaves[index]? = some leaf ∧ path = auditPath node empty leaves index := by
  induction leaves, hne using split_induction with
  | single x =>
    intro path hclimb
    -- a non-empty path ends in a node hash, which the only leaf is not
    rcases List.eq_nil_or_concat path with rfl | ⟨init, ⟨sibling, side⟩, rfl⟩
    · exact ⟨0, by simpa using hclimb.symm, by simp⟩
    · have hx := hleaves x (by simp)
      cases side <;> simp at hclimb <;> exact absurd hclimb.symm (hx _ _)
  | split leaves hsize _ _ ihl ihr =>
    intro path hclimb
    rw [mth_split node empty hsize] at hclimb
    rcases List.eq_nil_or_concat path with rfl | ⟨init, ⟨sibling, side⟩, rfl⟩
    · exact absurd hclimb (hleaf _ _)
    · cases side with
      | Right =>
        rw [List.concat_eq_append, climb_append_right] at hclimb
        obtain ⟨hbranch, rfl⟩ := hnode _ _ _ _ hclimb
        obtain ⟨index, hget, rfl⟩ := ihl (fun x hx => hleaves x (List.mem_of_mem_take hx)) hbranch
        have hindex : index < splitPoint leaves.length := by
          by_contra hnot
          simp [hnot] at hget
        refine ⟨index, by simpa [List.getElem?_take, hindex] using hget, ?_⟩
        rw [auditPath_left node empty hsize hindex, List.concat_eq_append]
      | Left =>
        rw [List.concat_eq_append, climb_append_left] at hclimb
        obtain ⟨rfl, hbranch⟩ := hnode _ _ _ _ hclimb
        obtain ⟨index, hget, rfl⟩ := ihr (fun x hx => hleaves x (List.mem_of_mem_drop hx)) hbranch
        refine ⟨splitPoint leaves.length + index, by simpa [List.getElem?_drop] using hget, ?_⟩
        rw [auditPath_right node empty hsize (by omega), List.concat_eq_append, Nat.add_sub_cancel_left]

end Audit

end merkle_tree_hash
