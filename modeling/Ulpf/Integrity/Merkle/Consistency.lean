import Ulpf.Integrity.Merkle.Tree

open Result merkle_tree_hash

namespace ulpf_integrity.merkle

variable {H : Type} [Digest H]

/-- Recursive consistency proof generator (RFC 6962 Section 2.1.2). -/
def subproof (m : Nat) (leaves : List H) (b : Bool) : Result (List H) :=
  if m = leaves.length then
    if b then ok []
    else do
      let tree ← MerkleTree.from_leaf_hashes leaves
      ok [tree.root]
  else
    with_largest_power_of_two leaves.length fun k _hk =>
      if m ≤ k then do
        let p ← subproof m (leaves.take k) b
        let right ← MerkleTree.from_leaf_hashes (leaves.drop k)
        ok (p ++ [right.root])
      else do
        let p ← subproof (m - k) (leaves.drop k) false
        let left ← MerkleTree.from_leaf_hashes (leaves.take k)
        ok (p ++ [left.root])
termination_by leaves.length
decreasing_by
  · rw [List.length_take]
    omega
  · rw [List.length_drop]
    omega

def MerkleTree.consistency_proof (self : MerkleTree H) (prev_size : Nat) :
    Result (Except MerkleError (List H)) :=
  let size := self.leaf_hashes.length
  if prev_size = 0 ∨ prev_size > size then ok (.error (.InvalidConsistencySize prev_size size))
  else if prev_size = size then ok (.ok [])
  else do
    let proof ← subproof prev_size self.leaf_hashes true
    ok (.ok proof)

/-- `Vec::pop`, with the shortened vector. -/
def pop (proof : List H) : Option (H × List H) := proof.getLast?.map fun last => (last, proof.dropLast)

omit [Digest H] in
@[simp] theorem pop_append (proof : List H) (last : H) : pop (proof ++ [last]) = some (last, proof) := by
  simp [pop]

/-- Rebuilds both heads from a proof of the non-leftmost kind. The proof is a
    stack, returned with what the call has left on it. -/
def verify_subproof_full (m n : Nat) (proof : List H) : Result (Option ((H × H) × List H)) :=
  if m = n then
    match pop proof with
    | none => ok none
    | some (h, proof) => ok (some ((h, h), proof))
  else
    with_largest_power_of_two n fun k _hk =>
      if m ≤ k then
        match pop proof with
        | none => ok none
        | some (right_mth, proof) => do
          match ← verify_subproof_full m k proof with
          | none => ok none
          | some ((sub_m, sub_k), proof) => ok (some ((sub_m, hash_children sub_k right_mth), proof))
      else
        match pop proof with
        | none => ok none
        | some (left_mth, proof) => do
          match ← verify_subproof_full (m - k) (n - k) proof with
          | none => ok none
          | some ((sub_m, sub_n), proof) =>
            ok (some ((hash_children left_mth sub_m, hash_children left_mth sub_n), proof))
termination_by n
decreasing_by
  · exact _hk.2
  · omega

variable [DecidableEq H]

def verify_consistency_internal (m n : Nat) (proof : List H) (prev_root : H) :
    Result (Option (H × List H)) :=
  if m = n then ok (some (prev_root, proof))
  else
    with_largest_power_of_two n fun k _hk =>
      if m ≤ k then
        match pop proof with
        | none => ok none
        | some (right_mth, proof) => do
          match ← verify_consistency_internal m k proof prev_root with
          | none => ok none
          | some (left_root, proof) => ok (some (hash_children left_root right_mth, proof))
      else
        match pop proof with
        | none => ok none
        | some (left_mth, proof) => do
          match ← verify_subproof_full (m - k) (n - k) proof with
          | none => ok none
          | some ((sub_m, sub_n), proof) =>
            let rec_m := hash_children left_mth sub_m
            if rec_m ≠ prev_root then ok none
            else ok (some (hash_children left_mth sub_n, proof))
termination_by n
decreasing_by exact _hk.2

/-- Verifies an RFC 6962 consistency proof between two tree snapshots. -/
def verify_consistency_proof (prev_size curr_size : Nat) (prev_root curr_root : H) (proof : List H) :
    Result Bool :=
  if prev_size = 0 ∨ prev_size > curr_size then ok false
  else if prev_size = curr_size then ok (proof.isEmpty && prev_root == curr_root)
  else do
    match ← verify_consistency_internal prev_size curr_size proof prev_root with
    | some (reconstructed_root, proof_stack) =>
      ok (proof_stack.isEmpty && reconstructed_root == curr_root)
    | none => ok false

/-! One-step equations, with the assertion of `largest_power_of_two_less_than`
    discharged: it holds because neither recursion reaches a single leaf. -/

omit [DecidableEq H] in
theorem subproof_self (leaves : List H) (b : Bool) :
    subproof leaves.length leaves b = ok (if b then [] else [treeHead leaves]) := by
  obtain ⟨tree, htree, hvalid⟩ := MerkleTree.from_leaf_hashes_spec leaves
  rw [subproof, if_pos rfl, htree, bind_ok, hvalid.root_eq]
  cases b <;> rfl

omit [DecidableEq H] in
theorem subproof_left {m : Nat} {leaves : List H} (hsize : 1 < leaves.length)
    (hm : m ≤ splitPoint leaves.length) (b : Bool) :
    subproof m leaves b =
      subproof m (leaves.take (splitPoint leaves.length)) b >>= fun p =>
        ok (p ++ [treeHead (leaves.drop (splitPoint leaves.length))]) := by
  have hlt := splitPoint_lt hsize
  obtain ⟨tree, htree, hvalid⟩ :=
    MerkleTree.from_leaf_hashes_spec (leaves.drop (splitPoint leaves.length))
  rw [subproof, if_neg (by omega)]
  rw [with_largest_power_of_two_eq hsize, if_pos hm, htree, ← hvalid.root_eq]
  rfl

omit [DecidableEq H] in
theorem subproof_right {m : Nat} {leaves : List H} (hsize : 1 < leaves.length)
    (hm : splitPoint leaves.length < m) (hne : m ≠ leaves.length) (b : Bool) :
    subproof m leaves b =
      subproof (m - splitPoint leaves.length) (leaves.drop (splitPoint leaves.length)) false >>=
        fun p => ok (p ++ [treeHead (leaves.take (splitPoint leaves.length))]) := by
  obtain ⟨tree, htree, hvalid⟩ :=
    MerkleTree.from_leaf_hashes_spec (leaves.take (splitPoint leaves.length))
  rw [subproof, if_neg hne]
  rw [with_largest_power_of_two_eq hsize, if_neg (by omega), htree, ← hvalid.root_eq]
  rfl

omit [DecidableEq H] in
theorem verify_subproof_full_self (n : Nat) (proof : List H) (h : H) :
    verify_subproof_full n n (proof ++ [h]) = ok (some ((h, h), proof)) := by
  rw [verify_subproof_full, if_pos rfl, pop_append]

omit [DecidableEq H] in
theorem verify_subproof_full_left {m n : Nat} (hn : 1 < n) (hm : m ≤ splitPoint n)
    (proof : List H) (right_mth : H) :
    verify_subproof_full m n (proof ++ [right_mth]) =
      verify_subproof_full m (splitPoint n) proof >>= fun
        | none => ok none
        | some ((sub_m, sub_k), proof) =>
          ok (some ((sub_m, hash_children sub_k right_mth), proof)) := by
  have hlt := splitPoint_lt hn
  rw [verify_subproof_full, if_neg (by omega)]
  rw [with_largest_power_of_two_eq hn, if_pos hm, pop_append]

omit [DecidableEq H] in
theorem verify_subproof_full_right {m n : Nat} (hn : 1 < n) (hm : splitPoint n < m) (hne : m ≠ n)
    (proof : List H) (left_mth : H) :
    verify_subproof_full m n (proof ++ [left_mth]) =
      verify_subproof_full (m - splitPoint n) (n - splitPoint n) proof >>= fun
        | none => ok none
        | some ((sub_m, sub_n), proof) =>
          ok (some ((hash_children left_mth sub_m, hash_children left_mth sub_n), proof)) := by
  rw [verify_subproof_full, if_neg hne]
  rw [with_largest_power_of_two_eq hn, if_neg (by omega), pop_append]

theorem verify_consistency_internal_left {m n : Nat} (hn : 1 < n) (hm : m ≤ splitPoint n)
    (proof : List H) (right_mth prev_root : H) :
    verify_consistency_internal m n (proof ++ [right_mth]) prev_root =
      verify_consistency_internal m (splitPoint n) proof prev_root >>= fun
        | none => ok none
        | some (left_root, proof) => ok (some (hash_children left_root right_mth, proof)) := by
  have hlt := splitPoint_lt hn
  rw [verify_consistency_internal, if_neg (by omega)]
  rw [with_largest_power_of_two_eq hn, if_pos hm, pop_append]

theorem verify_consistency_internal_right {m n : Nat} (hn : 1 < n) (hm : splitPoint n < m)
    (hne : m ≠ n) (proof : List H) (left_mth prev_root : H) :
    verify_consistency_internal m n (proof ++ [left_mth]) prev_root =
      verify_subproof_full (m - splitPoint n) (n - splitPoint n) proof >>= fun
        | none => ok none
        | some ((sub_m, sub_n), proof) =>
          if hash_children left_mth sub_m ≠ prev_root then ok none
          else ok (some (hash_children left_mth sub_n, proof)) := by
  rw [verify_consistency_internal, if_neg hne]
  rw [with_largest_power_of_two_eq hn, if_neg (by omega), pop_append]

omit [DecidableEq H] in
theorem verify_subproof_full_nil {m n : Nat} (hlo : 1 ≤ m) (hhi : m ≤ n) :
    verify_subproof_full m n ([] : List H) = ok none := by
  rw [verify_subproof_full]
  split
  · rfl
  · rw [with_largest_power_of_two_eq (by omega)]
    split <;> rfl

theorem verify_consistency_internal_nil {m n : Nat} (hlo : 1 ≤ m) (hlt : m < n) (prev_root : H) :
    verify_consistency_internal m n [] prev_root = ok none := by
  rw [verify_consistency_internal, if_neg (by omega), with_largest_power_of_two_eq (by omega)]
  split <;> rfl

omit [DecidableEq H] in
/-- Below the leftmost spine the generator hands the verifier both heads. What
    lies under the proof on the stack is left alone, so that the calls nest. -/
theorem subproof_false_verifies {leaves : List H} {m : Nat} (hlo : 1 ≤ m) (hhi : m ≤ leaves.length) :
    ∃ p, subproof m leaves false = ok p ∧
      ∀ stack, verify_subproof_full m leaves.length (stack ++ p) =
        ok (some ((treeHead (leaves.take m), treeHead leaves), stack)) := by
  induction leaves, m, hlo, hhi using prefix_induction with
  | full leaves _ =>
    refine ⟨_, subproof_self leaves false, fun stack => ?_⟩
    rw [if_neg Bool.false_ne_true, verify_subproof_full_self, List.take_length]
  | left leaves m hsize _ _ hm _ ih =>
    obtain ⟨p, hp, hverify⟩ := ih
    refine ⟨_, by rw [subproof_left hsize hm, hp, bind_ok], fun stack => ?_⟩
    rw [List.length_take_of_le (splitPoint_lt hsize).le] at hverify
    rw [← List.append_assoc, verify_subproof_full_left hsize hm, hverify, bind_ok,
      List.take_take, Nat.min_eq_left hm]
    simp only [← treeHead_split hsize]
  | right leaves m hsize _ hhi hm hne _ _ ih =>
    obtain ⟨p, hp, hverify⟩ := ih
    refine ⟨_, by rw [subproof_right hsize hm hne, hp, bind_ok], fun stack => ?_⟩
    rw [List.length_drop] at hverify
    rw [← List.append_assoc, verify_subproof_full_right hsize hm hne, hverify, bind_ok]
    simp only [← treeHead_split hsize, ← treeHead_take hm hhi]

/-- Along the leftmost spine the old head is supplied by the caller and the
    verifier rebuilds the new one from it. -/
theorem subproof_true_verifies {leaves : List H} {m : Nat} (hlo : 1 ≤ m) (hhi : m ≤ leaves.length) :
    ∃ p, subproof m leaves true = ok p ∧
      ∀ stack, verify_consistency_internal m leaves.length (stack ++ p) (treeHead (leaves.take m)) =
        ok (some (treeHead leaves, stack)) := by
  induction leaves, m, hlo, hhi using prefix_induction with
  | full leaves _ =>
    refine ⟨_, subproof_self leaves true, fun stack => ?_⟩
    rw [verify_consistency_internal, if_pos rfl, if_pos rfl, List.append_nil, List.take_length]
  | left leaves m hsize _ _ hm _ ih =>
    obtain ⟨p, hp, hverify⟩ := ih
    refine ⟨_, by rw [subproof_left hsize hm, hp, bind_ok], fun stack => ?_⟩
    rw [List.length_take_of_le (splitPoint_lt hsize).le, List.take_take, Nat.min_eq_left hm]
      at hverify
    rw [← List.append_assoc, verify_consistency_internal_left hsize hm, hverify, bind_ok]
    simp only [← treeHead_split hsize]
  | right leaves m hsize _ hhi hm hne hrest hright _ =>
    obtain ⟨p, hp, hverify⟩ := subproof_false_verifies hrest hright
    refine ⟨_, by rw [subproof_right hsize hm hne, hp, bind_ok], fun stack => ?_⟩
    rw [List.length_drop] at hverify
    rw [← List.append_assoc, verify_consistency_internal_right hsize hm hne, hverify, bind_ok]
    simp [← treeHead_split hsize, ← treeHead_take hm hhi]

/-- The proof that is generated between a tree and that of a prefix of its leaves is
    accepted between their roots. -/
theorem MerkleTree.Valid.consistency_proof_verifies {leaves : List H} {m : Nat}
    {old new : MerkleTree H} (hlo : 1 ≤ m) (hhi : m ≤ leaves.length)
    (hold : old.Valid (leaves.take m)) (hnew : new.Valid leaves) :
    ∃ proof, new.consistency_proof m = ok (.ok proof) ∧
      verify_consistency_proof m leaves.length old.root new.root proof = ok true := by
  have hlength : new.leaf_hashes.length = leaves.length := by rw [hnew.leaf_hashes_eq]
  by_cases hfull : m = leaves.length
  · refine ⟨[], ?_, ?_⟩
    · rw [consistency_proof, hlength, if_neg (by omega), if_pos hfull]
    · rw [verify_consistency_proof, if_neg (by omega), if_pos hfull, hold.root_eq, hnew.root_eq,
        hfull, List.take_length]
      simp
  · obtain ⟨proof, hproof, hverify⟩ := subproof_true_verifies hlo hhi
    have haccept := hverify []
    rw [List.nil_append] at haccept
    refine ⟨proof, ?_, ?_⟩
    · rw [consistency_proof, hlength, if_neg (by omega), if_neg hfull, hnew.leaf_hashes_eq,
        hproof, bind_ok]
    · rw [verify_consistency_proof, if_neg (by omega), if_neg hfull, hold.root_eq, haccept, bind_ok,
        hnew.root_eq]
      simp

/-- Consistency proofs are complete: for every prefix of the logs the proof is
    generated and accepted between the two roots. -/
theorem MerkleTree.consistency_proof_complete {logs : List (List UInt8)} {m : Nat}
    (hlo : 1 ≤ m) (hhi : m ≤ logs.length) :
    ∃ (old new : MerkleTree H) (proof : List H), from_raw_logs (logs.take m) = ok old ∧
      from_raw_logs logs = ok new ∧ new.consistency_proof m = ok (.ok proof) ∧
      verify_consistency_proof m logs.length old.root new.root proof = ok true := by
  obtain ⟨old, hold, holdValid⟩ := from_raw_logs_spec (H := H) (logs.take m)
  obtain ⟨new, hnew, hnewValid⟩ := from_raw_logs_spec (H := H) logs
  rw [List.map_take] at holdValid
  obtain ⟨proof, hproof, haccept⟩ :=
    holdValid.consistency_proof_verifies hlo (by simpa using hhi) hnewValid
  rw [List.length_map] at haccept
  exact ⟨old, new, proof, hold, hnew, hproof, haccept⟩

theorem MerkleTree.consistency_proof_complete_two_of_three :
    ∃ (old new : MerkleTree Hash) (proof : List Hash), from_raw_logs [[1], [2]] = ok old ∧
      from_raw_logs [[1], [2], [3]] = ok new ∧ new.consistency_proof 2 = ok (.ok proof) ∧
      verify_consistency_proof 2 3 old.root new.root proof = ok true :=
  MerkleTree.consistency_proof_complete (m := 2) (by decide)
    (show 2 ≤ ([[1], [2], [3]] : List (List UInt8)).length by decide)

section

variable (hnode : ∀ a b c d : H, hash_children a b = hash_children c d → a = c ∧ b = d)
include hnode

omit [DecidableEq H] in
/-- A proof that rebuilds the head of `leaves` carries the head of their prefix: the
    node hash pins what the proof supplies at every level. -/
theorem verify_subproof_full_sound {leaves : List H} {m : Nat} (hlo : 1 ≤ m)
    (hhi : m ≤ leaves.length) {proof rest : List H} {sub_m : H}
    (h : verify_subproof_full m leaves.length proof = ok (some ((sub_m, treeHead leaves), rest))) :
    sub_m = treeHead (leaves.take m) := by
  induction leaves, m, hlo, hhi using prefix_induction generalizing proof rest sub_m with
  | full leaves _ =>
    rw [verify_subproof_full, if_pos rfl] at h
    rw [List.take_length]
    cases hpop : pop proof with
    | none => simp [hpop] at h
    | some popped =>
      simp only [hpop, ok.injEq, Option.some.injEq, Prod.mk.injEq] at h
      exact h.1.1.symm.trans h.1.2
  | left leaves m hsize hlo hhi hm _ ih =>
    obtain rfl | ⟨proof, top, rfl⟩ := List.eq_nil_or_concat' proof
    · rw [verify_subproof_full_nil hlo hhi] at h
      cases h
    rw [verify_subproof_full_left hsize hm] at h
    obtain ⟨sub, hsub, h⟩ := bind_eq_ok_iff.mp h
    cases sub with
    | none => cases h
    | some sub =>
      obtain ⟨⟨sub_m', sub_k⟩, rest'⟩ := sub
      simp only [ok.injEq, Option.some.injEq, Prod.mk.injEq] at h
      obtain ⟨⟨rfl, hhead⟩, rfl⟩ := h
      rw [treeHead_split hsize] at hhead
      obtain ⟨rfl, -⟩ := hnode _ _ _ _ hhead
      rw [List.length_take_of_le (splitPoint_lt hsize).le] at ih
      have hold := ih hsub
      rwa [List.take_take, Nat.min_eq_left hm] at hold
  | right leaves m hsize hlo hhi hm hne _ _ ih =>
    obtain rfl | ⟨proof, top, rfl⟩ := List.eq_nil_or_concat' proof
    · rw [verify_subproof_full_nil hlo hhi] at h
      cases h
    rw [verify_subproof_full_right hsize hm hne] at h
    obtain ⟨sub, hsub, h⟩ := bind_eq_ok_iff.mp h
    cases sub with
    | none => cases h
    | some sub =>
      obtain ⟨⟨sub_m', sub_n⟩, rest'⟩ := sub
      simp only [ok.injEq, Option.some.injEq, Prod.mk.injEq] at h
      obtain ⟨⟨rfl, hhead⟩, rfl⟩ := h
      rw [treeHead_split hsize] at hhead
      obtain ⟨rfl, rfl⟩ := hnode _ _ _ _ hhead
      rw [← List.length_drop] at hsub
      rw [ih hsub, ← treeHead_take hm hhi]

/-- The same along the leftmost spine, where the old head comes from the caller. -/
theorem verify_consistency_internal_sound {leaves : List H} {m : Nat} (hlo : 1 ≤ m)
    (hhi : m ≤ leaves.length) {proof rest : List H} {prev_root : H}
    (h : verify_consistency_internal m leaves.length proof prev_root =
      ok (some (treeHead leaves, rest))) : prev_root = treeHead (leaves.take m) := by
  induction leaves, m, hlo, hhi using prefix_induction generalizing proof rest prev_root with
  | full leaves _ =>
    rw [verify_consistency_internal, if_pos rfl] at h
    simp only [ok.injEq, Option.some.injEq, Prod.mk.injEq] at h
    rw [List.take_length]
    exact h.1
  | left leaves m hsize hlo _ hm _ ih =>
    have hlt := splitPoint_lt hsize
    obtain rfl | ⟨proof, top, rfl⟩ := List.eq_nil_or_concat' proof
    · rw [verify_consistency_internal_nil hlo (by omega)] at h
      cases h
    rw [verify_consistency_internal_left hsize hm] at h
    obtain ⟨sub, hsub, h⟩ := bind_eq_ok_iff.mp h
    cases sub with
    | none => cases h
    | some sub =>
      obtain ⟨left_root, rest'⟩ := sub
      simp only [ok.injEq, Option.some.injEq, Prod.mk.injEq] at h
      obtain ⟨hhead, rfl⟩ := h
      rw [treeHead_split hsize] at hhead
      obtain ⟨rfl, -⟩ := hnode _ _ _ _ hhead
      rw [List.length_take_of_le hlt.le] at ih
      have hold := ih hsub
      rwa [List.take_take, Nat.min_eq_left hm] at hold
  | right leaves m hsize hlo hhi hm hne hrest hright _ =>
    obtain rfl | ⟨proof, top, rfl⟩ := List.eq_nil_or_concat' proof
    · rw [verify_consistency_internal_nil hlo (by omega)] at h
      cases h
    rw [verify_consistency_internal_right hsize hm hne] at h
    obtain ⟨sub, hsub, h⟩ := bind_eq_ok_iff.mp h
    cases sub with
    | none => cases h
    | some sub =>
      obtain ⟨⟨sub_m, sub_n⟩, rest'⟩ := sub
      dsimp only at h
      -- the verifier itself compares the rebuilt old head with the given one
      split at h
      · cases h
      · rename_i hrec
        rw [not_not] at hrec
        simp only [ok.injEq, Option.some.injEq, Prod.mk.injEq] at h
        obtain ⟨hhead, rfl⟩ := h
        rw [treeHead_split hsize] at hhead
        obtain ⟨rfl, rfl⟩ := hnode _ _ _ _ hhead
        rw [← List.length_drop] at hsub
        rw [← hrec, verify_subproof_full_sound hnode hrest hright hsub, ← treeHead_take hm hhi]

/-- Consistency proofs are sound: against the root of the logs a proof is accepted
    only for the root of their prefix, whatever old root and hashes are offered. -/
theorem MerkleTree.consistency_proof_sound {logs : List (List UInt8)} {m : Nat} (hlo : 1 ≤ m)
    (hhi : m ≤ logs.length) {new : MerkleTree H} (hnew : from_raw_logs logs = ok new)
    {prev_root : H} {proof : List H}
    (haccept : verify_consistency_proof m logs.length prev_root new.root proof = ok true) :
    ∃ old : MerkleTree H, from_raw_logs (logs.take m) = ok old ∧ prev_root = old.root := by
  obtain ⟨old, hold, holdValid⟩ := from_raw_logs_spec (H := H) (logs.take m)
  have hroot : new.root = treeHead (logs.map hash_leaf) := (valid_of_from_raw_logs hnew).root_eq
  refine ⟨old, hold, ?_⟩
  rw [holdValid.root_eq, List.map_take]
  rw [verify_consistency_proof, if_neg (by omega)] at haccept
  by_cases hfull : m = logs.length
  · subst hfull
    rw [if_pos rfl, hroot] at haccept
    rw [← List.length_map (hash_leaf (H := H)), List.take_length]
    simp only [ok.injEq, Bool.and_eq_true, beq_iff_eq] at haccept
    exact haccept.2
  · rw [if_neg hfull] at haccept
    obtain ⟨rebuilt, hrebuilt, haccept⟩ := bind_eq_ok_iff.mp haccept
    cases rebuilt with
    | none => cases haccept
    | some rebuilt =>
      obtain ⟨reconstructed_root, rest⟩ := rebuilt
      simp only [ok.injEq, Bool.and_eq_true, beq_iff_eq] at haccept
      obtain ⟨-, rfl⟩ := haccept
      rw [hroot, ← List.length_map (hash_leaf (H := H))] at hrebuilt
      exact verify_consistency_internal_sound hnode hlo (by simpa using hhi) hrebuilt

end

/-- An honest proof for two of three logs pins the old root. -/
theorem MerkleTree.consistency_proof_sound_two_of_three :
    ∃ (new old : MerkleTree Preimage) (prev_root : Preimage) (proof : List Preimage),
      from_raw_logs [[1], [2], [3]] = ok new ∧
      verify_consistency_proof 2 3 prev_root new.root proof = ok true ∧
      from_raw_logs [[1], [2]] = ok old ∧ prev_root = old.root := by
  obtain ⟨old, -, holdValid⟩ := from_raw_logs_spec (H := Preimage) [[1], [2]]
  obtain ⟨new, hnew, hnewValid⟩ := from_raw_logs_spec (H := Preimage) [[1], [2], [3]]
  have hprefix : old.Valid (([[1], [2], [3]].map hash_leaf).take 2) := holdValid
  obtain ⟨proof, -, haccept⟩ :=
    hprefix.consistency_proof_verifies (by decide) (by decide) hnewValid
  obtain ⟨first, hold, hroot⟩ := MerkleTree.consistency_proof_sound
    (DomainSeparated.hash_children_injective (H := Preimage)) (by decide) (by decide) hnew haccept
  exact ⟨new, first, old.root, proof, hnew, haccept, hold, hroot⟩

end ulpf_integrity.merkle
