import Ulpf.Integrity.Merkle.Tree

open Result merkle_tree_hash

namespace ulpf_integrity.merkle

variable {H : Type}

def TreeNode.collect_audit_path (self : TreeNode H) (target_idx : Nat) (path : List (H × Side)) :
    Result (List (H × Side)) :=
  match self with
  | .Leaf _ _ => ok path
  | .Internal _ size left right => do
    let k ← largest_power_of_two_less_than size
    if target_idx < k then
      let path ← left.collect_audit_path target_idx path
      ok (path ++ [(right.hash, .Right)])
    else
      let path ← right.collect_audit_path (target_idx - k) path
      ok (path ++ [(left.hash, .Left)])

/-- An RFC 6962 inclusion proof (audit path) that a leaf belongs to a tree. -/
structure InclusionProof (H : Type) where
  leaf_index : Nat
  tree_size : Nat
  audit_path : List (H × Side)

def MerkleTree.inclusion_proof (self : MerkleTree H) (index : Nat) :
    Result (Except MerkleError (InclusionProof H)) :=
  let size := self.leaf_hashes.length
  if size = 0 then ok (.error .EmptyTree)
  else if index ≥ size then ok (.error (.IndexOutOfBounds index size))
  else do
    let audit_path ← match self.root_node with
      | some node => node.collect_audit_path index []
      | none => ok []
    ok (.ok { leaf_index := index, tree_size := size, audit_path })

variable [Digest H] [DecidableEq H]

def verify_inclusion_proof_by_hash (leaf_hash : H) (leaf_index tree_size : Nat)
    (audit_path : List (H × Side)) (expected_root : H) : Bool :=
  if tree_size = 0 ∨ leaf_index ≥ tree_size then false
  else if tree_size = 1 then audit_path.isEmpty && leaf_index == 0 && leaf_hash == expected_root
  else
    let current_hash := audit_path.foldl (fun current_hash step =>
      match step.2 with
      | .Right => hash_children current_hash step.1
      | .Left => hash_children step.1 current_hash) leaf_hash
    current_hash == expected_root

def verify_inclusion_proof (raw_log : List UInt8) (leaf_index tree_size : Nat)
    (audit_path : List (H × Side)) (expected_root : H) : Bool :=
  verify_inclusion_proof_by_hash (hash_leaf raw_log) leaf_index tree_size audit_path expected_root

def InclusionProof.verify (self : InclusionProof H) (raw_log : List UInt8) (expected_root : H) : Bool :=
  verify_inclusion_proof raw_log self.leaf_index self.tree_size self.audit_path expected_root

omit [DecidableEq H] in
/-- Walking the stored nodes by their cached sizes appends the audit path of
    the leaf list they were built from. -/
theorem TreeNode.Built.collect_audit_path_eq {leaves : List H} {node : TreeNode H}
    (hbuilt : node.Built leaves) : ∀ (index : Nat) (path : List (H × Side)),
      node.collect_audit_path index path =
        ok (path ++ auditPath hash_children empty_tree_hash leaves index) := by
  induction hbuilt with
  | leaf hash index =>
    intro target path
    simp [TreeNode.collect_audit_path]
  | internal hsize hleft hright ihl ihr =>
    intro target path
    rw [TreeNode.collect_audit_path, largest_power_of_two_less_than_eq hsize, bind_ok]
    split
    · rename_i hindex
      rw [ihl, bind_ok, hright.hash_eq, auditPath_left _ _ hsize hindex, List.append_assoc]
    · rename_i hindex
      rw [ihr, bind_ok, hleft.hash_eq, auditPath_right _ _ hsize hindex, List.append_assoc]

omit [DecidableEq H] in
/-- In range, `inclusion_proof` returns the leaf's own audit path. -/
theorem MerkleTree.Valid.inclusion_proof_eq {leaves : List H} {tree : MerkleTree H}
    (hvalid : tree.Valid leaves) {index : Nat} (hindex : index < leaves.length) :
    tree.inclusion_proof index = ok (.ok {
      leaf_index := index
      tree_size := leaves.length
      audit_path := auditPath hash_children empty_tree_hash leaves index }) := by
  obtain ⟨node, hnode, hbuilt⟩ := hvalid.root_node_built (List.ne_nil_of_length_pos (by omega))
  rw [inclusion_proof, hvalid.leaf_hashes_eq, hnode]
  simp only
  rw [if_neg (by omega), if_neg (by omega), hbuilt.collect_audit_path_eq]
  rfl

/-- Whatever the claimed index and size, acceptance means that the path climbs
    from the leaf hash to the expected root. -/
theorem climb_eq_of_verify_inclusion_proof_by_hash {leaf root : H} {index size : Nat}
    {path : List (H × Side)}
    (haccept : verify_inclusion_proof_by_hash leaf index size path root = true) :
    climb hash_children leaf path = root := by
  unfold verify_inclusion_proof_by_hash at haccept
  split at haccept
  · cases haccept
  split at haccept
  · simp only [Bool.and_eq_true, List.isEmpty_iff, beq_iff_eq] at haccept
    obtain ⟨⟨rfl, -⟩, rfl⟩ := haccept
    rfl
  · exact beq_iff_eq.mp haccept

/-- With the tree's own size, the honest proof of any leaf is accepted under
    every index in range: the index plays no other role. -/
theorem verify_inclusion_proof_auditPath {logs : List (List UInt8)} {raw : List UInt8}
    {index j : Nat} (hindex : index < logs.length) (hraw : logs[j]? = some raw) :
    verify_inclusion_proof raw index logs.length
      (auditPath hash_children empty_tree_hash (logs.map hash_leaf) j)
      (treeHead (logs.map hash_leaf) : H) = true := by
  have hne : logs.map (hash_leaf (H := H)) ≠ [] := by
    rintro hnil
    simp [List.map_eq_nil_iff.mp hnil] at hindex
  have hleaf : (logs.map (hash_leaf (H := H)))[j]? = some (hash_leaf raw) := by
    rw [List.getElem?_map, hraw, Option.map_some]
  have hclimb := climb_auditPath hash_children empty_tree_hash hne hleaf
  unfold verify_inclusion_proof verify_inclusion_proof_by_hash
  rw [if_neg (by omega)]
  split
  · rename_i hone
    obtain ⟨log, rfl⟩ := List.length_eq_one_iff.mp hone
    simp_all
  · exact beq_iff_eq.mpr hclimb

/-- Under the idealised hash, the accepted pairs of log and path are exactly the
    honest proofs of the tree's own leaves. -/
theorem exists_position_of_verify_inclusion_proof [DomainSeparated H] {logs : List (List UInt8)}
    (hne : logs ≠ []) {raw : List UInt8} {index size : Nat} {path : List (H × Side)}
    (haccept : verify_inclusion_proof raw index size path (treeHead (logs.map hash_leaf)) = true) :
    ∃ j, logs[j]? = some raw ∧
      path = auditPath hash_children empty_tree_hash (logs.map hash_leaf) j := by
  have hclimb := climb_eq_of_verify_inclusion_proof_by_hash haccept
  obtain ⟨j, hget, hpath⟩ := exists_auditPath_of_climb_eq hash_children empty_tree_hash
    DomainSeparated.hash_children_injective
    (DomainSeparated.hash_leaf_ne_hash_children raw) (by simpa using hne)
    (by
      intro x hx
      obtain ⟨log, -, rfl⟩ := List.mem_map.mp hx
      exact DomainSeparated.hash_leaf_ne_hash_children log) hclimb
  rw [List.getElem?_map, Option.map_eq_some_iff] at hget
  obtain ⟨log, hlog, hhash⟩ := hget
  cases DomainSeparated.hash_leaf_injective hhash
  exact ⟨j, hlog, hpath⟩

/-- Every index in range gets a proof that verifies its own log against the root. -/
theorem MerkleTree.Valid.inclusion_proof_verifies {logs : List (List UInt8)} {tree : MerkleTree H}
    (hvalid : tree.Valid (logs.map hash_leaf)) {index : Nat} {log : List UInt8}
    (hlog : logs[index]? = some log) :
    ∃ proof, tree.inclusion_proof index = ok (.ok proof) ∧
      proof.leaf_index = index ∧ proof.tree_size = logs.length ∧
      verify_inclusion_proof log index logs.length proof.audit_path tree.root = true := by
  obtain ⟨hindex, -⟩ := List.getElem?_eq_some_iff.mp hlog
  refine ⟨_, hvalid.inclusion_proof_eq (by simpa using hindex), rfl, by simp, ?_⟩
  rw [hvalid.root_eq]
  exact verify_inclusion_proof_auditPath hindex hlog

/-- Inclusion proofs are complete: over any logs the tree is built, every index
    in range gets a proof that verifies its own log against the root, and every
    other index an error that says why. -/
theorem MerkleTree.inclusion_proof_complete (logs : List (List UInt8)) (index : Nat) :
    ∃ tree : MerkleTree H, from_raw_logs logs = ok tree ∧
      (∀ log, logs[index]? = some log → ∃ proof, tree.inclusion_proof index = ok (.ok proof) ∧
        proof.leaf_index = index ∧ proof.tree_size = logs.length ∧
        verify_inclusion_proof log index logs.length proof.audit_path tree.root = true ∧
        proof.verify log tree.root = true) ∧
      (logs = [] → tree.inclusion_proof index = ok (.error .EmptyTree)) ∧
      (logs ≠ [] → logs.length ≤ index →
        tree.inclusion_proof index = ok (.error (.IndexOutOfBounds index logs.length))) := by
  obtain ⟨tree, htree, hvalid⟩ := from_raw_logs_spec (H := H) logs
  have hsize : tree.leaf_hashes.length = logs.length := by simp [hvalid.leaf_hashes_eq]
  refine ⟨tree, htree, ?_, ?_, ?_⟩
  · intro log hlog
    obtain ⟨proof, hproof, hindex, htree_size, hverify⟩ := hvalid.inclusion_proof_verifies hlog
    refine ⟨proof, hproof, hindex, htree_size, hverify, ?_⟩
    rw [InclusionProof.verify, hindex, htree_size]
    exact hverify
  · rintro rfl
    rw [inclusion_proof, if_pos (by simpa using hsize)]
  · intro hne hrange
    have hpos := List.length_pos_iff.mpr hne
    rw [inclusion_proof, hsize, if_neg (by omega), if_pos hrange]

omit [DecidableEq H] in
/-- Inclusion proofs are logarithmic: no index of a tree with leaves needs more
    hashes than the logarithm of their number, and some index needs as many. -/
theorem MerkleTree.inclusion_proof_logarithmic {leaves : List H} (hne : leaves ≠ []) :
    ∃ tree : MerkleTree H, from_leaf_hashes leaves = ok tree ∧
      (∀ index < leaves.length, ∃ proof, tree.inclusion_proof index = ok (.ok proof) ∧
        proof.audit_path.length ≤ Nat.clog 2 leaves.length) ∧
      ∃ index < leaves.length, ∃ proof, tree.inclusion_proof index = ok (.ok proof) ∧
        proof.audit_path.length = Nat.clog 2 leaves.length := by
  obtain ⟨tree, htree, hvalid⟩ := from_leaf_hashes_spec leaves
  refine ⟨tree, htree, ?_, 0, List.length_pos_iff.mpr hne, ?_⟩
  · intro index hindex
    exact ⟨_, hvalid.inclusion_proof_eq hindex, length_auditPath_le _ _ hne index⟩
  · exact ⟨_, hvalid.inclusion_proof_eq (List.length_pos_iff.mpr hne), length_auditPath_zero _ _ hne⟩

theorem MerkleTree.inclusion_proof_logarithmic_three_leaves :
    ∃ tree : MerkleTree Preimage,
      from_leaf_hashes [hash_leaf [1], hash_leaf [2], hash_leaf [3]] = ok tree ∧
      (∀ index < 3, ∃ proof, tree.inclusion_proof index = ok (.ok proof) ∧
        proof.audit_path.length ≤ 2) ∧
      ∃ index < 3, ∃ proof, tree.inclusion_proof index = ok (.ok proof) ∧
        proof.audit_path.length = 2 := by
  have hclog : Nat.clog 2 3 = 2 := by decide
  rw [← hclog]
  exact inclusion_proof_logarithmic (List.cons_ne_nil _ _)

/-- Inclusion proofs cannot fake membership, whatever index, size and path an
    adversary presents. -/
theorem mem_of_verify_inclusion_proof [DomainSeparated H] {logs : List (List UInt8)}
    (hne : logs ≠ []) {tree : MerkleTree H} (htree : MerkleTree.from_raw_logs logs = ok tree)
    (raw : List UInt8) (leaf_index tree_size : Nat) (audit_path : List (H × Side))
    (haccept : verify_inclusion_proof raw leaf_index tree_size audit_path tree.root = true) :
    raw ∈ logs := by
  rw [(MerkleTree.valid_of_from_raw_logs htree).root_eq] at haccept
  obtain ⟨j, hget, -⟩ := exists_position_of_verify_inclusion_proof hne haccept
  exact List.mem_of_getElem? hget

theorem mem_of_verify_inclusion_proof_three_logs :
    verify_inclusion_proof [1] 0 3 [(hash_leaf [2], .Right), (hash_leaf [3], .Right)]
      (hash_children (hash_children (hash_leaf [1]) (hash_leaf [2])) (hash_leaf [3]) : Preimage) =
        true ∧
    [1] ∈ [[(1 : UInt8)], [2], [3]] := by
  obtain ⟨tree, htree, hvalid⟩ := MerkleTree.from_raw_logs_spec (H := Preimage) [[1], [2], [3]]
  have hroot : tree.root =
      hash_children (hash_children (hash_leaf [1]) (hash_leaf [2])) (hash_leaf [3]) := by
    have hsplit : splitPoint 3 = 2 := by decide
    rw [hvalid.root_eq, treeHead_split (by simp)]
    simp [hsplit]
  refine ⟨by decide, ?_⟩
  apply mem_of_verify_inclusion_proof (by simp) htree [1] 0 3
    [(hash_leaf [2], .Right), (hash_leaf [3], .Right)]
  rw [hroot]
  decide

/-- Position binding, exactly: a proof presented for `index` can only prove the
    log stored there, unless it is the honest proof of another position that
    holds a different log. The verifier never compares the path's sides with the
    index. -/
theorem verify_inclusion_proof_binds_position_iff [DomainSeparated H] {logs : List (List UInt8)}
    {tree : MerkleTree H} (htree : MerkleTree.from_raw_logs logs = ok tree) {index : Nat}
    (hindex : index < logs.length) (raw : List UInt8) (path : List (H × Side)) :
    (verify_inclusion_proof raw index logs.length path tree.root = true → logs[index] = raw) ↔
      ¬ ∃ (j : Nat) (proof : InclusionProof H), logs[j]? = some raw ∧ raw ≠ logs[index] ∧
        tree.inclusion_proof j = ok (.ok proof) ∧ path = proof.audit_path := by
  have hvalid := MerkleTree.valid_of_from_raw_logs htree
  constructor
  · rintro hbinds ⟨j, proof, hraw, hdiffer, hproof, rfl⟩
    obtain ⟨hj, -⟩ := List.getElem?_eq_some_iff.mp hraw
    rw [hvalid.inclusion_proof_eq (by simpa using hj)] at hproof
    cases hproof
    apply hdiffer
    refine (hbinds ?_).symm
    rw [hvalid.root_eq]
    exact verify_inclusion_proof_auditPath hindex hraw
  · intro hno haccept
    by_contra hdiffer
    rw [hvalid.root_eq] at haccept
    obtain ⟨j, hget, hpath⟩ := exists_position_of_verify_inclusion_proof
      (List.ne_nil_of_length_pos (by omega)) haccept
    obtain ⟨hj, -⟩ := List.getElem?_eq_some_iff.mp hget
    exact hno ⟨j, _, hget, Ne.symm hdiffer, hvalid.inclusion_proof_eq (by simpa using hj), hpath⟩

/-- The second of two logs passes for the first one. -/
theorem verify_inclusion_proof_accepts_other_position :
    ∃ tree : MerkleTree Preimage, MerkleTree.from_raw_logs [[1], [2]] = ok tree ∧
      verify_inclusion_proof [2] 0 2 [(hash_leaf [1], .Left)] tree.root = true ∧
      ([[1], [2]] : List (List UInt8))[0] ≠ [2] := by
  obtain ⟨tree, htree, hvalid⟩ := MerkleTree.from_raw_logs_spec (H := Preimage) [[1], [2]]
  have hroot : tree.root = hash_children (hash_leaf [1]) (hash_leaf [2]) := by
    simpa using hvalid.root_eq
  refine ⟨tree, htree, ?_, by decide⟩
  rw [hroot]
  decide

theorem verify_inclusion_proof_binds_first_of_two :
    ∃ tree : MerkleTree Preimage, MerkleTree.from_raw_logs [[1], [2]] = ok tree ∧
      verify_inclusion_proof [1] 0 2 [(hash_leaf [2], .Right)] tree.root = true ∧
      ¬ ∃ (j : Nat) (proof : InclusionProof Preimage),
        ([[1], [2]] : List (List UInt8))[j]? = some [1] ∧
        [(1 : UInt8)] ≠ ([[1], [2]] : List (List UInt8))[0] ∧ tree.inclusion_proof j = ok (.ok proof) ∧
        [(hash_leaf [2], .Right)] = proof.audit_path := by
  obtain ⟨tree, htree, hvalid⟩ := MerkleTree.from_raw_logs_spec (H := Preimage) [[1], [2]]
  have hroot : tree.root = hash_children (hash_leaf [1]) (hash_leaf [2]) := by
    simpa using hvalid.root_eq
  have hbounds : 0 < ([[1], [2]] : List (List UInt8)).length := by decide
  refine ⟨tree, htree, by rw [hroot]; decide, ?_⟩
  exact (verify_inclusion_proof_binds_position_iff htree hbounds [1] _).mp fun _ => rfl

end ulpf_integrity.merkle
