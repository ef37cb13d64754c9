import Ulpf.Lib.Result
import Ulpf.Lib.MerkleTreeHash
import Ulpf.Integrity.Hash

open Result merkle_tree_hash

namespace ulpf_integrity.merkle

/-- The largest power of two strictly smaller than `n`. The assertion on `n` is
    the only way the tree code can panic; `usize::BITS - 1 - leading_zeros` is
    the position of the highest set bit. -/
def largest_power_of_two_less_than (n : Nat) : Result Nat :=
  if n > 1 then ok (1 <<< Nat.log2 (n - 1)) else panic

theorem largest_power_of_two_less_than_eq {n : Nat} (hn : 1 < n) :
    largest_power_of_two_less_than n = ok (splitPoint n) := by
  simp [largest_power_of_two_less_than, hn, splitPoint, Nat.one_shiftLeft]

theorem largest_power_of_two_less_than_bounds {n k : Nat}
    (hk : largest_power_of_two_less_than n = ok k) : 0 < k ∧ k < n := by
  by_cases hn : 1 < n
  · rw [largest_power_of_two_less_than_eq hn] at hk
    cases hk
    exact ⟨splitPoint_pos n, splitPoint_lt hn⟩
  · simp [largest_power_of_two_less_than, hn] at hk

/-- `let k = largest_power_of_two_less_than(n)` in front of `body`, which is told
    the bounds that its recursive calls rely on. -/
def with_largest_power_of_two {β : Type} (n : Nat) (body : (k : Nat) → 0 < k ∧ k < n → Result β) :
    Result β :=
  match hk : largest_power_of_two_less_than n with
  | .panic => panic
  | .ok k => body k (largest_power_of_two_less_than_bounds hk)

theorem with_largest_power_of_two_eq {β : Type} {n : Nat} (hn : 1 < n)
    (body : (k : Nat) → 0 < k ∧ k < n → Result β) :
    with_largest_power_of_two n body = body (splitPoint n) ⟨splitPoint_pos n, splitPoint_lt hn⟩ := by
  unfold with_largest_power_of_two
  split
  · rename_i hk
    rw [largest_power_of_two_less_than_eq hn] at hk
    cases hk
  · rename_i k hk
    rw [largest_power_of_two_less_than_eq hn] at hk
    cases hk
    rfl

inductive MerkleError where
  | IndexOutOfBounds (index size : Nat)
  | EmptyTree
  | InvalidConsistencySize (prev_size size : Nat)
  deriving DecidableEq, Repr

/-- The `Display` text of an error. -/
def MerkleError.message : MerkleError → String
  | IndexOutOfBounds index size => s!"Index {index} is out of bounds for tree with {size} leaves"
  | EmptyTree => "Cannot generate proof for an empty tree"
  | InvalidConsistencySize prev_size size =>
    s!"Invalid previous size {prev_size} for tree with {size} leaves"

/-- Node representation in the RFC 6962 binary Merkle tree. -/
inductive TreeNode (H : Type) where
  | Leaf (hash : H) (_index : Nat)
  | Internal (hash : H) (size : Nat) (left right : TreeNode H)

structure MerkleTree (H : Type) where
  leaf_hashes : List H
  root : H
  root_node : Option (TreeNode H)

def TreeNode.hash {H : Type} : TreeNode H → H
  | .Leaf hash _ => hash
  | .Internal hash _ _ _ => hash

variable {H : Type} [Digest H]

/-- The head the tree code computes: RFC 6962's `MTH` over the source's hashes. -/
abbrev treeHead (leaves : List H) : H := mth hash_children empty_tree_hash leaves

theorem treeHead_split {leaves : List H} (hsize : 1 < leaves.length) :
    treeHead leaves = hash_children (treeHead (leaves.take (splitPoint leaves.length)))
      (treeHead (leaves.drop (splitPoint leaves.length))) :=
  mth_split hash_children empty_tree_hash hsize

theorem treeHead_take {leaves : List H} {m : Nat} (hlo : splitPoint leaves.length < m)
    (hhi : m ≤ leaves.length) :
    treeHead (leaves.take m) = hash_children (treeHead (leaves.take (splitPoint leaves.length)))
      (treeHead ((leaves.drop (splitPoint leaves.length)).take (m - splitPoint leaves.length))) :=
  mth_take_of_split_lt hash_children empty_tree_hash hlo hhi

def MerkleTree.build_subtree (leaves : List H) (offset : Nat) : Result (TreeNode H) :=
  match leaves with
  | [leaf] => ok (.Leaf leaf offset)
  | leaves =>
    with_largest_power_of_two leaves.length fun k _hk => do
      let left ← build_subtree (leaves.take k) offset
      let right ← build_subtree (leaves.drop k) (offset + k)
      ok (.Internal (hash_children left.hash right.hash) leaves.length left right)
termination_by leaves.length
decreasing_by
  · rw [List.length_take]
    omega
  · rw [List.length_drop]
    omega

def MerkleTree.empty : MerkleTree H where
  leaf_hashes := []
  root := empty_tree_hash
  root_node := none

def MerkleTree.from_leaf_hashes (leaf_hashes : List H) : Result (MerkleTree H) :=
  if leaf_hashes.length = 0 then ok MerkleTree.empty
  else do
    let root_node ← build_subtree leaf_hashes 0
    ok { leaf_hashes, root := root_node.hash, root_node := some root_node }

def MerkleTree.from_raw_logs (logs : List (List UInt8)) : Result (MerkleTree H) :=
  from_leaf_hashes (logs.map hash_leaf)

/-- The nodes `build_subtree` makes for a list of leaves: every internal node
    caches the hash and the number of the leaves below it. -/
inductive TreeNode.Built : List H → TreeNode H → Prop where
  | leaf (hash : H) (index : Nat) : Built [hash] (.Leaf hash index)
  | internal {leaves : List H} {left right : TreeNode H} (hsize : 1 < leaves.length)
      (hleft : Built (leaves.take (splitPoint leaves.length)) left)
      (hright : Built (leaves.drop (splitPoint leaves.length)) right) :
      Built leaves (.Internal (hash_children left.hash right.hash) leaves.length left right)

theorem TreeNode.Built.hash_eq {leaves : List H} {node : TreeNode H} (hbuilt : node.Built leaves) :
    node.hash = treeHead leaves := by
  induction hbuilt with
  | leaf hash index => simp [TreeNode.hash]
  | internal hsize _ _ ihl ihr =>
    rw [TreeNode.hash, ihl, ihr, ← treeHead_split hsize]

/-- Building never panics on a non-empty list of leaves. -/
theorem MerkleTree.build_subtree_spec {leaves : List H} (hne : leaves ≠ []) :
    ∀ offset, ∃ node, build_subtree leaves offset = ok node ∧ node.Built leaves := by
  induction leaves, hne using split_induction with
  | single leaf =>
    intro offset
    exact ⟨.Leaf leaf offset, by rw [build_subtree], .leaf leaf offset⟩
  | split leaves hsize _ _ ihl ihr =>
    intro offset
    obtain ⟨left, hleft, hleftBuilt⟩ := ihl offset
    obtain ⟨right, hright, hrightBuilt⟩ := ihr (offset + splitPoint leaves.length)
    refine ⟨_, ?_, .internal hsize hleftBuilt hrightBuilt⟩
    rw [build_subtree]
    · rw [with_largest_power_of_two_eq hsize, hleft, bind_ok, hright, bind_ok]
    · rintro leaf rfl
      simp at hsize

/-- What holds of a tree built over `leaves`. -/
structure MerkleTree.Valid (leaves : List H) (tree : MerkleTree H) : Prop where
  leaf_hashes_eq : tree.leaf_hashes = leaves
  root_eq : tree.root = treeHead leaves
  root_node_built : leaves ≠ [] → ∃ node, tree.root_node = some node ∧ node.Built leaves

theorem MerkleTree.from_leaf_hashes_spec (leaves : List H) :
    ∃ tree, from_leaf_hashes leaves = ok tree ∧ tree.Valid leaves := by
  unfold from_leaf_hashes
  by_cases hempty : leaves = []
  · subst hempty
    refine ⟨MerkleTree.empty, by simp, rfl, ?_, fun h => absurd rfl h⟩
    rw [treeHead, mth, dif_neg (by simp)]
    rfl
  · obtain ⟨node, hnode, hbuilt⟩ := build_subtree_spec hempty 0
    rw [if_neg (by simpa using hempty), hnode, bind_ok]
    exact ⟨_, rfl, rfl, hbuilt.hash_eq, fun _ => ⟨node, rfl, hbuilt⟩⟩

theorem MerkleTree.from_raw_logs_spec (logs : List (List UInt8)) :
    ∃ tree : MerkleTree H, from_raw_logs logs = ok tree ∧ tree.Valid (logs.map hash_leaf) :=
  from_leaf_hashes_spec (logs.map hash_leaf)

theorem MerkleTree.valid_of_from_raw_logs {logs : List (List UInt8)} {tree : MerkleTree H}
    (htree : from_raw_logs logs = ok tree) : tree.Valid (logs.map hash_leaf) := by
  obtain ⟨actual, hactual, hvalid⟩ := from_raw_logs_spec (H := H) logs
  rw [htree] at hactual
  cases hactual
  exact hvalid

/-- Under an injective leaf and node hash the head determines the logs, once
    their number is known. -/
theorem treeHead_map_hash_leaf_injective [DomainSeparated H] {xs ys : List (List UInt8)}
    (hlength : xs.length = ys.length)
    (hroot : treeHead (xs.map hash_leaf) = (treeHead (ys.map hash_leaf) : H)) : xs = ys := by
  have hleaves := mth_injective hash_children empty_tree_hash
    DomainSeparated.hash_children_injective (by simpa using hlength) hroot
  exact List.map_injective_iff.mpr DomainSeparated.hash_leaf_injective hleaves

end ulpf_integrity.merkle
