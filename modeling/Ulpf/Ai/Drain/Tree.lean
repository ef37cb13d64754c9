import Ulpf.Ai.Drain.Run

open Result

namespace ulpf_ai.drain

namespace Node

theorem lookup_cons_eq (key k : List Char) (node : Node) (rest : List (List Char × Node)) :
    ((key, node) :: rest).lookup k = if k = key then some node else rest.lookup k := by
  rw [List.lookup_cons]
  by_cases hk : k = key
  · rw [if_pos hk, beq_iff_eq.mpr hk]
  · rw [if_neg hk, beq_eq_false_iff_ne.mpr hk]

theorem lookup_upsert (key : List Char) (f : Node → Node) (children : List (List Char × Node))
    (k : List Char) :
    (upsert key f children).lookup k =
      if k = key then some (f ((children.lookup key).getD new)) else children.lookup k := by
  induction children with
  | nil => rw [upsert, lookup_cons_eq, List.lookup_nil, List.lookup_nil, Option.getD_none]
  | cons entry rest ih =>
    obtain ⟨k', node⟩ := entry
    rw [upsert, lookup_cons_eq k' key, lookup_cons_eq k' k]
    by_cases hkey : k' = key
    · subst hkey
      rw [if_pos rfl, if_pos rfl, lookup_cons_eq, Option.getD_some]
      split <;> rfl
    · rw [if_neg hkey, if_neg (Ne.symm hkey), lookup_cons_eq, ih]
      by_cases hk : k = k'
      · have hne : k ≠ key := hk ▸ hkey
        rw [if_pos hk, if_neg hne, if_pos hk]
      · rw [if_neg hk, if_neg hk]

/-- The node at the end of a path of keys. -/
def follow : List (List Char) → Node → Option Node
  | [], self => some self
  | key :: keys, self => (self.child key).bind (follow keys)

/-- The ids at the end of a path, if there is a node. -/
def idsAt (path : List (List Char)) (self : Node) : List Nat :=
  ((follow path self).map cluster_ids).getD []

/-- All ids in the tree are below a bound. -/
def IdsBelow (bound : Nat) (self : Node) : Prop :=
  ∀ path reached, follow path self = some reached → ∀ id ∈ reached.cluster_ids, id < bound

theorem follow_new {path : List (List Char)} {reached : Node} (h : follow path new = some reached) :
    reached.cluster_ids = [] := by
  cases path with
  | nil =>
    cases h
    rfl
  | cons key keys => cases h

theorem idsAt_new (path : List (List Char)) : idsAt path new = [] := by
  unfold idsAt
  cases hfollow : follow path new with
  | none => rfl
  | some reached => exact follow_new hfollow

theorem idsAt_cons (key : List Char) (keys : List (List Char)) (self : Node) :
    idsAt (key :: keys) self = idsAt keys ((self.child key).getD new) := by
  unfold idsAt
  rw [follow]
  cases hchild : self.child key with
  | none => exact (idsAt_new keys).symm
  | some next => rfl

theorem idsBelow_iff {bound : Nat} {self : Node} :
    self.IdsBelow bound ↔ ∀ path, ∀ id ∈ idsAt path self, id < bound := by
  constructor
  · intro h path id hid
    unfold idsAt at hid
    cases hfollow : follow path self with
    | none =>
      rw [hfollow] at hid
      cases hid
    | some reached =>
      rw [hfollow] at hid
      exact h path reached hfollow id hid
  · intro h path reached hreached id hid
    refine h path id ?_
    rw [idsAt, hreached]
    exact hid

theorem idsBelow_new (bound : Nat) : new.IdsBelow bound := by
  rw [idsBelow_iff]
  intro path id hid
  rw [idsAt_new] at hid
  cases hid

/-- At every node the ids stand in the order in which they were given out. -/
def Ordered (self : Node) : Prop := ∀ path, (idsAt path self).Pairwise (· < ·)

theorem ordered_new : new.Ordered := by
  intro path
  rw [idsAt_new]
  exact .nil

end Node

namespace DrainMiner

/-- The key that a search takes first. -/
def lookupKey (token : List Char) : List Char :=
  if has_digit_or_param token then str.lit "*" else token

/-- The key that an insertion takes. -/
def insertKey (max_children : Nat) (current : Node) (token : List Char) : List Char :=
  if has_digit_or_param token || current.children.length ≥ max_children then str.lit "*" else token

/-- On the way of an insertion, no node is full that has a child for the token itself: an
    insertion leaves such a child aside, and a search does not. -/
def Straight (max_children : Nat) : List (List Char) → Node → Prop
  | [], _ => True
  | token :: tokens, current =>
    (insertKey max_children current token ≠ lookupKey token →
      current.child (lookupKey token) = none) ∧
    Straight max_children tokens ((current.child (insertKey max_children current token)).getD Node.new)

/-- The candidates at the end of a search. -/
def leafIds (tokens : List (List Char)) (current : Node) : List Nat :=
  ((descend tokens current).map Node.cluster_ids).getD []

theorem descend_cons (token : List Char) (tokens : List (List Char)) (current : Node) :
    descend (token :: tokens) current =
      ((current.child (lookupKey token)).or (current.child (str.lit "*"))).bind (descend tokens) := by
  rw [descend]
  unfold lookupKey
  cases (current.child (if has_digit_or_param token then str.lit "*" else token)).or
    (current.child (str.lit "*")) <;> rfl

theorem insertKey_eq (max_children : Nat) (current : Node) (token : List Char) :
    insertKey max_children current token = lookupKey token ∨
      insertKey max_children current token = str.lit "*" := by
  unfold insertKey lookupKey
  cases has_digit_or_param token with
  | true => exact .inl rfl
  | false =>
    by_cases hfull : current.children.length ≥ max_children
    · right
      simp [hfull]
    · left
      simp [hfull]

theorem straight_new (max_children : Nat) (tokens : List (List Char)) :
    Straight max_children tokens Node.new := by
  induction tokens with
  | nil => trivial
  | cons token tokens ih => exact ⟨fun _ => rfl, ih⟩

theorem leafIds_new (tokens : List (List Char)) : leafIds tokens Node.new = [] := by
  cases tokens <;> rfl

section

variable (max_children cluster_id : Nat)

theorem child_insert_below (token : List Char) (tokens : List (List Char)) (current : Node)
    (key : List Char) :
    (insert_below max_children cluster_id (token :: tokens) current).child key =
      if key = insertKey max_children current token then
        some (insert_below max_children cluster_id tokens
          ((current.child (insertKey max_children current token)).getD Node.new))
      else current.child key :=
  Node.lookup_upsert _ _ _ _

/-- A search behind an insertion goes where the insertion went, unless a full node has a
    child for the token itself. -/
theorem descend_insert_below (token : List Char) (tokens : List (List Char)) (current : Node)
    (hstraight : insertKey max_children current token ≠ lookupKey token →
      current.child (lookupKey token) = none) :
    descend (token :: tokens) (insert_below max_children cluster_id (token :: tokens) current) =
      descend tokens (insert_below max_children cluster_id tokens
        ((current.child (insertKey max_children current token)).getD Node.new)) := by
  rw [descend_cons, child_insert_below, child_insert_below]
  by_cases hkey : insertKey max_children current token = lookupKey token
  · rw [if_pos hkey.symm]
    rfl
  · have hstar := (insertKey_eq max_children current token).resolve_left hkey
    rw [if_neg (Ne.symm hkey), hstraight hkey, Option.none_or, if_pos hstar.symm]
    rfl

/-- Before the insertion the search went that way too, as far as it was there. -/
theorem descend_eq {token : List Char} {current next : Node}
    (hstraight : insertKey max_children current token ≠ lookupKey token →
      current.child (lookupKey token) = none)
    (hnext : current.child (insertKey max_children current token) = some next)
    (tokens : List (List Char)) : descend (token :: tokens) current = descend tokens next := by
  rw [descend_cons]
  by_cases hkey : insertKey max_children current token = lookupKey token
  · rw [← hkey, hnext]
    rfl
  · have hstar := (insertKey_eq max_children current token).resolve_left hkey
    rw [hstraight hkey, Option.none_or, ← hstar, hnext]
    rfl

/-- An inserted id is found behind candidates that a search saw before. -/
theorem leafIds_insert_below {tokens : List (List Char)} {current : Node}
    (hstraight : Straight max_children tokens current) :
    ∃ earlier, earlier ⊆ leafIds tokens current ∧
      leafIds tokens (insert_below max_children cluster_id tokens current) =
        earlier ++ [cluster_id] := by
  induction tokens generalizing current with
  | nil => exact ⟨current.cluster_ids, List.Subset.refl _, rfl⟩
  | cons token tokens ih =>
    obtain ⟨hkey, htokens⟩ := hstraight
    obtain ⟨earlier, hsubset, hids⟩ := ih htokens
    refine ⟨earlier, ?_, ?_⟩
    · cases hnext : current.child (insertKey max_children current token) with
      | none =>
        rw [hnext, Option.getD_none, leafIds_new] at hsubset
        exact fun id hid => absurd (hsubset hid) List.not_mem_nil
      | some next =>
        rw [hnext, Option.getD_some] at hsubset
        rwa [leafIds, descend_eq max_children hkey hnext, ← leafIds]
    · rw [leafIds, descend_insert_below max_children cluster_id token tokens current hkey, ← leafIds,
        hids]

/-- Where the ways part, a search does not see the insertion at all. -/
theorem descend_insert_below_of_not_straight {tokens : List (List Char)} {current : Node}
    (hstraight : ¬ Straight max_children tokens current) :
    descend tokens (insert_below max_children cluster_id tokens current) = descend tokens current := by
  induction tokens generalizing current with
  | nil => exact absurd trivial hstraight
  | cons token tokens ih =>
    by_cases hkey : insertKey max_children current token ≠ lookupKey token →
        current.child (lookupKey token) = none
    · have htokens := fun h => hstraight ⟨hkey, h⟩
      rw [descend_insert_below max_children cluster_id token tokens current hkey]
      cases hnext : current.child (insertKey max_children current token) with
      | none =>
        rw [hnext] at htokens
        exact absurd (straight_new max_children tokens) htokens
      | some next =>
        rw [hnext, Option.getD_some] at htokens
        rw [Option.getD_some, ih htokens, descend_eq max_children hkey hnext]
    · obtain ⟨hne, hsome⟩ := not_forall.mp hkey
      obtain ⟨child, hchild⟩ := Option.ne_none_iff_exists'.mp hsome
      rw [descend_cons, descend_cons, child_insert_below, if_neg (Ne.symm hne), hchild]
      rfl

/-- An insertion appends one id at one node and leaves the others in their places. -/
theorem idsAt_insert_below (tokens path : List (List Char)) (current : Node) :
    Node.idsAt path (insert_below max_children cluster_id tokens current) = Node.idsAt path current ∨
      Node.idsAt path (insert_below max_children cluster_id tokens current) =
        Node.idsAt path current ++ [cluster_id] := by
  induction tokens generalizing current path with
  | nil =>
    cases path with
    | nil => exact .inr rfl
    | cons key keys => exact .inl rfl
  | cons token tokens ih =>
    cases path with
    | nil => exact .inl rfl
    | cons key keys =>
      rw [Node.idsAt_cons, Node.idsAt_cons, child_insert_below]
      by_cases hkey : key = insertKey max_children current token
      · rw [if_pos hkey, hkey, Option.getD_some]
        exact ih keys _
      · rw [if_neg hkey]
        exact .inl rfl

end

theorem exists_follow_of_descend {tokens : List (List Char)} {current leaf : Node}
    (h : descend tokens current = some leaf) : ∃ path, Node.follow path current = some leaf := by
  induction tokens generalizing current with
  | nil => exact ⟨[], h⟩
  | cons token tokens ih =>
    rw [descend_cons] at h
    obtain ⟨child, hchild, h⟩ := Option.bind_eq_some_iff.mp h
    obtain ⟨path, hpath⟩ := ih h
    obtain hchild | ⟨-, hchild⟩ := Option.or_eq_some_iff.mp hchild
    · exact ⟨_ :: path, by rw [Node.follow, hchild, Option.bind_some, hpath]⟩
    · exact ⟨_ :: path, by rw [Node.follow, hchild, Option.bind_some, hpath]⟩

/-- The root when a cluster has been founded. -/
def grown (self : DrainMiner) (tokens : List (List Char)) : Node :=
  { self.root with
    children := Node.upsert (len_key tokens.length)
      (insert_below self.config.max_children self.next_cluster_id
        (tokens.take (self.config.depth - 2))) self.root.children }

theorem child_grown (self : DrainMiner) (tokens : List (List Char)) (key : List Char) :
    (self.grown tokens).child key =
      if key = len_key tokens.length then
        some (insert_below self.config.max_children self.next_cluster_id
          (tokens.take (self.config.depth - 2))
          ((self.root.child (len_key tokens.length)).getD Node.new))
      else self.root.child key :=
  Node.lookup_upsert _ _ _ _

/-- The tree has ids that were given out only. -/
def TreeBelow (self : DrainMiner) : Prop := self.root.IdsBelow self.next_cluster_id

theorem treeBelow_new (config : DrainConfig) : (new config).TreeBelow := Node.idsBelow_new 1

theorem idsAt_grown (self : DrainMiner) (tokens path : List (List Char)) :
    Node.idsAt path (self.grown tokens) = Node.idsAt path self.root ∨
      Node.idsAt path (self.grown tokens) = Node.idsAt path self.root ++ [self.next_cluster_id] := by
  cases path with
  | nil => exact .inl rfl
  | cons key keys =>
    rw [Node.idsAt_cons, Node.idsAt_cons, child_grown]
    by_cases hkey : key = len_key tokens.length
    · rw [if_pos hkey, hkey, Option.getD_some]
      exact idsAt_insert_below _ _ _ keys _
    · rw [if_neg hkey]
      exact .inl rfl

theorem TreeBelow.grown {self : DrainMiner} (h : self.TreeBelow) (tokens : List (List Char)) :
    (self.grown tokens).IdsBelow (self.next_cluster_id + 1) := by
  rw [TreeBelow, Node.idsBelow_iff] at h
  rw [Node.idsBelow_iff]
  intro path id hid
  obtain hids | hids := self.idsAt_grown tokens path
  · rw [hids] at hid
    exact (h path id hid).trans (Nat.lt_succ_self _)
  · rw [hids, List.mem_append, List.mem_singleton] at hid
    obtain hid | rfl := hid
    · exact (h path id hid).trans (Nat.lt_succ_self _)
    · exact Nat.lt_succ_self _

/-- A new id stands behind the earlier ones. -/
theorem TreeBelow.ordered_grown {self : DrainMiner} (h : self.TreeBelow) (hordered : self.root.Ordered)
    (tokens : List (List Char)) : (self.grown tokens).Ordered := by
  rw [TreeBelow, Node.idsBelow_iff] at h
  intro path
  obtain hids | hids := self.idsAt_grown tokens path
  · rw [hids]
    exact hordered path
  · rw [hids, List.pairwise_append]
    refine ⟨hordered path, List.pairwise_singleton _ _, fun id hid new hnew => ?_⟩
    rw [List.mem_singleton.mp hnew]
    exact h path id hid

/-- What a line does to the tree. -/
theorem root_of_add_log {crates : Crates} {self after : DrainMiner} {input : Input}
    {result : ClusterResult} (hadd : self.add_log crates input.raw input.now_ms = ok (result, after)) :
    (result.is_new = false ∧ after.root = self.root ∧
        after.next_cluster_id = self.next_cluster_id) ∨
      (result.is_new = true ∧ after.root = self.grown (input.tokens crates) ∧
        after.next_cluster_id = self.next_cluster_id + 1) := by
  rw [add_log_eq] at hadd
  split at hadd
  · cases hadd
    exact .inl ⟨rfl, rfl, rfl⟩
  obtain ⟨⟨picked, sim⟩, -, hadd⟩ := bind_eq_ok_iff.mp hadd
  cases picked with
  | none =>
    right
    cases hadd
    exact ⟨rfl, rfl, rfl⟩
  | some c_id =>
    left
    dsimp only at hadd
    unfold join_cluster at hadd
    split at hadd
    · cases hadd
    · obtain ⟨anomaly, -, hadd⟩ := bind_eq_ok_iff.mp hadd
      cases hadd
      exact ⟨rfl, rfl, rfl⟩

/-- What every founded cluster keeps of the tree holds along a run. -/
theorem root_invariant (inv : Node → Nat → Prop)
    (hgrown : ∀ (self : DrainMiner) tokens, inv self.root self.next_cluster_id →
      inv (self.grown tokens) (self.next_cluster_id + 1))
    {crates : Crates} {inputs : List Input} {history : List Taken} {self after : DrainMiner}
    (h : inv self.root self.next_cluster_id)
    (hrun : self.run crates inputs = ok (history, after)) : inv after.root after.next_cluster_id := by
  induction inputs generalizing history self with
  | nil =>
    cases hrun
    exact h
  | cons input inputs ih =>
    obtain ⟨result, next, rest, hadd, hrest, -⟩ := run_cons_eq_ok_iff.mp hrun
    refine ih ?_ hrest
    obtain ⟨-, hroot, hnext⟩ | ⟨-, hroot, hnext⟩ := root_of_add_log hadd
    · rwa [hroot, hnext]
    · rw [hroot, hnext]
      exact hgrown self (input.tokens crates) h

theorem TreeBelow.run {crates : Crates} {inputs : List Input} {history : List Taken}
    {self after : DrainMiner} (h : self.TreeBelow)
    (hrun : self.run crates inputs = ok (history, after)) : after.TreeBelow :=
  root_invariant (fun root bound => root.IdsBelow bound)
    (fun _ tokens hbelow => TreeBelow.grown hbelow tokens) h hrun

theorem ordered_of_run {crates : Crates} {config : DrainConfig} {inputs : List Input}
    {history : List Taken} {after : DrainMiner}
    (hrun : (new config).run crates inputs = ok (history, after)) : after.root.Ordered := by
  have hboth := root_invariant (fun root bound => root.IdsBelow bound ∧ root.Ordered)
    (fun self tokens h => ⟨TreeBelow.grown h.1 tokens, TreeBelow.ordered_grown h.1 h.2 tokens⟩)
    ⟨treeBelow_new config, Node.ordered_new⟩ hrun
  exact hboth.2

end DrainMiner

end ulpf_ai.drain
