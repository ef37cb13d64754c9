import Ulpf.Ai.Drain.Choice

open Result

namespace ulpf_ai.drain.DrainMiner

/-- A search for the tokens ends at the id, and no insertion leads it elsewhere: at every node it
    takes the child of the token itself, or the node is full and has none. -/
def Settled (max_children id : Nat) : List (List Char) → Node → Prop
  | [], current => id ∈ current.cluster_ids
  | token :: tokens, current =>
    ∃ next, Settled max_children id tokens next ∧
      (current.child (lookupKey token) = some next ∨
        current.child (lookupKey token) = none ∧ max_children ≤ current.children.length ∧
          current.child (str.lit "*") = some next)

theorem Node.length_upsert_ge (key : List Char) (f : Node → Node)
    (children : List (List Char × Node)) :
    children.length ≤ (Node.upsert key f children).length := by
  induction children with
  | nil => exact Nat.zero_le _
  | cons entry rest ih =>
    rw [Node.upsert]
    split
    · exact le_rfl
    · exact Nat.succ_le_succ ih

section

variable {max_children id cluster_id : Nat} {tokens : List (List Char)} {current : Node}

theorem Settled.mem_leafIds (h : Settled max_children id tokens current) :
    id ∈ leafIds tokens current := by
  induction tokens generalizing current with
  | nil => exact h
  | cons token tokens ih =>
    obtain ⟨next, hnext, hchild | ⟨hnone, -, hchild⟩⟩ := h
    · rw [leafIds, descend_cons, hchild]
      exact ih hnext
    · rw [leafIds, descend_cons, hnone, hchild]
      exact ih hnext

theorem insertKey_of_full {token : List Char} (hfull : max_children ≤ current.children.length) :
    insertKey max_children current token = str.lit "*" := by
  rw [insertKey, if_pos]
  simp [hfull]

theorem full_of_insertKey_ne {token : List Char}
    (hne : insertKey max_children current token ≠ lookupKey token) :
    max_children ≤ current.children.length := by
  by_contra hroom
  refine hne ?_
  rw [insertKey, lookupKey, decide_eq_false hroom, Bool.or_false]

/-- An id that is inserted where a search goes is settled there. -/
theorem settled_insert_below (hstraight : Straight max_children tokens current) :
    Settled max_children cluster_id tokens
      (insert_below max_children cluster_id tokens current) := by
  induction tokens generalizing current with
  | nil => exact List.mem_append_right _ (List.mem_singleton_self _)
  | cons token tokens ih =>
    obtain ⟨hkey, hrest⟩ := hstraight
    refine ⟨_, ih hrest, ?_⟩
    rw [child_insert_below, child_insert_below]
    by_cases hsame : insertKey max_children current token = lookupKey token
    · left
      rw [if_pos hsame.symm]
    · right
      have hfull := full_of_insertKey_ne hsame
      refine ⟨?_, hfull.trans (Node.length_upsert_ge _ _ _), ?_⟩
      · rw [if_neg (Ne.symm hsame)]
        exact hkey hsame
      · rw [if_pos (insertKey_of_full hfull).symm]

/-- A settled id stays settled when others are inserted. -/
theorem Settled.insert_below (h : Settled max_children id tokens current)
    (inserted : List (List Char)) :
    Settled max_children id tokens
      (DrainMiner.insert_below max_children cluster_id inserted current) := by
  induction tokens generalizing current inserted with
  | nil =>
    cases inserted with
    | nil => exact List.mem_append_left _ h
    | cons token inserted => exact h
  | cons token tokens ih =>
    cases inserted with
    | nil => exact h
    | cons other inserted =>
      obtain ⟨next, hnext, hchild | ⟨hnone, hfull, hchild⟩⟩ := h
      · by_cases hkey : lookupKey token = insertKey max_children current other
        · refine ⟨_, ih hnext inserted, .inl ?_⟩
          rw [child_insert_below, if_pos hkey, ← hkey, hchild, Option.getD_some]
        · refine ⟨next, hnext, .inl ?_⟩
          rw [child_insert_below, if_neg hkey, hchild]
      · -- The node is full, so the insertion goes under the star as well.
        have hstar : insertKey max_children current other = str.lit "*" := insertKey_of_full hfull
        have hne : lookupKey token ≠ str.lit "*" := by
          intro heq
          rw [heq, hchild] at hnone
          cases hnone
        refine ⟨_, ih hnext inserted, .inr ⟨?_, hfull.trans (Node.length_upsert_ge _ _ _), ?_⟩⟩
        · rw [child_insert_below, hstar, if_neg hne, hnone]
        · rw [child_insert_below, hstar, if_pos rfl, hchild, Option.getD_some]

theorem leafIds_cons (token : List Char) (tokens : List (List Char)) (current : Node) :
    leafIds (token :: tokens) current = leafIds tokens
      (((current.child (lookupKey token)).or (current.child (str.lit "*"))).getD Node.new) := by
  rw [leafIds, descend_cons]
  cases (current.child (lookupKey token)).or (current.child (str.lit "*")) with
  | none => exact (leafIds_new tokens).symm
  | some next => rfl

/-- An insertion brings no other id under a search. -/
theorem mem_leafIds_of_insert_below {inserted : List (List Char)}
    (h : id ∈ leafIds tokens (insert_below max_children cluster_id inserted current)) :
    id = cluster_id ∨ id ∈ leafIds tokens current := by
  induction tokens generalizing current inserted with
  | nil =>
    cases inserted with
    | nil =>
      obtain h | h := List.mem_append.mp h
      · exact .inr h
      · exact .inl (List.mem_singleton.mp h)
    | cons token inserted => exact .inr h
  | cons token tokens ih =>
    cases inserted with
    | nil => exact .inr h
    | cons other inserted =>
      rw [leafIds_cons, child_insert_below, child_insert_below] at h
      rw [leafIds_cons]
      by_cases hkey : lookupKey token = insertKey max_children current other
      · rw [if_pos hkey, Option.some_or, Option.getD_some, ← hkey] at h
        obtain h | h := ih h
        · exact .inl h
        · right
          cases hchild : current.child (lookupKey token) with
          | none =>
            rw [hchild, Option.getD_none, leafIds_new] at h
            cases h
          | some next =>
            rw [hchild] at h
            exact h
      · rw [if_neg hkey] at h
        cases hchild : current.child (lookupKey token) with
        | some next =>
          rw [hchild] at h
          exact .inr h
        | none =>
          rw [hchild, Option.none_or] at h
          rw [Option.none_or]
          split at h
          · rename_i hstar
            rw [← hstar] at h
            exact ih h
          · exact .inr h

end

section

variable {self after : DrainMiner} {tokens inserted : List (List Char)} {id : Nat}

/-- The cluster is where a search for the tokens ends, for good. -/
def SettledAt (self : DrainMiner) (tokens : List (List Char)) (id : Nat) : Prop :=
  Settled self.config.max_children id (tokens.take (self.config.depth - 2))
    ((self.root.child (len_key tokens.length)).getD Node.new)

theorem SettledAt.mem_candidates (h : self.SettledAt tokens id) : id ∈ self.candidates tokens := by
  rw [candidates_eq]
  exact h.mem_leafIds

theorem settledAt_founded
    (hstraight : Straight self.config.max_children (tokens.take (self.config.depth - 2))
      ((self.root.child (len_key tokens.length)).getD Node.new))
    (hconfig : after.config = self.config) (hroot : after.root = self.grown tokens) :
    after.SettledAt tokens self.next_cluster_id := by
  rw [SettledAt, hroot, hconfig, child_grown, if_pos rfl, Option.getD_some]
  exact settled_insert_below hstraight

theorem SettledAt.grown (h : self.SettledAt tokens id) (hconfig : after.config = self.config)
    (hroot : after.root = self.grown inserted) : after.SettledAt tokens id := by
  rw [SettledAt, hroot, hconfig, child_grown]
  split
  · rename_i hlength
    rw [Option.getD_some, ← hlength]
    exact h.insert_below _
  · exact h

theorem mem_candidates_of_grown (hconfig : after.config = self.config)
    (hroot : after.root = self.grown inserted) (h : id ∈ after.candidates tokens) :
    id = self.next_cluster_id ∨ id ∈ self.candidates tokens := by
  rw [candidates_eq, hroot, hconfig, child_grown] at h
  rw [candidates_eq]
  split at h
  · rename_i hlength
    rw [Option.getD_some, ← hlength] at h
    exact mem_leafIds_of_insert_below h
  · exact .inr h

/-- Where the insertion and the search part, the search misses the new cluster. -/
theorem TreeBelow.not_mem_candidates_founded (h : self.TreeBelow)
    (hstraight : ¬ Straight self.config.max_children (tokens.take (self.config.depth - 2))
      ((self.root.child (len_key tokens.length)).getD Node.new))
    (hconfig : after.config = self.config) (hroot : after.root = self.grown tokens) :
    self.next_cluster_id ∉ after.candidates tokens := by
  rw [candidates_eq, hroot, hconfig, child_grown, if_pos rfl, Option.getD_some, leafIds,
    descend_insert_below_of_not_straight _ _ hstraight, ← leafIds, ← candidates_eq]
  exact fun hmem => lt_irrefl _ (h.candidates_lt _ hmem)

end

/-- Every cluster is at the node that a search for the line that created it ends at. -/
def AllReached (crates : Crates) (history : List Taken) (miner : DrainMiner) : Prop :=
  ∀ c_id ∈ miner.clusters, ∃ taken ∈ history, taken.result.is_new = true ∧
    taken.result.cluster_id = c_id ∧ miner.Reaches (taken.tokens crates) c_id

/-- Where a line founds a cluster, the insertion meets no node that is full and has a child for
    the token of the line itself. -/
def FoundsStraight (crates : Crates) (miner : DrainMiner) (input : Input) : Prop :=
  ∀ sim, input.tokens crates ≠ [] →
    miner.find_best_match (input.tokens crates) (input.syslog_tag crates) = ok (none, sim) →
    Straight miner.config.max_children ((input.tokens crates).take (miner.config.depth - 2))
      ((miner.root.child (len_key (input.tokens crates).length)).getD Node.new)

section

variable {crates : Crates} {config : DrainConfig} {history : List Taken} {self after : DrainMiner}
  {input : Input} {result : ClusterResult}

/-- The clusters are those of the lines that founded one, each of its own. -/
theorem Consistent.allReached_iff (h : self.Consistent crates config history) :
    AllReached crates history self ↔ ∀ taken ∈ history, taken.result.is_new = true →
      taken.result.cluster_id ∈ self.candidates (taken.tokens crates) := by
  have hnext := h.next_pos
  have hfounder : ∀ {taken : Taken}, taken ∈ history → taken.result.is_new = true →
      taken ∈ history.filter fun taken => taken.result.is_new := fun hmem hnew =>
    List.mem_filter.mpr ⟨hmem, hnew⟩
  have hids : ∀ {c_id : Nat}, c_id ∈ self.clusters ↔ ∃ taken ∈ history,
      taken.result.is_new = true ∧ taken.result.cluster_id = c_id := by
    intro c_id
    have hrange : c_id ∈ (history.filter fun taken => taken.result.is_new).map
        (fun taken => taken.result.cluster_id) ↔ c_id ∈ List.range' 1 (self.next_cluster_id - 1) := by
      rw [h.founders]
    rw [List.mem_map, List.mem_range'_1] at hrange
    rw [h.mem_clusters]
    constructor
    · intro hc
      obtain ⟨taken, htaken, hid⟩ := hrange.mpr (by omega)
      obtain ⟨hmem, hnew⟩ := List.mem_filter.mp htaken
      exact ⟨taken, hmem, hnew, hid⟩
    · rintro ⟨taken, hmem, hnew, hid⟩
      have hc := hrange.mp ⟨taken, hfounder hmem hnew, hid⟩
      omega
  constructor
  · intro hall taken hmem hnew
    obtain ⟨founder, hfounds, hisnew, hid, hreaches⟩ :=
      hall taken.result.cluster_id (hids.mpr ⟨taken, hmem, hnew, rfl⟩)
    have hnodup : ((history.filter fun taken => taken.result.is_new).map
        fun taken => taken.result.cluster_id).Nodup := by
      rw [h.founders]
      exact List.nodup_range'
    have hsame : founder = taken :=
      List.inj_on_of_nodup_map hnodup (hfounder hfounds hisnew) (hfounder hmem hnew) hid
    rw [hsame] at hreaches
    exact reaches_iff.mp hreaches
  · intro hall c_id hc
    obtain ⟨taken, hmem, hnew, rfl⟩ := hids.mp hc
    exact ⟨taken, hmem, hnew, rfl, reaches_iff.mpr (hall taken hmem hnew)⟩

/-- What holds between two lines: where all clusters are reached, they are so for good. -/
structure Rooted (crates : Crates) (config : DrainConfig) (history : List Taken)
    (miner : DrainMiner) : Prop where
  consistent : miner.Consistent crates config history
  below : miner.TreeBelow
  settled : (∀ taken ∈ history, taken.result.is_new = true →
      taken.result.cluster_id ∈ miner.candidates (taken.tokens crates)) →
    ∀ taken ∈ history, taken.result.is_new = true →
      miner.SettledAt (taken.tokens crates) taken.result.cluster_id

theorem rooted_new (crates : Crates) (config : DrainConfig) :
    Rooted crates config [] (new config) where
  consistent := consistent_new crates config
  below := treeBelow_new config
  settled _ taken htaken := by cases htaken

theorem forall_founders_concat {p : Taken → Prop} {taken : Taken} :
    (∀ t ∈ history ++ [taken], t.result.is_new = true → p t) ↔
      (∀ t ∈ history, t.result.is_new = true → p t) ∧ (taken.result.is_new = true → p taken) := by
  simp only [List.mem_append, List.mem_singleton, or_imp, forall_and, forall_eq]

theorem Rooted.add_log (h : Rooted crates config history self)
    (hadd : self.add_log crates input.raw input.now_ms = ok (result, after)) :
    Rooted crates config (history ++ [⟨input, result⟩]) after := by
  have hadds := adds_of_add_log hadd
  have hconsistent := h.consistent.adds hadds
  have hconfig : after.config = self.config :=
    hconsistent.config_eq.trans h.consistent.config_eq.symm
  obtain ⟨hold, hroot, hnext⟩ | ⟨hnew, hroot, hnext⟩ := root_of_add_log hadd
  · have hnone : ¬ (⟨input, result⟩ : Taken).result.is_new = true := by simp [hold]
    refine ⟨hconsistent, ?_, ?_⟩
    · rw [TreeBelow, hroot, hnext]
      exact h.below
    · rw [forall_founders_concat, forall_founders_concat]
      rintro ⟨hall, -⟩
      refine ⟨?_, fun hisnew => absurd hisnew hnone⟩
      simp only [candidates, SettledAt, hroot, hconfig] at hall ⊢
      exact h.settled hall
  · have hid : result.cluster_id = self.next_cluster_id := by
      cases hadds with
      | blank | joins => cases hnew
      | founds => rfl
    refine ⟨hconsistent, ?_, ?_⟩
    · rw [TreeBelow, hroot, hnext]
      exact h.below.grown _
    · rw [forall_founders_concat, forall_founders_concat]
      rintro ⟨hall, hlast⟩
      have hbefore : ∀ taken ∈ history, taken.result.is_new = true →
          taken.result.cluster_id ∈ self.candidates (taken.tokens crates) := by
        intro taken hmem hisnew
        obtain heq | hcandidate := mem_candidates_of_grown hconfig hroot (hall taken hmem hisnew)
        · exact absurd heq (h.consistent.known taken hmem).ne
        · exact hcandidate
      refine ⟨fun taken hmem hisnew => (h.settled hbefore taken hmem hisnew).grown hconfig hroot, ?_⟩
      intro _
      dsimp only at hlast ⊢
      rw [hid] at hlast ⊢
      refine settledAt_founded ?_ hconfig hroot
      by_contra hstraight
      exact h.below.not_mem_candidates_founded hstraight hconfig hroot (hlast hnew)

/-- One line keeps all clusters reached exactly if its own insertion is straight. -/
theorem Rooted.allReached_iff (h : Rooted crates config history self)
    (hreached : AllReached crates history self)
    (hadd : self.add_log crates input.raw input.now_ms = ok (result, after)) :
    AllReached crates (history ++ [⟨input, result⟩]) after ↔ self.FoundsStraight crates input := by
  have hadds := adds_of_add_log hadd
  have hafter := (h.add_log hadd).consistent
  have hconfig : after.config = self.config :=
    hafter.config_eq.trans h.consistent.config_eq.symm
  have hall := h.consistent.allReached_iff.mp hreached
  have hroots := root_of_add_log hadd
  rw [hafter.allReached_iff, forall_founders_concat]
  have hkept : result.is_new = false → after.root = self.root →
      ((∀ t ∈ history, t.result.is_new = true →
        t.result.cluster_id ∈ after.candidates (t.tokens crates)) ∧
        (result.is_new = true → result.cluster_id ∈ after.candidates (input.tokens crates))) := by
    intro hold hroot
    refine ⟨?_, fun hisnew => ?_⟩
    · simp only [candidates, hroot, hconfig]
      exact hall
    · rw [hold] at hisnew
      cases hisnew
  cases hadds with
  | blank htokens =>
    obtain ⟨hold, hroot, -⟩ | ⟨hnew, -⟩ := hroots
    · exact iff_of_true (hkept hold hroot) fun sim hne => absurd htokens hne
    · cases hnew
  | joins c_id cluster sim anomaly htokens hfind =>
    obtain ⟨hold, hroot, -⟩ | ⟨hnew, -⟩ := hroots
    · refine iff_of_true (hkept hold hroot) fun sim' _ hnone => ?_
      rw [hfind] at hnone
      cases hnone
    · cases hnew
  | founds cluster sim root htokens hfind =>
    obtain ⟨hold, -⟩ | ⟨-, hroot, -⟩ := hroots
    · cases hold
    constructor
    · rintro ⟨-, hlast⟩ sim' _ _
      by_contra hstraight
      exact h.below.not_mem_candidates_founded hstraight hconfig hroot (hlast rfl)
    · intro hstraight
      refine ⟨fun taken hmem hisnew => ?_, fun _ => ?_⟩
      · exact ((h.settled hall taken hmem hisnew).grown hconfig hroot).mem_candidates
      · exact (settledAt_founded (hstraight sim htokens hfind) hconfig hroot).mem_candidates

end

/-- Every cluster stays where a search for its first line ends, in all states of a run, exactly if
    every line that founds a cluster is inserted along the way of a search. -/
theorem all_reached_iff (crates : Crates) (config : DrainConfig) (inputs : List Input) :
    (∀ seen, seen <+: inputs → ∀ history miner, (new config).run crates seen = ok (history, miner) →
      AllReached crates history miner) ↔ (new config).Meets crates (FoundsStraight crates) inputs := by
  refine run_states_iff (fun (hinv : Rooted crates config _ _) hadd => hinv.add_log hadd)
    (fun hinv hreached hadd => hinv.allReached_iff hreached hadd) (rooted_new crates config) ?_ inputs
  intro c_id hc
  exact absurd hc (AList.notMem_empty c_id)

/-- The first token of the second line has a child, but the node is full: the line is put under
    the star, where no search for it goes. -/
theorem cluster_not_reached :
    ∃ history miner, (new { DrainConfig.default with max_children := 1 }).run default
        [⟨str.lit "up lan", 0⟩, ⟨str.lit "up wan", 1⟩] = ok (history, miner) ∧
      ¬ AllReached default history miner := by
  have hstate : ((new { DrainConfig.default with max_children := 1 }).run default
      [⟨str.lit "up lan", 0⟩, ⟨str.lit "up wan", 1⟩] >>= fun state =>
        ok (state.1.all fun taken => !taken.result.is_new ||
          decide (taken.result.cluster_id ∈ state.2.candidates (taken.tokens default)))) =
      ok false := by
    decide +kernel
  obtain ⟨⟨history, miner⟩, hrun, hmissed⟩ := bind_eq_ok_iff.mp hstate
  refine ⟨history, miner, hrun, fun hreached => ?_⟩
  have hall := (consistent_of_run hrun).allReached_iff.mp hreached
  have hfalse := List.all_eq_false.mp (Result.ok.inj hmissed)
  obtain ⟨taken, htaken, hnot⟩ := hfalse
  refine hnot ?_
  cases hnew : taken.result.is_new with
  | false => rfl
  | true => exact decide_eq_true (hall taken htaken hnew)

end ulpf_ai.drain.DrainMiner
