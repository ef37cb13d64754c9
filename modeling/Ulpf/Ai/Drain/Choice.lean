import Ulpf.Lib.RunningMax
import Ulpf.Ai.Drain.Repeat

open Result

namespace ulpf_ai.drain.DrainMiner

/-- A search for the tokens ends at a node that has the cluster. -/
def Reaches (self : DrainMiner) (tokens : List (List Char)) (c_id : Nat) : Prop :=
  ∃ len_node leaf, self.root.child (len_key tokens.length) = some len_node ∧
    descend (tokens.take (self.config.depth - 2)) len_node = some leaf ∧ c_id ∈ leaf.cluster_ids

/-- A cluster at the node that a search ends at, with the size and, where anchors are on, the tag
    of the line and a positive similarity to it. -/
structure Candidate (miner : DrainMiner) (tokens : List (List Char)) (syslog_tag : Option (List Char))
    (c_id : Nat) (sim : ℚ) : Prop where
  reached : miner.Reaches tokens c_id
  similar : ∃ cluster, miner.clusters.lookup c_id = some cluster ∧ cluster.size = tokens.length ∧
    (miner.config.anchors_enabled = true → cluster.syslog_tag = syslog_tag) ∧
    compute_similarity cluster.template_tokens tokens miner.anchor_vocab = ok sim
  positive : 0 < sim

/-- The ids of the clusters in the order in which lines founded them. -/
def created (history : List Taken) : List Nat :=
  (history.filter fun taken => taken.result.is_new).map fun taken => taken.result.cluster_id

section

variable {self : DrainMiner} {tokens : List (List Char)} {syslog_tag : Option (List Char)}

theorem reaches_iff {c_id : Nat} : self.Reaches tokens c_id ↔ c_id ∈ self.candidates tokens := by
  unfold Reaches candidates leafIds
  cases self.root.child (len_key tokens.length) with
  | none => simp
  | some len_node =>
    rw [Option.map_some, Option.getD_some]
    cases hleaf : descend (tokens.take (self.config.depth - 2)) len_node with
    | none => simp [hleaf]
    | some leaf => simp [hleaf]

/-- What the loop compares: the similarity of a cluster that a line may join, or nothing. -/
def chance (self : DrainMiner) (tokens : List (List Char)) (syslog_tag : Option (List Char))
    (c_id : Nat) : ℚ :=
  match self.clusters.lookup c_id with
  | none => 0
  | some cluster =>
    if cluster.size ≠ tokens.length ∨
        (self.config.anchors_enabled ∧ cluster.syslog_tag ≠ syslog_tag) then 0
    else
      match compute_similarity cluster.template_tokens tokens self.anchor_vocab with
      | .ok sim => sim
      | .panic => 0

/-- The loop over the candidates is a running maximum. -/
theorem best_candidate_eq_pick (best : Option Nat) {max_sim : ℚ} (hmax : 0 ≤ max_sim)
    (ids : List Nat) :
    best_candidate self tokens syslog_tag self.anchor_vocab best max_sim ids =
      ok (running_max.pick self.config.similarity_threshold (self.chance tokens syslog_tag) best
        max_sim ids) := by
  induction ids generalizing best max_sim with
  | nil => rfl
  | cons c_id rest ih =>
    have hskip : self.chance tokens syslog_tag c_id = 0 →
        running_max.pick self.config.similarity_threshold (self.chance tokens syslog_tag) best
            max_sim (c_id :: rest) =
          running_max.pick self.config.similarity_threshold (self.chance tokens syslog_tag) best
            max_sim rest := by
      intro hzero
      rw [running_max.pick, hzero, if_neg (not_lt.mpr hmax)]
    rw [best_candidate]
    cases hlookup : self.clusters.lookup c_id with
    | none =>
      rw [hskip (by rw [chance, hlookup])]
      exact ih best hmax
    | some cluster =>
      dsimp only
      by_cases hapart : cluster.size ≠ tokens.length ∨
          (self.config.anchors_enabled ∧ cluster.syslog_tag ≠ syslog_tag)
      · rw [if_pos hapart, hskip (by rw [chance, hlookup]; exact if_pos hapart)]
        exact ih best hmax
      · obtain ⟨sim, hsim⟩ := ne_panic_iff.mp
          (compute_similarity_ne_panic cluster.template_tokens tokens self.anchor_vocab)
        have hchance : self.chance tokens syslog_tag c_id = sim := by
          rw [chance, hlookup]
          dsimp only
          rw [if_neg hapart, hsim]
        rw [if_neg hapart, hsim, bind_ok, running_max.pick, hchance]
        split
        · rename_i hlt
          exact ih _ (hmax.trans hlt.le)
        · exact ih best hmax

theorem candidate_iff {c_id : Nat} {sim : ℚ} :
    self.Candidate tokens syslog_tag c_id sim ↔
      c_id ∈ self.candidates tokens ∧ self.chance tokens syslog_tag c_id = sim ∧ 0 < sim := by
  constructor
  · rintro ⟨hreached, ⟨cluster, hlookup, hsize, htag, hsim⟩, hpos⟩
    refine ⟨reaches_iff.mp hreached, ?_, hpos⟩
    rw [chance, hlookup]
    dsimp only
    rw [if_neg (by push Not; exact ⟨hsize, htag⟩), hsim]
  · rintro ⟨hmem, hchance, hpos⟩
    refine ⟨reaches_iff.mpr hmem, ?_, hpos⟩
    unfold chance at hchance
    split at hchance
    · exact absurd hchance hpos.ne
    rename_i cluster hlookup
    split at hchance
    · exact absurd hchance hpos.ne
    rename_i hfits
    push Not at hfits
    split at hchance
    · rename_i sim' hsim
      exact ⟨cluster, hlookup, hfits.1, hfits.2, hchance ▸ hsim⟩
    · exact absurd hchance hpos.ne

/-- The candidates stand in the order of their ids. -/
theorem candidates_ordered (hordered : self.root.Ordered) (tokens : List (List Char)) :
    (self.candidates tokens).Pairwise (· < ·) := by
  unfold candidates leafIds
  cases hnode : self.root.child (len_key tokens.length) with
  | none => exact .nil
  | some node =>
    rw [Option.map_some, Option.getD_some]
    cases hleaf : descend (tokens.take (self.config.depth - 2)) node with
    | none => exact .nil
    | some leaf =>
      obtain ⟨path, hpath⟩ := exists_follow_of_descend hleaf
      have hids := hordered (len_key tokens.length :: path)
      rwa [Node.idsAt, Node.follow, hnode, Option.bind_some, hpath] at hids

end

section

variable {crates : Crates} {config : DrainConfig} {inputs : List Input} {history : List Taken}
  {self : DrainMiner}

/-- In every state of a run, a match looks at the candidates that the search finds. -/
theorem find_best_match_of_run (hrun : (new config).run crates inputs = ok (history, self))
    (tokens : List (List Char)) (syslog_tag : Option (List Char)) :
    self.find_best_match tokens syslog_tag =
      ok (running_max.pick config.similarity_threshold (self.chance tokens syslog_tag) none 0
        (self.candidates tokens)) := by
  have hconfig := (consistent_of_run hrun).config_eq
  rw [find_best_match_eq, best_candidate_eq_pick none le_rfl, hconfig]

/-- Ids are given out in the order of creation. -/
theorem sublist_created (h : self.Consistent crates config history) {a b : Nat}
    (ha : a ∈ self.clusters) (hb : b ∈ self.clusters) (hlt : a < b) :
    [a, b].Sublist (created history) := by
  have ha := (h.mem_clusters a).mp ha
  have hb := (h.mem_clusters b).mp hb
  rw [created, h.founders]
  refine List.sublist_of_subperm_of_pairwise (r := (· < ·)) ?_ (List.pairwise_pair.mpr hlt)
    List.pairwise_lt_range'
  refine List.subperm_of_subset (by simp [hlt.ne]) fun id hid => ?_
  rw [List.mem_range'_1]
  obtain rfl | rfl := List.mem_pair.mp hid <;> omega

end

/-- A match picks the right candidate: in every state of a run, the one of the greatest similarity
    that was created first, if that similarity reaches the threshold. -/
theorem find_best_match_picks (crates : Crates) {config : DrainConfig} {inputs : List Input}
    {history : List Taken} {self : DrainMiner}
    (hrun : (new config).run crates inputs = ok (history, self)) (tokens : List (List Char))
    (syslog_tag : Option (List Char)) :
    ∃ picked max_sim, self.find_best_match tokens syslog_tag = ok (picked, max_sim) ∧
      ((∀ c_id sim, ¬ self.Candidate tokens syslog_tag c_id sim) → picked = none ∧ max_sim = 0) ∧
      ((∃ c_id sim, self.Candidate tokens syslog_tag c_id sim) →
        ∃ c_id, self.Candidate tokens syslog_tag c_id max_sim ∧
          (∀ other sim, self.Candidate tokens syslog_tag other sim → sim ≤ max_sim) ∧
          (∀ other, self.Candidate tokens syslog_tag other max_sim → other = c_id ∨
            [c_id, other].Sublist (created history)) ∧
          picked = if config.similarity_threshold ≤ max_sim then some c_id else none) := by
  refine ⟨_, _, find_best_match_of_run hrun tokens syslog_tag, ?_⟩
  have hordered := candidates_ordered (ordered_of_run hrun) tokens
  obtain ⟨hnone, hpick⟩ | ⟨front, c_id, back, hids, hpos, hfront, hback, hpick⟩ :=
    running_max.pick_spec config.similarity_threshold (self.chance tokens syslog_tag) none 0
      (self.candidates tokens)
  · rw [hpick]
    refine ⟨fun _ => ⟨rfl, rfl⟩, ?_⟩
    rintro ⟨c_id, sim, hcandidate⟩
    obtain ⟨hmem, hsim, hpos⟩ := candidate_iff.mp hcandidate
    exact absurd (hnone c_id hmem) (not_le.mpr (hsim ▸ hpos))
  · rw [hpick]
    have hmem : c_id ∈ self.candidates tokens := by simp [hids]
    have hcandidate := candidate_iff.mpr ⟨hmem, rfl, hpos⟩
    refine ⟨fun hnone => absurd hcandidate (hnone _ _), fun _ => ⟨c_id, hcandidate, ?_, ?_, rfl⟩⟩
    · intro other sim hother
      obtain ⟨hother, hsim, -⟩ := candidate_iff.mp hother
      rw [hids, List.mem_append, List.mem_cons] at hother
      rw [← hsim]
      obtain hother | rfl | hother := hother
      · exact (hfront other hother).le
      · exact le_rfl
      · exact hback other hother
    · intro other hother
      obtain ⟨cluster, hlookup, -⟩ := hother.similar
      obtain ⟨hother, hsim, -⟩ := candidate_iff.mp hother
      rw [hids, List.mem_append, List.mem_cons] at hother
      obtain hother | rfl | hother := hother
      · exact absurd hsim (hfront other hother).ne
      · exact .inl rfl
      · obtain ⟨first, hfirst, -⟩ := hcandidate.similar
        rw [hids, List.pairwise_append, List.pairwise_cons] at hordered
        exact .inr (sublist_created (consistent_of_run hrun) (Consistent.mem_of_lookup hfirst)
          (Consistent.mem_of_lookup hlookup) (hordered.2.1.1 other hother))

/-- Two clusters are equally similar to the third line, and the earlier one is picked. -/
theorem find_best_match_picks_earlier_of_two :
    ∃ history self, (new { DrainConfig.default with similarity_threshold := 3 / 4 }).run default
        [⟨str.lit "a b c d", 0⟩, ⟨str.lit "a b e f", 1⟩] = ok (history, self) ∧
      self.find_best_match [['a'], ['b'], ['c'], ['f']] none = ok (some 1, 3 / 4) ∧
      self.Candidate [['a'], ['b'], ['c'], ['f']] none 1 (3 / 4) ∧
      ∀ other, self.Candidate [['a'], ['b'], ['c'], ['f']] none other (3 / 4) → other = 1 ∨
        [1, other].Sublist (created history) := by
  have hstate : ((new { DrainConfig.default with similarity_threshold := 3 / 4 }).run default
      [⟨str.lit "a b c d", 0⟩, ⟨str.lit "a b e f", 1⟩] >>= fun state =>
        state.2.find_best_match [['a'], ['b'], ['c'], ['f']] none) = ok (some 1, 3 / 4) := by
    decide +kernel
  obtain ⟨⟨history, self⟩, hrun, hfind⟩ := bind_eq_ok_iff.mp hstate
  obtain ⟨picked, max_sim, hpicks, hempty, hsome⟩ :=
    find_best_match_picks default hrun [['a'], ['b'], ['c'], ['f']] none
  rw [hfind] at hpicks
  cases hpicks
  obtain ⟨c_id, hcandidate, -, hearliest, hpicked⟩ := hsome (by
    by_contra hnone
    push Not at hnone
    cases (hempty hnone).1)
  split at hpicked <;> cases hpicked
  exact ⟨history, self, hrun, hfind, hcandidate, hearliest⟩

end ulpf_ai.drain.DrainMiner
