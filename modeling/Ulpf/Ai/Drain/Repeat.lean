import Ulpf.Ai.Drain.Similarity
import Ulpf.Ai.Drain.Tree

open Result

namespace ulpf_ai.drain.DrainMiner

/-- A cluster that a line may join and whose similarity to it is 1. -/
def Perfect (self : DrainMiner) (tokens : List (List Char)) (syslog_tag : Option (List Char))
    (c_id : Nat) : Prop :=
  ∃ cluster, self.clusters.lookup c_id = some cluster ∧
    ¬ (cluster.size ≠ tokens.length ∨
      (self.config.anchors_enabled ∧ cluster.syslog_tag ≠ syslog_tag)) ∧
    compute_similarity cluster.template_tokens tokens self.anchor_vocab = ok 1

/-- The clusters that a match looks at, in the order of the leaf. -/
def candidates (self : DrainMiner) (tokens : List (List Char)) : List Nat :=
  ((self.root.child (len_key tokens.length)).map
    (leafIds (tokens.take (self.config.depth - 2)))).getD []

section

variable {self : DrainMiner} {tokens : List (List Char)} {syslog_tag : Option (List Char)}

theorem find_best_match_eq :
    self.find_best_match tokens syslog_tag =
      best_candidate self tokens syslog_tag self.anchor_vocab none 0 (self.candidates tokens) := by
  unfold find_best_match candidates
  dsimp only
  cases self.root.child (len_key tokens.length) with
  | none => rfl
  | some len_node =>
    dsimp only
    rw [max_prefix_depth, Option.map_some, Option.getD_some, leafIds]
    cases descend (tokens.take (self.config.depth - 2)) len_node <;> rfl

/-- A search in a tree without clusters of the size finds nothing either way. -/
theorem candidates_eq (self : DrainMiner) (tokens : List (List Char)) :
    self.candidates tokens = leafIds (tokens.take (self.config.depth - 2))
      ((self.root.child (len_key tokens.length)).getD Node.new) := by
  rw [candidates]
  cases self.root.child (len_key tokens.length) with
  | none => exact (leafIds_new _).symm
  | some node => rfl

theorem best_candidate_mem {vocab : List (List Char)} {best picked : Option Nat} {max_sim sim : ℚ}
    {ids : List Nat}
    (h : best_candidate self tokens syslog_tag vocab best max_sim ids = ok (picked, sim)) :
    picked = best ∨ ∃ c_id ∈ ids, picked = some c_id := by
  induction ids generalizing best max_sim with
  | nil =>
    cases h
    exact .inl rfl
  | cons c_id rest ih =>
    have hskip : picked = best ∨ (∃ c ∈ rest, picked = some c) →
        picked = best ∨ ∃ c ∈ c_id :: rest, picked = some c :=
      Or.imp_right fun ⟨c, hc, hpicked⟩ => ⟨c, List.mem_cons_of_mem _ hc, hpicked⟩
    rw [best_candidate] at h
    split at h
    · exact hskip (ih h)
    split at h
    · exact hskip (ih h)
    obtain ⟨next, -, h⟩ := bind_eq_ok_iff.mp h
    split at h
    · obtain hpicked | hpicked := ih h
      · split at hpicked
        · exact .inr ⟨c_id, List.mem_cons_self, hpicked⟩
        · exact .inl hpicked
      · exact hskip (.inr hpicked)
    · exact hskip (ih h)

/-- No candidate is better than a perfect one. -/
theorem best_candidate_one (vocab : List (List Char)) (best : Option Nat) (ids : List Nat) :
    best_candidate self tokens syslog_tag vocab best 1 ids = ok (best, 1) := by
  induction ids with
  | nil => rfl
  | cons c_id rest ih =>
    rw [best_candidate]
    cases self.clusters.lookup c_id with
    | none => exact ih
    | some cluster =>
      dsimp only
      split
      · exact ih
      obtain ⟨sim, hsim⟩ := ne_panic_iff.mp
        (compute_similarity_ne_panic cluster.template_tokens tokens vocab)
      rw [hsim, bind_ok, if_neg (not_lt.mpr (compute_similarity_le_one hsim))]
      exact ih

/-- The first perfect candidate is picked. -/
theorem best_candidate_perfect (hthreshold : self.config.similarity_threshold ≤ 1)
    {earlier later : List Nat} {c_id : Nat} (hperfect : self.Perfect tokens syslog_tag c_id)
    (hearlier : ∀ d ∈ earlier, ¬ self.Perfect tokens syslog_tag d) {best : Option Nat} {max_sim : ℚ}
    (hmax : max_sim < 1) :
    best_candidate self tokens syslog_tag self.anchor_vocab best max_sim (earlier ++ c_id :: later) =
      ok (some c_id, 1) := by
  induction earlier generalizing best max_sim with
  | nil =>
    obtain ⟨cluster, hlookup, hfits, hsim⟩ := hperfect
    rw [List.nil_append, best_candidate, hlookup]
    dsimp only
    rw [if_neg hfits, hsim, bind_ok, if_pos hmax, if_pos hthreshold]
    exact best_candidate_one _ _ _
  | cons d earlier ih =>
    have hd := hearlier d List.mem_cons_self
    have ih : ∀ best max_sim, max_sim < 1 → best_candidate self tokens syslog_tag self.anchor_vocab best
        max_sim (earlier ++ c_id :: later) = ok (some c_id, 1) := fun best max_sim hmax =>
      ih (fun d hd => hearlier d (List.mem_cons_of_mem _ hd)) hmax
    rw [List.cons_append, best_candidate]
    cases hlookup : self.clusters.lookup d with
    | none => exact ih best max_sim hmax
    | some cluster =>
      dsimp only
      split
      · exact ih best max_sim hmax
      rename_i hfits
      obtain ⟨sim, hsim⟩ := ne_panic_iff.mp
        (compute_similarity_ne_panic cluster.template_tokens tokens self.anchor_vocab)
      have hlt : sim < 1 := by
        refine lt_of_le_of_ne (compute_similarity_le_one hsim) fun hone => hd ?_
        exact ⟨cluster, hlookup, hfits, hone ▸ hsim⟩
      rw [hsim, bind_ok]
      split
      · exact ih _ sim hlt
      · exact ih best max_sim hmax

theorem exists_first_perfect {ids : List Nat} {c_id : Nat} (hmem : c_id ∈ ids)
    (hperfect : self.Perfect tokens syslog_tag c_id) :
    ∃ earlier d later, ids = earlier ++ d :: later ∧ self.Perfect tokens syslog_tag d ∧
      ∀ e ∈ earlier, ¬ self.Perfect tokens syslog_tag e := by
  classical
  obtain ⟨d, hfind⟩ : ∃ d, ids.find? (fun d => decide (self.Perfect tokens syslog_tag d)) = some d := by
    rw [← Option.isSome_iff_exists, List.find?_isSome]
    exact ⟨c_id, hmem, decide_eq_true hperfect⟩
  obtain ⟨hd, earlier, later, hids, hearlier⟩ := List.find?_eq_some_iff_append.mp hfind
  refine ⟨earlier, d, later, hids, of_decide_eq_true hd, fun e he hperfect => ?_⟩
  have hnot := hearlier e he
  rw [decide_eq_true hperfect] at hnot
  cases hnot

/-- A perfect candidate is picked before or instead of any other. -/
theorem find_best_match_perfect (hthreshold : self.config.similarity_threshold ≤ 1)
    {earlier later : List Nat} {c_id : Nat}
    (hids : self.candidates tokens = earlier ++ c_id :: later)
    (hperfect : self.Perfect tokens syslog_tag c_id)
    (hearlier : ∀ d ∈ earlier, ¬ self.Perfect tokens syslog_tag d) :
    self.find_best_match tokens syslog_tag = ok (some c_id, 1) := by
  rw [find_best_match_eq, hids]
  exact best_candidate_perfect hthreshold hperfect hearlier zero_lt_one

theorem mem_candidates_of_find_best_match {c_id : Nat} {sim : ℚ}
    (hfind : self.find_best_match tokens syslog_tag = ok (some c_id, sim)) :
    c_id ∈ self.candidates tokens := by
  rw [find_best_match_eq] at hfind
  obtain hnone | ⟨c, hc, hpicked⟩ := best_candidate_mem hfind
  · cases hnone
  · cases hpicked
    exact hc

/-- Where nothing is found, no candidate is perfect. -/
theorem not_perfect_of_find_none (hthreshold : self.config.similarity_threshold ≤ 1) {sim : ℚ}
    (hfind : self.find_best_match tokens syslog_tag = ok (none, sim)) :
    ∀ c_id ∈ self.candidates tokens, ¬ self.Perfect tokens syslog_tag c_id := by
  intro c_id hmem hperfect
  obtain ⟨earlier, d, later, hids, hd, hearlier⟩ := exists_first_perfect hmem hperfect
  rw [find_best_match_perfect hthreshold hids hd hearlier] at hfind
  cases hfind

/-- What is found stands before all perfect candidates, or is the first of them. -/
theorem exists_split_of_find_some (hthreshold : self.config.similarity_threshold ≤ 1) {c_id : Nat} {sim : ℚ}
    (hfind : self.find_best_match tokens syslog_tag = ok (some c_id, sim)) :
    ∃ earlier later, self.candidates tokens = earlier ++ c_id :: later ∧ c_id ∉ earlier ∧
      ∀ d ∈ earlier, ¬ self.Perfect tokens syslog_tag d := by
  obtain ⟨earlier, later, hids, hnot⟩ :=
    List.eq_append_cons_of_mem (mem_candidates_of_find_best_match hfind)
  refine ⟨earlier, later, hids, hnot, fun d hd hperfect => ?_⟩
  obtain ⟨before, e, after, hearlier, he, hbefore⟩ := exists_first_perfect hd hperfect
  rw [hearlier, List.append_assoc, List.cons_append] at hids
  rw [find_best_match_perfect hthreshold hids he hbefore] at hfind
  cases hfind
  exact hnot (by simp [hearlier])

theorem perfect_congr {next : DrainMiner} (hconfig : next.config = self.config) {c_id : Nat}
    (hlookup : next.clusters.lookup c_id = self.clusters.lookup c_id) :
    next.Perfect tokens syslog_tag c_id ↔ self.Perfect tokens syslog_tag c_id := by
  simp only [Perfect, anchor_vocab, hconfig, hlookup]

theorem TreeBelow.candidates_lt (h : self.TreeBelow) :
    ∀ c_id ∈ self.candidates tokens, c_id < self.next_cluster_id := by
  intro c_id hmem
  unfold candidates at hmem
  cases hnode : self.root.child (len_key tokens.length) with
  | none =>
    rw [hnode] at hmem
    cases hmem
  | some node =>
    rw [hnode, Option.map_some, Option.getD_some, leafIds] at hmem
    cases hleaf : descend (tokens.take (self.config.depth - 2)) node with
    | none =>
      rw [hleaf] at hmem
      cases hmem
    | some leaf =>
      rw [hleaf] at hmem
      obtain ⟨path, hpath⟩ := exists_follow_of_descend hleaf
      refine h (len_key tokens.length :: path) leaf ?_ c_id hmem
      rw [Node.follow, hnode, Option.bind_some, hpath]

end

/-- What a line needs in the state it meets to be recognised when it comes again. The template
    that it joins is opened to the wildcard only where the line has no anchor, and the cluster
    that it founds is put where a search for it goes. -/
structure Recognises (crates : Crates) (miner : DrainMiner) (input : Input) : Prop where
  template : ∀ c_id sim cluster,
    miner.find_best_match (input.tokens crates) (input.syslog_tag crates) = ok (some c_id, sim) →
    miner.clusters.lookup c_id = some cluster →
    ∀ t t', (t, t') ∈ cluster.template_tokens.zip (input.tokens crates) → t ≠ t' →
      anchor_clash miner.anchor_vocab WILDCARD (anchor_value t') = false
  tree : ∀ sim,
    miner.find_best_match (input.tokens crates) (input.syslog_tag crates) = ok (none, sim) →
    Straight miner.config.max_children ((input.tokens crates).take (miner.config.depth - 2))
      ((miner.root.child (len_key (input.tokens crates).length)).getD Node.new)

section

variable {crates : Crates} {config : DrainConfig} {history : List Taken} {self next : DrainMiner}
  {input : Input}

/-- The cluster that a line has joined is found again unless its anchors stand against the
    wildcard now. -/
theorem Consistent.find_again_joins_iff (h : self.Consistent crates config history)
    (hthreshold : self.config.similarity_threshold ≤ 1)
    {tokens : List (List Char)} (htokens : tokens ≠ []) {syslog_tag : Option (List Char)} {c_id : Nat}
    {sim : ℚ} (hfind : self.find_best_match tokens syslog_tag = ok (some c_id, sim))
    {cluster : LogCluster} (hlookup : self.clusters.lookup c_id = some cluster)
    (hmatches : self.Matches tokens syslog_tag cluster) {now_ms : Int}
    (hconfig : next.config = self.config) (hroot : next.root = self.root)
    (hclusters : next.clusters = self.clusters.insert c_id (cluster.update tokens now_ms)) :
    (∃ sim', next.find_best_match tokens syslog_tag = ok (some c_id, sim')) ↔
      ∀ t t', (t, t') ∈ cluster.template_tokens.zip tokens → t ≠ t' →
        anchor_clash self.anchor_vocab WILDCARD (anchor_value t') = false := by
  have hlookup' : next.clusters.lookup c_id = some (cluster.update tokens now_ms) := by
    rw [hclusters, AList.lookup_insert]
  have hvocab : next.anchor_vocab = self.anchor_vocab := by rw [anchor_vocab, anchor_vocab, hconfig]
  have hlength := h.length_tokens hlookup hmatches
  have hsim : compute_similarity (cluster.update tokens now_ms).template_tokens tokens
      next.anchor_vocab =
      ok (if clashes self.anchor_vocab
        ((LogCluster.merge_tokens cluster.template_tokens tokens).zip tokens) then 0 else 1) := by
    rw [hvocab]
    refine compute_similarity_covered _ ?_ htokens (merge_tokens_covered _ _)
    simp only [LogCluster.update]
    rw [LogCluster.merge_tokens_eq hlength, Template.length_merge hlength, hlength]
  rw [← clashes_merge_tokens]
  constructor
  · rintro ⟨sim', hfind'⟩
    obtain ⟨found, hfound, hmatches'⟩ := find_best_match_matches hfind'
    rw [hlookup'] at hfound
    cases hfound
    obtain ⟨sim'', hsim'', hpos⟩ := hmatches'.similar
    rw [hsim] at hsim''
    cases hsim''
    by_contra hclash
    rw [Bool.not_eq_false] at hclash
    rw [if_pos hclash] at hpos
    exact lt_irrefl 0 hpos
  · intro hclash
    rw [hclash] at hsim
    obtain ⟨earlier, later, hids, hnot, hearlier⟩ := exists_split_of_find_some hthreshold hfind
    have hcandidates : next.candidates tokens = self.candidates tokens := by
      rw [candidates, candidates, hroot, hconfig]
    refine ⟨1, ?_⟩
    rw [← hconfig] at hthreshold
    refine find_best_match_perfect hthreshold (hcandidates.trans hids) ?_ ?_
    · refine ⟨_, hlookup', ?_, hsim⟩
      push Not
      exact ⟨hmatches.size, fun hanchors => hmatches.tag (hconfig ▸ hanchors)⟩
    · intro d hd
      have hne : d ≠ c_id := fun heq => hnot (heq ▸ hd)
      rw [perfect_congr hconfig (by rw [hclusters, AList.lookup_insert_ne hne])]
      exact hearlier d hd

/-- The cluster that a line has founded is found again exactly if the insertion went where a
    search goes. -/
theorem TreeBelow.find_again_founds_iff (h : self.TreeBelow) (hthreshold : self.config.similarity_threshold ≤ 1)
    {tokens : List (List Char)} (htokens : tokens ≠ []) {syslog_tag : Option (List Char)} {sim : ℚ}
    (hfind : self.find_best_match tokens syslog_tag = ok (none, sim)) {now_ms : Int}
    (hconfig : next.config = self.config) (hroot : next.root = self.grown tokens)
    (hclusters : next.clusters = self.clusters.insert self.next_cluster_id
      (LogCluster.new self.next_cluster_id tokens now_ms syslog_tag)) :
    (∃ sim', next.find_best_match tokens syslog_tag = ok (some self.next_cluster_id, sim')) ↔
      Straight self.config.max_children (tokens.take (self.config.depth - 2))
        ((self.root.child (len_key tokens.length)).getD Node.new) := by
  have hcandidates : next.candidates tokens = leafIds (tokens.take (self.config.depth - 2))
      (insert_below self.config.max_children self.next_cluster_id
        (tokens.take (self.config.depth - 2))
        ((self.root.child (len_key tokens.length)).getD Node.new)) := by
    rw [candidates_eq, hroot, hconfig, child_grown, if_pos rfl, Option.getD_some]
  have hbefore := (self.candidates_eq tokens).symm
  constructor
  · rintro ⟨sim', hfind'⟩
    have hmem := mem_candidates_of_find_best_match hfind'
    by_contra hstraight
    rw [hcandidates, leafIds, descend_insert_below_of_not_straight _ _ hstraight, ← leafIds,
      hbefore] at hmem
    exact lt_irrefl _ (h.candidates_lt _ hmem)
  · intro hstraight
    obtain ⟨earlier, hsubset, hids⟩ :=
      leafIds_insert_below self.config.max_children self.next_cluster_id hstraight
    rw [hbefore] at hsubset
    refine ⟨1, find_best_match_perfect (hconfig ▸ hthreshold)
      (hcandidates.trans hids) ?_ ?_⟩
    · have hself : ∀ pair ∈ tokens.zip tokens, pair.1 = pair.2 := by
        intro pair hpair
        rw [List.zip_eq_zipWith, List.zipWith_self] at hpair
        obtain ⟨t, -, rfl⟩ := List.mem_map.mp hpair
        rfl
      have hclash : clashes next.anchor_vocab (tokens.zip tokens) = false := by
        rw [clashes, List.any_eq_false]
        intro pair hpair
        rw [hself pair hpair, anchor_clash_self]
        exact Bool.false_ne_true
      refine ⟨_, by rw [hclusters, AList.lookup_insert], ?_, ?_⟩
      · simp [LogCluster.new]
      · have hsim := compute_similarity_covered next.anchor_vocab rfl htokens fun pair hpair =>
          .inl (hself pair hpair)
        rwa [hclash] at hsim
    · intro d hd
      have hmem := hsubset hd
      have hne : d ≠ self.next_cluster_id := (h.candidates_lt d hmem).ne
      rw [perfect_congr hconfig (by rw [hclusters, AList.lookup_insert_ne hne])]
      exact not_perfect_of_find_none hthreshold hfind d hmem

end

/-- A line that comes twice in a row is returned the cluster of the first time exactly if the
    miner recognises it in the state before. -/
theorem add_log_twice_iff (crates : Crates) {config : DrainConfig}
    (hthreshold : config.similarity_threshold ≤ 1) {inputs : List Input} {history : List Taken}
    {self : DrainMiner} (hrun : (new config).run crates inputs = ok (history, self)) (input : Input)
    (htokens : input.tokens crates ≠ []) (later_ms : Int) :
    (∃ first next second last, self.add_log crates input.raw input.now_ms = ok (first, next) ∧
      next.add_log crates input.raw later_ms = ok (second, last) ∧
      second.cluster_id = first.cluster_id ∧ second.is_new = false) ↔
      self.Recognises crates input := by
  have hconsistent := consistent_of_run hrun
  have htree := (treeBelow_new config).run hrun
  rw [← hconsistent.config_eq] at hthreshold
  obtain ⟨first, next, hfirst, -⟩ := add_log_ok crates self input.raw input.now_ms
  obtain ⟨second, last, hsecond, -⟩ := add_log_ok crates next input.raw later_ms
  have hadds : next.Adds crates ⟨input.raw, later_ms⟩ second last := adds_of_add_log hsecond
  have hagain : (second.cluster_id = first.cluster_id ∧ second.is_new = false) ↔
      ∃ sim, next.find_best_match (input.tokens crates) (input.syslog_tag crates) =
        ok (some first.cluster_id, sim) := hadds.joined_iff htokens first.cluster_id
  have hcalls : (∃ first next second last,
      self.add_log crates input.raw input.now_ms = ok (first, next) ∧
      next.add_log crates input.raw later_ms = ok (second, last) ∧
      second.cluster_id = first.cluster_id ∧ second.is_new = false) ↔
      second.cluster_id = first.cluster_id ∧ second.is_new = false := by
    constructor
    · rintro ⟨first', next', second', last', hfirst', hsecond', hsame⟩
      rw [hfirst] at hfirst'
      cases hfirst'
      rw [hsecond] at hsecond'
      cases hsecond'
      exact hsame
    · intro hsame
      exact ⟨first, next, second, last, hfirst, hsecond, hsame⟩
  rw [hcalls, hagain]
  have hroot := root_of_add_log hfirst
  cases adds_of_add_log hfirst with
  | blank hblank => exact absurd hblank htokens
  | joins c_id cluster sim anomaly _ hfind hlookup hmatches =>
    refine Iff.trans (hconsistent.find_again_joins_iff hthreshold htokens hfind hlookup hmatches
      rfl rfl rfl) ⟨fun htemplate => ⟨(forall_found_iff hfind hlookup).mpr htemplate, ?_⟩,
        fun h => h.template c_id sim cluster hfind hlookup⟩
    intro sim' hfind'
    rw [hfind] at hfind'
    cases hfind'
  | founds cluster sim root _ hfind hcluster =>
    obtain ⟨hold, -⟩ | ⟨-, hroot, -⟩ := hroot
    · cases hold
    rw [hcluster]
    refine Iff.trans (htree.find_again_founds_iff hthreshold htokens hfind rfl hroot rfl)
      ⟨fun hstraight => ⟨?_, fun _ _ => hstraight⟩, fun h => h.tree sim hfind⟩
    intro c_id' sim' cluster' hfind'
    rw [hfind] at hfind'
    cases hfind'

/-- The line finds the cluster of an earlier one and makes its template more general; it is found
    there again. -/
theorem add_log_twice_iff_joined :
    DrainConfig.default.similarity_threshold ≤ 1 ∧
    ∃ history self, (new DrainConfig.default).run default [denyLan] = ok (history, self) ∧
      ∃ first next second last, self.add_log default denyWan.raw 1 = ok (first, next) ∧
        next.add_log default denyWan.raw 2 = ok (second, last) ∧
        first.is_new = false ∧ second.cluster_id = first.cluster_id ∧ second.is_new = false := by
  have hthreshold : DrainConfig.default.similarity_threshold ≤ 1 := by decide +kernel
  have htokens : denyWan.tokens default ≠ [] := by decide +kernel
  have hstate : ((new DrainConfig.default).run default [denyLan] >>= fun state =>
      state.2.find_best_match (denyWan.tokens default) (denyWan.syslog_tag default) >>= fun found =>
      state.2.add_log default denyWan.raw 1 >>= fun first =>
        ok (found.1, (state.2.clusters.lookup 1).map LogCluster.template_tokens, first.1.is_new)) =
      ok (some 1, some (denyLan.tokens default), false) := by
    decide +kernel
  obtain ⟨⟨history, self⟩, hrun, hstate⟩ := bind_eq_ok_iff.mp hstate
  obtain ⟨⟨picked, sim⟩, hfound, hstate⟩ := bind_eq_ok_iff.mp hstate
  obtain ⟨⟨first, next⟩, hfirst, hstate⟩ := bind_eq_ok_iff.mp hstate
  obtain ⟨hpicked, htemplate, hnew⟩ := Prod.mk.inj (Result.ok.inj hstate) |>.imp_right Prod.mk.inj
  cases hpicked
  have hrecognises : self.Recognises default denyWan := by
    have hconfig := (consistent_of_run hrun).config_eq
    refine ⟨fun c_id sim' cluster hfind hlookup t t' hmem hne => ?_, fun sim' hfind => ?_⟩
    · cases hfound.symm.trans hfind
      rw [hlookup] at htemplate
      rw [Option.some.inj htemplate] at hmem
      rw [anchor_vocab, hconfig]
      -- the one place where the tokens differ has no anchor
      have hplaces : ∀ place ∈ (denyLan.tokens default).zip (denyWan.tokens default),
          place.1 ≠ place.2 → anchor_clash (new DrainConfig.default).anchor_vocab WILDCARD
            (anchor_value place.2) = false := by
        decide +kernel
      exact hplaces (t, t') hmem hne
    · cases hfound.symm.trans hfind
  obtain ⟨first', next', second, last, hfirst', hsecond, hsame⟩ :=
    (add_log_twice_iff default hthreshold hrun denyWan htokens 2).mpr hrecognises
  cases hfirst.symm.trans hfirst'
  exact ⟨hthreshold, history, self, hrun, first, next, second, last, hfirst, hsecond, hnew, hsame⟩

/-- The second line opens the template where its own action stands, so the third, which is the
    same, is founded anew. -/
theorem line_not_recognised :
    ∃ history self, (new DrainConfig.default).run default [⟨str.lit "tcp in deny", 0⟩] =
        ok (history, self) ∧
      ∃ first next second last, self.add_log default (str.lit "tcp in DENY") 1 = ok (first, next) ∧
        next.add_log default (str.lit "tcp in DENY") 2 = ok (second, last) ∧
        ¬ (second.cluster_id = first.cluster_id ∧ second.is_new = false) := by
  have hstate : ((new DrainConfig.default).run default [⟨str.lit "tcp in deny", 0⟩] >>= fun state =>
      state.2.add_log default (str.lit "tcp in DENY") 1 >>= fun first =>
        first.2.add_log default (str.lit "tcp in DENY") 2 >>= fun second =>
          ok (first.1.cluster_id, second.1.cluster_id, second.1.is_new)) = ok (1, 2, true) := by
    decide +kernel
  obtain ⟨⟨history, self⟩, hrun, hstate⟩ := bind_eq_ok_iff.mp hstate
  obtain ⟨⟨first, next⟩, hfirst, hstate⟩ := bind_eq_ok_iff.mp hstate
  obtain ⟨⟨second, last⟩, hsecond, hstate⟩ := bind_eq_ok_iff.mp hstate
  refine ⟨history, self, hrun, first, next, second, last, hfirst, hsecond, fun hsame => ?_⟩
  obtain ⟨-, hnew⟩ := Prod.mk.inj (Prod.mk.inj (Result.ok.inj hstate)).2
  dsimp only at hnew
  rw [hsame.2] at hnew
  cases hnew

/-- Below a full node a line is put under the star, where its own first token leads away from. -/
example : ((new { DrainConfig.default with max_children := 1 }).run default
    [⟨str.lit "up lan", 0⟩, ⟨str.lit "up wan", 1⟩, ⟨str.lit "up wan", 2⟩] >>= fun state =>
      ok (state.1.map fun taken => taken.result.cluster_id)) = ok [1, 2, 3] := by
  decide +kernel

end ulpf_ai.drain.DrainMiner
