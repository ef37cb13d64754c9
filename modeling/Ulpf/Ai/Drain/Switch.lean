import Ulpf.Ai.Drain.Similarity

open Result

namespace ulpf_ai.drain

/-- A token that no anchor rule looks at. -/
structure Neutral (vocab : List (List Char)) (token : List Char) : Prop where
  anchor : ¬ IsAnchor vocab token
  kind : ¬ IsClass token

/-- A line that no anchor rule looks at. -/
structure Input.Neutral (crates : Crates) (vocab : List (List Char)) (input : Input) : Prop where
  tokens : ∀ token ∈ input.tokens crates, drain.Neutral vocab token
  syslog_tag : input.syslog_tag crates = none

instance (vocab : List (List Char)) (token : List Char) : Decidable (Neutral vocab token) :=
  decidable_of_iff (¬ IsAnchor vocab token ∧ ¬ IsClass token)
    ⟨fun h => ⟨h.1, h.2⟩, fun h => ⟨h.anchor, h.kind⟩⟩

instance (crates : Crates) (vocab : List (List Char)) (input : Input) :
    Decidable (input.Neutral crates vocab) :=
  decidable_of_iff ((∀ token ∈ input.tokens crates, Neutral vocab token) ∧
    input.syslog_tag crates = none) ⟨fun h => ⟨h.1, h.2⟩, fun h => ⟨h.tokens, h.syslog_tag⟩⟩

theorem neutral_wildcard {vocab : List (List Char)} (hvocab : WILDCARD ∉ vocab) :
    Neutral vocab WILDCARD :=
  ⟨fun h => h.ne_wildcard hvocab rfl, fun h => h.ne_wildcard rfl⟩

namespace DrainMiner

/-- The miner with the anchors on or off, and with all else as it is. -/
def switched (anchors_enabled : Bool) (self : DrainMiner) : DrainMiner :=
  { self with config := { self.config with anchors_enabled } }

/-- Nothing in the clusters is looked at by an anchor rule. -/
structure Unanchored (vocab : List (List Char)) (miner : DrainMiner) : Prop where
  tokens : ∀ c_id cluster, miner.clusters.lookup c_id = some cluster →
    ∀ token ∈ cluster.template_tokens, Neutral vocab token
  syslog_tag : ∀ c_id cluster, miner.clusters.lookup c_id = some cluster → cluster.syslog_tag = none

section

variable {vocab : List (List Char)} {t1 t2 : List Char}

theorem anchor_clash_neutral (h1 : Neutral vocab t1) (h2 : Neutral vocab t2) :
    anchor_clash vocab (anchor_value t1) (anchor_value t2) = false := by
  have hany : (vocab.any fun a => str.eq_ignore_ascii_case (anchor_value t1) a ||
      str.eq_ignore_ascii_case (anchor_value t2) a) = false := by
    rw [List.any_eq_false]
    intro word hword heq
    obtain heq | heq := Bool.or_eq_true_iff.mp heq
    · exact h1.anchor ⟨word, hword, heq⟩
    · exact h2.anchor ⟨word, hword, heq⟩
  rw [anchor_clash, hany, Bool.false_and]

theorem class_clash_neutral (h1 : Neutral vocab t1) {k1 : Option (List Char)}
    (hk1 : kv_key t1 = ok k1) (k2 : Option (List Char)) (v1 v2 : List Char) :
    class_clash k1 k2 v1 v2 = false := by
  cases k1 with
  | none => rfl
  | some key1 =>
    cases k2 with
    | none => rfl
    | some key2 =>
      have hany : (CLASS_KEYS.any fun c => str.eq_ignore_ascii_case key1 c) = false := by
        rw [List.any_eq_false]
        intro word hword heq
        exact h1.kind ⟨key1, hk1, word, hword, heq⟩
      rw [class_clash, hany, Bool.and_false, Bool.false_and]

theorem forces_distinct_neutral {pairs : List (List Char × List Char)}
    (hpairs : ∀ pair ∈ pairs, Neutral vocab pair.1 ∧ Neutral vocab pair.2) :
    forces_distinct vocab pairs = ok false := by
  induction pairs with
  | nil => rfl
  | cons pair pairs ih =>
    obtain ⟨t1, t2⟩ := pair
    obtain ⟨h1, h2⟩ := hpairs (t1, t2) List.mem_cons_self
    obtain ⟨k1, hk1⟩ := ne_panic_iff.mp (kv_key_ne_panic t1)
    obtain ⟨k2, hk2⟩ := ne_panic_iff.mp (kv_key_ne_panic t2)
    rw [forces_distinct, anchor_clash_neutral h1 h2, hk1, hk2, bind_ok, bind_ok,
      class_clash_neutral h1 hk1]
    exact ih fun pair hpair => hpairs pair (List.mem_cons_of_mem _ hpair)

/-- No veto fires between neutral tokens, so the vocabulary makes no difference. -/
theorem compute_similarity_neutral {tmpl_tokens tokens : List (List Char)}
    (htmpl : ∀ token ∈ tmpl_tokens, Neutral vocab token)
    (htokens : ∀ token ∈ tokens, Neutral vocab token) :
    compute_similarity tmpl_tokens tokens vocab = compute_similarity tmpl_tokens tokens [] := by
  have hdistinct : forces_distinct vocab (tmpl_tokens.zip tokens) = ok false := by
    apply forces_distinct_neutral
    rintro ⟨t1, t2⟩ hpair
    obtain ⟨ht1, ht2⟩ := List.of_mem_zip hpair
    exact ⟨htmpl t1 ht1, htokens t2 ht2⟩
  by_cases hlength : tmpl_tokens.length = tokens.length ∧ tokens ≠ []
  · rw [compute_similarity_eq vocab hlength.1 hlength.2, compute_similarity_eq [] hlength.1 hlength.2,
      hdistinct, ite_self]
    rfl
  · rw [compute_similarity_eq_zero vocab hlength, compute_similarity_eq_zero [] hlength]

end

section

variable {crates : Crates} {vocab : List (List Char)} {self : DrainMiner}

theorem anchor_vocab_eq (self : DrainMiner) :
    self.anchor_vocab = [] ∨ self.anchor_vocab = self.config.unique_anchor_tokens := by
  unfold anchor_vocab
  split
  · exact .inr rfl
  · exact .inl rfl

theorem Unanchored.compute_similarity_eq (h : self.Unanchored self.config.unique_anchor_tokens)
    {c_id : Nat} {cluster : LogCluster} (hlookup : self.clusters.lookup c_id = some cluster)
    {tokens : List (List Char)}
    (htokens : ∀ token ∈ tokens, Neutral self.config.unique_anchor_tokens token) :
    compute_similarity cluster.template_tokens tokens self.anchor_vocab =
      compute_similarity cluster.template_tokens tokens [] := by
  obtain hvocab | hvocab := self.anchor_vocab_eq
  · rw [hvocab]
  · rw [hvocab]
    exact compute_similarity_neutral (h.tokens c_id cluster hlookup) htokens

theorem Unanchored.switched (h : self.Unanchored vocab) (b : Bool) :
    (self.switched b).Unanchored vocab :=
  ⟨h.tokens, h.syslog_tag⟩

/-- The loop over the candidates is the same with the switch in the other position. -/
theorem Unanchored.best_candidate_switched (h : self.Unanchored self.config.unique_anchor_tokens)
    (b : Bool) {tokens : List (List Char)}
    (htokens : ∀ token ∈ tokens, Neutral self.config.unique_anchor_tokens token) (best : Option Nat)
    (max_sim : ℚ) (ids : List Nat) :
    best_candidate (self.switched b) tokens none (self.switched b).anchor_vocab best max_sim ids =
      best_candidate self tokens none self.anchor_vocab best max_sim ids := by
  induction ids generalizing best max_sim with
  | nil => rfl
  | cons c_id rest ih =>
    rw [best_candidate, best_candidate]
    cases hlookup : self.clusters.lookup c_id with
    | none =>
      have hlookup' : (self.switched b).clusters.lookup c_id = none := hlookup
      rw [hlookup']
      exact ih best max_sim
    | some cluster =>
      have hlookup' : (self.switched b).clusters.lookup c_id = some cluster := hlookup
      have htag : cluster.syslog_tag = none := h.syslog_tag c_id cluster hlookup
      have hsim := h.compute_similarity_eq hlookup htokens
      have hsim' := (h.switched b).compute_similarity_eq hlookup' htokens
      rw [hlookup']
      dsimp only
      simp only [htag, ne_eq, not_true_eq_false, and_false, or_false, hsim, hsim', ih]
      rfl

theorem Unanchored.find_best_match_switched (h : self.Unanchored self.config.unique_anchor_tokens)
    (b : Bool) {tokens : List (List Char)}
    (htokens : ∀ token ∈ tokens, Neutral self.config.unique_anchor_tokens token) :
    (self.switched b).find_best_match tokens none = self.find_best_match tokens none := by
  unfold find_best_match
  have hroot : (self.switched b).root = self.root := rfl
  have hdepth : max_prefix_depth (self.switched b).config = max_prefix_depth self.config := rfl
  rw [hroot, hdepth]
  have hbest := fun ids => h.best_candidate_switched b htokens none 0 ids
  unfold anchor_vocab at hbest
  simp only [hbest]

theorem join_cluster_switched (crates : Crates) (self : DrainMiner) (b : Bool) (c_id : Nat)
    (max_sim : ℚ) (tokens : List (List Char)) (now_ms : Int) :
    (self.switched b).join_cluster crates c_id max_sim tokens now_ms =
      self.join_cluster crates c_id max_sim tokens now_ms >>= fun state =>
        ok (state.1, state.2.switched b) := by
  unfold join_cluster
  have hclusters : (self.switched b).clusters = self.clusters := rfl
  rw [hclusters]
  cases self.clusters.lookup c_id with
  | none => rfl
  | some cluster =>
    dsimp only
    have halert : surge_alert crates (self.switched b) c_id cluster.count (cluster.update tokens now_ms)
        now_ms = surge_alert crates self c_id cluster.count (cluster.update tokens now_ms) now_ms := rfl
    rw [halert]
    cases surge_alert crates self c_id cluster.count (cluster.update tokens now_ms) now_ms <;> rfl

/-- A neutral line is answered alike with the switch in the other position. -/
theorem Unanchored.add_log_switched (h : self.Unanchored self.config.unique_anchor_tokens) (b : Bool)
    {input : Input} (hinput : input.Neutral crates self.config.unique_anchor_tokens) :
    (self.switched b).add_log crates input.raw input.now_ms =
      self.add_log crates input.raw input.now_ms >>= fun state =>
        ok (state.1, state.2.switched b) := by
  rw [add_log_eq, add_log_eq]
  split
  · rfl
  rw [hinput.syslog_tag, h.find_best_match_switched b hinput.tokens]
  let counted := { self with total_logs_processed := self.total_logs_processed + 1 }
  cases self.find_best_match (input.tokens crates) none with
  | panic => rfl
  | ok found =>
    obtain ⟨picked, sim⟩ := found
    cases picked with
    | none => rfl
    | some c_id =>
      exact join_cluster_switched crates counted b c_id sim (input.tokens crates) input.now_ms

/-- A neutral line leaves neutral clusters. -/
theorem Unanchored.adds {after : DrainMiner} {input : Input} {result : ClusterResult}
    (h : self.Unanchored vocab) (hvocab : WILDCARD ∉ vocab) (hinput : input.Neutral crates vocab)
    (hadds : self.Adds crates input result after) : after.Unanchored vocab := by
  -- the cluster that the line is returned is the only one to look at
  have hother : (∀ cluster, after.clusters.lookup result.cluster_id = some cluster →
      (∀ token ∈ cluster.template_tokens, Neutral vocab token) ∧ cluster.syslog_tag = none) →
      after.Unanchored vocab := by
    intro hreturned
    have hall : ∀ c_id cluster, after.clusters.lookup c_id = some cluster →
        (∀ token ∈ cluster.template_tokens, Neutral vocab token) ∧ cluster.syslog_tag = none := by
      intro c_id cluster hlookup
      by_cases hid : c_id = result.cluster_id
      · rw [hid] at hlookup
        exact hreturned cluster hlookup
      · rw [hadds.lookup_ne hid] at hlookup
        exact ⟨h.tokens c_id cluster hlookup, h.syslog_tag c_id cluster hlookup⟩
    exact ⟨fun c_id cluster hlookup => (hall c_id cluster hlookup).1,
      fun c_id cluster hlookup => (hall c_id cluster hlookup).2⟩
  cases hadds with
  | blank => exact ⟨h.tokens, h.syslog_tag⟩
  | joins c_id cluster sim anomaly _ _ hlookup =>
    refine hother fun cluster' hlookup' => ?_
    dsimp only at hlookup'
    rw [AList.lookup_insert] at hlookup'
    cases hlookup'
    refine ⟨fun token htoken => ?_, h.syslog_tag c_id cluster hlookup⟩
    obtain htoken | rfl := mem_merge_tokens htoken
    · exact h.tokens c_id cluster hlookup token htoken
    · exact neutral_wildcard hvocab
  | founds cluster sim root _ _ hcluster =>
    refine hother fun cluster' hlookup' => ?_
    dsimp only at hlookup'
    rw [AList.lookup_insert] at hlookup'
    cases hlookup'
    rw [hcluster]
    exact ⟨hinput.tokens, hinput.syslog_tag⟩

/-- From neutral clusters on, the miner with the switch in the other position goes through the
    same states but for the switch. -/
theorem Unanchored.run_switched (h : self.Unanchored self.config.unique_anchor_tokens)
    (hvocab : WILDCARD ∉ self.config.unique_anchor_tokens) (b : Bool) {inputs : List Input}
    (hinputs : ∀ input ∈ inputs, input.Neutral crates self.config.unique_anchor_tokens) :
    (self.switched b).run crates inputs =
      self.run crates inputs >>= fun state => ok (state.1, state.2.switched b) := by
  induction inputs generalizing self with
  | nil => rfl
  | cons input inputs ih =>
    have hinput := hinputs input List.mem_cons_self
    rw [run, run, h.add_log_switched b hinput]
    cases hadd : self.add_log crates input.raw input.now_ms with
    | panic => rfl
    | ok state =>
      obtain ⟨result, next⟩ := state
      have hadds := adds_of_add_log hadd
      have hconfig : next.config = self.config := by cases hadds <;> rfl
      have hnext := h.adds hvocab hinput hadds
      rw [← hconfig] at hnext hvocab hinputs
      have hrun := ih hnext hvocab fun input hmem => hinputs input (List.mem_cons_of_mem _ hmem)
      simp only [bind_ok]
      rw [hrun]
      cases next.run crates inputs <;> rfl

end

theorem unanchored_new (config : DrainConfig) (vocab : List (List Char)) :
    (new config).Unanchored vocab where
  tokens c_id cluster hlookup := by cases hlookup
  syslog_tag c_id cluster hlookup := by cases hlookup

/-- Without anchors in the lines the two positions of the switch give the same answers. -/
theorem answers_switched (crates : Crates) (config : DrainConfig) (anchors_enabled : Bool)
    (hvocab : WILDCARD ∉ config.unique_anchor_tokens) {inputs : List Input}
    (hinputs : ∀ input ∈ inputs, input.Neutral crates config.unique_anchor_tokens) :
    ((new { config with anchors_enabled }).run crates inputs >>= fun state => ok state.1) =
      (new config).run crates inputs >>= fun state => ok state.1 := by
  have hrun : (new { config with anchors_enabled }).run crates inputs = _ :=
    (unanchored_new config _).run_switched hvocab anchors_enabled hinputs
  rw [hrun]
  cases (new config).run crates inputs <;> rfl

def linkLines : List Input := [⟨str.lit "link up eth lan", 0⟩, ⟨str.lit "link up eth wan", 1⟩]

theorem answers_switched_two_lines :
    WILDCARD ∉ DrainConfig.default.unique_anchor_tokens ∧
    (∀ input ∈ linkLines, input.Neutral default DrainConfig.default.unique_anchor_tokens) ∧
    ((new { DrainConfig.default with anchors_enabled := false }).run default linkLines >>=
        fun state => ok state.1) =
      (new DrainConfig.default).run default linkLines >>= fun state => ok state.1 := by
  have hinputs : ∀ input ∈ linkLines,
      input.Neutral default DrainConfig.default.unique_anchor_tokens := by
    decide +kernel
  exact ⟨DrainConfig.wildcard_notMem_default, hinputs,
    answers_switched default DrainConfig.default false DrainConfig.wildcard_notMem_default hinputs⟩

end DrainMiner

end ulpf_ai.drain
