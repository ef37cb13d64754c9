import Ulpf.Ai.Drain.Anchors

open Result

namespace ulpf_ai.drain

/-- What `SYSLOG_TAG_PATTERN` says of a match: it has a percent sign and no blank. -/
def TagPattern (crates : Crates) : Prop :=
  ∀ raw tag, syslog_tag_of crates raw = ok (some tag) → '%' ∈ tag ∧ ' ' ∉ tag

theorem TagPattern.syslog_tag {crates : Crates} (hpattern : TagPattern crates) {input : Input}
    {tag : List Char} (htag : input.syslog_tag crates = some tag) : '%' ∈ tag ∧ ' ' ∉ tag := by
  unfold Input.syslog_tag at htag
  split at htag
  · rename_i found hfound
    rw [htag] at hfound
    exact hpattern input.raw tag hfound
  · cases htag

/-- Every tagged cluster has its tag in its template. -/
def TagsKept (miner : DrainMiner) : Prop :=
  ∀ c_id cluster tag, miner.clusters.lookup c_id = some cluster → cluster.syslog_tag = some tag →
    tag <:+: cluster.template

section

variable {tag : List Char}

theorem infix_join_iff (hpercent : '%' ∈ tag) (hblank : ' ' ∉ tag) (tokens : List (List Char)) :
    tag <:+: LogCluster.join tokens ↔ ∃ t ∈ tokens, tag <:+: t :=
  str.infix_intercalate_iff hblank (List.ne_nil_of_mem hpercent) tokens

theorem not_infix_wildcard (hpercent : '%' ∈ tag) : ¬ tag <:+: WILDCARD := by
  intro h
  have hmem : '%' ∈ WILDCARD := h.subset hpercent
  revert hmem
  decide

/-- A tag stands in a merged template where both lists had one token with it. -/
theorem infix_merge_tokens_iff (hpercent : '%' ∈ tag) {tmpl_tokens tokens : List (List Char)}
    (hlength : tokens.length = tmpl_tokens.length) :
    (∃ t ∈ LogCluster.merge_tokens tmpl_tokens tokens, tag <:+: t) ↔
      ∃ (i : Nat) (t : List Char), tmpl_tokens[i]? = some t ∧ tokens[i]? = some t ∧ tag <:+: t := by
  rw [LogCluster.merge_tokens_eq hlength]
  constructor
  · rintro ⟨u, hu, htag⟩
    obtain ⟨i, hi⟩ := List.getElem?_of_mem hu
    obtain ⟨t, ht⟩ := Template.exists_getElem? (Template.length_merge hlength) hi
    obtain ⟨t', ht'⟩ := Template.exists_getElem? hlength.symm ht
    rw [Template.getElem?_merge ht ht'] at hi
    by_cases heq : t = t'
    · rw [if_pos heq] at hi
      rw [← Option.some.inj hi] at htag
      exact ⟨i, t, ht, heq ▸ ht', htag⟩
    · rw [if_neg heq] at hi
      rw [← Option.some.inj hi] at htag
      exact absurd htag (not_infix_wildcard hpercent)
  · rintro ⟨i, t, ht, ht', htag⟩
    have hi : (Template.merge WILDCARD tmpl_tokens tokens)[i]? = some t := by
      rw [Template.getElem?_merge ht ht', if_pos rfl]
    exact ⟨t, List.mem_of_getElem? hi, htag⟩

end

namespace DrainMiner

/-- What a line needs for its tag to stay in a template. The cluster that it joins has, at some
    position, the line's own token with the tag, and a line that founds a cluster has the tag in
    one of its tokens. -/
structure HasTag (crates : Crates) (miner : DrainMiner) (input : Input) (tag : List Char) : Prop where
  joined : ∀ c_id sim cluster,
    miner.find_best_match (input.tokens crates) (input.syslog_tag crates) = ok (some c_id, sim) →
    miner.clusters.lookup c_id = some cluster →
    ∃ (i : Nat) (t : List Char), cluster.template_tokens[i]? = some t ∧
      (input.tokens crates)[i]? = some t ∧ tag <:+: t
  founded : ∀ sim,
    miner.find_best_match (input.tokens crates) (input.syslog_tag crates) = ok (none, sim) →
    ∃ t ∈ input.tokens crates, tag <:+: t

/-- A tagged line has its tag in the tokens that go into the template. -/
def KeepsTag (crates : Crates) (self : DrainMiner) (input : Input) : Prop :=
  input.tokens crates ≠ [] →
  ∀ tag, input.syslog_tag crates = some tag → self.HasTag crates input tag

variable {crates : Crates} {config : DrainConfig} {history : List Taken} {self after : DrainMiner}
  {input : Input} {result : ClusterResult}

/-- Only the cluster that a line is returned has to be looked at. -/
theorem Adds.tagsKept_iff (hadds : self.Adds crates input result after) (hkept : TagsKept self) :
    TagsKept after ↔ ∀ cluster tag, after.clusters.lookup result.cluster_id = some cluster →
      cluster.syslog_tag = some tag → tag <:+: cluster.template := by
  constructor
  · intro hafter cluster tag
    exact hafter result.cluster_id cluster tag
  · intro hreturned c_id cluster tag hlookup
    by_cases hid : c_id = result.cluster_id
    · rw [hid] at hlookup
      exact hreturned cluster tag hlookup
    · rw [hadds.lookup_ne hid] at hlookup
      exact hkept c_id cluster tag hlookup

theorem Consistent.tagsKept_iff (h : self.Consistent crates config history)
    (hpattern : TagPattern crates) (hanchors : config.anchors_enabled = true)
    (hkept : TagsKept self)
    (hadd : self.add_log crates input.raw input.now_ms = ok (result, after)) :
    TagsKept after ↔ self.KeepsTag crates input := by
  have hadds := adds_of_add_log hadd
  rw [hadds.tagsKept_iff hkept]
  cases hadds with
  | blank htokens =>
    refine iff_of_true ?_ fun hne => absurd htokens hne
    intro cluster tag
    exact hkept 0 cluster tag
  | joins c_id cluster sim anomaly htokens hfind hlookup hmatches =>
    have htag : cluster.syslog_tag = input.syslog_tag crates :=
      hmatches.tag (h.config_eq ▸ hanchors)
    have htemplate := LogCluster.template_update (h.describes c_id cluster hlookup).template
      (input.tokens crates) input.now_ms
    have hiff : ∀ tag, input.syslog_tag crates = some tag →
        (tag <:+: (cluster.update (input.tokens crates) input.now_ms).template ↔
          ∃ (i : Nat) (t : List Char), cluster.template_tokens[i]? = some t ∧
            (input.tokens crates)[i]? = some t ∧ tag <:+: t) := by
      intro tag hinput
      obtain ⟨hpercent, hblank⟩ := hpattern.syslog_tag hinput
      rw [htemplate, infix_join_iff hpercent hblank]
      exact infix_merge_tokens_iff hpercent (h.length_tokens hlookup hmatches)
    simp only [AList.lookup_insert]
    constructor
    · intro hreturned _ tag hinput
      refine ⟨(forall_found_iff hfind hlookup).mpr ?_, ?_⟩
      · exact (hiff tag hinput).mp (hreturned _ tag rfl (htag.trans hinput))
      · intro sim' hfind'
        rw [hfind] at hfind'
        cases hfind'
    · intro hkeeps cluster' tag hcluster' htag'
      cases hcluster'
      have hinput : input.syslog_tag crates = some tag := htag.symm.trans htag'
      exact (hiff tag hinput).mpr
        ((hkeeps htokens tag hinput).joined c_id sim cluster hfind hlookup)
  | founds cluster sim root htokens hfind hcluster =>
    have hiff : ∀ tag, input.syslog_tag crates = some tag →
        (tag <:+: cluster.template ↔ ∃ t ∈ input.tokens crates, tag <:+: t) := by
      intro tag hinput
      obtain ⟨hpercent, hblank⟩ := hpattern.syslog_tag hinput
      rw [hcluster]
      exact infix_join_iff hpercent hblank (input.tokens crates)
    simp only [AList.lookup_insert]
    constructor
    · intro hreturned _ tag hinput
      refine ⟨?_, fun _ _ => ?_⟩
      · intro c_id' sim' cluster' hfind'
        rw [hfind] at hfind'
        cases hfind'
      · exact (hiff tag hinput).mp (hreturned cluster tag rfl (by rw [hcluster]; exact hinput))
    · intro hkeeps cluster' tag hcluster' htag
      cases hcluster'
      have hinput : input.syslog_tag crates = some tag := by rwa [hcluster] at htag
      exact (hiff tag hinput).mpr ((hkeeps htokens tag hinput).founded sim hfind)

/-- With anchors, all tagged clusters have their tags in their templates in all states of a run
    exactly if every tagged line has its tag in the tokens that go into the template. -/
theorem tags_kept_iff (crates : Crates) (hpattern : TagPattern crates) {config : DrainConfig}
    (hanchors : config.anchors_enabled = true) (inputs : List Input) :
    (∀ seen, seen <+: inputs → ∀ history miner, (new config).run crates seen = ok (history, miner) →
      TagsKept miner) ↔ (new config).Meets crates (KeepsTag crates) inputs := by
  let inv := fun (prior : List Taken) (self : DrainMiner) => self.Consistent crates config prior
  let property := fun (_ : List Taken) (miner : DrainMiner) => TagsKept miner
  have hkeep : ∀ {prior self input result after}, inv prior self →
      self.add_log crates input.raw input.now_ms = ok (result, after) →
      inv (prior ++ [⟨input, result⟩]) after :=
    fun hinv hadd => hinv.adds (adds_of_add_log hadd)
  have hstep : ∀ {prior self input result after}, inv prior self → property prior self →
      self.add_log crates input.raw input.now_ms = ok (result, after) →
      (property (prior ++ [⟨input, result⟩]) after ↔ self.KeepsTag crates input) :=
    fun hinv hkept hadd => hinv.tagsKept_iff hpattern hanchors hkept hadd
  have hkept : property [] (new config) := by
    intro c_id cluster tag hlookup
    cases hlookup
  have hinv : inv [] (new config) := consistent_new crates config
  exact run_states_iff @hkeep @hstep hinv hkept inputs

/-- The message code of the lines below. -/
def builtTag : List Char := str.lit "%ASA-6-302013:"

/-- Libraries that know one message code. -/
def tagCrates : Crates :=
  { (default : Crates) with
    captures_iter := fun pattern haystack =>
      if pattern = SYSLOG_TAG_PATTERN then
        match str.find_str builtTag haystack with
        | some start => [⟨[some (start, start + str.len builtTag)]⟩]
        | none => []
      else []
    captures_aligned := by
      intro pattern haystack captures hmem range hrange
      split at hmem
      · split at hmem
        · rename_i start hstart
          obtain ⟨a, b, rfl, rfl⟩ := str.exists_of_find_str hstart
          cases List.mem_singleton.mp hmem
          cases List.mem_singleton.mp hrange
          refine ⟨builtTag, ?_⟩
          rw [← str.len_append]
          exact str.slice_len a builtTag b
        · cases hmem
      · cases hmem
    captures_whole := by
      intro pattern haystack captures hmem
      split at hmem
      · split at hmem
        · cases List.mem_singleton.mp hmem
          rfl
        · cases hmem
      · cases hmem
    captures_ordered := by
      intro pattern haystack
      split
      · split
        · exact List.pairwise_singleton _ _
        · exact .nil
      · exact .nil }

theorem tagPattern_tagCrates : TagPattern tagCrates := by
  intro raw tag htag
  have hcaptures : tagCrates.captures SYSLOG_TAG_PATTERN raw =
      (str.find_str builtTag raw).map fun start => ⟨[some (start, start + str.len builtTag)]⟩ := by
    unfold Crates.captures tagCrates
    dsimp only
    rw [if_pos rfl]
    cases str.find_str builtTag raw <;> rfl
  unfold syslog_tag_of at htag
  rw [hcaptures] at htag
  cases hfind : str.find_str builtTag raw with
  | none =>
    rw [hfind] at htag
    cases htag
  | some start =>
    obtain ⟨a, b, rfl, rfl⟩ := str.exists_of_find_str hfind
    have hslice : str.slice (a ++ builtTag ++ b) (str.len a) (str.len a + str.len builtTag) =
        ok builtTag := by
      rw [← str.len_append]
      exact str.slice_len a builtTag b
    have hget : Captures.get ⟨[some (str.len a, str.len a + str.len builtTag)]⟩ (a ++ builtTag ++ b) 0 =
        ok (some builtTag) := by
      unfold Captures.get Captures.range
      dsimp only [List.getElem?_cons_zero, Option.join_some]
      rw [hslice]
      rfl
    rw [hfind] at htag
    dsimp only [Option.map_some] at htag
    rw [hget] at htag
    cases htag
    decide

def builtTcp : Input := ⟨str.lit "%ASA-6-302013: built in tcp", 0⟩

def builtUdp : Input := ⟨str.lit "%ASA-6-302013: built in udp", 1⟩

/-- The second line joins the cluster of the first and keeps the token with the tag. -/
theorem tags_kept_iff_two_lines :
    TagPattern tagCrates ∧ DrainConfig.default.anchors_enabled = true ∧
    ∀ seen, seen <+: [builtTcp, builtUdp] → ∀ history miner,
      (new DrainConfig.default).run tagCrates seen = ok (history, miner) → TagsKept miner := by
  have hlines : builtTcp.syslog_tag tagCrates = some builtTag ∧
      builtUdp.syslog_tag tagCrates = some builtTag ∧
      builtTcp.tokens tagCrates = [builtTag, str.lit "built", str.lit "in", str.lit "tcp"] ∧
      builtUdp.tokens tagCrates = [builtTag, str.lit "built", str.lit "in", str.lit "udp"] := by
    decide +kernel
  have hstate : ((new DrainConfig.default).add_log tagCrates builtTcp.raw builtTcp.now_ms >>=
      fun state => state.2.find_best_match (builtUdp.tokens tagCrates) (builtUdp.syslog_tag tagCrates) >>=
        fun found => ok (found.1, (state.2.clusters.lookup 1).map LogCluster.template_tokens)) =
      ok (some 1, some [builtTag, str.lit "built", str.lit "in", str.lit "tcp"]) := by
    decide +kernel
  obtain ⟨htag, htag', htokens, htokens'⟩ := hlines
  refine ⟨tagPattern_tagCrates, rfl, (tags_kept_iff tagCrates tagPattern_tagCrates rfl _).mpr
    ⟨fun _ tag hline => ?_, fun result next hadd => ⟨fun _ tag hline => ?_, fun _ _ _ => trivial⟩⟩⟩
  · cases htag.symm.trans hline
    refine ⟨fun c_id sim cluster _ hlookup => (by cases hlookup), fun _ _ => ?_⟩
    rw [htokens]
    exact ⟨builtTag, List.mem_cons_self, List.infix_rfl⟩
  · cases htag'.symm.trans hline
    rw [hadd, bind_ok] at hstate
    obtain ⟨⟨picked, sim⟩, hfound, hstate⟩ := bind_eq_ok_iff.mp hstate
    obtain ⟨hpicked, htemplate⟩ := Prod.mk.inj (Result.ok.inj hstate)
    cases hpicked
    refine ⟨fun c_id sim' cluster hfind hlookup => ?_, fun sim' hfind => ?_⟩
    · cases hfound.symm.trans hfind
      rw [hlookup] at htemplate
      rw [Option.some.inj htemplate, htokens']
      exact ⟨0, builtTag, rfl, rfl, List.infix_rfl⟩
    · cases hfound.symm.trans hfind

/-- The priority that a relay puts in front belongs to the token of the tag, so the template
    loses the tag when the same message comes with and without it. -/
theorem tag_generalized :
    ∃ history miner cluster, (new DrainConfig.default).run tagCrates
        [⟨str.lit "%ASA-6-302013: built tcp", 0⟩, ⟨str.lit "<13>%ASA-6-302013: built tcp", 1⟩] =
        ok (history, miner) ∧
      DrainConfig.default.anchors_enabled = true ∧ miner.clusters.lookup 1 = some cluster ∧
      cluster.syslog_tag = some builtTag ∧ cluster.template = str.lit "<*> built tcp" ∧
      ¬ builtTag <:+: cluster.template := by
  have hstate : ((new DrainConfig.default).run tagCrates
      [⟨str.lit "%ASA-6-302013: built tcp", 0⟩, ⟨str.lit "<13>%ASA-6-302013: built tcp", 1⟩] >>=
        fun state => ok ((state.2.clusters.lookup 1).map fun cluster =>
          (cluster.syslog_tag, cluster.template))) =
      ok (some (some builtTag, str.lit "<*> built tcp")) := by
    decide +kernel
  obtain ⟨⟨history, miner⟩, hrun, hstate⟩ := bind_eq_ok_iff.mp hstate
  obtain ⟨cluster, hlookup, hcluster⟩ := Option.map_eq_some_iff.mp (Result.ok.inj hstate)
  obtain ⟨htag, htemplate⟩ := Prod.mk.inj hcluster
  refine ⟨history, miner, cluster, hrun, rfl, hlookup, htag, htemplate, fun hinfix => ?_⟩
  rw [htemplate] at hinfix
  have hmem : '%' ∈ str.lit "<*> built tcp" := hinfix.subset (by decide)
  revert hmem
  decide

end DrainMiner

end ulpf_ai.drain
