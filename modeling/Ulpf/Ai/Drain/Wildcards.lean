import Ulpf.Ai.Drain.Anchors

open Result

namespace ulpf_ai.drain

/-- The anchors of the line that founded a cluster stand in its template. -/
def AnchorsKept (crates : Crates) (vocab : List (List Char)) (history : List Taken)
    (miner : DrainMiner) : Prop :=
  ∀ founder ∈ history, founder.result.is_new = true →
    ∀ (i : Nat) t, (founder.tokens crates)[i]? = some t → IsAnchor vocab t →
    ∀ cluster, miner.clusters.lookup founder.result.cluster_id = some cluster →
      ∃ t', cluster.template_tokens[i]? = some t' ∧ t' ≠ WILDCARD ∧ SameValue t' t

/-- No two members of a cluster have a class key at one position with different values. -/
def ClassesApart (crates : Crates) (history : List Taken) : Prop :=
  ∀ a ∈ history, ∀ b ∈ history, a.result.cluster_id = b.result.cluster_id →
    ∀ (i : Nat) ta tb, (a.tokens crates)[i]? = some ta → (b.tokens crates)[i]? = some tb →
      IsClass ta → IsClass tb → SameValue ta tb

namespace DrainMiner

/-- A line that a cluster is found for spells each anchor of the template as the template
    does, in case, key and quotes. -/
def SpellsAnchors (crates : Crates) (self : DrainMiner) (input : Input) : Prop :=
  input.tokens crates ≠ [] →
  ∀ c_id sim cluster,
    self.find_best_match (input.tokens crates) (input.syslog_tag crates) = ok (some c_id, sim) →
    self.clusters.lookup c_id = some cluster →
    ∀ (i : Nat) t, cluster.template_tokens[i]? = some t →
      IsAnchor self.config.unique_anchor_tokens t → (input.tokens crates)[i]? = some t

/-- A line that a cluster is found for has a class key only where the template has one. -/
def ClassesInTemplate (crates : Crates) (self : DrainMiner) (input : Input) : Prop :=
  input.tokens crates ≠ [] →
  ∀ c_id sim cluster,
    self.find_best_match (input.tokens crates) (input.syslog_tag crates) = ok (some c_id, sim) →
    self.clusters.lookup c_id = some cluster →
    ∀ (i : Nat) t, (input.tokens crates)[i]? = some t → IsClass t →
      ∃ t', cluster.template_tokens[i]? = some t' ∧ IsClass t'

instance (crates : Crates) (self : DrainMiner) (input : Input) :
    Decidable (self.SpellsAnchors crates input) :=
  inferInstanceAs (Decidable (_ → ∀ _ _ _, _ → _ → ∀ _ _, _ → _ → _))

instance (crates : Crates) (self : DrainMiner) (input : Input) :
    Decidable (self.ClassesInTemplate crates input) :=
  have (cluster : LogCluster) (i : Nat) :
      Decidable (∃ t', cluster.template_tokens[i]? = some t' ∧ IsClass t') :=
    inferInstanceAs (Decidable (∃ t' ∈ cluster.template_tokens[i]?, IsClass t'))
  inferInstanceAs (Decidable (_ → ∀ _ _ _, _ → _ → ∀ _ _, _ → _ → _))

variable {crates : Crates} {config : DrainConfig} {history : List Taken} {self after : DrainMiner}
  {input : Input} {result : ClusterResult} {cluster : LogCluster}

/-- The template of a cluster that a line has joined. -/
theorem Consistent.getElem?_update (h : self.Consistent crates config history) {c_id : Nat}
    (hlookup : self.clusters.lookup c_id = some cluster) {tokens : List (List Char)}
    {syslog_tag : Option (List Char)} (hmatches : self.Matches tokens syslog_tag cluster)
    (now_ms : Int) {i : Nat} {t t' : List Char} (ht : cluster.template_tokens[i]? = some t)
    (ht' : tokens[i]? = some t') :
    (cluster.update tokens now_ms).template_tokens[i]? = some (if t = t' then t else WILDCARD) := by
  simp only [LogCluster.update]
  rw [LogCluster.merge_tokens_eq (h.length_tokens hlookup hmatches)]
  exact Template.getElem?_merge ht ht'

section

variable (h : self.Consistent crates config history)
  (hvocab : WILDCARD ∉ config.unique_anchor_tokens)
  (hkept : AnchorsKept crates config.unique_anchor_tokens history self)

include h hvocab hkept

/-- A line that joins keeps the anchors of the template exactly if it spells them alike:
    `update` compares whole tokens, where the match compared their values. -/
theorem Consistent.anchorsKept_joins_iff {c_id : Nat}
    (hlookup : self.clusters.lookup c_id = some cluster)
    (hmatches : self.Matches (input.tokens crates) (input.syslog_tag crates) cluster)
    (hold : result.is_new = false)
    (hafter : after.clusters =
      self.clusters.insert c_id (cluster.update (input.tokens crates) input.now_ms)) :
    AnchorsKept crates config.unique_anchor_tokens (history ++ [⟨input, result⟩]) after ↔
      ∀ (i : Nat) t, cluster.template_tokens[i]? = some t →
        IsAnchor config.unique_anchor_tokens t → (input.tokens crates)[i]? = some t := by
  constructor
  · intro hkept' i t ht hanchor
    obtain ⟨founder, hfounder, hnew, hfid⟩ := h.exists_founder hlookup
    obtain ⟨t', ht'⟩ := Template.exists_getElem? (h.length_tokens hlookup hmatches).symm ht
    have hmember : (founder.tokens crates)[i]? = some t :=
      h.member_token hfounder (hfid ▸ hlookup) ht (hanchor.ne_wildcard hvocab)
    have hlookup' : after.clusters.lookup founder.result.cluster_id =
        some (cluster.update (input.tokens crates) input.now_ms) := by
      rw [hafter, hfid, AList.lookup_insert]
    obtain ⟨u, hu, huwild, -⟩ := hkept' founder (List.mem_append_left _ hfounder) hnew i t hmember
      hanchor _ hlookup'
    rw [h.getElem?_update hlookup hmatches input.now_ms ht ht'] at hu
    by_cases htt : t = t'
    · rw [ht', htt]
    · rw [if_neg htt] at hu
      exact absurd (Option.some.inj hu).symm huwild
  · intro hspells founder hfounder hnew i t ht hanchor cluster' hcluster'
    obtain hfounder | hfounder := List.mem_append.mp hfounder
    · by_cases hfid : founder.result.cluster_id = c_id
      · rw [hafter, hfid, AList.lookup_insert] at hcluster'
        cases hcluster'
        obtain ⟨t', ht', hwild, hsame⟩ := hkept founder hfounder hnew i t ht hanchor cluster
          (hfid ▸ hlookup)
        have hline := hspells i t' ht' (hsame.isAnchor hanchor)
        refine ⟨t', ?_, hwild, hsame⟩
        rw [h.getElem?_update hlookup hmatches input.now_ms ht' hline, if_pos rfl]
      · rw [hafter, AList.lookup_insert_ne hfid] at hcluster'
        exact hkept founder hfounder hnew i t ht hanchor cluster' hcluster'
    · rw [List.mem_singleton.mp hfounder, hold] at hnew
      cases hnew

theorem Consistent.anchorsKept_founds
    (hcluster : cluster = LogCluster.new self.next_cluster_id (input.tokens crates) input.now_ms
      (input.syslog_tag crates))
    (hid : result.cluster_id = self.next_cluster_id)
    (hafter : after.clusters = self.clusters.insert self.next_cluster_id cluster) :
    AnchorsKept crates config.unique_anchor_tokens (history ++ [⟨input, result⟩]) after := by
  intro founder hfounder hnew i t ht hanchor cluster' hcluster'
  obtain hfounder | hfounder := List.mem_append.mp hfounder
  · have hne : founder.result.cluster_id ≠ self.next_cluster_id := (h.known founder hfounder).ne
    rw [hafter, AList.lookup_insert_ne hne] at hcluster'
    exact hkept founder hfounder hnew i t ht hanchor cluster' hcluster'
  · rw [List.mem_singleton] at hfounder
    subst hfounder
    rw [hid, hafter, AList.lookup_insert] at hcluster'
    cases hcluster'
    refine ⟨t, ?_, hanchor.ne_wildcard hvocab, SameValue.refl t⟩
    rw [hcluster]
    exact ht

theorem Consistent.anchorsKept_iff (hadds : self.Adds crates input result after) :
    AnchorsKept crates config.unique_anchor_tokens (history ++ [⟨input, result⟩]) after ↔
      self.SpellsAnchors crates input := by
  unfold SpellsAnchors
  rw [h.config_eq]
  cases hadds with
  | blank htokens =>
    refine iff_of_true ?_ fun hne => absurd htokens hne
    intro founder hfounder hnew
    obtain hfounder | hfounder := List.mem_append.mp hfounder
    · exact hkept founder hfounder hnew
    · rw [List.mem_singleton.mp hfounder] at hnew
      cases hnew
  | joins c_id cluster sim anomaly htokens hfind hlookup hmatches hanomaly =>
    rw [h.anchorsKept_joins_iff hvocab hkept hlookup hmatches rfl rfl]
    constructor
    · intro hspells _
      exact (forall_found_iff hfind hlookup).mpr hspells
    · intro hspells
      exact hspells htokens c_id sim cluster hfind hlookup
  | founds cluster sim root htokens hfind hcluster =>
    refine iff_of_true (h.anchorsKept_founds hvocab hkept hcluster rfl rfl) ?_
    intro _ c_id' sim' cluster' hfind'
    rw [hfind] at hfind'
    cases hfind'

end

/-- The anchors of the founders stand in the templates in all states of a run exactly if every
    line that a cluster is found for spells them as its template does. -/
theorem anchors_kept_iff (crates : Crates) {config : DrainConfig}
    (hvocab : WILDCARD ∉ config.unique_anchor_tokens) (inputs : List Input) :
    (∀ seen, seen <+: inputs → ∀ history miner, (new config).run crates seen = ok (history, miner) →
      AnchorsKept crates config.unique_anchor_tokens history miner) ↔
      (new config).Meets crates (SpellsAnchors crates) inputs := by
  refine run_states_iff (fun hinv hadd => hinv.adds (adds_of_add_log hadd))
    (fun hinv hkept hadd => hinv.anchorsKept_iff hvocab hkept (adds_of_add_log hadd))
    (consistent_new crates config) ?_ inputs
  intro founder hfounder
  cases hfounder

/-- The second line spells the action as the first and opens the template elsewhere. -/
theorem anchors_kept_iff_two_lines :
    WILDCARD ∉ DrainConfig.default.unique_anchor_tokens ∧
    ∀ seen, seen <+: denyLines → ∀ history miner,
      (new DrainConfig.default).run default seen = ok (history, miner) →
      AnchorsKept default DrainConfig.default.unique_anchor_tokens history miner := by
  have hvocab := DrainConfig.wildcard_notMem_default
  exact ⟨hvocab, (anchors_kept_iff default hvocab denyLines).mpr (by decide +kernel)⟩

/-- The action of the founder is replaced by the wildcard when the same action comes in
    capital letters. -/
theorem anchor_wildcarded_by_case :
    ∃ history miner, (new DrainConfig.default).run default
        [⟨str.lit "tcp in deny", 0⟩, ⟨str.lit "tcp in DENY", 1⟩] = ok (history, miner) ∧
      DrainConfig.default.anchors_enabled = true ∧
      WILDCARD ∉ DrainConfig.default.unique_anchor_tokens ∧
      ¬ AnchorsKept default DrainConfig.default.unique_anchor_tokens history miner := by
  have hstate : ((new DrainConfig.default).run default
      [⟨str.lit "tcp in deny", 0⟩, ⟨str.lit "tcp in DENY", 1⟩] >>= fun state =>
        ok ((state.1.head?.map fun taken => (taken.tokens default, taken.result.cluster_id,
            taken.result.is_new)),
          (state.2.clusters.lookup 1).map LogCluster.template_tokens)) =
      ok (some ([str.lit "tcp", str.lit "in", str.lit "deny"], 1, true),
        some [str.lit "tcp", str.lit "in", WILDCARD]) := by
    decide +kernel
  obtain ⟨⟨history, miner⟩, hrun, hstate⟩ := bind_eq_ok_iff.mp hstate
  refine ⟨history, miner, hrun, rfl, DrainConfig.wildcard_notMem_default, fun hkept => ?_⟩
  obtain ⟨hfounder, hcluster⟩ := Prod.mk.inj (Result.ok.inj hstate)
  obtain ⟨founder, hhead, hfounder⟩ := Option.map_eq_some_iff.mp hfounder
  obtain ⟨cluster, hlookup, htemplate⟩ := Option.map_eq_some_iff.mp hcluster
  obtain ⟨htokens, hfounder⟩ := Prod.mk.inj hfounder
  obtain ⟨hid, hnew⟩ := Prod.mk.inj hfounder
  have hanchor : IsAnchor DrainConfig.default.unique_anchor_tokens (str.lit "deny") :=
    ⟨str.lit "DENY", by decide, by decide⟩
  obtain ⟨t', ht', hwild, -⟩ := hkept founder (List.mem_of_head? hhead) hnew 2 (str.lit "deny")
    (by rw [htokens]; rfl) hanchor cluster (hid ▸ hlookup)
  rw [htemplate] at ht'
  cases ht'
  exact hwild rfl

/-- A line keeps the classes apart when the template still has the class of its members. -/
theorem Consistent.classesApart_adds (h : self.Consistent crates config history)
    (hanchors : config.anchors_enabled = true) (hvocab : config.unique_anchor_tokens ≠ [])
    (hapart : ClassesApart crates history) (hcondition : self.ClassesInTemplate crates input)
    (hadds : self.Adds crates input result after) :
    ClassesApart crates (history ++ [⟨input, result⟩]) := by
  -- the class of an earlier member is that of the template, and the line agrees with the template
  have hnew : ∀ taken ∈ history, taken.result.cluster_id = result.cluster_id →
      ∀ (i : Nat) t1 t2, (taken.tokens crates)[i]? = some t1 → (input.tokens crates)[i]? = some t2 →
        IsClass t1 → IsClass t2 → SameValue t1 t2 := by
    intro taken htaken hid i t1 t2 ht1 ht2 hclass1 hclass2
    have htokens : input.tokens crates ≠ [] := List.ne_nil_of_mem (List.mem_of_getElem? ht2)
    obtain ⟨cluster, sim, hfind, hlookup, hmatches⟩ := h.joins_earlier hadds htaken hid htokens
    obtain ⟨t, ht, hclass⟩ := hcondition htokens _ sim cluster hfind hlookup i t2 ht2 hclass2
    have hmember := h.member_token htaken (hid ▸ hlookup) ht hclass.ne_wildcard
    rw [ht1] at hmember
    cases hmember
    rw [← h.config_eq] at hanchors hvocab
    exact (hmatches.compatible hanchors hvocab ht ht2).classes hclass1 hclass2
  intro a ha b hb hid i ta tb hta htb hclassa hclassb
  rw [List.mem_append, List.mem_singleton] at ha hb
  obtain ha | rfl := ha
  · obtain hb | rfl := hb
    · exact hapart a ha b hb hid i ta tb hta htb hclassa hclassb
    · exact hnew a ha hid i ta tb hta htb hclassa hclassb
  · obtain hb | rfl := hb
    · exact (hnew b hb hid.symm i tb ta htb hta hclassb hclassa).symm
    · rw [hta] at htb
      cases htb
      exact SameValue.refl ta

/-- In a run with anchors, no two members of a cluster have different values for a class key,
    if every line that a cluster is found for has class keys only where the template has one. -/
theorem classes_apart (crates : Crates) {config : DrainConfig}
    (hanchors : config.anchors_enabled = true) (hvocab : config.unique_anchor_tokens ≠ [])
    {inputs : List Input} (hmeets : (new config).Meets crates (ClassesInTemplate crates) inputs)
    {history : List Taken} {miner : DrainMiner}
    (hrun : (new config).run crates inputs = ok (history, miner)) :
    ClassesApart crates history := by
  let inv := fun (prior : List Taken) (self : DrainMiner) =>
    self.Consistent crates config prior ∧ ClassesApart crates prior
  have hfinal : inv ([] ++ history) miner := by
    refine run_invariant ?_ ⟨consistent_new crates config, ?_⟩ hmeets hrun
    · rintro prior self input result after ⟨hconsistent, hapart⟩ hcondition hadds
      exact ⟨hconsistent.adds hadds,
        hconsistent.classesApart_adds hanchors hvocab hapart hcondition hadds⟩
    · intro a ha
      cases ha
  exact hfinal.2

def trafficLines : List Input :=
  [⟨str.lit "fw up type=traffic lan", 0⟩, ⟨str.lit "fw up type=traffic wan", 1⟩]

/-- The first line founds a cluster, the second finds it with its class in place. -/
theorem classes_apart_two_members :
    DrainConfig.default.anchors_enabled = true ∧ DrainConfig.default.unique_anchor_tokens ≠ [] ∧
    (new DrainConfig.default).Meets default (ClassesInTemplate default) trafficLines ∧
    ∃ history miner, (new DrainConfig.default).run default trafficLines = ok (history, miner) ∧
      history.map (fun taken => taken.result.cluster_id) = [1, 1] ∧
      ClassesApart default history := by
  have hvocab : DrainConfig.default.unique_anchor_tokens ≠ [] := by decide
  have hmeets : (new DrainConfig.default).Meets default (ClassesInTemplate default) trafficLines := by
    decide +kernel
  have hids : ((new DrainConfig.default).run default trafficLines >>= fun state =>
      ok (state.1.map fun taken => taken.result.cluster_id)) = ok [1, 1] := by
    decide +kernel
  obtain ⟨⟨history, miner⟩, hrun, hids⟩ := bind_eq_ok_iff.mp hids
  exact ⟨rfl, hvocab, hmeets, history, miner, hrun, Result.ok.inj hids,
    classes_apart default rfl hvocab hmeets hrun⟩

/-- A quoted value of the same class makes the position a wildcard, and the line of another
    class that comes next joins the cluster. -/
theorem classes_merged_after_quoted_value :
    ∃ history miner, (new DrainConfig.default).run default
        [⟨str.lit "fw up type=traffic lan", 0⟩, ⟨str.lit "fw up type=\"traffic\" lan", 1⟩,
          ⟨str.lit "fw up type=dns lan", 2⟩] = ok (history, miner) ∧
      DrainConfig.default.anchors_enabled = true ∧ DrainConfig.default.unique_anchor_tokens ≠ [] ∧
      ¬ ClassesApart default history := by
  have hstate : ((new DrainConfig.default).run default
      [⟨str.lit "fw up type=traffic lan", 0⟩, ⟨str.lit "fw up type=\"traffic\" lan", 1⟩,
        ⟨str.lit "fw up type=dns lan", 2⟩] >>= fun state =>
        ok (state.1.map fun taken => ((taken.tokens default)[2]?, taken.result.cluster_id))) =
      ok [(some (str.lit "type=traffic"), 1), (some (str.lit "type=\"traffic"), 1),
        (some (str.lit "type=dns"), 1)] := by
    decide +kernel
  obtain ⟨⟨history, miner⟩, hrun, hstate⟩ := bind_eq_ok_iff.mp hstate
  refine ⟨history, miner, hrun, rfl, by decide, fun hapart => ?_⟩
  have hmap := Result.ok.inj hstate
  have hmem : ∀ entry ∈ [(some (str.lit "type=traffic"), 1), (some (str.lit "type=dns"), 1)],
      ∃ taken ∈ history, ((taken.tokens default)[2]?, taken.result.cluster_id) = entry := by
    intro entry hentry
    refine List.mem_map.mp ?_
    rw [hmap]
    obtain rfl | rfl := List.mem_pair.mp hentry <;> simp
  obtain ⟨a, ha, hentry⟩ := hmem _ List.mem_cons_self
  obtain ⟨hta, hida⟩ := Prod.mk.inj hentry
  obtain ⟨b, hb, hentry⟩ := hmem _ (List.mem_cons_of_mem _ List.mem_cons_self)
  obtain ⟨htb, hidb⟩ := Prod.mk.inj hentry
  have hclass : ∀ token ∈ [str.lit "type=traffic", str.lit "type=dns"], IsClass token := by
    intro token htoken
    refine ⟨str.lit "type", ?_, str.lit "type", List.mem_cons_self, by decide⟩
    obtain rfl | rfl := List.mem_pair.mp htoken <;> rfl
  have hsame := hapart a ha b hb (hida.trans hidb.symm) 2 _ _ hta htb (hclass _ List.mem_cons_self)
    (hclass _ (List.mem_cons_of_mem _ List.mem_cons_self))
  have hdifferent : ¬ SameValue (str.lit "type=traffic") (str.lit "type=dns") := by
    unfold SameValue
    decide
  exact hdifferent hsame

end DrainMiner

end ulpf_ai.drain
