import Ulpf.Lib.Template
import Ulpf.Ai.Drain.Run

open Result

namespace ulpf_ai.drain

/-- The lines that a cluster was returned for. -/
def members (c_id : Nat) (history : List Taken) : List Taken :=
  history.filter fun taken => taken.result.cluster_id = c_id

/-- The alerts of one type that were raised for a cluster. -/
def alerts (anomaly_type : AnomalyType) (c_id : Nat) (history : List Taken) : List AnomalyAlert :=
  (history.filterMap fun taken => taken.result.anomaly).filter fun alert =>
    alert.anomaly_type = anomaly_type ∧ alert.cluster_id = c_id

/-- A cluster is what the lines of its members make of it. -/
structure LogCluster.Describes (crates : Crates) (config : DrainConfig) (history : List Taken)
    (c_id : Nat) (cluster : LogCluster) : Prop where
  cluster_id : cluster.cluster_id = c_id
  template_tokens : Template.Summarizes WILDCARD
    ((members c_id history).map fun taken => taken.tokens crates) cluster.template_tokens
  template : cluster.template = LogCluster.join cluster.template_tokens
  size : cluster.size = cluster.template_tokens.length
  count : cluster.count = (members c_id history).length
  tag : config.anchors_enabled = true → ∀ taken ∈ members c_id history,
    taken.syslog_tag crates = cluster.syslog_tag
  founded : (alerts .NewTemplate c_id history).length = 1
  surged : (alerts .RareClusterSurge c_id history).length ≤ 1
  rare : cluster.count ≤ config.rare_count_threshold → alerts .RareClusterSurge c_id history = []

/-- Between two lines, every cluster describes its members, and ids are given out in turn. -/
structure DrainMiner.Consistent (crates : Crates) (config : DrainConfig) (history : List Taken)
    (miner : DrainMiner) : Prop where
  config_eq : miner.config = config
  next_pos : 1 ≤ miner.next_cluster_id
  mem_clusters : ∀ c_id, c_id ∈ miner.clusters ↔ 1 ≤ c_id ∧ c_id < miner.next_cluster_id
  describes : ∀ c_id cluster, miner.clusters.lookup c_id = some cluster →
    cluster.Describes crates config history c_id
  founders : (history.filter fun taken => taken.result.is_new).map (fun taken => taken.result.cluster_id) =
    List.range' 1 (miner.next_cluster_id - 1)
  blank : ∀ taken ∈ history, taken.tokens crates = [] ↔ taken.result.cluster_id = 0
  known : ∀ taken ∈ history, taken.result.cluster_id < miner.next_cluster_id
  alerted : ∀ taken ∈ history, ∀ alert ∈ taken.result.anomaly,
    alert.cluster_id = taken.result.cluster_id

/-- The clusters are an exact summary of the lines: each has the template, the tag and the
    alerts of its members, together they count all lines that left a token, and another
    line changes no more than one of them. -/
structure DrainMiner.Summary (crates : Crates) (history : List Taken) (miner : DrainMiner) :
    Prop where
  inhabited : ∀ c_id ∈ miner.clusters, members c_id history ≠ []
  template_tokens : ∀ c_id cluster, miner.clusters.lookup c_id = some cluster →
    Template.Summarizes WILDCARD ((members c_id history).map fun taken => taken.tokens crates)
      cluster.template_tokens
  template : ∀ c_id cluster, miner.clusters.lookup c_id = some cluster →
    cluster.template = LogCluster.join cluster.template_tokens
  token_count : ∀ c_id ∈ miner.clusters, ∀ a ∈ members c_id history, ∀ b ∈ members c_id history,
    (a.tokens crates).length = (b.tokens crates).length
  counts : (miner.clusters.entries.map fun binding => binding.2.count).sum =
    history.countP fun taken => taken.tokens crates ≠ []
  ids : miner.clusters.keys.Perm (List.range' 1 miner.clusters.entries.length)
  creation_order :
    (history.filter fun taken => taken.result.is_new).map (fun taken => taken.result.cluster_id) =
      List.range' 1 miner.clusters.entries.length
  cluster_id : ∀ c_id cluster, miner.clusters.lookup c_id = some cluster → cluster.cluster_id = c_id
  frame : ∀ (input : Input) result after,
    miner.add_log crates input.raw input.now_ms = ok (result, after) →
      ∀ c_id ≠ result.cluster_id, after.clusters.lookup c_id = miner.clusters.lookup c_id
  new_template : ∀ c_id ∈ miner.clusters, (alerts .NewTemplate c_id history).length = 1
  surge : ∀ c_id ∈ miner.clusters, (alerts .RareClusterSurge c_id history).length ≤ 1
  tag : miner.config.anchors_enabled = true → ∀ c_id ∈ miner.clusters,
    ∀ a ∈ members c_id history, ∀ b ∈ members c_id history, a.syslog_tag crates = b.syslog_tag crates

section

variable {c_id : Nat} {history : List Taken} {taken : Taken}

theorem members_concat_self (hid : taken.result.cluster_id = c_id) :
    members c_id (history ++ [taken]) = members c_id history ++ [taken] := by
  simp [members, hid]

theorem members_concat_ne (hid : taken.result.cluster_id ≠ c_id) :
    members c_id (history ++ [taken]) = members c_id history := by
  simp [members, hid]

theorem alerts_concat (anomaly_type : AnomalyType) :
    alerts anomaly_type c_id (history ++ [taken]) =
      alerts anomaly_type c_id history ++ taken.result.anomaly.toList.filter fun alert =>
        alert.anomaly_type = anomaly_type ∧ alert.cluster_id = c_id := by
  rw [alerts, List.filterMap_append, List.filter_append, ← alerts]
  cases htaken : taken.result.anomaly <;> simp [htaken]

theorem alerts_concat_ne (anomaly_type : AnomalyType)
    (halert : ∀ alert ∈ taken.result.anomaly, alert.cluster_id ≠ c_id) :
    alerts anomaly_type c_id (history ++ [taken]) = alerts anomaly_type c_id history := by
  rw [alerts_concat, List.append_right_eq_self, List.filter_eq_nil_iff]
  intro alert hmem
  have hne := halert alert (by simpa using hmem)
  simp [hne]

theorem alerts_eq_nil (anomaly_type : AnomalyType)
    (halert : ∀ taken ∈ history, ∀ alert ∈ taken.result.anomaly, alert.cluster_id ≠ c_id) :
    alerts anomaly_type c_id history = [] := by
  rw [alerts, List.filter_eq_nil_iff]
  intro alert hmem
  obtain ⟨taken, htaken, halert'⟩ := List.mem_filterMap.mp hmem
  have hne := halert taken htaken alert halert'
  simp [hne]

end

namespace LogCluster

theorem merge_tokens_eq {tmpl_tokens in_tokens : List (List Char)}
    (hlength : in_tokens.length = tmpl_tokens.length) :
    merge_tokens tmpl_tokens in_tokens = Template.merge WILDCARD tmpl_tokens in_tokens := by
  induction tmpl_tokens generalizing in_tokens with
  | nil => cases in_tokens <;> simp_all [merge_tokens, Template.merge]
  | cons tmpl_token tmpl_tokens ih =>
    cases in_tokens with
    | nil => cases hlength
    | cons in_token in_tokens =>
      rw [merge_tokens, ih (by simpa using hlength)]
      simp [Template.merge]

theorem template_update {self : LogCluster} (htemplate : self.template = join self.template_tokens)
    (tokens : List (List Char)) (now_ms : Int) :
    (self.update tokens now_ms).template = join (self.update tokens now_ms).template_tokens := by
  simp only [update]
  split
  · rfl
  · rename_i hsame
    rw [htemplate, not_not.mp hsame]

variable {crates : Crates} {config : DrainConfig} {history : List Taken} {c_id : Nat}
  {cluster : LogCluster} {taken : Taken}

/-- A line of another cluster changes nothing. -/
theorem Describes.other (h : cluster.Describes crates config history c_id)
    (hid : taken.result.cluster_id ≠ c_id)
    (halert : ∀ alert ∈ taken.result.anomaly, alert.cluster_id = taken.result.cluster_id) :
    cluster.Describes crates config (history ++ [taken]) c_id where
  cluster_id := h.cluster_id
  template_tokens := by
    rw [members_concat_ne hid]
    exact h.template_tokens
  template := h.template
  size := h.size
  count := by rw [members_concat_ne hid, h.count]
  tag := by
    rw [members_concat_ne hid]
    exact h.tag
  founded := by
    rw [alerts_concat_ne _ fun alert hmem => halert alert hmem ▸ hid]
    exact h.founded
  surged := by
    rw [alerts_concat_ne _ fun alert hmem => halert alert hmem ▸ hid]
    exact h.surged
  rare := by
    rw [alerts_concat_ne _ fun alert hmem => halert alert hmem ▸ hid]
    exact h.rare

/-- A line that joins is one more member. -/
theorem Describes.join (h : cluster.Describes crates config history c_id)
    (hid : taken.result.cluster_id = c_id) (hsize : cluster.size = (taken.tokens crates).length)
    (htag : config.anchors_enabled = true → cluster.syslog_tag = taken.syslog_tag crates)
    (halert : ∀ alert ∈ taken.result.anomaly, alert.anomaly_type = .RareClusterSurge ∧
      alert.cluster_id = c_id ∧ cluster.count = config.rare_count_threshold) :
    (cluster.update (taken.tokens crates) taken.now_ms).Describes crates config (history ++ [taken])
      c_id := by
  have hlength : (taken.tokens crates).length = cluster.template_tokens.length := by
    rw [← hsize, h.size]
  have hmerge := merge_tokens_eq hlength
  have hquiet : cluster.count ≠ config.rare_count_threshold → taken.result.anomaly = none := by
    intro hne
    cases hanomaly : taken.result.anomaly with
    | none => rfl
    | some alert => exact absurd (halert alert hanomaly).2.2 hne
  refine ⟨h.cluster_id, ?_, template_update h.template _ _, ?_, ?_, ?_, ?_, ?_, ?_⟩
  · rw [members_concat_self hid, List.map_append]
    simp only [update, hmerge]
    exact h.template_tokens.merge hlength
  · simp only [update, hmerge, Template.length_merge hlength]
    exact h.size
  · rw [members_concat_self hid, List.length_append, ← h.count]
    rfl
  · intro hanchors member hmember
    rw [members_concat_self hid] at hmember
    obtain hmember | hmember := List.mem_append.mp hmember
    · exact h.tag hanchors member hmember
    · rw [List.mem_singleton.mp hmember]
      exact (htag hanchors).symm
  · rw [alerts_concat, List.length_append, h.founded, Nat.add_eq_left, List.length_eq_zero_iff,
      List.filter_eq_nil_iff]
    intro alert hmem
    have htype := (halert alert (by simpa using hmem)).1
    simp [htype]
  · rw [alerts_concat, List.length_append]
    by_cases hcount : cluster.count = config.rare_count_threshold
    · -- the threshold is crossed by this line, so no surge was raised before
      rw [h.rare hcount.le, List.length_nil, Nat.zero_add]
      refine (List.length_filter_le _ _).trans ?_
      cases taken.result.anomaly <;> simp
    · rw [hquiet hcount]
      exact h.surged
  · intro hle
    have hlt : cluster.count < config.rare_count_threshold := hle
    rw [alerts_concat, hquiet hlt.ne, h.rare hlt.le]
    rfl

/-- A line that founds a cluster is its only member. -/
theorem describes_new {now_ms : Int} (hid : taken.result.cluster_id = c_id)
    (hcluster : cluster = LogCluster.new c_id (taken.tokens crates) now_ms (taken.syslog_tag crates))
    (halert : taken.result.anomaly = some (DrainMiner.newTemplate cluster now_ms))
    (hmembers : members c_id history = []) (hnew : ∀ anomaly_type, alerts anomaly_type c_id history = []) :
    cluster.Describes crates config (history ++ [taken]) c_id := by
  subst hcluster
  refine ⟨rfl, ?_, rfl, rfl, ?_, ?_, ?_, ?_, fun _ => ?_⟩
  · rw [members_concat_self hid, hmembers]
    exact Template.summarizes_singleton WILDCARD _
  · rw [members_concat_self hid, hmembers]
    rfl
  · intro _ member hmember
    rw [members_concat_self hid, hmembers] at hmember
    rw [List.mem_singleton.mp hmember]
    rfl
  · rw [alerts_concat, hnew, halert]
    simp [DrainMiner.newTemplate, LogCluster.new]
  · rw [alerts_concat, hnew, halert]
    simp [DrainMiner.newTemplate]
  · rw [alerts_concat, hnew, halert]
    simp [DrainMiner.newTemplate]

end LogCluster

namespace DrainMiner

variable {crates : Crates} {config : DrainConfig} {history : List Taken} {self after : DrainMiner}
  {input : Input} {result : ClusterResult}

theorem consistent_new (crates : Crates) (config : DrainConfig) :
    (new config).Consistent crates config [] where
  config_eq := rfl
  next_pos := le_rfl
  mem_clusters c_id := by
    simp only [new, AList.notMem_empty, false_iff]
    omega
  describes c_id cluster hlookup := by simp [new] at hlookup
  founders := rfl
  blank := by simp
  known := by simp
  alerted := by simp

/-- One line changes at most the cluster that it returns. -/
theorem Adds.lookup_ne (hadds : self.Adds crates input result after) {c_id : Nat}
    (hne : c_id ≠ result.cluster_id) : after.clusters.lookup c_id = self.clusters.lookup c_id := by
  cases hadds with
  | blank => rfl
  | joins => exact AList.lookup_insert_ne hne
  | founds => exact AList.lookup_insert_ne hne

theorem Adds.alerted (hadds : self.Adds crates input result after) :
    ∀ alert ∈ result.anomaly, alert.cluster_id = result.cluster_id := by
  cases hadds with
  | blank => simp
  | joins c_id cluster sim anomaly htokens hfind hlookup hmatches hanomaly =>
    exact fun alert hmem => (hanomaly alert hmem).2.1
  | founds cluster sim root htokens hfind hcluster =>
    intro alert hmem
    cases hmem
    rw [hcluster]
    rfl

/-- The clusters after a line: one may be new or changed, the others are as before. -/
theorem Consistent.describes_step (h : self.Consistent crates config history)
    (hadds : self.Adds crates input result after) (c_id : Nat) (cluster : LogCluster)
    (hlookup : after.clusters.lookup c_id = some cluster) :
    cluster.Describes crates config (history ++ [⟨input, result⟩]) c_id := by
  by_cases hid : c_id = result.cluster_id
  · cases hadds with
    | blank =>
      have hmem := (h.mem_clusters c_id).mp (AList.lookup_isSome.mp (by rw [hlookup]; rfl))
      simp only at hid
      omega
    | joins c cluster₀ sim anomaly htokens hfind hlookup₀ hmatches hanomaly =>
      dsimp only at hid hlookup
      subst hid
      rw [AList.lookup_insert] at hlookup
      cases hlookup
      rw [h.config_eq] at hanomaly
      have htag := hmatches.tag
      rw [h.config_eq] at htag
      exact (h.describes c_id cluster₀ hlookup₀).join rfl hmatches.size htag hanomaly
    | founds cluster₀ sim root htokens hfind hcluster =>
      dsimp only at hid hlookup
      subst hid
      rw [AList.lookup_insert] at hlookup
      cases hlookup
      refine LogCluster.describes_new rfl hcluster rfl ?_ ?_
      · rw [members, List.filter_eq_nil_iff]
        intro taken htaken
        have := h.known taken htaken
        simp only [decide_eq_true_eq]
        omega
      · intro anomaly_type
        apply alerts_eq_nil
        intro taken htaken alert halert
        rw [h.alerted taken htaken alert halert]
        have := h.known taken htaken
        omega
  · rw [hadds.lookup_ne hid] at hlookup
    exact (h.describes c_id cluster hlookup).other (Ne.symm hid) hadds.alerted

theorem Consistent.adds (h : self.Consistent crates config history)
    (hadds : self.Adds crates input result after) :
    after.Consistent crates config (history ++ [⟨input, result⟩]) := by
  have hdescribes := h.describes_step hadds
  have halerted : ∀ taken ∈ history ++ [⟨input, result⟩], ∀ alert ∈ taken.result.anomaly,
      alert.cluster_id = taken.result.cluster_id := by
    intro taken htaken
    obtain htaken | htaken := List.mem_append.mp htaken
    · exact h.alerted taken htaken
    · rw [List.mem_singleton.mp htaken]
      exact hadds.alerted
  have hnext := h.next_pos
  cases hadds with
  | blank htokens =>
    refine ⟨h.config_eq, h.next_pos, h.mem_clusters, hdescribes, ?_, ?_, ?_, halerted⟩
    · rw [List.filter_append, List.map_append, h.founders]
      simp
    · simpa [or_imp, forall_and, htokens] using h.blank
    · have hpos : 0 < self.next_cluster_id := hnext
      simpa [or_imp, forall_and, hpos] using h.known
  | joins c_id cluster sim anomaly htokens hfind hlookup hmatches hanomaly =>
    have hmem := (h.mem_clusters c_id).mp (AList.lookup_isSome.mp (by rw [hlookup]; rfl))
    refine ⟨h.config_eq, h.next_pos, ?_, hdescribes, ?_, ?_, ?_, halerted⟩
    · intro c
      rw [AList.mem_insert, h.mem_clusters]
      constructor
      · rintro (rfl | hc)
        · exact hmem
        · exact hc
      · exact Or.inr
    · rw [List.filter_append, List.map_append, h.founders]
      simp
    · have hne : c_id ≠ 0 := by omega
      simpa [or_imp, forall_and, htokens, hne] using h.blank
    · simpa [or_imp, forall_and, hmem.2] using h.known
  | founds cluster sim root htokens hfind hcluster =>
    refine ⟨h.config_eq, by simp, ?_, hdescribes, ?_, ?_, ?_, halerted⟩
    · intro c
      rw [AList.mem_insert, h.mem_clusters]
      dsimp only
      omega
    · rw [List.filter_append, List.map_append, h.founders]
      simp only [List.filter_cons_of_pos, List.filter_nil, List.map_cons, List.map_nil]
      rw [show self.next_cluster_id + 1 - 1 = self.next_cluster_id - 1 + 1 by omega,
        List.range'_concat]
      simp
      omega
    · have hne : self.next_cluster_id ≠ 0 := by omega
      simpa [or_imp, forall_and, htokens, hne] using h.blank
    · intro taken htaken
      obtain htaken | htaken := List.mem_append.mp htaken
      · exact (h.known taken htaken).trans (Nat.lt_succ_self _)
      · rw [List.mem_singleton.mp htaken]
        exact Nat.lt_succ_self _

theorem consistent_of_run {inputs : List Input}
    (hrun : (new config).run crates inputs = ok (history, after)) :
    after.Consistent crates config history :=
  run_invariant (fun hinv _ hadds => hinv.adds hadds) (consistent_new crates config)
    (meets_true (new config) inputs) hrun

/-- Counting by the value of a function, over values without repetition. -/
theorem sum_countP_eq {α : Type} (f : α → Nat) (l : List α) {ids : List Nat} (hids : ids.Nodup) :
    (ids.map fun c => l.countP fun a => f a = c).sum = l.countP fun a => f a ∈ ids := by
  induction ids with
  | nil => simp
  | cons c ids ih =>
    obtain ⟨hc, hids⟩ := List.nodup_cons.mp hids
    rw [List.map_cons, List.sum_cons, ih hids]
    clear ih
    induction l with
    | nil => rfl
    | cons a l ih =>
      simp only [List.countP_cons, List.mem_cons, decide_eq_true_eq] at ih ⊢
      by_cases hac : f a = c
      · have hnot : f a ∉ ids := hac ▸ hc
        simp only [hac, if_true, true_or] at ih ⊢
        rw [if_neg (hac ▸ hnot)]
        omega
      · simp only [hac, if_false, false_or] at ih ⊢
        omega

namespace Consistent

theorem mem_of_lookup {c_id : Nat} {cluster : LogCluster}
    (hlookup : self.clusters.lookup c_id = some cluster) : c_id ∈ self.clusters :=
  AList.lookup_isSome.mp (by rw [hlookup]; rfl)

theorem keys_perm (h : self.Consistent crates config history) :
    self.clusters.keys.Perm (List.range' 1 (self.next_cluster_id - 1)) := by
  have hnext := h.next_pos
  rw [List.perm_ext_iff_of_nodup self.clusters.keys_nodup List.nodup_range']
  intro c_id
  rw [← AList.mem_keys, h.mem_clusters, List.mem_range'_1]
  omega

/-- As many clusters are kept as ids were given out. -/
theorem length_clusters (h : self.Consistent crates config history) :
    self.clusters.entries.length = self.next_cluster_id - 1 := by
  have hlength := h.keys_perm.length_eq
  rwa [List.length_range', AList.keys, List.keys, List.length_map] at hlength

theorem counts_eq (h : self.Consistent crates config history) :
    (self.clusters.entries.map fun binding => binding.2.count).sum =
      history.countP fun taken => taken.tokens crates ≠ [] := by
  have hcount : self.clusters.entries.map (fun binding => binding.2.count) =
      self.clusters.keys.map fun c => history.countP fun taken => taken.result.cluster_id = c := by
    rw [AList.keys, List.keys, List.map_map]
    apply List.map_congr_left
    intro binding hbinding
    have hdescribes := h.describes binding.1 binding.2 (AList.mem_lookup_iff.mpr hbinding)
    rw [hdescribes.count, members, ← List.countP_eq_length_filter]
    rfl
  rw [hcount, sum_countP_eq _ _ self.clusters.keys_nodup]
  apply List.countP_congr
  intro taken htaken
  have hblank := h.blank taken htaken
  have hknown := h.known taken htaken
  simp only [decide_eq_true_eq, ne_eq, hblank, ← AList.mem_keys, h.mem_clusters]
  omega

theorem summary (h : self.Consistent crates config history) :
    self.Summary crates history := by
  have hcluster : ∀ c_id ∈ self.clusters, ∃ cluster : LogCluster,
      cluster.Describes crates config history c_id := by
    intro c_id hmem
    obtain ⟨cluster, hlookup⟩ := Option.isSome_iff_exists.mp (AList.lookup_isSome.mpr hmem)
    exact ⟨cluster, h.describes c_id cluster hlookup⟩
  refine ⟨?_, fun c_id cluster hlookup => (h.describes c_id cluster hlookup).template_tokens,
    fun c_id cluster hlookup => (h.describes c_id cluster hlookup).template, ?_, h.counts_eq, ?_, ?_,
    fun c_id cluster hlookup => (h.describes c_id cluster hlookup).cluster_id, ?_, ?_, ?_, ?_⟩
  · intro c_id hmem hnone
    obtain ⟨cluster, hdescribes⟩ := hcluster c_id hmem
    have hfounded : alerts .NewTemplate c_id history = [] := by
      apply alerts_eq_nil
      intro taken htaken alert halert hid
      rw [h.alerted taken htaken alert halert] at hid
      have : taken ∈ members c_id history := List.mem_filter.mpr ⟨htaken, by simpa using hid⟩
      rw [hnone] at this
      cases this
    have := hdescribes.founded
    rw [hfounded] at this
    cases this
  · intro c_id hmem a ha b hb
    obtain ⟨cluster, hdescribes⟩ := hcluster c_id hmem
    rw [hdescribes.template_tokens.length_eq _ (List.mem_map_of_mem ha),
      hdescribes.template_tokens.length_eq _ (List.mem_map_of_mem hb)]
  · rw [h.length_clusters]
    exact h.keys_perm
  · rw [h.length_clusters]
    exact h.founders
  · intro input result after hadd c_id hne
    exact (adds_of_add_log hadd).lookup_ne hne
  · intro c_id hmem
    obtain ⟨cluster, hdescribes⟩ := hcluster c_id hmem
    exact hdescribes.founded
  · intro c_id hmem
    obtain ⟨cluster, hdescribes⟩ := hcluster c_id hmem
    exact hdescribes.surged
  · intro hanchors c_id hmem a ha b hb
    obtain ⟨cluster, hdescribes⟩ := hcluster c_id hmem
    rw [h.config_eq] at hanchors
    rw [hdescribes.tag hanchors a ha, hdescribes.tag hanchors b hb]

end Consistent

/-- Whatever lines a miner takes, it takes them all, and its clusters are an exact summary
    of them. -/
theorem run_summary (crates : Crates) (config : DrainConfig) (inputs : List Input) :
    ∃ history miner, (new config).run crates inputs = ok (history, miner) ∧
      history.map Taken.toInput = inputs ∧ miner.Summary crates history := by
  obtain ⟨history, miner, hrun, hinputs⟩ := run_ok crates (new config) inputs
  exact ⟨history, miner, hrun, hinputs, (consistent_of_run hrun).summary⟩

end DrainMiner

end ulpf_ai.drain
