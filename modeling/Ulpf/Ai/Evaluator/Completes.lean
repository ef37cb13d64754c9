import Ulpf.Ai.Evaluator.Audit

open Result ulpf_ai.drain
open ulpf_core.schema.ocsf (NetworkActivity)
open ulpf_core.parser.lru_cache (SignatureLruCache)
open ulpf_integrity.merkle (Digest Hash)

namespace ulpf_ai.evaluator.EvaluatorEngine

/-- What the checks of a line leave alone: they only add failures, none of them of grouping. -/
structure Keeps {σ : Type} (s s' : AuditState σ) : Prop where
  env_eq : s'.env = s.env
  records_eq : s'.records = s.records
  map_eq : s'.cluster_to_gt_map = s.cluster_to_gt_map
  failures_eq : ∃ more, s'.failures = s.failures ++ more ∧ ∀ failure ∈ more, failure.metric ≠ "grouping"

section

variable {σ : Type} {s s' s'' : AuditState σ}

theorem Keeps.refl (s : AuditState σ) : Keeps s s :=
  ⟨rfl, rfl, rfl, [], (List.append_nil _).symm, fun _ h => absurd h List.not_mem_nil⟩

theorem Keeps.trans (h : Keeps s s') (h' : Keeps s' s'') : Keeps s s'' := by
  obtain ⟨more, hmore, hmetric⟩ := h.failures_eq
  obtain ⟨more', hmore', hmetric'⟩ := h'.failures_eq
  refine ⟨h'.env_eq.trans h.env_eq, h'.records_eq.trans h.records_eq, h'.map_eq.trans h.map_eq,
    more ++ more', by rw [hmore', hmore, List.append_assoc], fun failure hfailure => ?_⟩
  rcases List.mem_append.mp hfailure with hfailure | hfailure
  · exact hmetric failure hfailure
  · exact hmetric' failure hfailure

theorem keeps_fail (s : AuditState σ) (line : Line) {metric : String} (hmetric : metric ≠ "grouping")
    (expected observed : List Char) :
    Keeps s { s with failures := s.failures ++ [fails line metric expected observed] } := by
  refine ⟨rfl, rfl, rfl, _, rfl, fun failure hfailure => ?_⟩
  rw [List.mem_singleton.mp hfailure]
  exact hmetric

theorem keeps_record (line : Line) {metric : String} (hmetric : metric ≠ "grouping")
    (count : Correct → Correct) (verdict : Verdict) (s : AuditState σ) :
    Keeps s (record line metric count verdict s) := by
  cases verdict with
  | none => exact ⟨rfl, rfl, rfl, (Keeps.refl s).failures_eq⟩
  | some texts => exact keeps_fail s line hmetric texts.1 texts.2

theorem keeps_grade_sidecar (sidecar : Option SidecarGroundTruth) (activity : Option NetworkActivity)
    (s : AuditState σ) : Keeps s (grade_sidecar sidecar activity s) := by
  cases sidecar with
  | none => exact Keeps.refl s
  | some sc => exact ⟨rfl, rfl, rfl, (Keeps.refl s).failures_eq⟩

end

theorem ip_verdict_ne_panic (raw : List Char) (keys : List (List Char)) (ip : Option String) :
    ip_verdict raw (raw_has_ip_marker keys) ip ≠ panic := by
  cases ip with
  | some ip =>
    rw [ip_verdict]
    split <;> simp
  | none =>
    refine bind_ne_panic (raw_has_ip_marker_ne_panic keys raw) fun marked => ?_
    cases marked <;> simp

theorem port_verdict_ne_panic (raw : List Char) (port : Option Nat) : port_verdict raw port ≠ panic := by
  cases port with
  | some port =>
    rw [port_verdict]
    split <;> simp
  | none =>
    refine bind_ne_panic (raw_has_port_marker_ne_panic raw) fun marked => ?_
    cases marked <;> simp

theorem protocol_verdict_ne_panic (crates : Crates) (raw : List Char) (activity : NetworkActivity) :
    protocol_verdict crates raw activity ≠ panic := by
  rw [protocol_verdict]
  split
  · dsimp only
    split <;> simp
  · refine bind_ne_panic (raw_has_protocol_marker_ne_panic raw) fun marked => ?_
    cases marked <;> simp

section

variable (H : Type) [Digest H] {σ : Type} (auditor : Auditor σ)

/-- The checks of a parsed line always return. -/
theorem exists_audit_activity (line : Line) (gt_vendor : List Char) (gt_action : Option String)
    (sidecar : Option SidecarGroundTruth) (activity : NetworkActivity) (s : AuditState σ) :
    ∃ s', audit_activity H auditor line gt_vendor gt_action sidecar activity s = ok s' ∧ Keeps s s' := by
  obtain ⟨src_ip, hsrc_ip⟩ := ne_panic_iff.mp
    (ip_verdict_ne_panic line.raw SRC_IP_KEYS activity.src_endpoint.ip)
  obtain ⟨dst_ip, hdst_ip⟩ := ne_panic_iff.mp
    (ip_verdict_ne_panic line.raw DST_IP_KEYS activity.dst_endpoint.ip)
  obtain ⟨src_port, hsrc_port⟩ := ne_panic_iff.mp
    (port_verdict_ne_panic line.raw activity.src_endpoint.port)
  obtain ⟨dst_port, hdst_port⟩ := ne_panic_iff.mp
    (port_verdict_ne_panic line.raw activity.dst_endpoint.port)
  obtain ⟨proto, hproto⟩ := ne_panic_iff.mp
    (protocol_verdict_ne_panic auditor.crates line.raw activity)
  rw [audit_activity]
  dsimp only
  rw [show raw_has_src_ip_marker = raw_has_ip_marker SRC_IP_KEYS from rfl,
    show raw_has_dst_ip_marker = raw_has_ip_marker DST_IP_KEYS from rfl, hsrc_ip, bind_ok, hdst_ip,
    bind_ok, hsrc_port, bind_ok, hdst_port, bind_ok, hproto, bind_ok]
  refine ⟨_, rfl, ?_⟩
  refine Keeps.trans ?_ (keeps_grade_sidecar _ _ _)
  refine Keeps.trans ?_ (keeps_record _ (by decide) _ _ _)
  refine Keeps.trans ?_ (keeps_record _ (by decide) _ _ _)
  refine Keeps.trans ?_ (keeps_record _ (by decide) _ _ _)
  refine Keeps.trans ?_ (keeps_record _ (by decide) _ _ _)
  refine Keeps.trans ?_ (keeps_record _ (by decide) _ _ _)
  refine Keeps.trans ?_ (keeps_record _ (by decide) _ _ _)
  refine Keeps.trans ?_ (keeps_record _ (by decide) _ _ _)
  exact ⟨rfl, rfl, rfl, (Keeps.refl s).failures_eq⟩

/-- What a round of the loop notes of its line. -/
structure Noted (s s' : AuditState σ) (idx : Nat) (raw gt_template : List Char) (cluster_id : Nat) :
    Prop where
  ground_truth_eq : ∃ gt_vendor gt_action,
    ground_truth auditor raw = ok (gt_vendor, gt_template, gt_action)
  cluster_eq : ∃ template_str env, auditor.cluster_fn s.env raw = ok ((cluster_id, template_str), env) ∧
    s'.env = (auditor.parse_fn env raw).2
  records_eq : s'.records = s.records ++ [(idx, cluster_id, gt_template)]
  map_eq : s'.cluster_to_gt_map = duel.count_class s.cluster_to_gt_map (gt_template, cluster_id)
  failures_eq : ∃ more, s'.failures = s.failures ++ more ∧ ∀ failure ∈ more, failure.metric ≠ "grouping"

/-- A round returns where the ground truth and the cluster function do. -/
theorem exists_audit_line {s : AuditState σ} {raw gt_vendor gt_template : List Char}
    {gt_action : Option String} {cluster_id : Nat} {template_str : List Char} {env : σ} (idx : Nat)
    (htruth : ground_truth auditor raw = ok (gt_vendor, gt_template, gt_action))
    (hcluster : auditor.cluster_fn s.env raw = ok ((cluster_id, template_str), env)) :
    ∃ s', audit_line H auditor s idx raw = ok s' ∧ Noted auditor s s' idx raw gt_template cluster_id := by
  obtain ⟨oracle_id, horacle⟩ := ne_panic_iff.mp
    (SignatureLruCache.compute_signature_hash_ne_panic gt_template)
  obtain ⟨valid, hvalid⟩ := ne_panic_iff.mp
    (template_is_valid_ne_panic auditor.crates raw template_str gt_template)
  rw [audit_line, htruth, bind_ok]
  dsimp only
  rw [hcluster, bind_ok]
  dsimp only
  rw [horacle, bind_ok, hvalid, bind_ok]
  set line : Line := ⟨idx, raw, cluster_id⟩
  set noted := note_line line gt_template oracle_id.toNat env s
  set checked := record line "template" (fun c => { c with template := c.template + 1 })
    (if valid = true then none else some (gt_template, template_str)) noted
  have hchecked : Keeps noted checked := keeps_record line (by decide) _ _ _
  have henv : checked.env = env := hchecked.env_eq
  have hnoted : ∀ s', Keeps { checked with env := (auditor.parse_fn env raw).2 } s' →
      Noted auditor s s' idx raw gt_template cluster_id := by
    intro s' hs'
    obtain ⟨more, hmore, hmetric⟩ := hchecked.failures_eq
    obtain ⟨more', hmore', hmetric'⟩ := hs'.failures_eq
    refine ⟨⟨gt_vendor, gt_action, htruth⟩, ⟨template_str, env, hcluster, hs'.env_eq⟩,
      hs'.records_eq.trans hchecked.records_eq, hs'.map_eq.trans hchecked.map_eq, more ++ more', ?_, ?_⟩
    · rw [hmore', hmore, List.append_assoc]
      rfl
    · intro failure hfailure
      exact (List.mem_append.mp hfailure).elim (hmetric failure) (hmetric' failure)
  rw [henv]
  cases hparsed : (auditor.parse_fn env raw).1 with
  | ok activity =>
    obtain ⟨s', hs', hkeeps⟩ := exists_audit_activity H auditor line gt_vendor gt_action
      (auditor.gt_overrides.lookup raw) activity { checked with env := (auditor.parse_fn env raw).2 }
    exact ⟨s', hs', hnoted s' hkeeps⟩
  | panic =>
    exact ⟨_, rfl, hnoted _ ((keeps_grade_sidecar _ _ _).trans (keeps_fail _ line (by decide) _ _))⟩

theorem noted_of_audit_line {s s' : AuditState σ} {idx : Nat} {raw : List Char}
    (h : audit_line H auditor s idx raw = ok s') :
    ∃ gt_template cluster_id, Noted auditor s s' idx raw gt_template cluster_id := by
  obtain ⟨⟨gt_vendor, gt_template, gt_action⟩, htruth, hrest⟩ := bind_eq_ok_iff.mp h
  obtain ⟨⟨⟨cluster_id, template_str⟩, env⟩, hcluster, -⟩ := bind_eq_ok_iff.mp hrest
  obtain ⟨s'', hs'', hnoted⟩ := exists_audit_line H auditor idx htruth hcluster
  rw [h, ok.injEq] at hs''
  exact ⟨gt_template, cluster_id, hs'' ▸ hnoted⟩

/-- The classes and clusters of the lines of a corpus: its ground truth, and what the cluster
    function returns line by line. -/
inductive Grouped : σ → List (List Char) → List (List Char × Nat) → Prop
  | nil (env : σ) : Grouped env [] []
  | cons {env env' : σ} {raw gt_vendor gt_template template_str : List Char} {gt_action : Option String}
      {cluster_id : Nat} {corpus : List (List Char)} {rows : List (List Char × Nat)}
      (htruth : ground_truth auditor raw = ok (gt_vendor, gt_template, gt_action))
      (hcluster : auditor.cluster_fn env raw = ok ((cluster_id, template_str), env'))
      (hrows : Grouped (auditor.parse_fn env' raw).2 corpus rows) :
      Grouped env (raw :: corpus) ((gt_template, cluster_id) :: rows)

variable {auditor}

theorem Grouped.length_eq {env : σ} {corpus : List (List Char)} {rows : List (List Char × Nat)}
    (h : Grouped auditor env corpus rows) : rows.length = corpus.length := by
  induction h with
  | nil env => rfl
  | cons _ _ _ ih => rw [List.length_cons, List.length_cons, ih]

/-- The records of some rows, numbered. -/
def numbered (idx : Nat) (rows : List (List Char × Nat)) : List (Nat × Nat × List Char) :=
  (rows.zipIdx idx).map fun row => (row.2, row.1.2, row.1.1)

/-- What the loop over the corpus leaves for the pass over the groups. -/
structure Audited (s s' : AuditState σ) (idx : Nat) (rows : List (List Char × Nat)) : Prop where
  records_eq : s'.records = s.records ++ numbered idx rows
  map_eq : s'.cluster_to_gt_map = rows.foldl duel.count_class s.cluster_to_gt_map
  failures_eq : ∃ more, s'.failures = s.failures ++ more ∧ ∀ failure ∈ more, failure.metric ≠ "grouping"

theorem audited_of_audit_lines {s s' : AuditState σ} {idx : Nat} {corpus : List (List Char)}
    (h : audit_lines H auditor s idx corpus = ok s') :
    ∃ rows, Grouped auditor s.env corpus rows ∧ Audited s s' idx rows := by
  induction corpus generalizing s idx with
  | nil =>
    cases h
    exact ⟨[], .nil _, by simp [numbered], rfl, [], by simp⟩
  | cons raw corpus ih =>
    obtain ⟨mid, hline, hrest⟩ := bind_eq_ok_iff.mp h
    obtain ⟨gt_template, cluster_id, hnoted⟩ := noted_of_audit_line H auditor hline
    obtain ⟨gt_vendor, gt_action, htruth⟩ := hnoted.ground_truth_eq
    obtain ⟨template_str, env, hcluster, henv⟩ := hnoted.cluster_eq
    obtain ⟨rows, hrows, haudited⟩ := ih hrest
    rw [henv] at hrows
    refine ⟨(gt_template, cluster_id) :: rows, .cons htruth hcluster hrows, ?_, ?_, ?_⟩
    · rw [haudited.records_eq, hnoted.records_eq, List.append_assoc]
      simp [numbered, List.zipIdx_cons]
    · rw [haudited.map_eq, hnoted.map_eq, List.foldl_cons]
    · obtain ⟨more, hmore, hmetric⟩ := hnoted.failures_eq
      obtain ⟨more', hmore', hmetric'⟩ := haudited.failures_eq
      refine ⟨more ++ more', by rw [hmore', hmore, List.append_assoc], fun failure hfailure => ?_⟩
      exact (List.mem_append.mp hfailure).elim (hmetric failure) (hmetric' failure)

theorem ground_truth_ne_panic_iff (raw : List Char) :
    ground_truth auditor raw ≠ panic ↔ (auditor.gt_overrides.lookup raw = none → TagEnds raw) := by
  rw [ground_truth]
  cases auditor.gt_overrides.lookup raw with
  | some sc => simp
  | none => simp [extract_ground_truth_ne_panic_iff]

theorem audit_lines_ne_panic_iff (hcluster : ∀ env raw, auditor.cluster_fn env raw ≠ panic)
    (s : AuditState σ) (idx : Nat) (corpus : List (List Char)) :
    audit_lines H auditor s idx corpus ≠ panic ↔
      ∀ raw ∈ corpus, auditor.gt_overrides.lookup raw = none → TagEnds raw := by
  induction corpus generalizing s idx with
  | nil => exact iff_of_true (fun h => by cases h) fun raw hraw => absurd hraw List.not_mem_nil
  | cons raw corpus ih =>
    rw [List.forall_mem_cons, ← ground_truth_ne_panic_iff, audit_lines]
    cases htruth : ground_truth auditor raw with
    | panic =>
      refine iff_of_false (not_not.mpr ?_) fun h => h.1 rfl
      rw [audit_line, htruth, bind_panic, bind_panic]
    | ok truth =>
      obtain ⟨gt_vendor, gt_template, gt_action⟩ := truth
      obtain ⟨⟨⟨cluster_id, template_str⟩, env⟩, henv⟩ := ne_panic_iff.mp (hcluster s.env raw)
      obtain ⟨s', hs', -⟩ := exists_audit_line H auditor idx htruth henv
      rw [hs', bind_ok, ih]
      exact (and_iff_right (fun h => by cases h)).symm

theorem grouping_failures_ne_panic {corpus : List (List Char)} (majority : HashMap Nat (List Char))
    {records : List (Nat × Nat × List Char)} (h : ∀ record ∈ records, record.1 < corpus.length) :
    grouping_failures corpus majority records ≠ panic := by
  induction records with
  | nil => exact fun h => by cases h
  | cons record records ih =>
    obtain ⟨idx, cid, gt_tag⟩ := record
    rw [List.forall_mem_cons] at h
    rw [grouping_failures, List.getElem?_eq_getElem h.1]
    split
    · exact bind_ne_panic (ih h.2) fun rest => by simp
    · exact ih h.2

theorem verify_action_preservation_ne_panic (crates : Crates) (clock : Int × Int) :
    verify_action_preservation crates clock ≠ panic := by
  obtain ⟨res_allow, miner, hallow, -⟩ := DrainMiner.add_log_ok crates
    (DrainMiner.new DrainConfig.default)
    (str.lit "FW_ACTION: traffic ALLOW proto=TCP src=10.0.0.1 dst=10.0.0.2") clock.1
  obtain ⟨res_deny, after, hdeny, -⟩ := DrainMiner.add_log_ok crates miner
    (str.lit "FW_ACTION: traffic DENY proto=TCP src=10.0.0.1 dst=10.0.0.2") clock.2
  rw [verify_action_preservation]
  dsimp only
  rw [hallow, bind_ok]
  dsimp only
  rw [hdeny, bind_ok]
  simp

theorem index_lt_of_mem_numbered {rows : List (List Char × Nat)} {record : Nat × Nat × List Char}
    (h : record ∈ numbered 0 rows) : record.1 < rows.length := by
  obtain ⟨row, hrow, rfl⟩ := List.mem_map.mp h
  have := List.snd_lt_of_mem_zipIdx hrow
  simpa using this

/-- The audit returns exactly if the loop over the corpus does. -/
theorem audit_accuracy_ne_panic_iff (env : σ) (corpus : List (List Char)) :
    audit_accuracy H auditor env corpus ≠ panic ↔
      audit_lines H auditor { env := env } 0 corpus ≠ panic := by
  rw [audit_accuracy]
  cases hlines : audit_lines H auditor { env := env } 0 corpus with
  | panic => simp
  | ok s =>
    refine iff_of_true ?_ (fun h => by cases h)
    obtain ⟨rows, hrows, haudited⟩ := audited_of_audit_lines H hlines
    rw [bind_ok]
    refine bind_ne_panic (grouping_failures_ne_panic _ fun record hrecord => ?_) fun grouping => ?_
    · rw [haudited.records_eq, List.nil_append] at hrecord
      rw [← hrows.length_eq]
      exact index_lt_of_mem_numbered hrecord
    · exact bind_ne_panic (verify_action_preservation_ne_panic _ _) fun preserved => by simp

end

/-- A line is never a reason for a panic exactly if the tag of a Cisco line can be cut out: the
    ground truth of a line is then found, and the audit of a corpus then completes. -/
theorem audit_accuracy_completes_iff (H : Type) [Digest H] {σ : Type} (auditor : Auditor σ)
    (hcluster : ∀ env raw, auditor.cluster_fn env raw ≠ panic) (env : σ) (corpus : List (List Char)) :
    (∀ raw, extract_ground_truth raw ≠ panic ↔ TagEnds raw) ∧
      (audit_accuracy H auditor env corpus ≠ panic ↔
        ∀ raw ∈ corpus, auditor.gt_overrides.lookup raw = none → TagEnds raw) :=
  ⟨extract_ground_truth_ne_panic_iff,
    (audit_accuracy_ne_panic_iff H env corpus).trans (audit_lines_ne_panic_iff H hcluster _ 0 corpus)⟩

/-- An audit that puts all lines into one cluster and whose parser panics on every line. -/
def oneCluster : Auditor Unit where
  crates := default
  parse_fn env _ := (.panic, env)
  cluster_fn env raw := ok ((0, raw), env)
  gt_overrides := ∅
  uuid_parse_str _ := false
  order _ counts := counts.entries.map fun entry => (entry.1, entry.2)
  order_perm _ _ := List.Perm.refl _
  clock := (0, 0)

/-- The same parser with the clusters of a miner. -/
def minedClusters : Auditor DrainMiner where
  crates := default
  parse_fn env _ := (.panic, env)
  cluster_fn env raw := env.add_log default raw 0 >>= fun (result, env) =>
    ok ((result.cluster_id, result.template), env)
  gt_overrides := ∅
  uuid_parse_str _ := false
  order _ counts := counts.entries.map fun entry => (entry.1, entry.2)
  order_perm _ _ := List.Perm.refl _
  clock := (0, 0)

theorem audit_accuracy_completes_iff_mined_lines :
    (∀ env raw, minedClusters.cluster_fn env raw ≠ panic) ∧
      audit_accuracy Hash minedClusters (DrainMiner.new DrainConfig.default)
        [str.lit "%ASA-6-302013: Built", str.lit "devname=a", str.lit "devname=b"] ≠ panic := by
  have hcluster : ∀ env raw, minedClusters.cluster_fn env raw ≠ panic := by
    intro env raw
    obtain ⟨result, after, hadd, -⟩ := env.add_log_ok default raw 0
    simp [minedClusters, hadd]
  obtain ⟨htruth, haudit⟩ := audit_accuracy_completes_iff Hash minedClusters hcluster
    (DrainMiner.new DrainConfig.default)
    [str.lit "%ASA-6-302013: Built", str.lit "devname=a", str.lit "devname=b"]
  refine ⟨hcluster, haudit.mpr fun raw hraw _ => (htruth raw).mp ?_⟩
  simp only [List.mem_cons, List.not_mem_nil, or_false] at hraw
  rcases hraw with rfl | rfl | rfl <;> decide

/-- A tag that was cut off: it has no colon and ends before its fifteenth byte. -/
theorem extract_ground_truth_cut_off :
    extract_ground_truth (str.lit "%ASA-6-302013") = panic ∧
      audit_accuracy Hash oneCluster () [str.lit "%ASA-6-302013"] = panic := by
  have htruth : extract_ground_truth (str.lit "%ASA-6-302013") = panic := by decide
  refine ⟨htruth, of_not_not fun hne => ?_⟩
  rw [← ne_eq, audit_accuracy_ne_panic_iff, audit_lines, audit_line, ground_truth] at hne
  exact hne (by
    rw [show oneCluster.gt_overrides.lookup (str.lit "%ASA-6-302013") = none from rfl]
    dsimp only
    rw [htruth, bind_panic, bind_panic])

end ulpf_ai.evaluator.EvaluatorEngine
