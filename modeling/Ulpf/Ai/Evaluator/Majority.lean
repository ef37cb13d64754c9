import Ulpf.Ai.Evaluator.Completes

open Result
open ulpf_integrity.merkle (Digest Hash)

namespace ulpf_ai.evaluator.EvaluatorEngine

theorem foldl_keep_greatest (rest : List (List Char × Nat)) (first : List Char × Nat) :
    ∃ best ∈ first :: rest, rest.foldl keep_greatest (some first) = some best ∧
      ∀ entry ∈ first :: rest, entry.2 ≤ best.2 := by
  induction rest generalizing first with
  | nil => exact ⟨first, List.mem_cons_self, rfl, fun entry h => List.mem_singleton.mp h ▸ le_rfl⟩
  | cons next rest ih =>
    rw [List.foldl_cons, keep_greatest]
    by_cases hle : first.2 ≤ next.2
    · rw [if_pos hle]
      obtain ⟨best, hmem, hbest, hmax⟩ := ih next
      refine ⟨best, List.mem_cons_of_mem _ hmem, hbest, List.forall_mem_cons.mpr ⟨?_, hmax⟩⟩
      exact hle.trans (hmax next List.mem_cons_self)
    · rw [if_neg hle]
      obtain ⟨best, hmem, hbest, hmax⟩ := ih first
      rw [List.forall_mem_cons] at hmax
      refine ⟨best, ?_, hbest, ?_⟩
      · rcases List.mem_cons.mp hmem with rfl | hmem
        · exact List.mem_cons_self
        · exact List.mem_cons_of_mem _ (List.mem_cons_of_mem _ hmem)
      · have hnext : next.2 ≤ best.2 := (Nat.le_of_not_le hle).trans hmax.1
        exact List.forall_mem_cons.mpr ⟨hmax.1, List.forall_mem_cons.mpr ⟨hnext, hmax.2⟩⟩

/-- The entry that is kept is one of the greatest count. -/
theorem max_by_count_spec {entries : List (List Char × Nat)} (hne : entries ≠ []) :
    ∃ best ∈ entries, max_by_count entries = some best ∧ ∀ entry ∈ entries, entry.2 ≤ best.2 := by
  obtain ⟨first, rest, rfl⟩ := List.exists_cons_of_ne_nil hne
  exact foldl_keep_greatest rest first

section

variable {order : Nat → HashMap (List Char) Nat → List (List Char × Nat)}

theorem lookup_insert_majority_ne (majority : HashMap Nat (List Char)) {cid cid' : Nat}
    (hne : cid ≠ cid') (counts : HashMap (List Char) Nat) :
    (insert_majority order majority cid' counts).lookup cid = majority.lookup cid := by
  rw [insert_majority]
  split
  · exact AList.lookup_insert_ne hne
  · rfl

theorem lookup_foldl_of_notMem {entries : List ((_ : Nat) × HashMap (List Char) Nat)} {cid : Nat}
    (hcid : cid ∉ entries.keys) (majority : HashMap Nat (List Char)) :
    (entries.foldl (fun majority entry => insert_majority order majority entry.1 entry.2)
      majority).lookup cid = majority.lookup cid := by
  induction entries generalizing majority with
  | nil => rfl
  | cons entry entries ih =>
    rw [List.keys_cons, List.mem_cons, not_or] at hcid
    rw [List.foldl_cons, ih hcid.2, lookup_insert_majority_ne majority hcid.1]

/-- Every cluster is visited once, so its class is the one chosen there. -/
theorem lookup_foldl_of_mem {entries : List ((_ : Nat) × HashMap (List Char) Nat)}
    (hnodup : entries.keys.Nodup) {cid : Nat} {counts : HashMap (List Char) Nat}
    (hmem : ⟨cid, counts⟩ ∈ entries) {best : List Char × Nat}
    (hbest : max_by_count (order cid counts) = some best) (majority : HashMap Nat (List Char)) :
    (entries.foldl (fun majority entry => insert_majority order majority entry.1 entry.2)
      majority).lookup cid = some best.1 := by
  induction entries generalizing majority with
  | nil => cases hmem
  | cons entry entries ih =>
    rw [List.keys_cons, List.nodup_cons] at hnodup
    rw [List.foldl_cons]
    rcases List.mem_cons.mp hmem with rfl | hmem
    · rw [lookup_foldl_of_notMem hnodup.1, insert_majority, hbest]
      exact AList.lookup_insert majority
    · exact ih hnodup.2 hmem _

variable {rows : List (List Char × Nat)} {map : HashMap Nat (HashMap (List Char) Nat)}

/-- The class that is chosen for a cluster has as many lines as its majority class. -/
theorem countP_majority_tags
    (horder : ∀ cid counts,
      (order cid counts).Perm (counts.entries.map fun entry => (entry.1, entry.2)))
    (h : duel.Counts rows map) {cid : Nat} (hcid : cid ∈ rows.map Prod.snd) :
    ∃ tag, (majority_tags order map).lookup cid = some tag ∧
      rows.countP (fun row => row.2 = cid ∧ row.1 = tag) =
        Grouping.majority rows Prod.fst Prod.snd cid := by
  obtain ⟨counts, hcounts⟩ := Option.isSome_iff_exists.mp (AList.lookup_isSome.mpr ((h.mem cid).mpr hcid))
  have hlookup : ∀ tag, (counts.lookup tag).getD 0 =
      rows.countP fun row => row.2 = cid ∧ row.1 = tag := by
    intro tag
    rw [← h.lookup cid tag, hcounts, Option.getD_some]
  have hentry : ∀ entry, entry ∈ order cid counts ↔ counts.lookup entry.1 = some entry.2 := by
    intro entry
    rw [(horder cid counts).mem_iff, List.mem_map]
    constructor
    · rintro ⟨binding, hbinding, rfl⟩
      exact AList.mem_lookup_iff.mpr hbinding
    · intro hfound
      exact ⟨⟨entry.1, entry.2⟩, AList.mem_lookup_iff.mp hfound, rfl⟩
  have hne : order cid counts ≠ [] := by
    obtain ⟨row, hrow, rfl⟩ := List.mem_map.mp hcid
    have hpos : 0 < rows.countP fun other => other.2 = row.2 ∧ other.1 = row.1 :=
      List.countP_pos_iff.mpr ⟨row, hrow, by simp⟩
    rw [← hlookup] at hpos
    cases hsome : counts.lookup row.1 with
    | none =>
      rw [hsome] at hpos
      cases hpos
    | some n => exact List.ne_nil_of_mem ((hentry (row.1, n)).mpr hsome)
  obtain ⟨best, hmem, hbest, hmax⟩ := max_by_count_spec hne
  refine ⟨best.1, lookup_foldl_of_mem map.nodupKeys (AList.mem_lookup_iff.mp hcounts) hbest ∅, ?_⟩
  have hmajority := h.majority_count cid
  rw [hcounts, Option.getD_some] at hmajority
  rw [← hmajority, ← hlookup, (hentry best).mp hmem, Option.getD_some]
  refine le_antisymm (duel.le_majority_count ((hentry best).mp hmem)) ?_
  exact duel.majority_count_le fun tag n htag => hmax (tag, n) ((hentry (tag, n)).mpr htag)

end

theorem grouping_failures_spec {corpus : List (List Char)} {majority : HashMap Nat (List Char)}
    {records : List (Nat × Nat × List Char)} {failures : List AuditFailure}
    (h : grouping_failures corpus majority records = ok failures) :
    (∀ failure ∈ failures, failure.metric = "grouping") ∧
      failures.map AuditFailure.corpus_index =
        (records.filter fun record => outside majority record.2.2 record.2.1).map Prod.fst := by
  induction records generalizing failures with
  | nil =>
    cases h
    exact ⟨fun _ h => absurd h List.not_mem_nil, rfl⟩
  | cons record records ih =>
    obtain ⟨idx, cid, gt_tag⟩ := record
    rw [grouping_failures] at h
    by_cases hout : outside majority gt_tag cid = true
    · rw [List.filter_cons, if_pos hout]
      rw [if_pos hout] at h
      cases hraw : corpus[idx]? with
      | none =>
        rw [hraw] at h
        cases h
      | some raw =>
        rw [hraw] at h
        obtain ⟨rest, hrest, hfailures⟩ := bind_eq_ok_iff.mp h
        cases hfailures
        obtain ⟨hmetric, hindex⟩ := ih hrest
        exact ⟨List.forall_mem_cons.mpr ⟨rfl, hmetric⟩, congrArg (idx :: ·) hindex⟩
    · rw [List.filter_cons, if_neg hout]
      rw [if_neg hout] at h
      exact ih h

theorem map_fst_numbered_nodup (idx : Nat) (rows : List (List Char × Nat)) :
    ((numbered idx rows).map Prod.fst).Nodup := by
  have hindex : (numbered idx rows).map Prod.fst = List.range' idx rows.length := by
    rw [numbered, List.map_map, ← List.zipIdx_map_snd idx rows]
    rfl
  rw [hindex]
  exact List.nodup_range'

theorem countP_numbered (idx : Nat) (rows : List (List Char × Nat)) (p : List Char × Nat → Bool) :
    (numbered idx rows).countP (fun record => p (record.2.2, record.2.1)) = rows.countP p := by
  have hrows : rows = (rows.zipIdx idx).map Prod.fst := (List.zipIdx_map_fst idx rows).symm
  conv_rhs => rw [hrows]
  rw [numbered, List.countP_map, List.countP_map]
  rfl

/-- The rows outside the chosen classes are all but those in the majority classes. -/
theorem countP_outside {rows : List (List Char × Nat)} {map : HashMap Nat (HashMap (List Char) Nat)}
    {order : Nat → HashMap (List Char) Nat → List (List Char × Nat)}
    (horder : ∀ cid counts,
      (order cid counts).Perm (counts.entries.map fun entry => (entry.1, entry.2)))
    (h : duel.Counts rows map) :
    rows.countP (fun row => outside (majority_tags order map) row.1 row.2) +
        Grouping.agreement rows Prod.fst Prod.snd =
      rows.length := by
  let choice : Nat → List Char := fun cid => ((majority_tags order map).lookup cid).getD []
  have hchosen : ∀ row ∈ rows, (majority_tags order map).lookup row.2 = some (choice row.2) ∧
      rows.countP (fun other => other.2 = row.2 ∧ other.1 = choice row.2) =
        Grouping.majority rows Prod.fst Prod.snd row.2 := by
    intro row hrow
    obtain ⟨tag, htag, hcount⟩ := countP_majority_tags horder h (List.mem_map_of_mem hrow)
    have hchoice : choice row.2 = tag := by
      simp only [choice, htag, Option.getD_some]
    rw [hchoice]
    exact ⟨htag, hcount⟩
  rw [← Grouping.countP_choice fun row hrow => (hchosen row hrow).2,
    rows.length_eq_countP_add_countP (fun row =>
      outside (majority_tags order map) row.1 row.2), Nat.add_left_cancel_iff]
  refine List.countP_congr fun row hrow => ?_
  simp only [outside, (hchosen row hrow).1, Option.any_some, decide_eq_true_eq, not_not, ne_eq]
  exact eq_comm

/-- Grouping accuracy and its list of failures agree: whatever the closures do and in whatever
    order the counts are iterated, the lines that are reported, each of them once, and those in the
    majority class of their cluster are all lines. -/
theorem grouping_failures_agree (H : Type) [Digest H] {σ : Type} {auditor : Auditor σ} {env : σ}
    {corpus : List (List Char)} {summary : AccuracyAuditSummary} {rob : RobustnessSummary}
    {failures : List AuditFailure}
    (haudit : audit_accuracy H auditor env corpus = ok (summary, rob, failures)) :
    ∃ rows, Grouped auditor env corpus rows ∧
      (failures.filter fun failure => failure.metric = "grouping").length +
        Grouping.agreement rows Prod.fst Prod.snd = corpus.length ∧
      summary.grouping_accuracy_ga_pct = pct (Grouping.agreement rows Prod.fst Prod.snd) corpus.length ∧
      ((failures.filter fun failure => failure.metric = "grouping").map
        AuditFailure.corpus_index).Nodup := by
  obtain ⟨s, hlines, hrest⟩ := bind_eq_ok_iff.mp haudit
  obtain ⟨grouping, hgrouping, hrest⟩ := bind_eq_ok_iff.mp hrest
  obtain ⟨preserved, -, hreport⟩ := bind_eq_ok_iff.mp hrest
  cases hreport
  obtain ⟨rows, hrows, haudited⟩ := audited_of_audit_lines H hlines
  obtain ⟨more, hmore, hother⟩ := haudited.failures_eq
  obtain ⟨hmetric, hindex⟩ := grouping_failures_spec hgrouping
  have hrecords : s.records = numbered 0 rows := by rw [haudited.records_eq]; rfl
  have hcounts : duel.Counts rows s.cluster_to_gt_map := by
    rw [haudited.map_eq]
    exact duel.counts_foldl rows
  have hreported : (s.failures ++ grouping).filter (fun failure => failure.metric = "grouping") =
      grouping := by
    rw [hmore, List.nil_append, List.filter_append, List.filter_eq_nil_iff.mpr, List.nil_append,
      List.filter_eq_self.mpr]
    · exact fun failure hfailure => decide_eq_true (hmetric failure hfailure)
    · exact fun failure hfailure hgroup => hother failure hfailure (of_decide_eq_true hgroup)
  rw [hreported, hindex, hrecords]
  refine ⟨rows, hrows, ?_, ?_, ?_⟩
  · rw [← List.length_map AuditFailure.corpus_index, hindex, hrecords, List.length_map,
      ← List.countP_eq_length_filter, countP_numbered 0 rows fun row => outside _ row.1 row.2,
      countP_outside auditor.order_perm hcounts,
      hrows.length_eq]
  · exact congrArg (fun total => pct total corpus.length) hcounts.sum_majority_count
  · exact (map_fst_numbered_nodup 0 rows).sublist (List.filter_sublist.map Prod.fst)

/-- Two lines of one class and one of another in one cluster: one of the three is reported. -/
theorem grouping_failures_agree_three_lines :
    ∃ summary rob failures,
      audit_accuracy Hash oneCluster () [str.lit "devname=a", str.lit "x", str.lit "y"] =
        ok (summary, rob, failures) ∧
      (failures.filter fun failure => failure.metric = "grouping").length = 1 := by
  have hcluster : ∀ env raw, oneCluster.cluster_fn env raw ≠ panic := fun env raw h => by cases h
  have hcompletes : audit_accuracy Hash oneCluster () [str.lit "devname=a", str.lit "x", str.lit "y"] ≠
      panic := by
    rw [audit_accuracy_ne_panic_iff, audit_lines_ne_panic_iff Hash hcluster]
    intro raw hraw _
    rw [← extract_ground_truth_ne_panic_iff]
    simp only [List.mem_cons, List.not_mem_nil, or_false] at hraw
    obtain rfl | rfl | rfl := hraw <;> decide
  obtain ⟨⟨summary, rob, failures⟩, haudit⟩ := ne_panic_iff.mp hcompletes
  obtain ⟨rows, hrows, hcount, -, -⟩ := grouping_failures_agree Hash haudit
  have hknown : ground_truth oneCluster (str.lit "devname=a") =
      ok (str.lit "Fortinet", str.lit "fortigate_traffic", none) := by decide
  have hunknown : ∀ raw, raw = str.lit "x" ∨ raw = str.lit "y" → ground_truth oneCluster raw =
      ok (str.lit "Unknown", str.lit "unknown_template", none) := by
    rintro raw (rfl | rfl) <;> decide
  refine ⟨summary, rob, failures, haudit, ?_⟩
  cases hrows with
  | cons hfirst hcluster₁ hrows =>
    cases hrows with
    | cons hsecond hcluster₂ hrows =>
      cases hrows with
      | cons hthird hcluster₃ hrows =>
        cases hrows
        rw [hknown] at hfirst
        rw [hunknown _ (.inl rfl)] at hsecond
        rw [hunknown _ (.inr rfl)] at hthird
        cases hfirst
        cases hsecond
        cases hthird
        cases hcluster₁
        cases hcluster₂
        cases hcluster₃
        have hagreement : Grouping.agreement [(str.lit "fortigate_traffic", 0),
            (str.lit "unknown_template", 0), (str.lit "unknown_template", 0)] Prod.fst Prod.snd = 2 := by
          decide +kernel
        rw [hagreement] at hcount
        exact Nat.add_right_cancel (m := 2) hcount

end ulpf_ai.evaluator.EvaluatorEngine
