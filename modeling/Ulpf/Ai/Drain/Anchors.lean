import Ulpf.Ai.Drain.Summary

open Result

namespace ulpf_ai.drain

/-- The value of a token is a word of the vocabulary. -/
def IsAnchor (vocab : List (List Char)) (token : List Char) : Prop :=
  ∃ word ∈ vocab, str.eq_ignore_ascii_case (DrainMiner.anchor_value token) word = true

/-- Two tokens have one value, whatever their keys and quotes. -/
def SameValue (t1 t2 : List Char) : Prop :=
  str.eq_ignore_ascii_case (DrainMiner.anchor_value t1) (DrainMiner.anchor_value t2) = true

/-- The key of a token is one of `CLASS_KEYS`. -/
def IsClass (token : List Char) : Prop :=
  ∃ key, DrainMiner.kv_key token = ok (some key) ∧
    ∃ word ∈ CLASS_KEYS, str.eq_ignore_ascii_case key word = true

instance (vocab : List (List Char)) (token : List Char) : Decidable (IsAnchor vocab token) :=
  inferInstanceAs (Decidable (∃ word ∈ vocab, _))

instance (token : List Char) : Decidable (IsClass token) :=
  match h : DrainMiner.kv_key token with
  | .ok (some key) =>
    decidable_of_iff (∃ word ∈ CLASS_KEYS, str.eq_ignore_ascii_case key word = true)
      ⟨fun hword => ⟨key, h, hword⟩, fun ⟨_, hkey, hword⟩ => (by rw [h] at hkey; cases hkey; exact hword)⟩
  | .ok none => isFalse fun ⟨_, hkey, _⟩ => (by rw [h] at hkey; cases hkey)
  | .panic => isFalse fun ⟨_, hkey, _⟩ => (by rw [h] at hkey; cases hkey)

theorem SameValue.refl (token : List Char) : SameValue token token :=
  str.eq_ignore_ascii_case_iff.mpr rfl

theorem SameValue.symm {t1 t2 : List Char} (h : SameValue t1 t2) : SameValue t2 t1 :=
  str.eq_ignore_ascii_case_iff.mpr (str.eq_ignore_ascii_case_iff.mp h).symm

theorem SameValue.isAnchor {vocab : List (List Char)} {t1 t2 : List Char} (h : SameValue t1 t2)
    (ht2 : IsAnchor vocab t2) : IsAnchor vocab t1 := by
  obtain ⟨word, hword, heq⟩ := ht2
  refine ⟨word, hword, str.eq_ignore_ascii_case_iff.mpr ?_⟩
  exact (str.eq_ignore_ascii_case_iff.mp h).trans (str.eq_ignore_ascii_case_iff.mp heq)

theorem DrainConfig.wildcard_notMem_default : WILDCARD ∉ DrainConfig.default.unique_anchor_tokens := by
  decide

/-- The wildcard is no anchor unless the vocabulary has it as a word. -/
theorem IsAnchor.ne_wildcard {vocab : List (List Char)} {token : List Char}
    (h : IsAnchor vocab token) (hvocab : WILDCARD ∉ vocab) : token ≠ WILDCARD := by
  rintro rfl
  obtain ⟨word, hword, heq⟩ := h
  have hlower : str.to_ascii_lowercase word = WILDCARD :=
    (str.eq_ignore_ascii_case_iff.mp heq).symm.trans (by decide)
  have hplain : ∀ c ∈ WILDCARD, c.isLower = false := by
    intro c hc
    simp only [WILDCARD, str.lit] at hc
    fin_cases hc <;> rfl
  rw [str.eq_of_to_ascii_lowercase_eq hplain hlower] at hword
  exact hvocab hword

theorem IsClass.ne_wildcard {token : List Char} (h : IsClass token) : token ≠ WILDCARD := by
  rintro rfl
  obtain ⟨key, hkey, -⟩ := h
  have hnone : DrainMiner.kv_key WILDCARD = ok none := rfl
  rw [hnone] at hkey
  cases hkey

/-- What a pair of tokens at one position of a template and of a line that joins it is
    known to satisfy. -/
structure Compatible (vocab : List (List Char)) (t1 t2 : List Char) : Prop where
  anchors : IsAnchor vocab t1 ∨ IsAnchor vocab t2 → SameValue t1 t2
  classes : IsClass t1 → IsClass t2 → SameValue t1 t2

namespace DrainMiner

theorem anchors_of_not_anchor_clash {vocab : List (List Char)} {t1 t2 : List Char}
    (h : anchor_clash vocab (anchor_value t1) (anchor_value t2) = false)
    (hanchor : IsAnchor vocab t1 ∨ IsAnchor vocab t2) : SameValue t1 t2 := by
  have hany : (vocab.any fun a => str.eq_ignore_ascii_case (anchor_value t1) a ||
      str.eq_ignore_ascii_case (anchor_value t2) a) = true := by
    rw [List.any_eq_true]
    obtain ⟨word, hword, heq⟩ | ⟨word, hword, heq⟩ := hanchor
    · exact ⟨word, hword, by rw [heq, Bool.true_or]⟩
    · exact ⟨word, hword, by rw [heq, Bool.or_true]⟩
  rw [anchor_clash, hany, Bool.true_and, Bool.not_eq_false'] at h
  exact h

/-- One class key is listed, so two class tokens have the same key. -/
theorem classes_of_not_class_clash {t1 t2 : List Char} {k1 k2 : Option (List Char)}
    (hk1 : kv_key t1 = ok k1) (hk2 : kv_key t2 = ok k2)
    (h : class_clash k1 k2 (anchor_value t1) (anchor_value t2) = false)
    (hclass1 : IsClass t1) (hclass2 : IsClass t2) : SameValue t1 t2 := by
  obtain ⟨key1, hkey1, word1, hword1, heq1⟩ := hclass1
  obtain ⟨key2, hkey2, word2, hword2, heq2⟩ := hclass2
  rw [hk1] at hkey1
  rw [hk2] at hkey2
  cases hkey1
  cases hkey2
  have hword : word1 = word2 := by
    rw [List.mem_singleton.mp hword1, List.mem_singleton.mp hword2]
  have hkeys : str.eq_ignore_ascii_case key1 key2 = true := by
    rw [str.eq_ignore_ascii_case_iff, str.eq_ignore_ascii_case_iff.mp heq1, hword,
      str.eq_ignore_ascii_case_iff.mp heq2]
  have hany : (CLASS_KEYS.any fun c => str.eq_ignore_ascii_case key1 c) = true :=
    List.any_eq_true.mpr ⟨word1, hword1, heq1⟩
  rw [class_clash, hkeys, hany, Bool.true_and, Bool.true_and, Bool.not_eq_false'] at h
  exact h

theorem compatible_of_forces_distinct {vocab : List (List Char)}
    {pairs : List (List Char × List Char)} (h : forces_distinct vocab pairs = ok false) :
    ∀ pair ∈ pairs, Compatible vocab pair.1 pair.2 := by
  induction pairs with
  | nil => simp
  | cons pair pairs ih =>
    obtain ⟨t1, t2⟩ := pair
    rw [forces_distinct] at h
    split at h
    · cases h
    rename_i hanchor
    obtain ⟨k1, hk1, h⟩ := bind_eq_ok_iff.mp h
    obtain ⟨k2, hk2, h⟩ := bind_eq_ok_iff.mp h
    split at h
    · cases h
    rename_i hclass
    intro pair hpair
    obtain rfl | hpair := List.mem_cons.mp hpair
    · exact ⟨anchors_of_not_anchor_clash (Bool.eq_false_iff.mpr hanchor),
        classes_of_not_class_clash hk1 hk2 (Bool.eq_false_iff.mpr hclass)⟩
    · exact ih h pair hpair

/-- Where a line is similar to a template at all, they are compatible at every position. -/
theorem compatible_of_compute_similarity {vocab tmpl_tokens in_tokens : List (List Char)} {sim : ℚ}
    (hvocab : vocab ≠ []) (h : compute_similarity tmpl_tokens in_tokens vocab = ok sim)
    (hsim : 0 < sim) {i : Nat} {t1 t2 : List Char} (ht1 : tmpl_tokens[i]? = some t1)
    (ht2 : in_tokens[i]? = some t2) : Compatible vocab t1 t2 := by
  have hempty : vocab.isEmpty = false := by simpa using hvocab
  unfold compute_similarity at h
  split at h
  · cases h
    exact absurd hsim (lt_irrefl 0)
  dsimp only at h
  rw [hempty] at h
  obtain ⟨distinct, hdistinct, h⟩ := bind_eq_ok_iff.mp h
  cases distinct with
  | true =>
    cases h
    exact absurd hsim (lt_irrefl 0)
  | false =>
    refine compatible_of_forces_distinct hdistinct (t1, t2) (List.mem_of_getElem? (i := i) ?_)
    rw [List.getElem?_zip_eq_some]
    exact ⟨ht1, ht2⟩

variable {crates : Crates} {config : DrainConfig} {history : List Taken} {self after : DrainMiner}
  {input : Input} {result : ClusterResult} {cluster : LogCluster}

theorem Matches.compatible {miner : DrainMiner} {tokens : List (List Char)}
    {syslog_tag : Option (List Char)} (h : miner.Matches tokens syslog_tag cluster)
    (hanchors : miner.config.anchors_enabled = true)
    (hvocab : miner.config.unique_anchor_tokens ≠ []) {i : Nat} {t1 t2 : List Char}
    (ht1 : cluster.template_tokens[i]? = some t1) (ht2 : tokens[i]? = some t2) :
    Compatible miner.config.unique_anchor_tokens t1 t2 := by
  obtain ⟨sim, hsim, hpos⟩ := h.similar
  rw [anchor_vocab, if_pos hanchors] at hsim
  exact compatible_of_compute_similarity hvocab hsim hpos ht1 ht2

/-- Every cluster has a line that founded it. -/
theorem Consistent.exists_founder (h : self.Consistent crates config history) {c_id : Nat}
    (hlookup : self.clusters.lookup c_id = some cluster) :
    ∃ founder ∈ history, founder.result.is_new = true ∧ founder.result.cluster_id = c_id := by
  have hmem := (h.mem_clusters c_id).mp (Consistent.mem_of_lookup hlookup)
  have hrange : c_id ∈ List.range' 1 (self.next_cluster_id - 1) := by
    rw [List.mem_range'_1]
    omega
  rw [← h.founders] at hrange
  obtain ⟨founder, hfounder, hid⟩ := List.mem_map.mp hrange
  obtain ⟨hhistory, hnew⟩ := List.mem_filter.mp hfounder
  exact ⟨founder, hhistory, hnew, hid⟩

/-- A line that was returned the cluster of an earlier line has joined it. -/
theorem Consistent.joins_earlier (h : self.Consistent crates config history)
    (hadds : self.Adds crates input result after) {taken : Taken} (htaken : taken ∈ history)
    (hid : taken.result.cluster_id = result.cluster_id) (htokens : input.tokens crates ≠ []) :
    ∃ cluster sim, self.find_best_match (input.tokens crates) (input.syslog_tag crates) =
        ok (some result.cluster_id, sim) ∧
      self.clusters.lookup result.cluster_id = some cluster ∧
      self.Matches (input.tokens crates) (input.syslog_tag crates) cluster := by
  cases hadds with
  | blank hblank => exact absurd hblank htokens
  | joins c_id cluster sim anomaly _ hfind hlookup hmatches =>
    exact ⟨cluster, sim, hfind, hlookup, hmatches⟩
  | founds cluster sim root _ hfind hcluster =>
    have hlt := h.known taken htaken
    dsimp only at hid
    omega

namespace Consistent

variable (h : self.Consistent crates config history)

include h

/-- A line that joins a cluster has as many tokens as its template. -/
theorem length_tokens {c_id : Nat} (hlookup : self.clusters.lookup c_id = some cluster)
    {tokens : List (List Char)} {syslog_tag : Option (List Char)}
    (hmatches : self.Matches tokens syslog_tag cluster) :
    tokens.length = cluster.template_tokens.length := by
  have hsize := (h.describes c_id cluster hlookup).size
  have hlength := hmatches.size
  omega

/-- What stands in the template of a cluster besides the wildcard stands in its members. -/
theorem member_token {taken : Taken} (htaken : taken ∈ history)
    (hlookup : self.clusters.lookup taken.result.cluster_id = some cluster) {i : Nat} {t : List Char}
    (ht : cluster.template_tokens[i]? = some t) (hne : t ≠ WILDCARD) :
    (taken.tokens crates)[i]? = some t := by
  have hmem : taken ∈ members taken.result.cluster_id history :=
    List.mem_filter.mpr ⟨htaken, decide_eq_true rfl⟩
  have hdescribes := h.describes _ cluster hlookup
  exact hdescribes.template_tokens.getElem?_eq ht hne _
    (List.mem_map_of_mem (f := fun taken : Taken => taken.tokens crates) hmem)

end Consistent

end DrainMiner

/-- Every anchor of a later line is an anchor of an earlier one, with the same value. -/
def Inherits (crates : Crates) (vocab : List (List Char)) (earlier later : Taken) : Prop :=
  ∀ (i : Nat) t, (later.tokens crates)[i]? = some t → IsAnchor vocab t →
    ∃ t', (earlier.tokens crates)[i]? = some t' ∧ IsAnchor vocab t' ∧ SameValue t' t

/-- A line has anchors, and all of them are among some verbs. -/
def AllAnchors (crates : Crates) (vocab verbs : List (List Char)) (taken : Taken) : Prop :=
  (∃ t ∈ taken.tokens crates, IsAnchor vocab t) ∧
  ∀ t ∈ taken.tokens crates, IsAnchor vocab t → IsAnchor verbs t

/-- Lines of different actions are never members of one cluster. -/
structure ActionsApart (crates : Crates) (vocab : List (List Char)) (history : List Taken) :
    Prop where
  inherited : history.Pairwise fun earlier later =>
    earlier.result.cluster_id = later.result.cluster_id → Inherits crates vocab earlier later
  agree : ∀ a ∈ history, ∀ b ∈ history, a.result.cluster_id = b.result.cluster_id →
    ∀ (i : Nat) ta tb, (a.tokens crates)[i]? = some ta → (b.tokens crates)[i]? = some tb →
      IsAnchor vocab ta → IsAnchor vocab tb → SameValue ta tb
  verbs : ∀ allow deny : List (List Char),
    (∀ word ∈ allow, ∀ word' ∈ deny, str.eq_ignore_ascii_case word word' = false) →
    ∀ a ∈ history, ∀ b ∈ history, AllAnchors crates vocab allow a → AllAnchors crates vocab deny b →
      a.result.cluster_id ≠ b.result.cluster_id

theorem Inherits.sameValue {crates : Crates} {vocab : List (List Char)} {earlier later : Taken}
    (h : Inherits crates vocab earlier later) {i : Nat} {t1 t2 : List Char}
    (ht1 : (earlier.tokens crates)[i]? = some t1) (ht2 : (later.tokens crates)[i]? = some t2)
    (hanchor : IsAnchor vocab t2) : SameValue t1 t2 := by
  obtain ⟨t, ht, -, hsame⟩ := h i t2 ht2 hanchor
  rw [ht1] at ht
  cases ht
  exact hsame

/-- Tokens that are anchors for words of two lists have different values when the lists
    have no word in common. -/
theorem not_sameValue {allow deny : List (List Char)}
    (hdisjoint : ∀ word ∈ allow, ∀ word' ∈ deny, str.eq_ignore_ascii_case word word' = false)
    {t1 t2 : List Char} (ht1 : IsAnchor allow t1) (ht2 : IsAnchor deny t2) : ¬ SameValue t1 t2 := by
  intro hsame
  obtain ⟨word, hword, heq⟩ := ht1
  obtain ⟨word', hword', heq'⟩ := ht2
  have hwords : str.eq_ignore_ascii_case word word' = true := by
    rw [str.eq_ignore_ascii_case_iff, ← str.eq_ignore_ascii_case_iff.mp heq,
      str.eq_ignore_ascii_case_iff.mp hsame, str.eq_ignore_ascii_case_iff.mp heq']
  rw [hdisjoint word hword word' hword'] at hwords
  cases hwords

/-- The verbs of a line and of one that inherits its anchors are not disjoint. -/
theorem Inherits.not_disjoint {crates : Crates} {vocab verbs verbs' : List (List Char)}
    {earlier later : Taken} (h : Inherits crates vocab earlier later)
    (hearlier : AllAnchors crates vocab verbs earlier) (hlater : AllAnchors crates vocab verbs' later) :
    ∃ t1 t2, IsAnchor verbs t1 ∧ IsAnchor verbs' t2 ∧ SameValue t1 t2 := by
  obtain ⟨⟨t2, ht2, hanchor2⟩, hall2⟩ := hlater
  obtain ⟨i, hi⟩ := List.getElem?_of_mem ht2
  obtain ⟨t1, ht1, hanchor1, hsame⟩ := h i t2 hi hanchor2
  exact ⟨t1, t2, hearlier.2 t1 (List.mem_of_getElem? ht1) hanchor1, hall2 t2 ht2 hanchor2, hsame⟩

theorem Inherits.refl (crates : Crates) (vocab : List (List Char)) (taken : Taken) :
    Inherits crates vocab taken taken :=
  fun _ t ht hanchor => ⟨t, ht, hanchor, SameValue.refl t⟩

/-- It is enough that each line inherits from the earlier members of its cluster. -/
theorem actionsApart_of_pairwise {crates : Crates} {vocab : List (List Char)} {history : List Taken}
    (h : history.Pairwise fun earlier later =>
      earlier.result.cluster_id = later.result.cluster_id → Inherits crates vocab earlier later) :
    ActionsApart crates vocab history := by
  let R := fun a b : Taken => a.result.cluster_id = b.result.cluster_id →
    Inherits crates vocab a b ∨ Inherits crates vocab b a
  have hsymm : Std.Symm R := ⟨fun a b hab hid => (hab hid.symm).symm⟩
  have hpairwise : history.Pairwise R := h.imp fun hab hid => .inl (hab hid)
  have hpair : ∀ a ∈ history, ∀ b ∈ history, R a b := fun a ha b hb =>
    hpairwise.forall_of_forall (fun x _ _ => .inl (Inherits.refl crates vocab x)) ha hb
  refine ⟨h, ?_, ?_⟩
  · intro a ha b hb hid i ta tb hta htb hanchora hanchorb
    obtain hab | hba := hpair a ha b hb hid
    · exact hab.sameValue hta htb hanchorb
    · exact (hba.sameValue htb hta hanchora).symm
  · intro allow deny hdisjoint a ha b hb hallow hdeny hid
    obtain hab | hba := hpair a ha b hb hid
    · obtain ⟨t1, t2, ht1, ht2, hsame⟩ := hab.not_disjoint hallow hdeny
      exact not_sameValue hdisjoint ht1 ht2 hsame
    · obtain ⟨t2, t1, ht2, ht1, hsame⟩ := hba.not_disjoint hdeny hallow
      exact not_sameValue hdisjoint ht1 ht2 hsame.symm

namespace DrainMiner

variable {crates : Crates} {config : DrainConfig} {history : List Taken} {self after : DrainMiner}
  {input : Input} {result : ClusterResult}

/-- A line that joins a cluster inherits its anchors: they stand in the template, and what
    stands there besides the wildcard stands in every member. -/
theorem Consistent.inherits (h : self.Consistent crates config history)
    (hanchors : config.anchors_enabled = true) (hvocab : WILDCARD ∉ config.unique_anchor_tokens)
    (hadds : self.Adds crates input result after) {taken : Taken} (htaken : taken ∈ history)
    (hid : taken.result.cluster_id = result.cluster_id) :
    Inherits crates config.unique_anchor_tokens taken ⟨input, result⟩ := by
  intro i t ht hanchor
  have htokens : input.tokens crates ≠ [] := List.ne_nil_of_mem (List.mem_of_getElem? ht)
  have hne : config.unique_anchor_tokens ≠ [] := by
    obtain ⟨word, hword, -⟩ := hanchor
    exact List.ne_nil_of_mem hword
  obtain ⟨cluster, sim, -, hlookup, hmatches⟩ := h.joins_earlier hadds htaken hid htokens
  obtain ⟨t', ht'⟩ := Template.exists_getElem? (h.length_tokens hlookup hmatches) ht
  rw [← h.config_eq] at hanchors hvocab hne hanchor ⊢
  have hsame := (hmatches.compatible hanchors hne ht' ht).anchors (.inr hanchor)
  have hanchor' := hsame.isAnchor hanchor
  rw [← hid] at hlookup
  exact ⟨t', h.member_token htaken hlookup ht' (hanchor'.ne_wildcard hvocab), hanchor', hsame⟩

/-- In a run with anchors no two lines of different actions are put into one cluster. -/
theorem actions_apart (crates : Crates) {config : DrainConfig}
    (hanchors : config.anchors_enabled = true) (hvocab : WILDCARD ∉ config.unique_anchor_tokens)
    {inputs : List Input} {history : List Taken} {miner : DrainMiner}
    (hrun : (new config).run crates inputs = ok (history, miner)) :
    ActionsApart crates config.unique_anchor_tokens history := by
  let inv := fun (prior : List Taken) (self : DrainMiner) => self.Consistent crates config prior ∧
    prior.Pairwise fun earlier later => earlier.result.cluster_id = later.result.cluster_id →
      Inherits crates config.unique_anchor_tokens earlier later
  have hfinal : inv ([] ++ history) miner := by
    refine run_invariant ?_ ⟨consistent_new crates config, .nil⟩
      (meets_true (new config) inputs) hrun
    rintro prior self input result after ⟨hconsistent, hpairwise⟩ - hadds
    refine ⟨hconsistent.adds hadds, ?_⟩
    rw [List.pairwise_append]
    refine ⟨hpairwise, List.pairwise_singleton _ _, ?_⟩
    intro taken htaken later hlater hid
    rw [List.mem_singleton] at hlater
    subst hlater
    exact hconsistent.inherits hanchors hvocab hadds htaken hid
  exact actionsApart_of_pairwise hfinal.2

def denyLan : Input := ⟨str.lit "tcp in deny lan", 0⟩

def denyWan : Input := ⟨str.lit "tcp in deny wan", 1⟩

/-- Two lines of one cluster. -/
def denyLines : List Input := [denyLan, denyWan]

theorem actions_apart_two_members :
    DrainConfig.default.anchors_enabled = true ∧
    WILDCARD ∉ DrainConfig.default.unique_anchor_tokens ∧
    ∃ history miner, (new DrainConfig.default).run default denyLines = ok (history, miner) ∧
      history.map (fun taken => taken.result.cluster_id) = [1, 1] ∧
      ActionsApart default DrainConfig.default.unique_anchor_tokens history := by
  have hids : ((new DrainConfig.default).run default denyLines >>= fun state =>
      ok (state.1.map fun taken => taken.result.cluster_id)) = ok [1, 1] := by
    decide +kernel
  obtain ⟨⟨history, miner⟩, hrun, hids⟩ := bind_eq_ok_iff.mp hids
  exact ⟨rfl, DrainConfig.wildcard_notMem_default, history, miner, hrun, Result.ok.inj hids,
    actions_apart default rfl DrainConfig.wildcard_notMem_default hrun⟩

end DrainMiner

end ulpf_ai.drain
