import Mathlib.Algebra.Order.BigOperators.Group.List
import Ulpf.Lib.Quote
import Ulpf.Ai.Drain.Summary
import Ulpf.Ai.Evaluator.Template

open Result ulpf_ai.drain

namespace ulpf_ai.evaluator.EvaluatorEngine

/-- The tokens of a text with a space in it: what lies between whitespace, without quotes at the
    edges. -/
def words (text : List Char) : List (List Char) :=
  (((text.splitOnP Char.is_whitespace).filter fun s => !s.isEmpty).map
    (str.trim_matches DrainMiner.is_token_quote)).filter fun s => !s.isEmpty

/-- A token of a template stands for a token of the line. -/
def Stands (token masked : List Char) : Prop := token = WILDCARD ∨ token = masked

/-- A token that is found again when the template is split: alone it has no comma, and among others
    it is one word, that itself or the wildcard. -/
def Kept (tokens : List (List Char)) (token : List Char) : Prop :=
  if tokens.length = 1 then ',' ∉ token else words token = [token] ∨ words token = [WILDCARD]

instance (tokens : List (List Char)) : DecidablePred (Kept tokens) := fun token =>
  inferInstanceAs (Decidable
    (if tokens.length = 1 then ',' ∉ token else words token = [token] ∨ words token = [WILDCARD]))

/-- Not both a token of several words and a token of none, whose errors in the count could make up
    for each other. -/
def NoShift (tokens : List (List Char)) : Prop :=
  (∀ token ∈ tokens, 1 ≤ (words token).length) ∨ ∀ token ∈ tokens, (words token).length ≤ 1

theorem tokenize_of_space {text : List Char} (h : ' ' ∈ text) :
    DrainMiner.tokenize text = words text := by
  rw [DrainMiner.tokenize, if_pos (by simpa using h)]
  rfl

theorem words_append_space (a b : List Char) : words (a ++ ' ' :: b) = words a ++ words b := by
  rw [words, List.splitOnP_append_cons a b (by decide), List.filter_append, List.map_append,
    List.filter_append]
  rfl

theorem words_join (tokens : List (List Char)) :
    words (LogCluster.join tokens) = tokens.flatMap words := by
  unfold LogCluster.join
  induction tokens with
  | nil => rfl
  | cons token tokens ih =>
    cases tokens with
    | nil => rw [List.intercalate_singleton, List.flatMap_singleton]
    | cons next tokens =>
      rw [List.intercalate_cons_cons, List.append_assoc, List.singleton_append, words_append_space, ih]
      exact List.flatMap_cons.symm

theorem words_wildcard : words WILDCARD = [WILDCARD] := by decide

/-- What the check says of a template, apart from syslog tags. -/
theorem template_is_valid_iff_stands {crates : Crates} {raw masked template gt_template : List Char}
    (hmasked : LogMasker.mask crates raw = ok masked) (htag : gt_template.head? ≠ some '%') :
    template_is_valid crates raw template gt_template = ok true ↔
      template ≠ [] ∧ List.Forall₂ Stands (DrainMiner.tokenize template) (DrainMiner.tokenize masked) := by
  rw [template_is_valid, hmasked, bind_ok, List.forall₂_iff_zip]
  by_cases hempty : template = []
  · subst hempty
    exact iff_of_false (fun h => by cases h) fun h => h.1 rfl
  rw [if_neg fun h => hempty (List.isEmpty_iff.mp h)]
  by_cases hlength : (DrainMiner.tokenize template).length = (DrainMiner.tokenize masked).length
  · rw [if_neg (not_not.mpr hlength)]
    have hpercent :
        (decide (gt_template.head? = some '%') && !str.contains gt_template template) = false := by
      rw [decide_eq_false htag, Bool.false_and]
    rw [hpercent]
    by_cases hall : ((DrainMiner.tokenize template).zip (DrainMiner.tokenize masked)).all
        (fun pair => pair.1 = WILDCARD || pair.1 = pair.2) = true
    · rw [hall]
      refine iff_of_true rfl ⟨hempty, hlength, fun {a b} hpair => ?_⟩
      simpa [Stands] using List.all_eq_true.mp hall (a, b) hpair
    · rw [Bool.eq_false_iff.mpr hall]
      refine iff_of_false (fun h => by cases h) fun h => hall (List.all_eq_true.mpr fun pair hpair => ?_)
      simpa [Stands] using h.2.2 hpair
  · rw [if_pos hlength]
    exact iff_of_false (fun h => by cases h) fun h => hlength h.2.1

section

variable {before tokens : List (List Char)}

/-- Tokens of one word each, or wildcards, are found again. -/
theorem stands_flatMap_words (hlength : before.length = tokens.length)
    (hkept : ∀ pair ∈ before.zip tokens, pair.1 = pair.2 →
      words pair.2 = [pair.2] ∨ words pair.2 = [WILDCARD]) :
    List.Forall₂ Stands ((Template.merge WILDCARD before tokens).flatMap words) tokens := by
  induction before generalizing tokens with
  | nil =>
    cases tokens with
    | nil => exact .nil
    | cons token tokens => cases hlength
  | cons old before ih =>
    cases tokens with
    | nil => cases hlength
    | cons token tokens =>
      rw [List.zip_cons_cons, List.forall_mem_cons] at hkept
      have hrest := ih (Nat.succ_injective hlength) hkept.2
      rw [Template.merge, List.zipWith_cons_cons, List.flatMap_cons]
      by_cases hsame : old = token
      · subst hsame
        rw [if_pos rfl]
        rcases hkept.1 rfl with hword | hword
        · rw [hword]
          exact .cons (.inr rfl) hrest
        · rw [hword]
          exact .cons (.inl rfl) hrest
      · rw [if_neg hsame, words_wildcard]
        exact .cons (.inl rfl) hrest

theorem length_le_flatMap {α β : Type} {f : α → List β} {l : List α} (h : ∀ a ∈ l, 1 ≤ (f a).length) :
    l.length ≤ (l.flatMap f).length := by
  have hsum := List.length_le_sum_of_one_le (l.map fun a => (f a).length) (List.forall_mem_map.mpr h)
  rwa [List.length_map, ← List.length_flatMap] at hsum

theorem length_flatMap_le {α β : Type} {f : α → List β} {l : List α} (h : ∀ a ∈ l, (f a).length ≤ 1) :
    (l.flatMap f).length ≤ l.length := by
  have hsum := List.sum_le_card_nsmul (l.map fun a => (f a).length) 1 (List.forall_mem_map.mpr h)
  rwa [List.length_map, ← List.length_flatMap, nsmul_one, Nat.cast_id] at hsum

/-- Where all parts have an element, or none has two, the length says that each has one. -/
theorem length_eq_one_of_flatMap {α β : Type} {f : α → List β} {l : List α}
    (h : (∀ a ∈ l, 1 ≤ (f a).length) ∨ ∀ a ∈ l, (f a).length ≤ 1)
    (hlength : (l.flatMap f).length = l.length) : ∀ a ∈ l, (f a).length = 1 := by
  induction l with
  | nil => exact fun a ha => absurd ha List.not_mem_nil
  | cons a l ih =>
    simp only [List.forall_mem_cons] at h
    rw [List.flatMap_cons, List.length_append, List.length_cons] at hlength
    have hhead : (f a).length = 1 ∧ (l.flatMap f).length = l.length := by
      rcases h with ⟨ha, hl⟩ | ⟨ha, hl⟩
      · have := length_le_flatMap hl
        omega
      · have := length_flatMap_le hl
        omega
    exact List.forall_mem_cons.mpr ⟨hhead.1, ih (h.imp And.right And.right) hhead.2⟩

theorem mem_merge {token : List Char} (h : token ∈ Template.merge WILDCARD before tokens) :
    token = WILDCARD ∨ token ∈ tokens := by
  rw [Template.merge, ← List.map_uncurry_zip_eq_zipWith, List.mem_map] at h
  obtain ⟨⟨old, new⟩, hpair, rfl⟩ := h
  by_cases hsame : old = new
  · subst hsame
    exact .inr (by simpa using (List.of_mem_zip hpair).2)
  · exact .inl (if_neg hsame)

/-- Tokens that are found again have one word each, where no shift hides it. -/
theorem kept_of_stands (hlength : before.length = tokens.length) (hshift : NoShift tokens)
    (h : List.Forall₂ Stands ((Template.merge WILDCARD before tokens).flatMap words) tokens) :
    ∀ pair ∈ before.zip tokens, pair.1 = pair.2 →
      words pair.2 = [pair.2] ∨ words pair.2 = [WILDCARD] := by
  have hone : ∀ token ∈ Template.merge WILDCARD before tokens, (words token).length = 1 := by
    refine length_eq_one_of_flatMap ?_ ?_
    · refine hshift.imp (fun hall token htoken => ?_) (fun hall token htoken => ?_)
      · rcases mem_merge htoken with rfl | htoken
        · rw [words_wildcard]
          exact le_rfl
        · exact hall token htoken
      · rcases mem_merge htoken with rfl | htoken
        · rw [words_wildcard]
          exact le_rfl
        · exact hall token htoken
    · rw [h.length_eq, Template.length_merge hlength.symm, hlength]
  clear hshift
  induction before generalizing tokens with
  | nil => exact fun pair hpair => absurd hpair List.not_mem_nil
  | cons old before ih =>
    cases tokens with
    | nil => cases hlength
    | cons token tokens =>
      rw [Template.merge, List.zipWith_cons_cons] at h hone
      rw [List.forall_mem_cons] at hone
      obtain ⟨word, hword⟩ := List.length_eq_one_iff.mp hone.1
      rw [List.flatMap_cons, hword, List.singleton_append, List.forall₂_cons] at h
      rw [List.zip_cons_cons, List.forall_mem_cons]
      refine ⟨fun hsame => ?_, ih (Nat.succ_injective hlength) h.2 hone.2⟩
      dsimp only at hsame
      subst hsame
      rw [if_pos rfl] at hword
      rcases h.1 with rfl | rfl
      · exact .inr hword
      · exact .inl hword

end

section

variable {masked token : List Char}

theorem space_notMem_of_tokenize (h : token ∈ DrainMiner.tokenize masked) : ' ' ∉ token := by
  intro hspace
  rw [DrainMiner.tokenize] at h
  split at h
  · obtain ⟨part, hpart, rfl⟩ := List.mem_map.mp (List.mem_of_mem_filter h)
    have hclean := str.forall_mem_of_mem_splitOnP (List.mem_of_mem_filter hpart)
      (str.mem_of_mem_trim_matches hspace)
    cases hclean
  · rename_i hno
    refine hno (List.contains_iff_mem.mpr ?_)
    split at h
    · obtain ⟨part, hpart, rfl⟩ := List.mem_map.mp (List.mem_of_mem_filter h)
      exact (str.exists_mem_splitOnP_iff rfl).mp ⟨part, hpart, str.mem_of_mem_trim_matches hspace⟩
    · rwa [List.mem_singleton.mp h] at hspace

/-- The tokens of a text without a space: what lies between commas. -/
def csvFields (text : List Char) : List (List Char) :=
  ((text.splitOnP (· = ',')).map str.trim).filter fun s => !s.isEmpty

theorem csvFields_append_comma (a b : List Char) :
    csvFields (a ++ ',' :: b) = csvFields a ++ csvFields b := by
  rw [csvFields, List.splitOnP_append_cons a b (by decide), List.map_append, List.filter_append]
  rfl

theorem csvFields_length_pos {text : List Char} {c : Char} (hmem : c ∈ text) (hcomma : c ≠ ',')
    (hclean : c.is_whitespace = false) : 0 < (csvFields text).length := by
  obtain ⟨part, hpart, hc⟩ :=
    (str.exists_mem_splitOnP_iff (p := (· = ',')) (decide_eq_false hcomma)).mpr hmem
  have htrim : str.trim part ≠ [] := by
    rw [Ne, str.trim_eq_nil_iff]
    intro hspaces
    rw [hspaces c hc] at hclean
    cases hclean
  refine List.length_pos_of_mem (List.mem_filter.mpr ⟨List.mem_map_of_mem hpart, ?_⟩)
  simpa using htrim

/-- A comma is left inside a token only where whitespace cuts the line, and then it has other
    characters on both sides. -/
theorem comma_inside (h : token ∈ DrainMiner.tokenize masked) (hcomma : ',' ∈ token) :
    (∀ c ∈ token, c.is_whitespace = false) ∧
      ∃ a b, token = a ++ ',' :: b ∧ (∃ c ∈ a, c ≠ ',') ∧ ∃ c ∈ b, c ≠ ',' := by
  rw [DrainMiner.tokenize] at h
  split at h
  · obtain ⟨part, hpart, rfl⟩ := List.mem_map.mp (List.mem_of_mem_filter h)
    refine ⟨fun c hc => str.forall_mem_of_mem_splitOnP (List.mem_of_mem_filter hpart)
      (str.mem_of_mem_trim_matches hc), ?_⟩
    obtain ⟨hhead, hlast⟩ := str.trim_matches_ends DrainMiner.is_token_quote part
    obtain ⟨a, b, hsplit⟩ := List.append_of_mem hcomma
    rw [hsplit] at hhead hlast ⊢
    refine ⟨a, b, rfl, ?_, ?_⟩
    · cases a with
      | nil => cases hhead ',' rfl
      | cons c a =>
        refine ⟨c, List.mem_cons_self, ?_⟩
        rintro rfl
        cases hhead ',' rfl
    · obtain rfl | ⟨b, c, rfl⟩ := List.eq_nil_or_concat' b
      · cases hlast ',' List.getLast?_concat
      · rw [← List.cons_append, ← List.append_assoc, List.getLast?_concat] at hlast
        refine ⟨c, List.mem_append_right _ List.mem_cons_self, ?_⟩
        rintro rfl
        cases hlast ',' rfl
  · split at h
    · obtain ⟨part, hpart, rfl⟩ := List.mem_map.mp (List.mem_of_mem_filter h)
      have hclean := str.forall_mem_of_mem_splitOnP hpart (str.mem_of_mem_trim_matches hcomma)
      cases hclean
    · rename_i hno
      rw [List.mem_singleton.mp h] at hcomma
      exact absurd (List.contains_iff_mem.mpr hcomma) hno

/-- A token that stands alone is found again exactly if it has no comma. -/
theorem stands_alone_iff (h : token ∈ DrainMiner.tokenize masked) :
    List.Forall₂ Stands (DrainMiner.tokenize token) [token] ↔ ',' ∉ token := by
  have hspace := space_notMem_of_tokenize h
  rw [DrainMiner.tokenize, if_neg fun h => hspace (List.contains_iff_mem.mp h)]
  by_cases hcomma : ',' ∈ token
  · refine iff_of_false (fun hstands => ?_) (not_not.mpr hcomma)
    obtain ⟨hclean, a, b, hsplit, ⟨c, hc, hne⟩, d, hd, hne'⟩ := comma_inside h hcomma
    rw [if_pos (List.contains_iff_mem.mpr hcomma)] at hstands
    have hlength : (csvFields token).length = 1 := hstands.length_eq
    rw [hsplit] at hlength hclean
    have hbefore := csvFields_length_pos hc hne (hclean c (List.mem_append_left _ hc))
    have hafter := csvFields_length_pos hd hne'
      (hclean d (List.mem_append_right _ (List.mem_cons_of_mem _ hd)))
    rw [csvFields_append_comma, List.length_append] at hlength
    omega
  · rw [if_neg fun h => hcomma (List.contains_iff_mem.mp h)]
    exact iff_of_true (.cons (.inr rfl) .nil) hcomma

end

/-- What a line meets in a state: the tokens of the template that its own are matched against, or
    its own where it founds a cluster. -/
def recalled (crates : Crates) (miner : DrainMiner) (input : Input) : List (List Char) :=
  match miner.find_best_match (input.tokens crates) (input.syslog_tag crates) with
  | ok (some c_id, _) =>
    match miner.clusters.lookup c_id with
    | some cluster => cluster.template_tokens
    | none => input.tokens crates
  | _ => input.tokens crates

/-- The tokens of a line that stay in the template are found again. -/
def Recovered (crates : Crates) (miner : DrainMiner) (input : Input) : Prop :=
  ∀ pair ∈ (recalled crates miner input).zip (input.tokens crates), pair.1 = pair.2 →
    Kept (input.tokens crates) pair.2

instance (crates : Crates) (miner : DrainMiner) (input : Input) :
    Decidable (Recovered crates miner input) :=
  inferInstanceAs (Decidable (∀ pair ∈ _, _))

section

variable {before tokens : List (List Char)}

theorem space_mem_join (hmany : 2 ≤ tokens.length) : ' ' ∈ LogCluster.join tokens := by
  match tokens, hmany with
  | a :: b :: rest, _ =>
    rw [LogCluster.join, List.intercalate_cons_cons]
    simp

theorem length_merge_tokens (hlength : before.length = tokens.length) :
    (Template.merge WILDCARD before tokens).length = tokens.length := by
  rw [Template.length_merge hlength.symm, hlength]

/-- The template of a line with one token. -/
theorem join_merge_single (old token : List Char) :
    LogCluster.join (Template.merge WILDCARD [old] [token]) = if old = token then token else WILDCARD := by
  rw [Template.merge, List.zipWith_cons_cons, List.zipWith_nil_left, LogCluster.join,
    List.intercalate_singleton]
  split
  · assumption
  · rfl

theorem join_merge_ne_nil (hlength : before.length = tokens.length)
    (htoken : ∃ token ∈ tokens, token ≠ []) :
    LogCluster.join (Template.merge WILDCARD before tokens) ≠ [] := by
  obtain ⟨token, hmem, hne⟩ := htoken
  have hpos := List.length_pos_of_mem hmem
  by_cases hmany : 2 ≤ tokens.length
  · exact List.ne_nil_of_mem (space_mem_join (by rwa [length_merge_tokens hlength]))
  · obtain ⟨only, rfl⟩ := List.length_eq_one_iff.mp (show tokens.length = 1 by omega)
    obtain ⟨old, rfl⟩ := List.length_eq_one_iff.mp hlength
    rw [List.mem_singleton] at hmem
    subst hmem
    rw [join_merge_single]
    split
    · exact hne
    · decide

/-- Both ways a template is cut again. -/
theorem stands_join_merge {masked : List Char} (htokens : tokens = DrainMiner.tokenize masked)
    (hne : tokens ≠ []) (hlength : before.length = tokens.length)
    (hkept : ∀ pair ∈ before.zip tokens, pair.1 = pair.2 → Kept tokens pair.2) :
    List.Forall₂ Stands
      (DrainMiner.tokenize (LogCluster.join (Template.merge WILDCARD before tokens))) tokens := by
  by_cases hone : tokens.length = 1
  · obtain ⟨token, rfl⟩ := List.length_eq_one_iff.mp hone
    obtain ⟨old, rfl⟩ := List.length_eq_one_iff.mp hlength
    rw [join_merge_single]
    split
    · rename_i hsame
      have hcomma := hkept (old, token) List.mem_cons_self hsame
      rw [Kept, if_pos hone] at hcomma
      exact (stands_alone_iff (htokens ▸ List.mem_cons_self)).mpr hcomma
    · exact .cons (.inl rfl) .nil
  · have hmany : 2 ≤ (Template.merge WILDCARD before tokens).length := by
      have := List.length_pos_iff.mpr hne
      rw [length_merge_tokens hlength]
      omega
    rw [tokenize_of_space (space_mem_join hmany), words_join]
    refine stands_flatMap_words hlength fun pair hpair hsame => ?_
    have hword := hkept pair hpair hsame
    rwa [Kept, if_neg hone] at hword

theorem kept_of_stands_join_merge {masked : List Char} (htokens : tokens = DrainMiner.tokenize masked)
    (hne : tokens ≠ []) (hlength : before.length = tokens.length) (hshift : NoShift tokens)
    (hstands : List.Forall₂ Stands
      (DrainMiner.tokenize (LogCluster.join (Template.merge WILDCARD before tokens))) tokens) :
    ∀ pair ∈ before.zip tokens, pair.1 = pair.2 → Kept tokens pair.2 := by
  intro pair hpair hsame
  by_cases hone : tokens.length = 1
  · rw [Kept, if_pos hone]
    obtain ⟨token, rfl⟩ := List.length_eq_one_iff.mp hone
    obtain ⟨old, rfl⟩ := List.length_eq_one_iff.mp hlength
    rw [List.zip_cons_cons, List.zip_nil_left, List.mem_singleton] at hpair
    subst hpair
    rw [join_merge_single, if_pos hsame] at hstands
    exact (stands_alone_iff (htokens ▸ List.mem_cons_self)).mp hstands
  · rw [Kept, if_neg hone]
    have hmany : 2 ≤ (Template.merge WILDCARD before tokens).length := by
      have := List.length_pos_iff.mpr hne
      rw [length_merge_tokens hlength]
      omega
    rw [tokenize_of_space (space_mem_join hmany), words_join] at hstands
    exact kept_of_stands hlength hshift hstands pair hpair hsame

end

section

variable {crates : Crates} {config : DrainConfig} {history : List Taken} {miner after : DrainMiner}
  {input : Input} {result : ClusterResult}

/-- The template of a line merges what it meets with its own tokens. -/
theorem template_of_adds (h : miner.Consistent crates config history)
    (hadds : miner.Adds crates input result after) (htokens : input.tokens crates ≠ []) :
    (recalled crates miner input).length = (input.tokens crates).length ∧
      result.template =
        LogCluster.join (Template.merge WILDCARD (recalled crates miner input) (input.tokens crates)) := by
  cases hadds with
  | blank hblank => exact absurd hblank htokens
  | joins c_id cluster sim anomaly _ hfind hlookup hmatches =>
    have hdescribes := h.describes c_id cluster hlookup
    have hlength : (input.tokens crates).length = cluster.template_tokens.length := by
      rw [← hmatches.size, hdescribes.size]
    have hrecalled : recalled crates miner input = cluster.template_tokens := by
      simp only [recalled, hfind, hlookup]
    rw [hrecalled, LogCluster.template_update hdescribes.template]
    exact ⟨hlength.symm, congrArg LogCluster.join (LogCluster.merge_tokens_eq hlength)⟩
  | founds cluster sim root _ hfind hcluster =>
    have hrecalled : recalled crates miner input = input.tokens crates := by
      simp only [recalled, hfind]
    rw [hrecalled, Template.merge_self, hcluster]
    exact ⟨rfl, rfl⟩

end

/-- The audit accepts the template that the miner gives a line whose tokens are all found again
    when the template is split, in every state that a run reaches; and those lines only, but for
    ones where an extra word stands in for one that is lost. -/
theorem template_is_valid_of_run (crates : Crates) {config : DrainConfig}
    {inputs : List Input} {history : List Taken} {miner : DrainMiner}
    (hrun : (DrainMiner.new config).run crates inputs = ok (history, miner)) (input : Input)
    (htoken : ∃ token ∈ input.tokens crates, token ≠ []) (gt_template : List Char)
    (htag : gt_template.head? ≠ some '%') :
    ∃ result after, miner.add_log crates input.raw input.now_ms = ok (result, after) ∧
      (Recovered crates miner input →
        template_is_valid crates input.raw result.template gt_template = ok true) ∧
      (NoShift (input.tokens crates) →
        template_is_valid crates input.raw result.template gt_template = ok true →
          Recovered crates miner input) := by
  have hconsistent := DrainMiner.consistent_of_run hrun
  obtain ⟨result, after, hadd, -⟩ := DrainMiner.add_log_ok crates miner input.raw input.now_ms
  obtain ⟨masked, hmasked⟩ := ne_panic_iff.mp (LogMasker.mask_ne_panic crates input.raw)
  have htokens : input.tokens crates = DrainMiner.tokenize masked := by rw [Input.tokens, hmasked]
  have hne : input.tokens crates ≠ [] := by
    obtain ⟨token, hmem, -⟩ := htoken
    exact List.ne_nil_of_mem hmem
  obtain ⟨hlength, htemplate⟩ :=
    template_of_adds hconsistent (DrainMiner.adds_of_add_log hadd) hne
  refine ⟨result, after, hadd, ?_, ?_⟩
  · intro hrecovered
    rw [template_is_valid_iff_stands hmasked htag, htemplate, ← htokens]
    exact ⟨join_merge_ne_nil hlength htoken, stands_join_merge htokens hne hlength hrecovered⟩
  · intro hshift hvalid
    rw [template_is_valid_iff_stands hmasked htag, htemplate, ← htokens] at hvalid
    exact kept_of_stands_join_merge htokens hne hlength hshift hvalid.2

/-- The line joins the cluster of an earlier one, and its template gets a wildcard. -/
theorem template_is_valid_of_run_joined :
    ∃ history miner result after, (DrainMiner.new DrainConfig.default).run default
        [⟨str.lit "Deny tcp src outside", 0⟩] = ok (history, miner) ∧
      miner.add_log default (str.lit "Deny tcp src inside") 1 = ok (result, after) ∧
      result.template = str.lit "Deny tcp src <*>" ∧
      template_is_valid default (str.lit "Deny tcp src inside") result.template [] = ok true := by
  have hstate : ((DrainMiner.new DrainConfig.default).run default
      [⟨str.lit "Deny tcp src outside", 0⟩] >>= fun state =>
      state.2.add_log default (str.lit "Deny tcp src inside") 1 >>= fun added =>
        ok (added.1.template, decide (Recovered default state.2 ⟨str.lit "Deny tcp src inside", 1⟩))) =
      ok (str.lit "Deny tcp src <*>", true) := by
    decide +kernel
  obtain ⟨⟨history, miner⟩, hrun, hstate⟩ := bind_eq_ok_iff.mp hstate
  obtain ⟨⟨added, next⟩, hadded, hstate⟩ := bind_eq_ok_iff.mp hstate
  obtain ⟨htemplate, hrecovered⟩ := Prod.mk.inj (Result.ok.inj hstate)
  have htoken : ∃ token ∈ Input.tokens default ⟨str.lit "Deny tcp src inside", 1⟩, token ≠ [] := by
    decide +kernel
  obtain ⟨result, after, hadd, hvalid, -⟩ := template_is_valid_of_run default hrun
    ⟨str.lit "Deny tcp src inside", 1⟩ htoken [] (fun h => by cases h)
  cases hadded.symm.trans hadd
  exact ⟨history, miner, added, next, hrun, hadd, htemplate, hvalid (of_decide_eq_true hrecovered)⟩

/-- The line is cut at the comma, which leaves the quotes; its template is cut at the space, which
    takes them off. -/
theorem template_not_recovered :
    ∃ result after, (DrainMiner.new DrainConfig.default).add_log default
        (str.lit "\"allow\",tcp") 0 = ok (result, after) ∧
      result.template = str.lit "\"allow\" tcp" ∧
      (∃ token ∈ Input.tokens default ⟨str.lit "\"allow\",tcp", 0⟩, token ≠ []) ∧
      template_is_valid default (str.lit "\"allow\",tcp") result.template [] = ok false := by
  have hstate : ((DrainMiner.new DrainConfig.default).add_log default (str.lit "\"allow\",tcp") 0 >>=
      fun state => ok state.1.template) = ok (str.lit "\"allow\" tcp") := by
    decide +kernel
  obtain ⟨⟨result, after⟩, hadd, htemplate⟩ := bind_eq_ok_iff.mp hstate
  have htemplate : result.template = str.lit "\"allow\" tcp" := Result.ok.inj htemplate
  refine ⟨result, after, hadd, htemplate, by decide +kernel, ?_⟩
  rw [htemplate]
  decide +kernel

end ulpf_ai.evaluator.EvaluatorEngine
