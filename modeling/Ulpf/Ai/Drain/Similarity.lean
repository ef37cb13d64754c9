import Ulpf.Ai.Drain.Anchors

open Result

namespace ulpf_ai.drain.DrainMiner

/-- What the anchor loop says of the paired tokens; without a vocabulary it is not run. -/
def clashes (anchor_tokens : List (List Char)) (pairs : List (List Char × List Char)) : Bool :=
  pairs.any fun pair => anchor_clash anchor_tokens (anchor_value pair.1) (anchor_value pair.2)

theorem anchor_clash_self (vocab : List (List Char)) (v : List Char) :
    anchor_clash vocab v v = false := by
  rw [anchor_clash, str.eq_ignore_ascii_case_iff.mpr rfl, Bool.not_true, Bool.and_false]

theorem class_clash_self (k : Option (List Char)) (v : List Char) : class_clash k k v v = false := by
  cases k with
  | none => rfl
  | some key =>
    have heq : str.eq_ignore_ascii_case v v = true := str.eq_ignore_ascii_case_iff.mpr rfl
    simp [class_clash, heq]

/-- Where the template has the token itself or the wildcard, only the anchors can force the two
    apart: the wildcard has no key. -/
theorem forces_distinct_covered (vocab : List (List Char)) {pairs : List (List Char × List Char)}
    (hcovered : ∀ pair ∈ pairs, pair.1 = pair.2 ∨ pair.1 = WILDCARD) :
    forces_distinct vocab pairs = ok (clashes vocab pairs) := by
  induction pairs with
  | nil => rfl
  | cons pair pairs ih =>
    obtain ⟨t1, t2⟩ := pair
    have ih := ih fun pair hpair => hcovered pair (List.mem_cons_of_mem _ hpair)
    rw [forces_distinct, clashes, List.any_cons, ← clashes]
    split
    · rename_i hclash
      rw [hclash, Bool.true_or]
    rename_i hclash
    rw [Bool.eq_false_iff.mpr hclash, Bool.false_or, ← ih]
    obtain ⟨k2, hk2⟩ := ne_panic_iff.mp (kv_key_ne_panic t2)
    obtain heq | hwild := hcovered (t1, t2) List.mem_cons_self
    · dsimp only at heq
      rw [heq, hk2, bind_ok, bind_ok, class_clash_self]
      rfl
    · dsimp only at hwild
      rw [hwild, hk2]
      rfl

/-- The share of the positions at which a template accepts the line's token. -/
def matchRatio (tmpl_tokens tokens : List (List Char)) : ℚ :=
  ((tmpl_tokens.zip tokens).countP fun pair => pair.1 = WILDCARD || pair.1 = pair.2) /
    tmpl_tokens.length

theorem compute_similarity_eq (vocab : List (List Char)) {tmpl_tokens tokens : List (List Char)}
    (hlength : tmpl_tokens.length = tokens.length) (hne : tokens ≠ []) :
    compute_similarity tmpl_tokens tokens vocab =
      (if vocab.isEmpty then ok false else forces_distinct vocab (tmpl_tokens.zip tokens)) >>=
        fun distinct => ok (if distinct then 0 else matchRatio tmpl_tokens tokens) := by
  have hpos : 0 < tokens.length := List.length_pos_iff.mpr hne
  have hempty : ¬ (tmpl_tokens.length ≠ tokens.length ∨ tmpl_tokens.isEmpty) := by
    rw [List.isEmpty_iff_length_eq_zero]
    omega
  rw [compute_similarity, if_neg hempty]
  cases vocab.isEmpty <;> rfl

theorem compute_similarity_covered (vocab : List (List Char)) {tmpl_tokens tokens : List (List Char)}
    (hlength : tmpl_tokens.length = tokens.length) (hne : tokens ≠ [])
    (hcovered : ∀ pair ∈ tmpl_tokens.zip tokens, pair.1 = pair.2 ∨ pair.1 = WILDCARD) :
    compute_similarity tmpl_tokens tokens vocab =
      ok (if clashes vocab (tmpl_tokens.zip tokens) then 0 else 1) := by
  have hpos : 0 < tmpl_tokens.length := hlength ▸ List.length_pos_iff.mpr hne
  have hdistinct : (if vocab.isEmpty then ok false else forces_distinct vocab (tmpl_tokens.zip tokens)) =
      ok (clashes vocab (tmpl_tokens.zip tokens)) := by
    cases vocab with
    | nil => simp [clashes, anchor_clash]
    | cons word words => exact forces_distinct_covered _ hcovered
  have hmatched : ((tmpl_tokens.zip tokens).countP fun pair =>
      pair.1 = WILDCARD || pair.1 = pair.2) = tmpl_tokens.length := by
    have hzip : (tmpl_tokens.zip tokens).length = tmpl_tokens.length := by
      rw [List.length_zip, hlength, Nat.min_self]
    rw [← hzip, List.countP_eq_length]
    intro pair hpair
    obtain heq | heq := hcovered pair hpair <;> simp [heq]
  rw [compute_similarity_eq vocab hlength hne, hdistinct, bind_ok, matchRatio, hmatched,
    div_self (Nat.cast_ne_zero.mpr hpos.ne')]

theorem matchRatio_le_one (tmpl_tokens tokens : List (List Char)) :
    matchRatio tmpl_tokens tokens ≤ 1 := by
  have hcount : ((tmpl_tokens.zip tokens).countP fun pair =>
      pair.1 = WILDCARD || pair.1 = pair.2) ≤ tmpl_tokens.length :=
    List.countP_le_length.trans (List.length_zip ▸ Nat.min_le_left _ _)
  exact div_le_one_of_le₀ (Nat.cast_le.mpr hcount) (Nat.cast_nonneg _)

theorem compute_similarity_eq_zero (vocab : List (List Char)) {tmpl_tokens tokens : List (List Char)}
    (h : ¬ (tmpl_tokens.length = tokens.length ∧ tokens ≠ [])) :
    compute_similarity tmpl_tokens tokens vocab = ok 0 := by
  have hempty : tmpl_tokens.length ≠ tokens.length ∨ tmpl_tokens.isEmpty := by
    rw [List.isEmpty_iff_length_eq_zero]
    rw [not_and, not_not, ← List.length_eq_zero_iff] at h
    omega
  rw [compute_similarity, if_pos hempty]

theorem compute_similarity_le_one {tmpl_tokens tokens vocab : List (List Char)} {sim : ℚ}
    (h : compute_similarity tmpl_tokens tokens vocab = ok sim) : sim ≤ 1 := by
  by_cases hlength : tmpl_tokens.length = tokens.length ∧ tokens ≠ []
  · rw [compute_similarity_eq vocab hlength.1 hlength.2] at h
    obtain ⟨distinct, -, h⟩ := bind_eq_ok_iff.mp h
    cases h
    split
    · exact zero_le_one
    · exact matchRatio_le_one tmpl_tokens tokens
  · rw [compute_similarity_eq_zero vocab hlength] at h
    cases h
    exact zero_le_one

/-- The line that shaped a template finds the token itself or the wildcard everywhere. -/
theorem merge_tokens_covered (tmpl_tokens tokens : List (List Char)) :
    ∀ pair ∈ (LogCluster.merge_tokens tmpl_tokens tokens).zip tokens,
      pair.1 = pair.2 ∨ pair.1 = WILDCARD := by
  induction tmpl_tokens generalizing tokens with
  | nil => cases tokens <;> simp [LogCluster.merge_tokens]
  | cons tmpl_token tmpl_tokens ih =>
    cases tokens with
    | nil => simp
    | cons token tokens =>
      intro pair hpair
      rw [LogCluster.merge_tokens, List.zip_cons_cons] at hpair
      obtain rfl | hpair := List.mem_cons.mp hpair
      · dsimp only
        split
        · exact .inr rfl
        · rename_i heq
          exact .inl (not_not.mp heq)
      · exact ih tokens pair hpair

theorem clashes_merge_tokens (vocab tmpl_tokens tokens : List (List Char)) :
    clashes vocab ((LogCluster.merge_tokens tmpl_tokens tokens).zip tokens) = false ↔
      ∀ t t', (t, t') ∈ tmpl_tokens.zip tokens → t ≠ t' →
        anchor_clash vocab WILDCARD (anchor_value t') = false := by
  induction tmpl_tokens generalizing tokens with
  | nil => cases tokens <;> simp [LogCluster.merge_tokens, clashes]
  | cons tmpl_token tmpl_tokens ih =>
    cases tokens with
    | nil => simp [clashes]
    | cons token tokens =>
      have hhead : anchor_clash vocab
            (anchor_value (if tmpl_token ≠ token then WILDCARD else tmpl_token)) (anchor_value token) =
            false ↔
          (tmpl_token ≠ token → anchor_clash vocab WILDCARD (anchor_value token) = false) := by
        by_cases heq : tmpl_token = token
        · simp [heq, anchor_clash_self]
        · have hwild : anchor_value WILDCARD = WILDCARD := rfl
          simp [heq, hwild]
      rw [LogCluster.merge_tokens, List.zip_cons_cons, clashes, List.any_cons, ← clashes,
        Bool.or_eq_false_iff, hhead, ih]
      simp only [List.zip_cons_cons, List.mem_cons, Prod.mk.injEq]
      constructor
      · rintro ⟨hfirst, hrest⟩ t t' (⟨rfl, rfl⟩ | hmem)
        · exact hfirst
        · exact hrest t t' hmem
      · intro hall
        exact ⟨hall tmpl_token token (.inl ⟨rfl, rfl⟩), fun t t' hmem => hall t t' (.inr hmem)⟩

theorem mem_merge_tokens {tmpl_tokens tokens : List (List Char)} {token : List Char}
    (h : token ∈ LogCluster.merge_tokens tmpl_tokens tokens) :
    token ∈ tmpl_tokens ∨ token = WILDCARD := by
  induction tmpl_tokens generalizing tokens with
  | nil => cases tokens <;> cases h
  | cons tmpl_token tmpl_tokens ih =>
    cases tokens with
    | nil => exact .inl h
    | cons in_token in_tokens =>
      rw [LogCluster.merge_tokens] at h
      obtain heq | h := List.mem_cons.mp h
      · split at heq
        · exact .inr heq
        · exact .inl (heq ▸ List.mem_cons_self)
      · exact (ih h).imp_left (List.mem_cons_of_mem _)

end ulpf_ai.drain.DrainMiner
