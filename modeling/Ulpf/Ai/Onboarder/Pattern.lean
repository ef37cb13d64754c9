import Ulpf.Ai.Onboarder

namespace ulpf_ai.onboarder.Onboarder

/-- No column that all samples share has a quote in it. -/
def NoQuotedColumn (samples : List (List Char)) : Prop :=
  ∀ col ∈ columns samples, all_same col = true → '"' ∉ (col.head?).getD []

/-- The samples whose pattern needs no quote: those of a flow, those of keys without an action,
    and those of columns where all that is common is free of quotes. -/
def QuoteFree (crates : OnboarderCrates) (samples : List (List Char)) : Prop :=
  let first := samples.headD []
  if is_flow first then
    is_match crates.toCrates re_flow_slash first = true ∨
      is_match crates.toCrates re_flow_colon first = true ∨ NoQuotedColumn samples
  else if is_kv first then find_start crates (str.lit "\\b(?:action|act)=") first = none
  else NoQuotedColumn samples

section

variable {crates : OnboarderCrates}

/-- The quote and the line break, which no part of a pattern has but what comes from the samples
    and the optional quotes of an action. -/
def Foreign (x : Char) : Prop := x = '"' ∨ x = '\n'

theorem Foreign.notMem_IP {x : Char} (hx : Foreign x) : x ∉ IP := by
  rcases hx with rfl | rfl <;> decide

theorem Foreign.notMem_PORT {x : Char} (hx : Foreign x) : x ∉ PORT := by
  rcases hx with rfl | rfl <;> decide

theorem Foreign.mem_regex_escape_iff {x : Char} (hx : Foreign x) (text : List Char) :
    x ∈ regex_escape text ↔ x ∈ text := by
  have hplain : is_meta_character x = false ∧ x ≠ '\\' := by rcases hx with rfl | rfl <;> decide
  unfold regex_escape
  rw [List.mem_flatMap]
  constructor
  · rintro ⟨c, hc, hmem⟩
    split at hmem
    · rename_i hmeta
      rcases List.mem_pair.mp hmem with rfl | rfl
      · exact absurd rfl hplain.2
      · exact hc
    · exact List.mem_singleton.mp hmem ▸ hc
  · intro hmem
    exact ⟨x, hmem, by simp [hplain.1]⟩

theorem Foreign.mem_column_pattern_iff {x : Char} (hx : Foreign x) (col : List (List Char))
    (ip_count port_count : Nat) :
    x ∈ (column_pattern crates col ip_count port_count).1 ↔
      all_same col = true ∧ x ∈ (col.head?).getD [] := by
  unfold column_pattern
  dsimp only
  by_cases hsame : all_same col = true
  · rw [if_pos hsame]
    simpa [hsame] using hx.mem_regex_escape_iff _
  · rw [if_neg hsame]
    refine iff_of_false ?_ fun h => hsame h.1
    have hip := hx.notMem_IP
    have hport := hx.notMem_PORT
    -- every other part is one of a few fixed texts
    rcases hx with rfl | rfl <;> (repeat' split) <;>
      simp only [capture, List.mem_append, hip, hport, or_false] <;> decide

theorem Foreign.mem_column_patterns_iff {x : Char} (hx : Foreign x)
    (cols : List (List (List Char))) (ip_count port_count : Nat) :
    (∃ part ∈ column_patterns crates cols ip_count port_count, x ∈ part) ↔
      ∃ col ∈ cols, all_same col = true ∧ x ∈ (col.head?).getD [] := by
  induction cols generalizing ip_count port_count with
  | nil => simp [column_patterns]
  | cons col cols ih =>
    rw [column_patterns]
    simp only [List.exists_mem_cons_iff]
    exact or_congr (hx.mem_column_pattern_iff col ip_count port_count) (ih _ _)

theorem Foreign.mem_positional_iff {x : Char} (hx : Foreign x) {samples : List (List Char)}
    {pattern : List Char} (h : synthesize_positional_regex crates samples = .ok pattern) :
    x ∈ pattern ↔ ∃ col ∈ columns samples, all_same col = true ∧ x ∈ (col.head?).getD [] := by
  unfold synthesize_positional_regex at h
  split at h
  · cases h
  cases h
  have houter : x ∉ ['^'] ∧ x ∉ str.lit "\\s+" ∧ x ∉ str.lit "(?:.*)$" := by
    rcases hx with rfl | rfl <;> decide
  rw [List.mem_append, List.mem_append, ← hx.mem_column_patterns_iff _ 0 0]
  simp only [houter, false_or, or_false]
  exact str.mem_intercalate_iff houter.2.1 _

/-- Of the keys, only that of the action has an optional quote. -/
theorem Foreign.mem_key_pattern_iff {x : Char} (hx : Foreign x) (entry : List Char × List Char)
    (hentry : entry ∈ key_patterns) :
    x ∈ entry.2 ↔ x = '"' ∧ entry.1 = str.lit "\\b(?:action|act)=" := by
  have hip := hx.notMem_IP
  have hport := hx.notMem_PORT
  simp only [key_patterns, List.mem_cons, List.not_mem_nil, or_false] at hentry
  rcases hx with rfl | rfl <;> rcases hentry with rfl | rfl | rfl | rfl | rfl | rfl <;>
    simp only [capture, List.mem_append, hip, hport, or_false] <;> decide

theorem Foreign.mem_ordered_patterns_iff {x : Char} (hx : Foreign x) (first : List Char) :
    (∃ entry ∈ ordered_patterns crates first, x ∈ entry.2) ↔
      x = '"' ∧ (find_start crates (str.lit "\\b(?:action|act)=") first).isSome = true := by
  have hperm := List.perm_insertionSort (fun a b : Nat × List Char => a.1 ≤ b.1)
    (key_patterns.filterMap fun entry =>
      (find_start crates entry.1 first).map fun start => (start, entry.2))
  simp only [ordered_patterns, hperm.mem_iff, List.mem_filterMap, Option.map_eq_some_iff]
  constructor
  · rintro ⟨_, ⟨entry, hentry, start, hstart, rfl⟩, hmem⟩
    obtain ⟨rfl, hkey⟩ := (hx.mem_key_pattern_iff entry hentry).mp hmem
    rw [← hkey, hstart]
    exact ⟨rfl, rfl⟩
  · rintro ⟨rfl, hsome⟩
    obtain ⟨start, hstart⟩ := Option.isSome_iff_exists.mp hsome
    exact ⟨_, ⟨_, List.mem_cons_self, start, hstart, rfl⟩, by dsimp only; decide⟩

theorem Foreign.mem_kv_iff {x : Char} (hx : Foreign x) {samples : List (List Char)}
    {pattern : List Char} (h : synthesize_kv_regex crates samples = .ok pattern) :
    x ∈ pattern ↔ x = '"' ∧
      (find_start crates (str.lit "\\b(?:action|act)=") (samples.headD [])).isSome = true := by
  unfold synthesize_kv_regex at h
  dsimp only at h
  split at h
  · cases h
  cases h
  have houter : x ∉ ['^'] ∧ x ∉ str.lit ".*?\\b" ∧ x ∉ str.lit ".*$" := by
    rcases hx with rfl | rfl <;> decide
  rw [← hx.mem_ordered_patterns_iff]
  simp only [List.mem_append, List.mem_flatMap, houter, false_or, or_false]

theorem Foreign.notMem_flow {x : Char} (hx : Foreign x) :
    x ∉ rt_flow_pattern ∧ x ∉ slash_pattern ∧ x ∉ colon_pattern := by
  rcases hx with rfl | rfl <;> refine ⟨?_, ?_, ?_⟩ <;> decide

theorem synthesize_regex_cases {samples : List (List Char)} {pattern : List Char}
    (h : synthesize_regex crates samples = .ok pattern) :
    (is_flow (samples.headD []) = true ∧
        is_match crates.toCrates re_flow_slash (samples.headD []) = true ∧
        (pattern = rt_flow_pattern ∨ pattern = slash_pattern)) ∨
      (is_flow (samples.headD []) = true ∧
        is_match crates.toCrates re_flow_colon (samples.headD []) = true ∧
        pattern = colon_pattern) ∨
      (is_flow (samples.headD []) = true ∧
        is_match crates.toCrates re_flow_slash (samples.headD []) = false ∧
        is_match crates.toCrates re_flow_colon (samples.headD []) = false ∧
        synthesize_positional_regex crates samples = .ok pattern) ∨
      (is_flow (samples.headD []) = false ∧ is_kv (samples.headD []) = true ∧
        synthesize_kv_regex crates samples = .ok pattern) ∨
      (is_flow (samples.headD []) = false ∧ is_kv (samples.headD []) = false ∧
        synthesize_positional_regex crates samples = .ok pattern) := by
  unfold synthesize_regex at h
  dsimp only at h
  split at h
  · rename_i hflow
    unfold synthesize_flow_regex at h
    dsimp only at h
    split at h
    · rename_i hslash
      split at h <;> cases h
      · exact .inl ⟨hflow, hslash, .inl rfl⟩
      · exact .inl ⟨hflow, hslash, .inr rfl⟩
    · rename_i hslash
      split at h
      · rename_i hcolon
        cases h
        exact .inr (.inl ⟨hflow, hcolon, rfl⟩)
      · rename_i hcolon
        exact .inr (.inr (.inl ⟨hflow, by simpa using hslash, by simpa using hcolon, h⟩))
  · rename_i hflow
    have hflow : is_flow (samples.headD []) = false := by simpa using hflow
    split at h
    · rename_i hkv
      exact .inr (.inr (.inr (.inl ⟨hflow, hkv, h⟩)))
    · rename_i hkv
      exact .inr (.inr (.inr (.inr ⟨hflow, by simpa using hkv, h⟩)))

theorem quote_notMem_positional_iff {samples : List (List Char)} {pattern : List Char}
    (h : synthesize_positional_regex crates samples = .ok pattern) :
    '"' ∉ pattern ↔ NoQuotedColumn samples := by
  have hquote : Foreign '"' := .inl rfl
  rw [hquote.mem_positional_iff h]
  simp only [NoQuotedColumn, not_exists, not_and]

/-- Which samples put a quote into the pattern. -/
theorem quote_notMem_iff {samples : List (List Char)} {pattern : List Char}
    (h : synthesize_regex crates samples = .ok pattern) :
    '"' ∉ pattern ↔ QuoteFree crates samples := by
  have hquote : Foreign '"' := .inl rfl
  obtain ⟨hrt, hslash, hcolon⟩ := hquote.notMem_flow
  unfold QuoteFree
  dsimp only
  obtain ⟨hflow, hmatch, rfl | rfl⟩ | ⟨hflow, hmatch, rfl⟩ | ⟨hflow, hnoslash, hnocolon, h⟩ |
    ⟨hflow, hkv, h⟩ | ⟨hflow, hkv, h⟩ := synthesize_regex_cases h
  · rw [if_pos hflow]
    exact iff_of_true hrt (.inl hmatch)
  · rw [if_pos hflow]
    exact iff_of_true hslash (.inl hmatch)
  · rw [if_pos hflow]
    exact iff_of_true hcolon (.inr (.inl hmatch))
  · rw [if_pos hflow, hnoslash, hnocolon, quote_notMem_positional_iff h]
    simp only [Bool.false_eq_true, false_or]
  · rw [if_neg (by rw [hflow]; decide), if_pos hkv, hquote.mem_kv_iff h]
    simp only [true_and, Option.isSome_iff_ne_none, not_not]
  · rw [if_neg (by rw [hflow]; decide), if_neg (by rw [hkv]; decide),
      quote_notMem_positional_iff h]

/-- The columns hold tokens of the samples, or nothing. -/
theorem whitespace_notMem_column {samples : List (List Char)} {col : List (List Char)}
    (hcol : col ∈ columns samples) {c : Char} (hc : c ∈ (col.head?).getD []) :
    c.is_whitespace = false := by
  obtain ⟨i, -, rfl⟩ := List.mem_map.mp hcol
  cases samples with
  | nil => cases hc
  | cons first samples =>
    simp only [List.map_cons, List.head?_cons, Option.getD_some, List.getD_eq_getElem?_getD] at hc
    cases htoken : (str.split_whitespace first)[i]? with
    | none =>
      rw [htoken] at hc
      cases hc
    | some token =>
      rw [htoken] at hc
      exact str.is_whitespace_of_mem_split_whitespace (List.mem_of_getElem? htoken) hc

theorem newline_notMem_positional {samples : List (List Char)} {pattern : List Char}
    (h : synthesize_positional_regex crates samples = .ok pattern) : '\n' ∉ pattern := by
  have hnewline : Foreign '\n' := .inr rfl
  rw [hnewline.mem_positional_iff h]
  rintro ⟨col, hcol, -, hmem⟩
  have hws := whitespace_notMem_column hcol hmem
  revert hws
  decide

theorem newline_notMem {samples : List (List Char)} {pattern : List Char}
    (h : synthesize_regex crates samples = .ok pattern) : '\n' ∉ pattern := by
  have hnewline : Foreign '\n' := .inr rfl
  obtain ⟨hrt, hslash, hcolon⟩ := hnewline.notMem_flow
  obtain ⟨-, -, rfl | rfl⟩ | ⟨-, -, rfl⟩ | ⟨-, -, -, h⟩ | ⟨-, -, h⟩ | ⟨-, -, h⟩ :=
    synthesize_regex_cases h
  · exact hrt
  · exact hslash
  · exact hcolon
  · exact newline_notMem_positional h
  · rw [hnewline.mem_kv_iff h]
    exact fun hquote => absurd hquote.1 (by decide)
  · exact newline_notMem_positional h

/-- A pattern is anchored at both ends. -/
def Anchored (pattern : List Char) : Prop := pattern.head? = some '^' ∧ pattern.getLast? = some '$'

theorem anchored_append {inner outer : List Char} (hinner : inner.head? = some '^')
    (houter : outer.getLast? = some '$') : Anchored (inner ++ outer) := by
  refine ⟨?_, ?_⟩
  · rw [List.head?_append, hinner]
    rfl
  · rw [List.getLast?_append, houter]
    rfl

theorem anchored_positional {samples : List (List Char)} {pattern : List Char}
    (h : synthesize_positional_regex crates samples = .ok pattern) : Anchored pattern := by
  unfold synthesize_positional_regex at h
  split at h
  · cases h
  · cases h
    exact anchored_append rfl rfl

theorem anchored_kv {samples : List (List Char)} {pattern : List Char}
    (h : synthesize_kv_regex crates samples = .ok pattern) : Anchored pattern := by
  unfold synthesize_kv_regex at h
  dsimp only at h
  split at h
  · cases h
  · cases h
    exact anchored_append rfl rfl

theorem anchored_synthesize_regex {samples : List (List Char)} {pattern : List Char}
    (h : synthesize_regex crates samples = .ok pattern) : Anchored pattern := by
  obtain ⟨-, -, rfl | rfl⟩ | ⟨-, -, rfl⟩ | ⟨-, -, -, h⟩ | ⟨-, -, h⟩ | ⟨-, -, h⟩ :=
    synthesize_regex_cases h
  · exact anchored_append rfl rfl
  · exact anchored_append rfl rfl
  · exact anchored_append rfl rfl
  · exact anchored_positional h
  · exact anchored_kv h
  · exact anchored_positional h

end

end ulpf_ai.onboarder.Onboarder
