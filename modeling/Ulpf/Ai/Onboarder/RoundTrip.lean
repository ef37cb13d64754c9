import Ulpf.Ai.Onboarder.Yaml

open Result

namespace ulpf_ai.onboarder

namespace ParserDefinition

theorem trim_matches_eq_self_iff {text : List Char} :
    str.trim_matches isQuote text = text ↔ Unquoted text := by
  refine ⟨fun h => ?_, Unquoted.trim_matches⟩
  obtain ⟨hhead, hlast⟩ := str.trim_matches_ends isQuote text
  rw [h] at hhead hlast
  exact ⟨fun hquote => absurd (hhead _ hquote) (by decide),
    fun hquote => absurd (hlast _ hquote) (by decide)⟩

/-- What is read for a pattern: its quotes come with the backslashes they were written with. -/
theorem read_escaped (pattern : List Char) :
    str.replace ['\\', '\\'] ['\\'] (escape_pattern pattern) =
      str.replace ['"'] ['\\', '"'] pattern := by
  unfold escape_pattern
  rw [str.replace_char '\\', str.replace_char, str.replace_char, List.flatMap_assoc]
  unfold str.replace
  induction pattern with
  | nil => rfl
  | cons c pattern ih =>
    rw [List.flatMap_cons, List.flatMap_cons]
    by_cases hbackslash : c = '\\'
    · subst hbackslash
      simpa [str.replaceFrom] using ih
    · by_cases hquote : c = '"'
      · subst hquote
        simpa [str.replaceFrom] using ih
      · simpa [str.replaceFrom, hbackslash, hquote, Ne.symm hbackslash] using ih

/-- A text that does not end with a quote does not end or begin with one when it is escaped. -/
theorem unquoted_replace {text : List Char} (hlast : text.getLast? ≠ some '"') :
    Unquoted (str.replace ['"'] ['\\', '"'] text) := by
  cases hend : text.getLast? with
  | none =>
    rw [List.getLast?_eq_none_iff] at hend
    subst hend
    exact ⟨nofun, nofun⟩
  | some d =>
    have hd : d ≠ '"' := fun h => hlast (h ▸ hend)
    refine ⟨?_, ?_⟩
    · have hne := List.ne_nil_of_mem (List.mem_of_getLast? hend)
      obtain ⟨c, rest, rfl⟩ := List.exists_cons_of_ne_nil hne
      rw [str.replace_char, List.flatMap_cons]
      split
      · simp
      · rename_i hc
        simpa using hc
    · rw [str.getLast?_replace_char hend hd]
      exact fun h => hd (Option.some.inj h)

theorem unquoted_escape_pattern {pattern : List Char} (h : Onboarder.Anchored pattern) :
    Unquoted (escape_pattern pattern) := by
  refine unquoted_replace ?_
  rw [str.getLast?_replace_char h.2 (by decide)]
  simp

/-- A sample is read back exactly if it has no quote. -/
theorem read_sample_iff (sample : List Char) :
    str.trim_matches isQuote (str.replace ['"'] ['\\', '"'] sample) = sample ↔ '"' ∉ sample := by
  have hself : str.replace ['"'] ['\\', '"'] sample = sample ↔ '"' ∉ sample :=
    str.replace_char_eq_self_iff (by decide)
  constructor
  · intro h
    have hend : sample.getLast? ≠ some '"' := by
      have hlast := (str.trim_matches_ends isQuote (str.replace ['"'] ['\\', '"'] sample)).2
      rw [h] at hlast
      exact fun hquote => absurd (hlast _ hquote) (by decide)
    rw [(unquoted_replace hend).trim_matches] at h
    exact hself.mp h
  · intro h
    rw [hself.mpr h]
    exact YamlReader.trim_matches_isQuote h

/-- The YAML form loses quotes: those at the ends of the vendor and the model, and the text of
    a pattern or a sample that has one. -/
theorem from_yaml_to_yaml_iff (crates : OnboarderCrates) (now_ms : Int) {parser : ParserExport}
    {order : Iteration parser.action_mappings} (h : SingleLine parser order.entries)
    (hpattern : Onboarder.Anchored parser.regex_pattern.toList) :
    (∃ read, from_yaml crates now_ms (to_yaml crates parser order) = .ok read ∧
      read.toParserDefinition.contents = parser.toParserDefinition.contents ∧
      read.sample_logs = parser.sample_logs) ↔
    Unquoted parser.vendor.toList ∧ Unquoted parser.device_model.toList ∧
      '"' ∉ parser.regex_pattern.toList ∧ ∀ sample ∈ parser.sample_logs, '"' ∉ sample.toList := by
  have hjson : crates.from_str_definition (to_yaml crates parser order) = none :=
    crates.definition_not_letter 'v' _ (by decide)
  obtain ⟨confidence_score, created_at, hread⟩ := foldl_yaml_lines crates now_ms h
  have hne : str.replace ['"'] ['\\', '"'] parser.regex_pattern.toList ≠ [] := by
    intro hnil
    have hlast := str.getLast?_replace_char hpattern.2 (show '$' ≠ '"' by decide) ['\\', '"']
    rw [hnil] at hlast
    cases hlast
  unfold from_yaml
  rw [hjson, lines_to_yaml h, hread, (unquoted_escape_pattern hpattern).trim_matches, read_escaped]
  dsimp only
  rw [if_neg hne]
  simp only [Except.ok.injEq, exists_eq_left', contents, Contents.mk.injEq, lookup_iteration,
    and_true, ← String.toList_inj, String.toList_ofList]
  have hsamples : parser.sample_logs.map (fun sample => String.ofList
      (str.trim_matches isQuote (str.replace ['"'] ['\\', '"'] sample.toList))) =
        parser.sample_logs ↔ ∀ sample ∈ parser.sample_logs, '"' ∉ sample.toList := by
    nth_rewrite 2 [← List.map_id parser.sample_logs]
    rw [List.map_inj_left]
    refine forall₂_congr fun sample _ => ?_
    rw [id_eq, ← String.toList_inj, String.toList_ofList, read_sample_iff]
  rw [hsamples, trim_matches_eq_self_iff, trim_matches_eq_self_iff,
    str.replace_char_eq_self_iff (by decide), and_assoc, and_assoc]

end ParserDefinition

namespace Onboarder

/-- The requests whose texts have no quote that the YAML form would lose. -/
structure Unescaped (crates : OnboarderCrates) (vendor device_model : String)
    (samples : List (List Char)) : Prop where
  vendor : ParserDefinition.Unquoted vendor.toList
  device_model : ParserDefinition.Unquoted device_model.toList
  pattern : QuoteFree crates samples
  samples : ∀ sample ∈ samples, '"' ∉ sample

/-- A generated definition is read back from its YAML form exactly if no quote is lost. -/
theorem generated_from_yaml_iff {crates : OnboarderCrates} {now_ms : Int}
    {vendor device_model : String} {samples : List (List Char)} {parser : ParserExport}
    {report : ValidationReport} (hvendor : '\n' ∉ vendor.toList)
    (hmodel : '\n' ∉ device_model.toList) (hsamples : ∀ sample ∈ samples, '\n' ∉ sample)
    (hparser : generateParser crates now_ms vendor device_model samples = ok (.ok (parser, report)))
    (order : Iteration parser.action_mappings) (read_ms : Int) :
    (∃ read, ParserDefinition.from_yaml crates read_ms
        (ParserDefinition.to_yaml crates parser order) = .ok read ∧
      read.toParserDefinition.contents = parser.toParserDefinition.contents ∧
      read.sample_logs = parser.sample_logs) ↔
    Unescaped crates vendor device_model samples := by
  have hline := singleLine_of_generated hvendor hmodel hsamples hparser order
  obtain ⟨pattern, hpattern, rfl⟩ := generateParser_eq_ok hparser
  have hanchored : Anchored (String.ofList pattern).toList := by
    rw [String.toList_ofList]
    exact anchored_synthesize_regex hpattern
  rw [ParserDefinition.from_yaml_to_yaml_iff crates read_ms hline hanchored, String.toList_ofList,
    quote_notMem_iff hpattern]
  have hquotes : (∀ sample ∈ samples.map String.ofList, '"' ∉ sample.toList) ↔
      ∀ sample ∈ samples, '"' ∉ sample := by
    simp only [List.forall_mem_map, String.toList_ofList]
  rw [hquotes]
  constructor
  · rintro ⟨hvendor, hmodel, hquotefree, hsamples⟩
    exact ⟨hvendor, hmodel, hquotefree, hsamples⟩
  · intro h
    exact ⟨h.vendor, h.device_model, h.pattern, h.samples⟩

/-- A line of keys, as it comes with its quotes. -/
def kvLine : List Char := str.lit "src=10.0.0.1 dst=10.0.0.2 action=\"deny\""

/-- The pattern of such lines. -/
def kvPattern : List Char :=
  ['^'] ++ (str.lit ".*?\\b" ++ (str.lit "(?:src|srcip|saddr)=" ++ capture "src_ip" IP) ++
    (str.lit ".*?\\b" ++ (str.lit "(?:dst|dstip|daddr)=" ++ capture "dst_ip" IP)) ++
    (str.lit ".*?\\b" ++ (str.lit "(?:action|act)=\"?" ++
      capture "action" (str.lit "[a-zA-Z0-9_-]+") ++ str.lit "\"?"))) ++ str.lit ".*$"

/-- What the patterns match in the line. -/
def kvMatches : List (List Char × Captures) :=
  [(str.lit "\\b(?:src|srcip|saddr)=", ⟨[some (0, 4)]⟩),
    (str.lit "\\b(?:dst|dstip|daddr)=", ⟨[some (13, 17)]⟩),
    (str.lit "\\b(?:action|act)=", ⟨[some (26, 33)]⟩),
    (kvPattern, ⟨[some (0, 39), some (4, 12), some (17, 25), some (34, 38)]⟩)]

def kvCaptures (pattern : String) (text : List Char) : List Captures :=
  if text = kvLine then
    ((kvMatches.find? fun entry => entry.1 = pattern.toList).map Prod.snd).toList
  else []

theorem mem_kvCaptures {pattern : String} {text : List Char} {captures : Captures}
    (h : captures ∈ kvCaptures pattern text) :
    text = kvLine ∧ ∃ entry ∈ kvMatches, captures = entry.2 := by
  unfold kvCaptures at h
  split at h
  · rename_i htext
    obtain ⟨entry, hentry, rfl⟩ := Option.map_eq_some_iff.mp (Option.mem_toList.mp h)
    exact ⟨htext, entry, List.mem_of_find?_eq_some hentry, rfl⟩
  · cases h

theorem aligned_kvMatches : ∀ entry ∈ kvMatches, entry.2.Aligned kvLine := by
  have hall : kvMatches.all (fun entry => entry.2.groups.all fun group =>
      group.all fun range => str.slice kvLine range.1 range.2 ≠ .panic) = true := by decide
  intro entry hentry range hrange
  have hslice := List.all_eq_true.mp (List.all_eq_true.mp hall entry hentry) _ hrange
  exact ne_panic_iff.mp (by simpa using hslice)

theorem ordered_kvCaptures (pattern : String) (text : List Char) :
    (kvCaptures pattern text).Pairwise fun a b =>
      ∀ range ∈ a.range 0, ∀ later ∈ b.range 0, range.2 ≤ later.1 := by
  unfold kvCaptures
  split
  · cases (kvMatches.find? fun entry => entry.1 = pattern.toList).map Prod.snd with
    | none => exact .nil
    | some captures => exact List.pairwise_singleton _ _
  · exact .nil

/-- Libraries that know the line. -/
def kvCrates : OnboarderCrates where
  is_alphanumeric := Char.isAlphanum
  to_lowercase := List.map Char.toLower
  format_fixed2 _ := "1.00"
  regex_new _ := true
  captures_iter := kvCaptures
  captures_aligned _ _ _ hcaptures := by
    obtain ⟨rfl, entry, hentry, rfl⟩ := mem_kvCaptures hcaptures
    exact aligned_kvMatches entry hentry
  captures_whole _ _ _ hcaptures := by
    obtain ⟨-, entry, hentry, rfl⟩ := mem_kvCaptures hcaptures
    have hall : kvMatches.all (fun entry => (entry.2.range 0).isSome) = true := by decide
    exact List.all_eq_true.mp hall entry hentry
  captures_ordered := ordered_kvCaptures
  capture_names _ := [none, some "src_ip", some "dst_ip", some "action"]
  from_str _ := .error ""
  to_string _ := ""
  parse_from_str _ _ := none
  parse_from_rfc3339 _ := none
  to_string_pretty _ _ := none
  from_str_definition _ := none
  definition_round_trip _ _ _ h := by cases h
  definition_not_letter _ _ _ := rfl
  ip_from_str text := text = str.lit "10.0.0.1" || text = str.lit "10.0.0.2"
  parse_f64 _ := some 1
  format_fixed1 _ := "100.0"
  format_fixed2_one := rfl
  format_debug _ := "[]"

theorem captures_kvLine (pattern : List Char) :
    kvCrates.captures (String.ofList pattern) kvLine =
      (kvMatches.find? fun entry => entry.1 = pattern).map Prod.snd := by
  have hiter : kvCrates.captures_iter = kvCaptures := rfl
  rw [Crates.captures, hiter, kvCaptures, if_pos rfl, String.toList_ofList]
  cases (kvMatches.find? fun entry => entry.1 = pattern).map Prod.snd <;> rfl

theorem synthesize_kvLine : synthesize_regex kvCrates [kvLine, kvLine, kvLine] = .ok kvPattern := by
  have hflow : is_flow kvLine = false := by decide
  have hkv : is_kv kvLine = true := by decide
  have hordered : ordered_patterns kvCrates kvLine =
      [(0, str.lit "(?:src|srcip|saddr)=" ++ capture "src_ip" IP),
        (13, str.lit "(?:dst|dstip|daddr)=" ++ capture "dst_ip" IP),
        (26, str.lit "(?:action|act)=\"?" ++ capture "action" (str.lit "[a-zA-Z0-9_-]+") ++
          str.lit "\"?")] := by
    simp only [ordered_patterns, find_start, captures_kvLine]
    decide
  simp only [synthesize_regex, synthesize_kv_regex, List.headD_cons, hflow, hkv, hordered, if_true,
    Bool.false_eq_true, if_false]
  rfl

theorem head?_kvPattern : kvPattern.head? = some '^' := rfl

/-- The searches for a key start with a word boundary, the whole pattern does not. -/
theorem find?_kvPattern {entry : List Char × Captures} (hhead : entry.1.head? = some '\\')
    (rest : List (List Char × Captures)) :
    (entry :: rest).find? (fun entry => entry.1 = kvPattern) =
      rest.find? fun entry => entry.1 = kvPattern := by
  refine List.find?_cons_of_neg fun heq => ?_
  rw [of_decide_eq_true heq, head?_kvPattern] at hhead
  cases hhead

theorem captures_kvPattern : kvCrates.captures (String.ofList kvPattern) kvLine =
    some ⟨[some (0, 39), some (4, 12), some (17, 25), some (34, 38)]⟩ := by
  rw [captures_kvLine, kvMatches, find?_kvPattern rfl, find?_kvPattern rfl, find?_kvPattern rfl,
    List.find?_cons, decide_eq_true rfl]
  rfl

/-- The groups of the match that the validation looks at. -/
theorem capture_name_kvLine :
    let name := capture_name kvCrates.toCrates (String.ofList kvPattern)
      ⟨[some (0, 39), some (4, 12), some (17, 25), some (34, 38)]⟩ kvLine
    name "src_ip" = ok (some (str.lit "10.0.0.1")) ∧ name "dst_ip" = ok (some (str.lit "10.0.0.2")) ∧
      name "src_port" = ok none ∧ name "dst_port" = ok none := by
  have hnames : kvCrates.capture_names (String.ofList kvPattern) =
    [none, some "src_ip", some "dst_ip", some "action"] := rfl
  simp only [capture_name, hnames]
  decide

theorem validate_kvLine (idx : Nat) :
    validate_sample kvCrates (String.ofList kvPattern) idx kvLine = ok none := by
  obtain ⟨hsrc, hdst, hsport, hdport⟩ := capture_name_kvLine
  rw [validate_sample, captures_kvPattern]
  dsimp only
  rw [hsrc, hdst, hsport, hdport]
  rfl

/-- Three times one line, which passes the validation of the pattern that is made of it. -/
theorem exists_generated_of_validate {crates : OnboarderCrates} {line pattern : List Char}
    (hregex : crates.regex_new (String.ofList pattern) = true)
    (hpattern : synthesize_regex crates [line, line, line] = .ok pattern)
    (htrim : str.trim line = line) (hne : line ≠ [])
    (hvalid : ∀ idx, validate_sample crates (String.ofList pattern) idx line = ok none)
    (now_ms : Int) (vendor device_model : String) :
    ∃ parser report, generateParser crates now_ms vendor device_model [line, line, line] =
      ok (.ok (parser, report)) := by
  have hsamples : validate_samples crates (String.ofList pattern) 0 [line, line, line] (0, []) =
      ok (3, []) := by
    simp only [validate_samples, htrim, hne, if_false, hvalid, bind_ok]
  rw [generateParser, if_neg (by simp), hpattern]
  dsimp only
  rw [validateParser, if_pos hregex, hsamples]
  exact ⟨_, _, rfl⟩

theorem generate_kvLine (now_ms : Int) (vendor device_model : String) :
    ∃ parser report, generateParser kvCrates now_ms vendor device_model
      [kvLine, kvLine, kvLine] = ok (.ok (parser, report)) :=
  exists_generated_of_validate rfl synthesize_kvLine (by decide) (by decide) validate_kvLine now_ms
    vendor device_model

theorem newline_notMem_kvLine : ∀ sample ∈ [kvLine, kvLine, kvLine], '\n' ∉ sample := by
  have hline : '\n' ∉ kvLine := by decide
  simp [hline]

/-- A definition made of three lines of keys comes back with other samples and another pattern. -/
theorem yaml_loses_quotes :
    ∃ parser report,
      generateParser kvCrates 0 "acme" "ngfw" [kvLine, kvLine, kvLine] = ok (.ok (parser, report)) ∧
      ∀ (order : Iteration parser.action_mappings) (read_ms : Int),
        ¬ ∃ read, ParserDefinition.from_yaml kvCrates read_ms
            (ParserDefinition.to_yaml kvCrates parser order) = .ok read ∧
          read.toParserDefinition.contents = parser.toParserDefinition.contents ∧
          read.sample_logs = parser.sample_logs := by
  obtain ⟨parser, report, hparser⟩ := generate_kvLine 0 "acme" "ngfw"
  refine ⟨parser, report, hparser, fun order read_ms h => ?_⟩
  have hline := singleLine_of_generated (by decide) (by decide) newline_notMem_kvLine hparser order
  obtain ⟨pattern, hpattern, rfl⟩ := generateParser_eq_ok hparser
  have hanchored : Anchored (String.ofList pattern).toList := by
    rw [String.toList_ofList]
    exact anchored_synthesize_regex hpattern
  obtain ⟨-, -, -, hsamples⟩ :=
    (ParserDefinition.from_yaml_to_yaml_iff kvCrates read_ms hline hanchored).mp h
  have hquote := hsamples (String.ofList kvLine) List.mem_cons_self
  rw [String.toList_ofList] at hquote
  exact hquote (by decide)

theorem generated_from_yaml_iff_kvLine :
    ∃ parser report,
      generateParser kvCrates 0 "acme" "ngfw" [kvLine, kvLine, kvLine] = ok (.ok (parser, report)) ∧
      ∀ (order : Iteration parser.action_mappings) (read_ms : Int),
        (∃ read, ParserDefinition.from_yaml kvCrates read_ms
            (ParserDefinition.to_yaml kvCrates parser order) = .ok read ∧
          read.toParserDefinition.contents = parser.toParserDefinition.contents ∧
          read.sample_logs = parser.sample_logs) ↔
        Unescaped kvCrates "acme" "ngfw" [kvLine, kvLine, kvLine] := by
  obtain ⟨parser, report, hparser⟩ := generate_kvLine 0 "acme" "ngfw"
  exact ⟨parser, report, hparser, fun order read_ms =>
    generated_from_yaml_iff (by decide) (by decide) newline_notMem_kvLine hparser order read_ms⟩

end Onboarder

end ulpf_ai.onboarder
