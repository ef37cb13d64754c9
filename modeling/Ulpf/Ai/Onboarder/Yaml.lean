import Ulpf.Lib.LastWrite
import Ulpf.Ai.Onboarder.Pattern

open last_write

namespace ulpf_ai.onboarder

/-- A key as it stands in front of a colon. -/
def PlainKey (key : List Char) : Prop :=
  key ≠ [] ∧ key.all (fun c => c.is_ascii_graphic && c ≠ ':' && c ≠ '#') = true

instance (key : List Char) : Decidable (PlainKey key) := inferInstanceAs (Decidable (_ ∧ _))

theorem PlainKey.forall_mem {key : List Char} (h : PlainKey key) :
    ∀ c ∈ key, c.is_ascii_graphic = true ∧ c ≠ ':' ∧ c ≠ '#' := by
  simpa [and_assoc] using h.2

/-- A value whose ends are neither blank nor a colon. -/
def SolidValue (value : List Char) : Prop :=
  (∀ c ∈ value.head?, c.is_whitespace = false) ∧
    ∃ c, value.getLast? = some c ∧ c.is_whitespace = false ∧ c ≠ ':'

theorem solidValue_quoted (value : List Char) : SolidValue ('"' :: (value ++ ['"'])) := by
  refine ⟨?_, '"', ?_, by decide, by decide⟩
  · rintro c ⟨⟩
    decide
  · rw [List.getLast?_cons, List.getLast?_concat]
    rfl

theorem PlainKey.solidValue {value : List Char} (h : PlainKey value) : SolidValue value := by
  have hlast := List.getLast_mem h.1
  refine ⟨?_, value.getLast h.1, List.getLast?_eq_some_getLast h.1, ?_, ?_⟩
  · exact fun c hc => Char.is_whitespace_of_graphic (h.forall_mem c (List.mem_of_head? hc)).1
  · exact Char.is_whitespace_of_graphic (h.forall_mem _ hlast).1
  · exact (h.forall_mem _ hlast).2.1

/-- A number is a text of digits, with a sign at most. -/
theorem plainKey_int (value : Int) : PlainKey (json.int value) := by
  have hchar : ∀ c, c = '-' ∨ c.isDigit = true →
      (c.is_ascii_graphic && c ≠ ':' && c ≠ '#') = true := by
    rintro c (rfl | hdigit)
    · decide
    · have hcolon : c ≠ ':' := by
        rintro rfl
        exact absurd hdigit (by decide)
      have hhash : c ≠ '#' := by
        rintro rfl
        exact absurd hdigit (by decide)
      simp [Char.graphic_of_isDigit hdigit, hcolon, hhash]
  have hdigits : ∀ n, ∀ c ∈ json.nat n, c.isDigit = true := fun n c hc =>
    Nat.isDigit_of_mem_toDigits (by decide) (by decide) hc
  cases value with
  | ofNat n =>
    exact ⟨Nat.toDigits_ne_nil, List.all_eq_true.mpr fun c hc => hchar c (.inr (hdigits n c hc))⟩
  | negSucc n =>
    refine ⟨List.cons_ne_nil _ _, List.all_eq_true.mpr fun c hc => hchar c ?_⟩
    exact (List.mem_cons.mp hc).imp id (hdigits _ c)

namespace ParserDefinition

namespace YamlReader

variable {crates : OnboarderCrates} {now_ms : Int} {self : YamlReader}

section

variable {key value : List Char}

/-- The text of a key and its value has nothing to trim and no special meaning. -/
theorem entry_ends (hkey : PlainKey key) (hvalue : SolidValue value) :
    (∃ c, (key ++ ':' :: ' ' :: value).head? = some c ∧ c.is_whitespace = false ∧ c ≠ '#') ∧
      ∃ c, (key ++ ':' :: ' ' :: value).getLast? = some c ∧ c.is_whitespace = false ∧ c ≠ ':' := by
  obtain ⟨-, last, hlast, hwhitespace, hcolon⟩ := hvalue
  constructor
  · obtain ⟨first, rest, rfl⟩ := List.exists_cons_of_ne_nil hkey.1
    obtain ⟨hgraphic, -, hhash⟩ := hkey.forall_mem first List.mem_cons_self
    exact ⟨first, rfl, Char.is_whitespace_of_graphic hgraphic, hhash⟩
  · refine ⟨last, ?_, hwhitespace, hcolon⟩
    rw [List.getLast?_append, List.getLast?_cons_cons, List.getLast?_cons, hlast]
    rfl

/-- Such a line gets as far as the mappings, however it is indented. -/
theorem read_line_entry (hkey : PlainKey key) (hvalue : SolidValue value) {line : List Char}
    (htrim : str.trim line = key ++ ':' :: ' ' :: value) :
    self.read_line crates now_ms line =
      self.read_mapping crates now_ms line (key ++ ':' :: ' ' :: value) := by
  obtain ⟨⟨first, hhead, -, hhash⟩, last, hlast, -, hcolon⟩ := entry_ends hkey hvalue
  have hsection : ∀ name : List Char, name.getLast? = some ':' → key ++ ':' :: ' ' :: value ≠ name := by
    rintro name hname rfl
    rw [hlast] at hname
    exact hcolon (Option.some.inj hname)
  unfold read_line
  rw [htrim, if_neg, if_neg (hsection _ rfl), if_neg (hsection _ rfl)]
  rintro (hnil | hcomment)
  · rw [hnil] at hhead
    cases hhead
  · rw [hhead] at hcomment
    exact hhash (Option.some.inj hcomment)

theorem split_once_entry (hkey : PlainKey key) :
    str.split_once ':' (key ++ ':' :: ' ' :: value) = some (key, ' ' :: value) :=
  str.split_once_append (fun hmem => (hkey.forall_mem ':' hmem).2.1 rfl) _

theorem trim_key (hkey : PlainKey key) : str.trim key = key :=
  str.trim_of_graphic fun c hc => (hkey.forall_mem c hc).1

theorem trim_value (hvalue : SolidValue value) : str.trim (' ' :: value) = value := by
  have htrim : str.trim (' ' :: value) = str.trim value := rfl
  rw [htrim, str.trim_eq_self hvalue.1]
  obtain ⟨-, last, hlast, hwhitespace, -⟩ := hvalue
  rintro c hc
  rw [hlast] at hc
  cases hc
  exact hwhitespace

theorem trim_entry (hkey : PlainKey key) (hvalue : SolidValue value) :
    str.trim (key ++ ':' :: ' ' :: value) = key ++ ':' :: ' ' :: value ∧
      str.trim (' ' :: ' ' :: (key ++ ':' :: ' ' :: value)) = key ++ ':' :: ' ' :: value := by
  obtain ⟨⟨first, hhead, hfirst, -⟩, last, hlast, hwhitespace, -⟩ := entry_ends hkey hvalue
  have hstart : ∀ c ∈ (key ++ ':' :: ' ' :: value).head?, c.is_whitespace = false := by
    rw [hhead]
    rintro c ⟨⟩
    exact hfirst
  have hstop : ∀ c ∈ (key ++ ':' :: ' ' :: value).getLast?, c.is_whitespace = false := by
    rw [hlast]
    rintro c ⟨⟩
    exact hwhitespace
  exact ⟨str.trim_eq_self hstart hstop, str.trim_indent hstart hstop⟩

/-- A line of the head of the file. -/
theorem read_line_property (hmappings : self.in_action_mappings = false)
    (hsamples : self.in_sample_logs = false) (hkey : PlainKey key) (hvalue : SolidValue value) :
    self.read_line crates now_ms (key ++ ':' :: ' ' :: value) =
      self.property crates now_ms key (str.trim_matches isQuote value) := by
  rw [read_line_entry hkey hvalue (trim_entry hkey hvalue).1, read_mapping, hmappings,
    if_neg Bool.false_ne_true, read_sample, hsamples, if_neg Bool.false_ne_true, read_property,
    split_once_entry hkey]
  dsimp only
  rw [trim_key hkey, trim_value hvalue]

/-- A line of the mappings. -/
theorem read_line_mapping (hmappings : self.in_action_mappings = true) (hkey : PlainKey key)
    (hvalue : SolidValue value) :
    self.read_line crates now_ms (' ' :: ' ' :: (key ++ ':' :: ' ' :: value)) =
      { self with
        action_mappings := self.action_mappings.insert (String.ofList key)
          (String.ofList (str.trim_matches isQuote value)) } := by
  rw [read_line_entry hkey hvalue (trim_entry hkey hvalue).2, read_mapping, if_pos hmappings,
    split_once_entry hkey]
  dsimp only
  rw [trim_key hkey, trim_value hvalue]

end

/-- A quoted line of the head of the file. -/
theorem read_line_quoted (hmappings : self.in_action_mappings = false)
    (hsamples : self.in_sample_logs = false) {key : List Char} (hkey : PlainKey key)
    (value : List Char) :
    self.read_line crates now_ms (yaml_property key value) =
      self.property crates now_ms key (str.trim_matches isQuote value) := by
  rw [yaml_property, read_line_property hmappings hsamples hkey (solidValue_quoted value),
    str.trim_matches_quoted rfl]

section

variable (hmappings : self.in_action_mappings = false) (hsamples : self.in_sample_logs = false)

include hmappings hsamples

theorem read_vendor (value : List Char) :
    self.read_line crates now_ms (yaml_property (str.lit "vendor") value) =
      { self with vendor := String.ofList (str.trim_matches isQuote value) } :=
  read_line_quoted hmappings hsamples (by decide) value

theorem read_device_model (value : List Char) :
    self.read_line crates now_ms (yaml_property (str.lit "device_model") value) =
      { self with device_model := String.ofList (str.trim_matches isQuote value) } :=
  read_line_quoted hmappings hsamples (by decide) value

theorem read_regex_pattern (value : List Char) :
    self.read_line crates now_ms (yaml_property (str.lit "regex_pattern") value) =
      { self with
        regex_pattern := str.replace ['\\', '\\'] ['\\'] (str.trim_matches isQuote value) } :=
  read_line_quoted hmappings hsamples (by decide) value

theorem read_confidence_score :
    self.read_line crates now_ms
      (str.lit "confidence_score: " ++ (crates.format_fixed2 1).toList) =
        { self with
          confidence_score :=
            (crates.parse_f64 (str.trim_matches isQuote (str.lit "1.00"))).getD 1 } := by
  have hline : str.lit "confidence_score: " ++ (crates.format_fixed2 1).toList =
      str.lit "confidence_score" ++ ':' :: ' ' :: str.lit "1.00" := by
    rw [crates.format_fixed2_one]
    decide
  rw [hline]
  exact read_line_property hmappings hsamples (by decide) (PlainKey.solidValue (by decide))

theorem read_created_at (value : Int) :
    self.read_line crates now_ms (str.lit "created_at: " ++ json.int value) =
      { self with
        created_at :=
          (str.parse_int 64 (str.trim_matches isQuote (json.int value))).getD now_ms } := by
  have hline : str.lit "created_at: " ++ json.int value =
      str.lit "created_at" ++ ':' :: ' ' :: json.int value := rfl
  rw [hline]
  exact read_line_property hmappings hsamples (by decide) (plainKey_int value).solidValue

end

/-- A mapping that is read as it was written. -/
def PlainEntry (entry : String × String) : Prop :=
  PlainKey entry.1.toList ∧ '"' ∉ entry.2.toList

theorem trim_matches_isQuote {text : List Char} (htext : '"' ∉ text) :
    str.trim_matches isQuote text = text := by
  have hnot : ∀ c ∈ text, isQuote c = false := by
    intro c hc
    have hne : c ≠ '"' := fun h => htext (h ▸ hc)
    simpa [isQuote] using hne
  exact str.trim_matches_eq_self (fun c hc => hnot c (List.mem_of_head? hc))
    (fun c hc => hnot c (List.mem_of_getLast? hc))

theorem foldl_mappings {entries : List (String × String)}
    (hentries : ∀ entry ∈ entries, PlainEntry entry) (hmappings : self.in_action_mappings = true) :
    (entries.map fun entry => ' ' :: ' ' :: yaml_property entry.1.toList entry.2.toList).foldl
        (read_line crates now_ms) self =
      { self with
        action_mappings := entries.foldl (fun map entry => map.insert entry.1 entry.2)
          self.action_mappings } := by
  induction entries generalizing self with
  | nil => rfl
  | cons entry entries ih =>
    obtain ⟨⟨hkey, hvalue⟩, hentries⟩ := List.forall_mem_cons.mp hentries
    rw [List.map_cons, List.foldl_cons, yaml_property,
      read_line_mapping hmappings hkey (solidValue_quoted _)]
    refine (ih hentries ?_).trans ?_
    · exact hmappings
    dsimp only
    rw [str.trim_matches_quoted rfl, trim_matches_isQuote hvalue]
    simp only [String.ofList_toList, List.foldl_cons]

theorem trim_sample (value : List Char) :
    str.trim (yaml_sample value) =
      '-' :: ' ' :: '"' :: (str.replace ['"'] ['\\', '"'] value ++ ['"']) := by
  refine str.trim_indent ?_ ?_
  · rintro c ⟨⟩
    decide
  · intro c hc
    rw [List.getLast?_cons, List.getLast?_cons, List.getLast?_cons, List.getLast?_concat] at hc
    cases hc
    decide

theorem read_line_sample (hmappings : self.in_action_mappings = false)
    (hsamples : self.in_sample_logs = true) (value : List Char) :
    self.read_line crates now_ms (yaml_sample value) =
      { self with
        sample_logs := self.sample_logs ++
          [String.ofList (str.trim_matches isQuote (str.replace ['"'] ['\\', '"'] value))] } := by
  unfold read_line
  rw [trim_sample, if_neg (by simp), if_neg (by simp [str.lit]), if_neg (by simp [str.lit]),
    read_mapping, if_neg (by simp [hmappings]), read_sample, if_pos hsamples]
  have hstrip : ∀ rest : List Char, str.strip_prefix (str.lit "- ") ('-' :: ' ' :: rest) =
      some rest := fun rest => str.strip_prefix_append (str.lit "- ") rest
  rw [hstrip]
  dsimp only
  rw [str.trim_matches_quoted rfl]

theorem foldl_samples (samples : List String) (hmappings : self.in_action_mappings = false)
    (hsamples : self.in_sample_logs = true) :
    (samples.map fun sample => yaml_sample sample.toList).foldl (read_line crates now_ms) self =
      { self with
        sample_logs := self.sample_logs ++ samples.map fun sample =>
          String.ofList (str.trim_matches isQuote (str.replace ['"'] ['\\', '"'] sample.toList)) } := by
  induction samples generalizing self with
  | nil => simp
  | cons sample samples ih =>
    rw [List.map_cons, List.foldl_cons, read_line_sample hmappings hsamples]
    refine (ih ?_ ?_).trans ?_
    · exact hmappings
    · exact hsamples
    simp

end YamlReader

open YamlReader

section

variable {crates : OnboarderCrates} {now_ms : Int}

/-- What can be read back: texts without line breaks and mappings without special characters. -/
structure SingleLine (parser : ParserExport) (entries : List (String × String)) : Prop where
  vendor : '\n' ∉ parser.vendor.toList
  device_model : '\n' ∉ parser.device_model.toList
  regex_pattern : '\n' ∉ parser.regex_pattern.toList
  confidence_score : parser.confidence_score = 1
  action_mappings : ∀ entry ∈ entries, PlainEntry entry ∧ '\n' ∉ entry.2.toList
  sample_logs : ∀ sample ∈ parser.sample_logs, '\n' ∉ sample.toList

theorem wholeLine_yaml_property {key value : List Char} (hkey : '\n' ∉ key) (hvalue : '\n' ∉ value) :
    str.WholeLine (yaml_property key value) := by
  have hconcat : yaml_property key value = (key ++ ':' :: ' ' :: '"' :: value) ++ ['"'] := by
    simp [yaml_property]
  rw [hconcat]
  refine str.wholeLine_concat ?_ (by decide) (by decide)
  simp [hkey, hvalue]

theorem wholeLine_indented {line : List Char} (hne : line ≠ []) (h : str.WholeLine line) :
    str.WholeLine (' ' :: ' ' :: line) := by
  refine ⟨?_, ?_⟩
  · simp [h.1]
  · obtain ⟨c, rest, rfl⟩ := List.exists_cons_of_ne_nil hne
    rw [List.getLast?_cons_cons, List.getLast?_cons_cons]
    exact h.2

theorem wholeLine_of_all {line : List Char}
    (h : line.all (fun c => c ≠ '\n' && c ≠ '\r') = true) : str.WholeLine line := by
  simp only [List.all_eq_true, Bool.and_eq_true, decide_eq_true_eq] at h
  exact ⟨fun hmem => (h _ hmem).1 rfl, fun hlast => (h _ (List.mem_of_getLast? hlast)).2 rfl⟩

theorem wholeLine_created_at (created_at : Int) :
    str.WholeLine (str.lit "created_at: " ++ json.int created_at) := by
  refine wholeLine_of_all ?_
  rw [List.all_append, Bool.and_eq_true]
  refine ⟨by decide, ?_⟩
  simp only [List.all_eq_true, Bool.and_eq_true, decide_eq_true_eq]
  intro c hc
  obtain ⟨hlo, -⟩ := Char.toNat_of_graphic (json.graphic_of_mem_int hc)
  constructor <;> rintro rfl <;> revert hlo <;> decide

theorem wholeLine_yaml_sample {value : List Char} (hvalue : '\n' ∉ value) :
    str.WholeLine (yaml_sample value) := by
  have hconcat : yaml_sample value =
      (' ' :: ' ' :: '-' :: ' ' :: '"' :: str.replace ['"'] ['\\', '"'] value) ++ ['"'] := by
    simp [yaml_sample]
  have hescaped : '\n' ∉ str.replace ['"'] ['\\', '"'] value := by
    intro hmem
    rcases str.mem_replace_char hmem with hnew | hmem
    · revert hnew
      decide
    · exact hvalue hmem
  rw [hconcat]
  refine str.wholeLine_concat ?_ (by decide) (by decide)
  simp [hescaped]

theorem newline_notMem_escape_pattern {pattern : List Char} (hpattern : '\n' ∉ pattern) :
    '\n' ∉ escape_pattern pattern := by
  intro hmem
  rcases str.mem_replace_char hmem with hnew | hmem
  · revert hnew
    decide
  rcases str.mem_replace_char hmem with hnew | hmem
  · revert hnew
    decide
  · exact hpattern hmem

/-- The lines of the file are the lines that were written. -/
theorem lines_to_yaml {parser : ParserExport} {order : Iteration parser.action_mappings}
    (h : SingleLine parser order.entries) :
    str.lines (to_yaml crates parser order) = yaml_lines crates parser order.entries := by
  refine str.lines_flatMap ?_
  unfold yaml_lines
  intro line hline
  simp only [List.mem_append, List.mem_cons, List.not_mem_nil, or_false, List.mem_map] at hline
  rcases hline with (((rfl | rfl | rfl | rfl | rfl | rfl) | ⟨entry, hentry, rfl⟩) | rfl) |
    ⟨sample, hsample, rfl⟩
  · exact wholeLine_yaml_property (by decide) h.vendor
  · exact wholeLine_yaml_property (by decide) h.device_model
  · rw [h.confidence_score, crates.format_fixed2_one]
    exact wholeLine_of_all (by decide)
  · exact wholeLine_created_at parser.created_at
  · exact wholeLine_yaml_property (by decide) (newline_notMem_escape_pattern h.regex_pattern)
  · exact wholeLine_of_all (by decide)
  · obtain ⟨⟨hkey, -⟩, hvalue⟩ := h.action_mappings entry hentry
    refine wholeLine_indented (by simp [yaml_property]) (wholeLine_yaml_property ?_ hvalue)
    intro hmem
    have := (hkey.forall_mem _ hmem).1
    revert this
    decide
  · exact wholeLine_of_all (by decide)
  · exact wholeLine_yaml_sample (h.sample_logs sample hsample)

/-- Reading the written lines back. Quotes at the ends of a text are lost, and only backslashes
    are unescaped. -/
theorem foldl_yaml_lines (crates : OnboarderCrates) (now_ms : Int) {parser : ParserExport}
    {entries : List (String × String)} (h : SingleLine parser entries) :
    ∃ confidence_score created_at,
      (yaml_lines crates parser entries).foldl (read_line crates now_ms) (.start now_ms) =
        { vendor := String.ofList (str.trim_matches isQuote parser.vendor.toList)
          device_model := String.ofList (str.trim_matches isQuote parser.device_model.toList)
          regex_pattern := str.replace ['\\', '\\'] ['\\']
            (str.trim_matches isQuote (escape_pattern parser.regex_pattern.toList))
          confidence_score
          created_at
          action_mappings := entries.foldl (fun map entry => map.insert entry.1 entry.2) ∅
          sample_logs := parser.sample_logs.map fun sample => String.ofList
            (str.trim_matches isQuote (str.replace ['"'] ['\\', '"'] sample.toList))
          in_action_mappings := false
          in_sample_logs := true } := by
  unfold yaml_lines
  simp only [List.foldl_append, List.foldl_cons, List.foldl_nil]
  rw [h.confidence_score, read_vendor rfl rfl, read_device_model rfl rfl,
    read_confidence_score rfl rfl, read_created_at rfl rfl, read_regex_pattern rfl rfl]
  have hmappings : ∀ self : YamlReader,
      self.read_line crates now_ms (str.lit "action_mappings:") =
        { self with in_action_mappings := true, in_sample_logs := false } := fun _ => rfl
  have hsamples : ∀ self : YamlReader,
      self.read_line crates now_ms (str.lit "sample_logs:") =
        { self with in_sample_logs := true, in_action_mappings := false } := fun _ => rfl
  rw [hmappings, foldl_mappings (fun entry hentry => (h.action_mappings entry hentry).1) rfl,
    hsamples, foldl_samples _ rfl rfl]
  exact ⟨_, _, rfl⟩

end

/-- However the map was iterated, the same map is read back. -/
theorem lookup_iteration {map : HashMap String String} (order : Iteration map) (action : String) :
    (order.entries.foldl (fun map entry => map.insert entry.1 entry.2)
      (∅ : HashMap String String)).lookup action = map.lookup action := by
  have hmem : ∀ entry : String × String,
      entry ∈ order.entries ↔ entry.2 ∈ map.lookup entry.1 := by
    intro entry
    rw [order.perm.mem_iff, AList.mem_lookup_iff, List.mem_map]
    constructor
    · rintro ⟨binding, hbinding, rfl⟩
      exact hbinding
    · intro hbinding
      exact ⟨_, hbinding, rfl⟩
  have hinsert : ∀ (written : HashMap String String) (entry : String × String) (key : String),
      (written.insert entry.1 entry.2).lookup key =
        if entry.1 = key then some entry.2 else written.lookup key := by
    intro written entry key
    split
    · rename_i hkey
      subst hkey
      exact AList.lookup_insert written
    · rename_i hkey
      exact AList.lookup_insert_ne (Ne.symm hkey)
  rw [get_foldl (fun (written : HashMap String String) key => written.lookup key) _ Prod.snd
    hinsert, AList.lookup_empty, Option.or_none]
  cases hlatest : latest Prod.fst order.entries action with
  | none =>
    symm
    rw [Option.map_none, Option.eq_none_iff_forall_not_mem]
    intro value hvalue
    exact latest_eq_none_iff.mp hlatest (action, value) ((hmem _).mpr hvalue) rfl
  | some entry =>
    obtain ⟨hentry, rfl⟩ := mem_of_latest hlatest
    exact ((hmem entry).mp hentry).symm

/-- A text that keeps its ends when the quotes around it are taken off. -/
def Unquoted (text : List Char) : Prop := text.head? ≠ some '"' ∧ text.getLast? ≠ some '"'

theorem Unquoted.trim_matches {text : List Char} (h : Unquoted text) :
    str.trim_matches isQuote text = text := by
  have hquote : ∀ c, c ≠ '"' → isQuote c = false := by simp [isQuote]
  refine str.trim_matches_eq_self (fun c hc => hquote c ?_) (fun c hc => hquote c ?_)
  · rintro rfl
    exact h.1 hc
  · rintro rfl
    exact h.2 hc

/-- A pattern without quotes is read back. -/
theorem read_escape_pattern {pattern : List Char} (hpattern : '"' ∉ pattern) :
    str.replace ['\\', '\\'] ['\\'] (str.trim_matches isQuote (escape_pattern pattern)) = pattern := by
  have hdoubled : '"' ∉ str.replace ['\\'] ['\\', '\\'] pattern := by
    intro hmem
    rcases str.mem_replace_char hmem with hnew | hmem
    · revert hnew
      decide
    · exact hpattern hmem
  rw [escape_pattern, str.replace_char_of_notMem hdoubled, trim_matches_isQuote hdoubled,
    str.replace_double]

/-- The YAML form of a definition whose texts have nothing that it would lose. -/
theorem contents_from_yaml (crates : OnboarderCrates) (now_ms : Int) {parser : ParserExport}
    {order : Iteration parser.action_mappings} (h : SingleLine parser order.entries)
    (hvendor : Unquoted parser.vendor.toList) (hmodel : Unquoted parser.device_model.toList)
    (hpattern : '"' ∉ parser.regex_pattern.toList) (hne : parser.regex_pattern.toList ≠ []) :
    ∃ read, from_yaml crates now_ms (to_yaml crates parser order) = .ok read ∧
      read.toParserDefinition.contents = parser.toParserDefinition.contents := by
  have hjson : crates.from_str_definition (to_yaml crates parser order) = none :=
    crates.definition_not_letter 'v' _ (by decide)
  obtain ⟨confidence_score, created_at, hread⟩ := foldl_yaml_lines crates now_ms h
  unfold from_yaml
  rw [hjson, lines_to_yaml h, hread, hvendor.trim_matches, hmodel.trim_matches,
    read_escape_pattern hpattern]
  dsimp only
  rw [if_neg hne]
  refine ⟨_, rfl, ?_⟩
  simp only [contents, String.ofList_toList, lookup_iteration]

end ParserDefinition

namespace Onboarder

theorem plainEntry_infer_action_mappings (order : Iteration infer_action_mappings) :
    ∀ entry ∈ order.entries, ParserDefinition.YamlReader.PlainEntry entry ∧
      '\n' ∉ entry.2.toList := by
  have hall : (infer_action_mappings.entries.map fun entry => (entry.1, entry.2)).all (fun entry =>
      PlainKey entry.1.toList ∧ '"' ∉ entry.2.toList ∧ '\n' ∉ entry.2.toList) = true := by decide
  intro entry hentry
  have hentry := List.all_eq_true.mp hall entry (order.perm.mem_iff.mp hentry)
  obtain ⟨hkey, hquote, hnewline⟩ := of_decide_eq_true hentry
  exact ⟨⟨hkey, hquote⟩, hnewline⟩

/-- What a generated definition is made of. -/
theorem generateParser_eq_ok {crates : OnboarderCrates} {now_ms : Int} {vendor device_model : String}
    {samples : List (List Char)} {parser : ParserExport} {report : ValidationReport}
    (h : generateParser crates now_ms vendor device_model samples = .ok (.ok (parser, report))) :
    ∃ pattern, synthesize_regex crates samples = .ok pattern ∧
      parser = { vendor, device_model
                 regex_pattern := String.ofList pattern
                 action_mappings := infer_action_mappings
                 sample_logs := samples.map String.ofList
                 confidence_score := 1
                 created_at := now_ms } := by
  unfold generateParser at h
  split at h
  · cases h
  split at h
  · cases h
  · rename_i pattern hpattern
    obtain ⟨report', -, h⟩ := Result.and_then_eq_ok_iff.mp h
    split at h
    · cases h
      exact ⟨pattern, hpattern, rfl⟩
    · cases h

/-- The parts of a generated definition stay on their lines if those of the request do. -/
theorem singleLine_of_generated {crates : OnboarderCrates} {now_ms : Int}
    {vendor device_model : String} {samples : List (List Char)} {parser : ParserExport}
    {report : ValidationReport} (hvendor : '\n' ∉ vendor.toList)
    (hmodel : '\n' ∉ device_model.toList) (hsamples : ∀ sample ∈ samples, '\n' ∉ sample)
    (h : generateParser crates now_ms vendor device_model samples = .ok (.ok (parser, report)))
    (order : Iteration parser.action_mappings) :
    ParserDefinition.SingleLine parser order.entries := by
  obtain ⟨pattern, hpattern, rfl⟩ := generateParser_eq_ok h
  constructor
  · exact hvendor
  · exact hmodel
  · rw [String.toList_ofList]
    exact newline_notMem hpattern
  · rfl
  · exact plainEntry_infer_action_mappings order
  · intro sample hsample
    obtain ⟨text, htext, rfl⟩ := List.mem_map.mp hsample
    rw [String.toList_ofList]
    exact hsamples text htext

/-- The requests whose definition survives its YAML form. -/
structure YamlSafe (crates : OnboarderCrates) (vendor device_model : String)
    (samples : List (List Char)) : Prop where
  vendor_line : '\n' ∉ vendor.toList
  vendor_quotes : ParserDefinition.Unquoted vendor.toList
  model_line : '\n' ∉ device_model.toList
  model_quotes : ParserDefinition.Unquoted device_model.toList
  samples_line : ∀ sample ∈ samples, '\n' ∉ sample
  quote_free : QuoteFree crates samples

theorem YamlSafe.contents_from_yaml {crates : OnboarderCrates} {now_ms : Int}
    {vendor device_model : String} {samples : List (List Char)} {parser : ParserExport}
    {report : ValidationReport} (h : YamlSafe crates vendor device_model samples)
    (hparser : generateParser crates now_ms vendor device_model samples = .ok (.ok (parser, report)))
    (order : Iteration parser.action_mappings) (read_ms : Int) :
    ∃ read, ParserDefinition.from_yaml crates read_ms
        (ParserDefinition.to_yaml crates parser order) = .ok read ∧
      read.toParserDefinition.contents = parser.toParserDefinition.contents := by
  have hline := singleLine_of_generated h.vendor_line h.model_line h.samples_line hparser order
  obtain ⟨pattern, hpattern, rfl⟩ := generateParser_eq_ok hparser
  have hne : pattern ≠ [] := by
    rintro rfl
    cases (anchored_synthesize_regex hpattern).1
  refine ParserDefinition.contents_from_yaml crates read_ms hline h.vendor_quotes h.model_quotes ?_ ?_
  · rw [String.toList_ofList]
    exact (quote_notMem_iff hpattern).mpr h.quote_free
  · rwa [String.toList_ofList]

end Onboarder

end ulpf_ai.onboarder
