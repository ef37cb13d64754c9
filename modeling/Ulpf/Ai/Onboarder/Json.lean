import Ulpf.Ai.Onboarder.Yaml

namespace ulpf_ai.onboarder.ParserDefinition

/-- A mapping as a member of an object. -/
def pretty_entry (entry : String × String) : List Char :=
  str.lit "    " ++ json.string entry.1 ++ str.lit ": " ++ json.string entry.2

def pretty_sample (sample : String) : List Char := str.lit "    " ++ json.string sample

/-- How `serde_json::to_string_pretty` writes a definition that the onboarder made. -/
def pretty (parser : ParserExport) (entries : List (String × String)) : List Char :=
  str.lit "\x7b\n  \"vendor\": " ++ json.string parser.vendor ++
  str.lit ",\n  \"device_model\": " ++ json.string parser.device_model ++
  str.lit ",\n  \"regex_pattern\": " ++ json.string parser.regex_pattern ++
  str.lit ",\n  \"action_mappings\": " ++ json.bracket pretty_entry '\x7b' '\x7d' entries ++
  str.lit ",\n  \"sample_logs\": " ++ json.bracket pretty_sample '[' ']' parser.sample_logs ++
  str.lit ",\n  \"confidence_score\": 1.0,\n  \"created_at\": " ++ json.int parser.created_at ++
  str.lit "\n\x7d"

def readEntry (s : List Char) : Option ((String × String) × List Char) := do
  let s ← str.strip_prefix (str.lit "    ") s
  let (action, s) ← json.readString s
  let s ← str.strip_prefix (str.lit ": ") s
  let (value, s) ← json.readString s
  return ((action, value), s)

def readSample (s : List Char) : Option (String × List Char) := do
  let s ← str.strip_prefix (str.lit "    ") s
  json.readString s

/-- A reader of such texts. -/
def readPretty (s : List Char) : Option ParserExport := do
  let s ← str.strip_prefix (str.lit "\x7b\n  \"vendor\": ") s
  let (vendor, s) ← json.readString s
  let s ← str.strip_prefix (str.lit ",\n  \"device_model\": ") s
  let (device_model, s) ← json.readString s
  let s ← str.strip_prefix (str.lit ",\n  \"regex_pattern\": ") s
  let (regex_pattern, s) ← json.readString s
  let s ← str.strip_prefix (str.lit ",\n  \"action_mappings\": ") s
  let (entries, s) ← json.readBracket readEntry '\x7b' '\x7d' s
  let s ← str.strip_prefix (str.lit ",\n  \"sample_logs\": ") s
  let (sample_logs, s) ← json.readBracket readSample '[' ']' s
  let s ← str.strip_prefix (str.lit ",\n  \"confidence_score\": 1.0,\n  \"created_at\": ") s
  let (created_at, s) ← json.readInt s
  if s = str.lit "\n\x7d" then
    some
      { vendor, device_model, regex_pattern
        action_mappings := entries.foldl (fun map entry => map.insert entry.1 entry.2) ∅
        sample_logs
        confidence_score := 1
        created_at }
  else none

theorem readEntry_pretty_entry (entry : String × String) (s : List Char) :
    readEntry (pretty_entry entry ++ s) = some (entry, s) := by
  unfold readEntry pretty_entry
  simp only [List.append_assoc, str.strip_prefix_append, json.readString_string,
    Option.bind_eq_bind, Option.bind_some, Option.pure_def]

theorem readSample_pretty_sample (sample : String) (s : List Char) :
    readSample (pretty_sample sample ++ s) = some (sample, s) := by
  unfold readSample pretty_sample
  simp only [List.append_assoc, str.strip_prefix_append, json.readString_string,
    Option.bind_eq_bind, Option.bind_some]

theorem readPretty_pretty (parser : ParserExport) (entries : List (String × String)) :
    readPretty (pretty parser entries) = some
      { parser with
        action_mappings := entries.foldl (fun map entry => map.insert entry.1 entry.2) ∅
        confidence_score := 1 } := by
  have hentries := json.readBracket_bracket readEntry_pretty_entry '\x7b' '\x7d' (by decide)
  have hsamples := json.readBracket_bracket readSample_pretty_sample '[' ']' (by decide)
  have hnewline : ∀ c ∈ (str.lit "\n\x7d").head?, c.isDigit = false := by
    rintro c ⟨⟩
    rfl
  have hint := json.readInt_int parser.created_at hnewline
  unfold readPretty pretty
  simp only [List.append_assoc]
  -- one step for each line of the reader, in its order
  refine Option.bind_eq_some_iff.mpr ⟨_, str.strip_prefix_append _ _, ?_⟩
  refine Option.bind_eq_some_iff.mpr ⟨_, json.readString_string _ _, ?_⟩
  refine Option.bind_eq_some_iff.mpr ⟨_, str.strip_prefix_append _ _, ?_⟩
  refine Option.bind_eq_some_iff.mpr ⟨_, json.readString_string _ _, ?_⟩
  refine Option.bind_eq_some_iff.mpr ⟨_, str.strip_prefix_append _ _, ?_⟩
  refine Option.bind_eq_some_iff.mpr ⟨_, json.readString_string _ _, ?_⟩
  refine Option.bind_eq_some_iff.mpr ⟨_, str.strip_prefix_append _ _, ?_⟩
  refine Option.bind_eq_some_iff.mpr ⟨_, hentries _ _, ?_⟩
  refine Option.bind_eq_some_iff.mpr ⟨_, str.strip_prefix_append _ _, ?_⟩
  refine Option.bind_eq_some_iff.mpr ⟨_, hsamples _ _, ?_⟩
  refine Option.bind_eq_some_iff.mpr ⟨_, str.strip_prefix_append _ _, ?_⟩
  refine Option.bind_eq_some_iff.mpr ⟨_, hint, ?_⟩
  rw [if_pos rfl]

theorem readPretty_letter {c : Char} (hc : c.isAlpha = true) (s : List Char) :
    readPretty (c :: s) = none := by
  have hbrace : c ≠ '\x7b' := by
    rintro rfl
    exact absurd hc (by decide)
  have hstrip : str.strip_prefix (str.lit "\x7b\n  \"vendor\": ") (c :: s) = none := by
    simp [ str.strip_prefix, str.lit, Ne.symm hbrace]
  rw [readPretty, hstrip]
  rfl

end ulpf_ai.onboarder.ParserDefinition
