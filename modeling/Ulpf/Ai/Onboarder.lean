import Mathlib.Data.List.Sort
import Ulpf.Lib.Json
import Ulpf.Lib.Quote
import Ulpf.Ai.Registry

open Result
open ulpf_core.schema.ocsf

namespace ulpf_ai.onboarder

/-- A definition with the fields that only its files carry. -/
structure ParserExport extends ParserDefinition where
  sample_logs : List String
  confidence_score : ℚ
  created_at : Int

/-- What the registry answers from: a definition without the order of its mappings. -/
structure Contents where
  vendor : String
  device_model : String
  regex_pattern : String
  action_mappings : String → Option String

def ParserDefinition.contents (self : ParserDefinition) : Contents :=
  ⟨self.vendor, self.device_model, self.regex_pattern, fun action =>
    self.action_mappings.lookup action⟩

/-- An order in which a hash map is iterated. -/
structure Iteration (map : HashMap String String) where
  entries : List (String × String)
  perm : entries.Perm (map.entries.map fun entry => (entry.1, entry.2))

/-- What the onboarder takes from other crates besides: `serde_json` for definitions, and the
    addresses and floats of `std`. -/
structure OnboarderCrates extends Crates where
  to_string_pretty : (parser : ParserExport) → Iteration parser.action_mappings → Option (List Char)
  from_str_definition : List Char → Option ParserExport
  definition_round_trip : ∀ parser order text, to_string_pretty parser order = some text →
    ∃ read, from_str_definition text = some read ∧
      read.toParserDefinition.contents = parser.toParserDefinition.contents
  /-- A definition is a JSON object or array, and does not begin with a letter. -/
  definition_not_letter : ∀ c text, c.isAlpha = true → from_str_definition (c :: text) = none
  ip_from_str : List Char → Bool
  parse_f64 : List Char → Option ℚ
  format_fixed1 : ℚ → String
  format_fixed2_one : format_fixed2 1 = "1.00"
  /-- The `Debug` form of a list of texts. -/
  format_debug : List String → String

def isQuote (c : Char) : Bool := c = '"'

namespace ParserDefinition

def to_json (crates : OnboarderCrates) (self : ParserExport)
    (order : Iteration self.action_mappings) : Except String (List Char) :=
  match crates.to_string_pretty self order with
  | some text => .ok text
  | none => .error "Failed to serialize parser to JSON"

def from_json (crates : OnboarderCrates) (json_str : List Char) : Except String ParserExport :=
  match crates.from_str_definition json_str with
  | some parser => .ok parser
  | none => .error "Failed to deserialize parser from JSON"

/-- A line with a key and a quoted value. -/
def yaml_property (key : List Char) (value : List Char) : List Char :=
  key ++ ':' :: ' ' :: '"' :: (value ++ ['"'])

def yaml_sample (value : List Char) : List Char :=
  ' ' :: ' ' :: '-' :: ' ' :: '"' :: (str.replace ['"'] ['\\', '"'] value ++ ['"'])

def escape_pattern (pattern : List Char) : List Char :=
  str.replace ['"'] ['\\', '"'] (str.replace ['\\'] ['\\', '\\'] pattern)

def yaml_lines (crates : OnboarderCrates) (self : ParserExport)
    (entries : List (String × String)) : List (List Char) :=
  [yaml_property (str.lit "vendor") self.vendor.toList,
    yaml_property (str.lit "device_model") self.device_model.toList,
    str.lit "confidence_score: " ++ (crates.format_fixed2 self.confidence_score).toList,
    str.lit "created_at: " ++ json.int self.created_at,
    yaml_property (str.lit "regex_pattern") (escape_pattern self.regex_pattern.toList),
    str.lit "action_mappings:"] ++
  entries.map (fun entry => ' ' :: ' ' :: yaml_property entry.1.toList entry.2.toList) ++
  [str.lit "sample_logs:"] ++
  self.sample_logs.map fun sample => yaml_sample sample.toList

/-- Serialize to human-readable YAML. -/
def to_yaml (crates : OnboarderCrates) (self : ParserExport)
    (order : Iteration self.action_mappings) : List Char :=
  (yaml_lines crates self order.entries).flatMap fun line => line ++ ['\n']

/-- The variables of the loop of `from_yaml`. -/
structure YamlReader where
  vendor : String
  device_model : String
  regex_pattern : List Char
  confidence_score : ℚ
  created_at : Int
  action_mappings : HashMap String String
  sample_logs : List String
  in_action_mappings : Bool
  in_sample_logs : Bool

namespace YamlReader

def start (now_ms : Int) : YamlReader where
  vendor := "Custom"
  device_model := "Device"
  regex_pattern := []
  confidence_score := 1
  created_at := now_ms
  action_mappings := ∅
  sample_logs := []
  in_action_mappings := false
  in_sample_logs := false

def property (crates : OnboarderCrates) (now_ms : Int) (self : YamlReader) (key val : List Char) :
    YamlReader :=
  if key = str.lit "vendor" then { self with vendor := String.ofList val }
  else if key = str.lit "device_model" then { self with device_model := String.ofList val }
  else if key = str.lit "confidence_score" then
    { self with confidence_score := (crates.parse_f64 val).getD 1 }
  else if key = str.lit "created_at" then
    { self with created_at := (str.parse_int 64 val).getD now_ms }
  else if key = str.lit "regex_pattern" then
    { self with regex_pattern := str.replace ['\\', '\\'] ['\\'] val }
  else self

def read_property (crates : OnboarderCrates) (now_ms : Int) (self : YamlReader)
    (trimmed : List Char) : YamlReader :=
  match str.split_once ':' trimmed with
  | some (k, v) =>
    self.property crates now_ms (str.trim k) (str.trim_matches isQuote (str.trim v))
  | none => self

def indented (line : List Char) : Bool := [' ', ' '].isPrefixOf line

def read_sample (crates : OnboarderCrates) (now_ms : Int) (self : YamlReader)
    (line trimmed : List Char) : YamlReader :=
  if self.in_sample_logs then
    match str.strip_prefix (str.lit "- ") trimmed with
    | some rest =>
      { self with
        sample_logs := self.sample_logs ++ [String.ofList (str.trim_matches isQuote rest)] }
    | none =>
      { self with in_sample_logs := indented line }.read_property crates now_ms trimmed
  else self.read_property crates now_ms trimmed

def read_mapping (crates : OnboarderCrates) (now_ms : Int) (self : YamlReader)
    (line trimmed : List Char) : YamlReader :=
  if self.in_action_mappings then
    match str.split_once ':' trimmed with
    | some (k, v) =>
      { self with
        action_mappings := self.action_mappings.insert (String.ofList (str.trim k))
          (String.ofList (str.trim_matches isQuote (str.trim v))) }
    | none =>
      { self with in_action_mappings := indented line }.read_sample crates now_ms line trimmed
  else self.read_sample crates now_ms line trimmed

/-- One turn of the loop. -/
def read_line (crates : OnboarderCrates) (now_ms : Int) (self : YamlReader) (line : List Char) :
    YamlReader :=
  let trimmed := str.trim line
  if trimmed = [] ∨ trimmed.head? = some '#' then self
  else if trimmed = str.lit "action_mappings:" then
    { self with in_action_mappings := true, in_sample_logs := false }
  else if trimmed = str.lit "sample_logs:" then
    { self with in_sample_logs := true, in_action_mappings := false }
  else self.read_mapping crates now_ms line trimmed

end YamlReader

/-- Load from YAML, of which JSON is a subset. -/
def from_yaml (crates : OnboarderCrates) (now_ms : Int) (yaml_str : List Char) :
    Except String ParserExport :=
  match crates.from_str_definition yaml_str with
  | some parser => .ok parser
  | none =>
    let read := (str.lines yaml_str).foldl (YamlReader.read_line crates now_ms) (.start now_ms)
    if read.regex_pattern = [] then .error "Invalid YAML: missing regex_pattern"
    else .ok
      { vendor := read.vendor
        device_model := read.device_model
        regex_pattern := String.ofList read.regex_pattern
        action_mappings := read.action_mappings
        sample_logs := read.sample_logs
        confidence_score := read.confidence_score
        created_at := read.created_at }

end ParserDefinition

structure ValidationReport where
  passed : Bool
  total_samples : Nat
  matched_samples : Nat
  match_percentage : ℚ
  errors : List String

namespace Onboarder

/-- An address of four numbers, as the patterns spell it. -/
def IP : List Char := str.lit "(?:\\d\x7b1,3\x7d\\.)\x7b3\x7d\\d\x7b1,3\x7d"

def PORT : List Char := str.lit "\\d\x7b1,5\x7d"

def is_match (crates : Crates) (pattern text : List Char) : Bool :=
  (crates.captures (String.ofList pattern) text).isSome

section

variable (crates : OnboarderCrates)

def check_ip (group : String) (idx : Nat) (text : Option (List Char)) : Option String :=
  match text with
  | some ip_str =>
    if crates.ip_from_str ip_str then none
    else some s!"Sample #{idx + 1}: invalid IP for {group}: '{String.ofList ip_str}'"
  | none => some s!"Sample #{idx + 1}: missing required capture group '{group}'"

def check_port (group : String) (idx : Nat) (text : Option (List Char)) : Option String :=
  match text with
  | some port =>
    if (str.parse_uint 16 port).isSome then none
    else some s!"Sample #{idx + 1}: invalid port for {group}: '{String.ofList port}'"
  | none => none

/-- What is wrong with a sample, if anything. -/
def validate_sample (compiled_re : String) (idx : Nat) (line : List Char) :
    Result (Option String) :=
  match crates.captures compiled_re line with
  | none =>
    ok (some s!"Sample #{idx + 1} did not match regex pattern: '{String.ofList line}'")
  | some captures => do
    let name := capture_name crates.toCrates compiled_re captures line
    let src_ip ← name "src_ip"
    let dst_ip ← name "dst_ip"
    let src_port ← name "src_port"
    let dst_port ← name "dst_port"
    ok (check_ip crates "src_ip" idx src_ip
      |>.or (check_ip crates "dst_ip" idx dst_ip)
      |>.or (check_port "src_port" idx src_port)
      |>.or (check_port "dst_port" idx dst_port))

/-- The loop over the samples: how many matched, and the errors. -/
def validate_samples (compiled_re : String) :
    Nat → List (List Char) → Nat × List String → Result (Nat × List String)
  | _, [], acc => ok acc
  | idx, sample :: samples, (matched, errors) =>
    let line := str.trim sample
    if line = [] then validate_samples compiled_re (idx + 1) samples (matched, errors)
    else do
      let error ← validate_sample crates compiled_re idx line
      match error with
      | some error => validate_samples compiled_re (idx + 1) samples (matched, errors ++ [error])
      | none => validate_samples compiled_re (idx + 1) samples (matched + 1, errors)

/-- Automated sandbox validation. -/
def validateParser (parser : ParserDefinition) (samples : List (List Char)) :
    Result (Except String ValidationReport) :=
  if crates.regex_new parser.regex_pattern then do
    let (matched, errors) ← validate_samples crates parser.regex_pattern 0 samples (0, [])
    let total := samples.length
    let pct : ℚ := if total > 0 then matched / total * 100 else 0
    ok (.ok ⟨matched = total ∧ errors = [], total, matched, pct, errors⟩)
  else ok (.error s!"Failed to compile regex: {parser.regex_pattern}")

def re_flow_slash : List Char :=
  ['('] ++ IP ++ str.lit ")/(" ++ PORT ++ str.lit ")->(" ++ IP ++ str.lit ")/(" ++ PORT ++ [')']

def re_flow_colon : List Char :=
  ['('] ++ IP ++ str.lit "):(" ++ PORT ++ str.lit ")\\s*->\\s*(" ++ IP ++ str.lit "):(" ++ PORT ++
    [')']

/-- A named group. -/
def capture (name : String) (pattern : List Char) : List Char :=
  str.lit "(?P<" ++ name.toList ++ ['>'] ++ pattern ++ [')']

/-- The two endpoints of a flow, each an address and a port. -/
def flow (delimiter arrow : List Char) : List Char :=
  capture "src_ip" IP ++ delimiter ++ capture "src_port" PORT ++ arrow ++ capture "dst_ip" IP ++
    delimiter ++ capture "dst_port" PORT

/-- Juniper SRX. -/
def rt_flow_pattern : List Char :=
  str.lit "^RT_FLOW:\\s+" ++ capture "event_type" (str.lit "\\S+") ++ str.lit "\\s+session\\s+" ++
    capture "action_verb" (str.lit "\\w+") ++ str.lit "(?:.*?)\\s+" ++ flow ['/'] (str.lit "->") ++
    str.lit "\\s+\\S+\\s+\\S+\\s+" ++ capture "protocol" (str.lit "\\d+") ++ str.lit "\\s+" ++
    capture "policy" (str.lit "\\S+") ++ str.lit "\\s+" ++ capture "src_zone" (str.lit "\\S+") ++
    str.lit "\\s+" ++ capture "dst_zone" (str.lit "\\S+") ++ str.lit "(?:.*)$"

def slash_pattern : List Char :=
  str.lit "^.*?" ++ flow ['/'] (str.lit "->") ++ str.lit "(?:.*?proto[=:\\s]+" ++
    capture "protocol" (str.lit "\\S+") ++ str.lit ")?(?:.*?action[=:\\s]+" ++
    capture "action" (str.lit "\\w+") ++ str.lit ")?.*$"

/-- Check Point. -/
def colon_pattern : List Char :=
  str.lit "^(?:" ++ capture "timestamp"
      (str.lit "\\d\x7b4\x7d-\\d\x7b2\x7d-\\d\x7b2\x7d\\s+\\d\x7b2\x7d:\\d\x7b2\x7d:\\d\x7b2\x7d") ++
    str.lit "\\s+)?" ++ capture "device" (str.lit "\\S+") ++ str.lit "\\s+" ++
    capture "action" (str.lit "[a-zA-Z]+") ++ str.lit "\\s+" ++
    flow [':'] (str.lit "\\s*->\\s*") ++ str.lit "(?:.*?proto\\s+" ++
    capture "protocol" (str.lit "[a-zA-Z0-9]+") ++ str.lit ")?(?:.*)$"

def re_ip_port : List Char := str.lit "^(" ++ IP ++ str.lit ")[:/](" ++ PORT ++ str.lit ")$"

def re_ip : List Char := ['^'] ++ IP ++ ['$']

def re_port : List Char := ['^'] ++ PORT ++ ['$']

def re_proto : List Char := str.lit "^(?i)(TCP|UDP|ICMP|GRE|ESP|AH|IGMP|SCTP)$"

def re_action : List Char := str.lit "^(?i)(accept|deny|drop|permit|block|reject|pass|allow)$"

def re_timestamp : List Char :=
  str.lit "^\\d\x7b4\x7d[-/]\\d\x7b2\x7d[-/]\\d\x7b2\x7d(?:[T\\s]\\d\x7b2\x7d:\\d\x7b2\x7d:\\d\x7b2\x7d)?$"

/-- `regex::escape`. -/
def is_meta_character (c : Char) : Bool :=
  c ∈ str.lit "\\.+*?()|[]\x7b\x7d^$#&-~"

def regex_escape (text : List Char) : List Char :=
  text.flatMap fun c => if is_meta_character c then ['\\', c] else [c]

/-- `all_same`. -/
def all_same (col : List (List Char)) : Bool := (col.zip col.tail).all fun w => w.1 = w.2

/-- The pattern of one column, and the counters of the addresses and ports after it. -/
def column_pattern (col : List (List Char)) (ip_count port_count : Nat) :
    List Char × Nat × Nat :=
  let delimiter := if ((col.head?).getD []).contains ':' then [':'] else ['/']
  if all_same col then (regex_escape ((col.head?).getD []), ip_count, port_count)
  else if col.all (is_match crates.toCrates re_ip_port) then
    if ip_count = 0 then
      (capture "src_ip" IP ++ delimiter ++ capture "src_port" PORT, ip_count + 1, port_count + 1)
    else if ip_count = 1 then
      (capture "dst_ip" IP ++ delimiter ++ capture "dst_port" PORT, ip_count + 1, port_count + 1)
    else (IP ++ delimiter ++ PORT, ip_count, port_count)
  else if col.all (is_match crates.toCrates re_ip) then
    if ip_count = 0 then (capture "src_ip" IP, ip_count + 1, port_count)
    else if ip_count = 1 then (capture "dst_ip" IP, ip_count + 1, port_count)
    else (IP, ip_count, port_count)
  else if col.all (is_match crates.toCrates re_port) then
    if port_count = 0 then (capture "src_port" PORT, ip_count, port_count + 1)
    else if port_count = 1 then (capture "dst_port" PORT, ip_count, port_count + 1)
    else (str.lit "(?:" ++ PORT ++ [')'], ip_count, port_count)
  else if col.all (is_match crates.toCrates re_proto) then
    (capture "protocol" (str.lit "[a-zA-Z0-9]+"), ip_count, port_count)
  else if col.all (is_match crates.toCrates re_action) then
    (capture "action" (str.lit "[a-zA-Z]+"), ip_count, port_count)
  else if col.all (is_match crates.toCrates re_timestamp) then
    (capture "timestamp" (str.lit "\\S+"), ip_count, port_count)
  else (str.lit "(?:\\S+)", ip_count, port_count)

/-- The loop over the columns. -/
def column_patterns : List (List (List Char)) → Nat → Nat → List (List Char)
  | [], _, _ => []
  | col :: cols, ip_count, port_count =>
    let (part, ip_count, port_count) := column_pattern crates col ip_count port_count
    part :: column_patterns cols ip_count port_count

/-- The columns that all lines have. -/
def columns (samples : List (List Char)) : List (List (List Char)) :=
  let split_lines := samples.map str.split_whitespace
  let min_len := (split_lines.map List.length).min?.getD 0
  (List.range min_len).map fun i => split_lines.map fun line => line.getD i []

/-- Positional token alignment. -/
def synthesize_positional_regex (samples : List (List Char)) : Except String (List Char) :=
  if columns samples = [] then .error "Empty sample lines provided"
  else
    .ok (['^'] ++ (str.lit "\\s+").intercalate (column_patterns crates (columns samples) 0 0) ++
      str.lit "(?:.*)$")

/-- Directional arrow flows. -/
def synthesize_flow_regex (samples : List (List Char)) : Except String (List Char) :=
  let first := samples.headD []
  if is_match crates.toCrates re_flow_slash first then
    if (str.lit "RT_FLOW").isPrefixOf first then .ok rt_flow_pattern else .ok slash_pattern
  else if is_match crates.toCrates re_flow_colon first then .ok colon_pattern
  else synthesize_positional_regex crates samples

/-- The keys: where one is found, and what is captured there. -/
def key_patterns : List (List Char × List Char) :=
  [(str.lit "\\b(?:action|act)=",
      str.lit "(?:action|act)=\"?" ++ capture "action" (str.lit "[a-zA-Z0-9_-]+") ++ str.lit "\"?"),
    (str.lit "\\b(?:src|srcip|saddr)=", str.lit "(?:src|srcip|saddr)=" ++ capture "src_ip" IP),
    (str.lit "\\b(?:sport|srcport)=", str.lit "(?:sport|srcport)=" ++ capture "src_port" PORT),
    (str.lit "\\b(?:dst|dstip|daddr)=", str.lit "(?:dst|dstip|daddr)=" ++ capture "dst_ip" IP),
    (str.lit "\\b(?:dport|dstport)=", str.lit "(?:dport|dstport)=" ++ capture "dst_port" PORT),
    (str.lit "\\b(?:proto|protocol)=",
      str.lit "(?:proto|protocol)=" ++ capture "protocol" (str.lit "[a-zA-Z0-9]+"))]

/-- `re.find(first)`: the offset of the first match. -/
def find_start (pattern text : List Char) : Option Nat := do
  let captures ← crates.captures (String.ofList pattern) text
  let range ← captures.range 0
  return range.1

/-- The keys of a line, in the order of their appearance. -/
def ordered_patterns (first : List Char) : List (Nat × List Char) :=
  (key_patterns.filterMap fun entry =>
    (find_start crates entry.1 first).map fun start => (start, entry.2)).insertionSort
      fun a b => a.1 ≤ b.1

/-- Key-value formats. -/
def synthesize_kv_regex (samples : List (List Char)) : Except String (List Char) :=
  let ordered := ordered_patterns crates (samples.headD [])
  if ordered = [] then .error "No recognizable key-value pairs found in sample"
  else
    .ok (['^'] ++ (ordered.flatMap fun entry => str.lit ".*?\\b" ++ entry.2) ++ str.lit ".*$")

def is_flow (first : List Char) : Bool :=
  str.contains (str.lit "->") first || str.contains (str.lit "session created") first ||
    str.contains (str.lit "session denied") first

def is_kv (first : List Char) : Bool :=
  str.contains (str.lit "src=") first || str.contains (str.lit "srcip=") first ||
    str.contains (str.lit "saddr=") first

/-- Deterministic pattern synthesizer. -/
def synthesize_regex (samples : List (List Char)) : Except String (List Char) :=
  let first := samples.headD []
  if is_flow first then synthesize_flow_regex crates samples
  else if is_kv first then synthesize_kv_regex crates samples
  else synthesize_positional_regex crates samples

end

/-- The mappings do not depend on the samples. -/
def infer_action_mappings : HashMap String String :=
  [("created", disposition.ALLOWED), ("closed", disposition.ALLOWED),
    ("accept", disposition.ALLOWED), ("permit", disposition.ALLOWED),
    ("allow", disposition.ALLOWED), ("passed", disposition.ALLOWED),
    ("pass", disposition.ALLOWED), ("deny", disposition.BLOCKED),
    ("denied", disposition.BLOCKED), ("block", disposition.BLOCKED),
    ("blocked", disposition.BLOCKED), ("reject", disposition.BLOCKED),
    ("drop", disposition.DROPPED), ("dropped", disposition.DROPPED)].foldl
    (fun map entry => map.insert entry.1 entry.2) ∅

/-- Synthesize a pattern, validate it on the samples and produce the definition. -/
def generateParser (crates : OnboarderCrates) (now_ms : Int) (vendor device_model : String)
    (samples : List (List Char)) : Result (Except String (ParserExport × ValidationReport)) :=
  if samples.length < 3 then
    ok (.error s!"Onboarder requires at least 3 sample log lines, found {samples.length}")
  else
    match synthesize_regex crates samples with
    | .error e => ok (.error e)
    | .ok pattern =>
      let parser_def : ParserExport :=
        { vendor, device_model
          regex_pattern := String.ofList pattern
          action_mappings := infer_action_mappings
          sample_logs := samples.map String.ofList
          confidence_score := 1
          created_at := now_ms }
      (validateParser crates parser_def.toParserDefinition samples).and_then fun report =>
        if report.passed then ok (.ok (parser_def, report))
        else ok (.error ("Sandbox validation failed (match rate: " ++
          crates.format_fixed1 report.match_percentage ++ "%): " ++
          crates.format_debug report.errors))

end Onboarder

namespace DynamicParserRegistry

def load_from_json (crates : OnboarderCrates) (self : DynamicParserRegistry)
    (json_str : List Char) : Except String Unit × DynamicParserRegistry :=
  match ParserDefinition.from_json crates json_str with
  | .ok parser => (.ok (), (self.register crates.toCrates parser.toParserDefinition).2)
  | .error e => (.error e, self)

def load_from_yaml (crates : OnboarderCrates) (now_ms : Int) (self : DynamicParserRegistry)
    (yaml_str : List Char) : Except String Unit × DynamicParserRegistry :=
  match ParserDefinition.from_yaml crates now_ms yaml_str with
  | .ok parser => (.ok (), (self.register crates.toCrates parser.toParserDefinition).2)
  | .error e => (.error e, self)

end DynamicParserRegistry

end ulpf_ai.onboarder
