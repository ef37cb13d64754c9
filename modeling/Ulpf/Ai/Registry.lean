import Ulpf.Core.Parser.Universal

open Result
open ulpf_core.schema.ocsf
open ulpf_core.parser (Reading compute_sha256)
open ulpf_core.parser.extractors (protocol_num_from_name protocol_name_from_num)
open ulpf_integrity.merkle (Digest)

namespace ulpf_ai.onboarder

structure ParserDefinition where
  vendor : String
  device_model : String
  regex_pattern : String
  action_mappings : HashMap String String

/-- `caps.name(group)`. -/
def capture_name (crates : Crates) (compiled_re : String) (captures : Captures) (raw : List Char)
    (group : String) : Result (Option (List Char)) :=
  match (crates.capture_names compiled_re).idxOf? (some group) with
  | some i => captures.get raw i
  | none => ok none

namespace ParserDefinition

/-- The groups that have a field of their own in the event. -/
def MAPPED_GROUPS : List String :=
  ["src_ip", "src_port", "dst_ip", "dst_port", "protocol", "action", "action_verb", "interface",
    "src_zone", "dst_zone"]

/-- The loop that collects the other groups. -/
def unmapped_groups (crates : Crates) (compiled_re : String) (captures : Captures)
    (raw : List Char) : List String → HashMap String String → Result (HashMap String String)
  | [], unmapped => ok unmapped
  | name :: names, unmapped =>
    if name ∈ MAPPED_GROUPS then unmapped_groups crates compiled_re captures raw names unmapped
    else do
      let text ← capture_name crates compiled_re captures raw name
      let unmapped :=
        match text with
        | some text => unmapped.insert name (String.ofList text)
        | none => unmapped
      unmapped_groups crates compiled_re captures raw names unmapped

def parse_protocol (text : Option (List Char)) : ConnectionInfo :=
  match text with
  | none => {}
  | some text =>
    let p_str := str.trim text
    match str.parse_uint 8 p_str with
    | some num => ⟨some num, some (protocol_name_from_num num), none⟩
    | none =>
      let upper := str.to_ascii_uppercase p_str
      ⟨protocol_num_from_name upper, some (String.ofList upper), none⟩

/-- The disposition of an action that the definition does not map. -/
def default_disposition (raw_action : String) : String :=
  match raw_action with
  | "accept" | "permit" | "allow" | "created" | "passed" | "pass" => disposition.ALLOWED
  | "deny" | "block" | "reject" | "denied" | "blocked" => disposition.BLOCKED
  | "drop" | "dropped" => disposition.DROPPED
  | "closed" | "close" | "teardown" => disposition.ALLOWED
  | _ => disposition.UNKNOWN

def derive_activity_id (raw_action norm_disp : String) : Nat :=
  match raw_action with
  | "created" | "start" | "open" => activity_id.OPEN
  | "closed" | "close" | "teardown" => activity_id.CLOSE
  | _ => if norm_disp = disposition.ALLOWED then activity_id.TRAFFIC_FLOW else activity_id.OTHER

/-- Parse with a compiled pattern. -/
def parse_with_regex (H : Type) [Digest H] (crates : Crates) (reading : Reading)
    (self : ParserDefinition) (compiled_re : String) (raw : List Char) :
    Result (Except String NetworkActivity) :=
  match crates.captures compiled_re raw with
  | none =>
    ok (.error (s!"Log did not match dynamic parser pattern for vendor '{self.vendor}': " ++
      String.ofList raw))
  | some captures => do
    let name := capture_name crates compiled_re captures raw
    let src_ip ← name "src_ip"
    let dst_ip ← name "dst_ip"
    let src_port ← name "src_port"
    let dst_port ← name "dst_port"
    let src_intf ← name "interface"
    let src_zone ← name "src_zone"
    let dst_zone ← name "dst_zone"
    let protocol ← name "protocol"
    let action ← name "action"
    let action_verb ← name "action_verb"
    let raw_action :=
      match action.or action_verb with
      | some text => String.ofList (str.to_ascii_lowercase text)
      | none => "unknown"
    let norm_disp := (self.action_mappings.lookup raw_action).getD (default_disposition raw_action)
    let groups := (crates.capture_names compiled_re).filterMap id
    let unmapped ← unmapped_groups crates compiled_re captures raw groups ∅
    let src_endpoint : Endpoint :=
      ⟨src_ip.map String.ofList, src_port.bind (str.parse_uint 16), src_intf.map String.ofList,
        src_zone.map String.ofList⟩
    let dst_endpoint : Endpoint :=
      ⟨dst_ip.map String.ofList, dst_port.bind (str.parse_uint 16), none,
        dst_zone.map String.ofList⟩
    let product : Product := ⟨self.vendor, self.device_model, none⟩
    let metadata : Metadata :=
      ⟨product, String.ofList raw, compute_sha256 H (str.bytes raw), reading.event_id,
        reading.now_ms⟩
    let event := NetworkActivity.new (derive_activity_id raw_action norm_disp) reading.now_ms
      norm_disp src_endpoint dst_endpoint (parse_protocol protocol) none metadata
    ok (.ok (event.with_unmapped unmapped))

end ParserDefinition

def REGISTRY_CAPACITY : Nat := 256

/-- A registered parser. `regex` is `none` if its pattern did not compile. -/
structure RegistryEntry where
  parser : ParserDefinition
  regex : Option String
  last_use : Nat

structure DynamicParserRegistry where
  parsers : Std.TreeMap String RegistryEntry
  clock : Nat
  capacity : Nat

namespace DynamicParserRegistry

def new : DynamicParserRegistry := ⟨∅, 0, REGISTRY_CAPACITY⟩

/-- The entry to evict: least recently used, and among equals the smallest key, which
    is the first in the order of iteration. -/
def evict_key (parsers : List (String × RegistryEntry)) : Option String :=
  (parsers.foldl (fun best entry =>
    match best with
    | some (key, last_use) =>
      if entry.2.last_use < last_use then some (entry.1, entry.2.last_use)
      else some (key, last_use)
    | none => some (entry.1, entry.2.last_use)) none).map Prod.fst

/-- Register a parser definition; returns its key. -/
def register (crates : Crates) (self : DynamicParserRegistry) (parser : ParserDefinition) :
    String × DynamicParserRegistry :=
  let key := String.ofList (crates.to_lowercase parser.vendor.toList) ++ ":" ++ parser.device_model
  let regex := if crates.regex_new parser.regex_pattern then some parser.regex_pattern else none
  let now := self.clock + 1
  let parsers :=
    if !self.parsers.contains key && decide (self.parsers.size ≥ self.capacity) then
      match evict_key self.parsers.toList with
      | some oldest => self.parsers.erase oldest
      | none => self.parsers
    else self.parsers
  (key, { self with parsers := parsers.insert key ⟨parser, regex, now⟩, clock := now })

section

variable (H : Type) [Digest H] (crates : Crates) (reading : Reading)

/-- Parse with an exact registry key. -/
def parse_key (self : DynamicParserRegistry) (key : String) (raw : List Char) :
    Result (Option NetworkActivity × DynamicParserRegistry) :=
  let now := self.clock + 1
  match self.parsers[key]? with
  | none => ok (none, { self with clock := now })
  | some entry =>
    let used := { self with
      parsers := self.parsers.insert key { entry with last_use := now }, clock := now }
    match entry.regex with
    | none => ok (none, used)
    | some re => do
      let parsed ← entry.parser.parse_with_regex H crates reading re raw
      ok (parsed.toOption, used)

/-- The key that a vendor name stands for: itself, or the first one with the vendor in
    front of the colon. -/
def find_key (self : DynamicParserRegistry) (vendor_key : String) : Option String :=
  if self.parsers.contains vendor_key then some vendor_key
  else self.parsers.keys.find? fun k => (vendor_key ++ ":").toList.isPrefixOf k.toList

/-- Parse with the registered parser of a vendor. -/
def parse (self : DynamicParserRegistry) (vendor : String) (raw : List Char) :
    Result (Except String NetworkActivity × DynamicParserRegistry) :=
  match self.find_key (String.ofList (crates.to_lowercase vendor.toList)) with
  | none => ok (.error s!"No dynamic parser registered for vendor '{vendor}'", self)
  | some key => do
    let (activity, used) ← self.parse_key H crates reading key raw
    match activity with
    | some activity => ok (.ok activity, used)
    | none => ok (.error s!"Log did not match dynamic parser '{key}'", used)

/-- The loop of `parse_any_keyed`: the first entry whose parser succeeds. -/
def first_match (raw : List Char) :
    List (String × RegistryEntry) → Result (Option (String × RegistryEntry × NetworkActivity))
  | [] => ok none
  | (key, entry) :: rest =>
    match entry.regex with
    | none => first_match raw rest
    | some re => do
      let parsed ← entry.parser.parse_with_regex H crates reading re raw
      match parsed with
      | .ok activity => ok (some (key, entry, activity))
      | .error _ => first_match raw rest

/-- Attempt to parse a log line with any registered parser. -/
def parse_any_keyed (self : DynamicParserRegistry) (raw : List Char) :
    Result (Option (String × NetworkActivity) × DynamicParserRegistry) := do
  let now := self.clock + 1
  let found ← first_match H crates reading raw self.parsers.toList
  match found with
  | some (key, entry, activity) =>
    ok (some (key, activity), { self with
      parsers := self.parsers.insert key { entry with last_use := now }, clock := now })
  | none => ok (none, { self with clock := now })

end

end DynamicParserRegistry

theorem capture_name_ne_panic (crates : Crates) (compiled_re : String) {captures : Captures}
    {raw : List Char} (haligned : captures.Aligned raw) (group : String) :
    capture_name crates compiled_re captures raw group ≠ panic := by
  unfold capture_name
  split
  · exact haligned.get_ne_panic _
  · simp

theorem ParserDefinition.unmapped_groups_ne_panic (crates : Crates) (compiled_re : String)
    {captures : Captures} {raw : List Char} (haligned : captures.Aligned raw)
    (names : List String) (unmapped : HashMap String String) :
    unmapped_groups crates compiled_re captures raw names unmapped ≠ panic := by
  induction names generalizing unmapped with
  | nil => simp [unmapped_groups]
  | cons name names ih =>
    rw [unmapped_groups]
    split
    · exact ih unmapped
    · exact bind_ne_panic (capture_name_ne_panic crates compiled_re haligned name) fun text => ih _

section

variable (H : Type) [Digest H] (crates : Crates) (reading : Reading)

theorem ParserDefinition.parse_with_regex_ne_panic (self : ParserDefinition) (compiled_re : String)
    (raw : List Char) : self.parse_with_regex H crates reading compiled_re raw ≠ panic := by
  unfold parse_with_regex
  split
  · simp
  rename_i captures hcaptures
  have haligned := Crates.aligned_of_captures hcaptures
  have hname := capture_name_ne_panic crates compiled_re haligned
  dsimp only
  -- the ten groups with a field of their own
  iterate 10 refine bind_ne_panic (hname _) fun _ => ?_
  refine bind_ne_panic (unmapped_groups_ne_panic crates compiled_re haligned _ _) fun _ => ?_
  simp

namespace DynamicParserRegistry

theorem parse_key_ne_panic (self : DynamicParserRegistry) (key : String) (raw : List Char) :
    self.parse_key H crates reading key raw ≠ panic := by
  unfold parse_key
  dsimp only
  split
  · simp
  split
  · simp
  · exact bind_ne_panic (ParserDefinition.parse_with_regex_ne_panic H crates reading _ _ raw)
      (by simp)

theorem first_match_ne_panic (raw : List Char) (parsers : List (String × RegistryEntry)) :
    first_match H crates reading raw parsers ≠ panic := by
  induction parsers with
  | nil => simp [first_match]
  | cons binding rest ih =>
    obtain ⟨key, entry⟩ := binding
    rw [first_match]
    split
    · exact ih
    refine bind_ne_panic (ParserDefinition.parse_with_regex_ne_panic H crates reading _ _ raw)
      fun parsed => ?_
    cases parsed with
    | ok activity => simp
    | error _ => exact ih

theorem parse_any_keyed_ne_panic (self : DynamicParserRegistry) (raw : List Char) :
    self.parse_any_keyed H crates reading raw ≠ panic := by
  unfold parse_any_keyed
  refine bind_ne_panic (first_match_ne_panic H crates reading raw _) fun found => ?_
  split <;> simp

end DynamicParserRegistry

end

/-- The key under which a definition is registered. -/
def ParserDefinition.registry_key (crates : Crates) (self : ParserDefinition) : String :=
  String.ofList (crates.to_lowercase self.vendor.toList) ++ ":" ++ self.device_model

/-- The entry that is made of a definition. -/
def ParserDefinition.registry_entry (crates : Crates) (self : ParserDefinition) (last_use : Nat) :
    RegistryEntry :=
  ⟨self, if crates.regex_new self.regex_pattern then some self.regex_pattern else none, last_use⟩

namespace DynamicParserRegistry

section

variable {crates : Crates}

/-- The entries that are left when a key is about to be registered. -/
def withRoomFor (self : DynamicParserRegistry) (key : String) : Std.TreeMap String RegistryEntry :=
  if !self.parsers.contains key && decide (self.parsers.size ≥ self.capacity) then
    match evict_key self.parsers.toList with
    | some oldest => self.parsers.erase oldest
    | none => self.parsers
  else self.parsers

theorem register_eq (self : DynamicParserRegistry) (parser : ParserDefinition) :
    self.register crates parser = (parser.registry_key crates, { self with
      parsers := (self.withRoomFor (parser.registry_key crates)).insert (parser.registry_key crates)
        (parser.registry_entry crates (self.clock + 1))
      clock := self.clock + 1 }) := rfl

theorem withRoomFor_of_room {self : DynamicParserRegistry} {key : String}
    (hroom : self.parsers.contains key = true ∨ self.parsers.size < self.capacity) :
    self.withRoomFor key = self.parsers := by
  rw [withRoomFor, if_neg]
  rcases hroom with hcontains | hsize
  · simp [hcontains]
  · simp [hsize]

end

section

variable {H : Type} [Digest H] {crates : Crates} {reading : Reading} {key : String} {raw : List Char}
  {event : NetworkActivity} {self after : DynamicParserRegistry}

/-- The winner of the search over all entries is one of them, and its parser has read the line. -/
theorem of_first_match {parsers : List (String × RegistryEntry)} {entry : RegistryEntry}
    (h : first_match H crates reading raw parsers = ok (some (key, entry, event))) :
    (key, entry) ∈ parsers ∧
      ∃ re, entry.parser.parse_with_regex H crates reading re raw = ok (.ok event) := by
  induction parsers with
  | nil => cases h
  | cons binding rest ih =>
    obtain ⟨key', entry'⟩ := binding
    rw [first_match] at h
    split at h
    · exact (ih h).imp_left (List.mem_cons_of_mem _)
    obtain ⟨parsed, hparsed, h⟩ := bind_eq_ok_iff.mp h
    cases parsed with
    | error e => exact (ih h).imp_left (List.mem_cons_of_mem _)
    | ok activity =>
      cases h
      exact ⟨List.mem_cons_self, _, hparsed⟩

/-- What the registry returns, one of its parsers has made of the line. -/
theorem exists_of_parse_key (h : self.parse_key H crates reading key raw = ok (some event, after)) :
    ∃ (parser : ParserDefinition) (re : String),
      parser.parse_with_regex H crates reading re raw = ok (.ok event) := by
  unfold parse_key at h
  dsimp only at h
  split at h
  · cases h
  split at h
  · cases h
  obtain ⟨parsed, hparsed, h⟩ := bind_eq_ok_iff.mp h
  cases parsed with
  | error e => cases h
  | ok activity =>
    cases h
    exact ⟨_, _, hparsed⟩

theorem exists_of_parse_any_keyed
    (h : self.parse_any_keyed H crates reading raw = ok (some (key, event), after)) :
    ∃ (parser : ParserDefinition) (re : String),
      parser.parse_with_regex H crates reading re raw = ok (.ok event) := by
  obtain ⟨found, hmatch, h⟩ := bind_eq_ok_iff.mp h
  split at h
  · cases h
    obtain ⟨-, hparsed⟩ := of_first_match hmatch
    exact ⟨_, hparsed⟩
  · cases h

end

end DynamicParserRegistry

end ulpf_ai.onboarder
