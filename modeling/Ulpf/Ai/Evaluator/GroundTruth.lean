import Ulpf.Lib.Ascii
import Ulpf.Lib.Quote
import Ulpf.Core.Parser.Csv

open Result

namespace str

/-- `str::splitn` at a character. -/
def splitn (sep : Char) : Nat → List Char → List (List Char)
  | 0, _ => []
  | 1, s => [s]
  | n + 2, s =>
    match split_once sep s with
    | some parts => parts.1 :: splitn sep (n + 1) parts.2
    | none => [s]

end str

namespace ulpf_ai.evaluator.EvaluatorEngine

/-- The verdict words of `action_from_kv_token`. -/
def kv_verdict (value : List Char) : Option String :=
  match String.ofList value with
  | "accept" | "allow" | "allowed" => some "Allowed"
  | "deny" | "denied" | "blocked" | "block" => some "Blocked"
  | "drop" => some "Dropped"
  | "close" | "closed" | "timeout" | "client-rst" | "server-rst" | "reset" => some "Allowed"
  | _ => none

/-- The rest of the first whitespace-delimited token that starts with the key. -/
def kv_token (text key : List Char) : Option (List Char) :=
  (str.split_whitespace text).findSome? ( str.strip_prefix key)

def action_from_kv_token (text key : List Char) : Option String :=
  (kv_token text key).bind fun value =>
    kv_verdict (str.trim_matches (· = ',') (str.trim_matches (· = '"') value))

def is_word_quote (c : Char) : Bool :=
  c = '"' || c = '\'' || c = ',' || c = ';' || c.is_whitespace

/-- Value of a whitespace-delimited token as the bare word. -/
def kv_value_word (raw key : List Char) : Option (List Char) :=
  (kv_token raw key).bind fun value =>
    let value := str.trim_matches is_word_quote value
    if value.isEmpty then none else some value

/-- The explicit `action` value of a Suricata event. -/
def eve_action_value (raw : List Char) : Result (Option (List Char)) :=
  match str.find_str (str.lit "\"action\"") raw with
  | none => ok none
  | some p => do
    let after ← str.slice_from raw (p + str.len (str.lit "\"action\""))
    match str.find (· = '"') after with
    | none => ok none
    | some q1 => do
      let rest ← str.slice_from after (q1 + 1)
      match str.find (· = '"') rest with
      | none => ok none
      | some q2 => do
        let value ← str.slice after (q1 + 1) (q1 + 1 + q2)
        ok (some value)

def panos_verdict (action : List Char) : Option String :=
  match String.ofList (str.to_ascii_lowercase action) with
  | "allow" => some "Allowed"
  | "deny" => some "Blocked"
  | "drop" => some "Dropped"
  | _ => none

/-- The disposition of a PAN-OS row by the position of its action column, else by markers. -/
def panos_action_field (raw : List Char) : Result (Option String) := do
  let fields ← ulpf_core.parser.extractors.split_csv raw
  let traffic_pos := fields.findIdx? fun f =>
    str.eq_ignore_ascii_case f (str.lit "TRAFFIC") || str.eq_ignore_ascii_case f (str.lit "THREAT")
  match (traffic_pos.bind fun tp => fields[tp + 27]?).bind panos_verdict with
  | some verdict => ok (some verdict)
  | none =>
    if str.contains (str.lit ",drop,") raw then ok (some "Dropped")
    else if str.contains (str.lit ",deny,") raw then ok (some "Blocked")
    else if str.contains (str.lit ",allow,") raw then ok (some "Allowed")
    else ok none

/-- The tag of a Cisco ASA line: up to its colon, or fifteen bytes where it has none. -/
def asa_tag (raw : List Char) : Result (List Char) :=
  match str.find_str (str.lit "%ASA-") raw with
  | some pos => do
    let rest ← str.slice_from raw pos
    let stop := (str.find (· = ':') rest).getD 15
    let tag ← str.slice raw pos (pos + stop)
    ok (str.trim tag)
  | none => ok (str.lit "%ASA")

/-- The verdict vocabulary for Cisco ASA lines. Failure phrases win first. -/
def asa_action (raw : List Char) : Option String :=
  let lower := str.to_ascii_lowercase raw
  if str.contains (str.lit "authentication failed") lower ||
      str.contains (str.lit "login failed") lower then
    some "Blocked"
  else if str.contains (str.lit "Built") raw || str.contains (str.lit "permit") raw ||
      str.contains (str.lit "successful login") lower ||
      str.contains (str.lit "tunnel established") lower ||
      str.contains (str.lit "session disconnected") lower then
    some "Allowed"
  else if str.contains (str.lit "Deny") raw || str.contains (str.lit "drop") raw then some "Blocked"
  else if str.contains (str.lit "Teardown") raw then some "Allowed"
  else none

def fortigate_tag (raw : List Char) : String :=
  match (kv_value_word raw (str.lit "type=")).map String.ofList with
  | some "dns" => "fortigate_dns"
  | some "utm" => "fortigate_utm"
  | some "app-ctrl" => "fortigate_appctrl"
  | _ => "fortigate_traffic"

/-- An explicit action is authoritative, else an alert is a detection. -/
def eve_action (raw : List Char) (value : Option (List Char)) : Option String :=
  match value.map String.ofList with
  | some "blocked" | some "reject" => some "Blocked"
  | some "drop" | some "dropped" => some "Dropped"
  | some "allowed" | some "pass" => some "Allowed"
  | _ => if str.contains (str.lit "\"alert\"") raw then some "Blocked" else some "Allowed"

/-- The extension of a CEF line, behind seven bars. -/
def cef_extension (cef : List Char) : List Char := ((str.splitn '|' 8 cef)[7]?).getD []

/-- Ground truth vendor, template tag and expected action of a raw line. -/
def extract_ground_truth (raw : List Char) : Result (List Char × List Char × Option String) :=
  let contains (pat : String) : Bool := str.contains (str.lit pat) raw
  match str.find_str (str.lit "CEF:") raw with
  | some cef_pos => do
    let cef ← str.slice_from raw cef_pos
    let vendor := str.trim (((str.splitn '|' 8 cef)[1]?).getD (str.lit "Unknown"))
    ok (vendor, str.lit "cef", action_from_kv_token (cef_extension cef) (str.lit "act="))
  | none =>
    if contains "%ASA-" then do
      let tag ← asa_tag raw
      ok (str.lit "Cisco", tag, asa_action raw)
    else if contains "devname=" || contains "type=\"traffic\"" || contains "logid=" then
      ok (str.lit "Fortinet", str.lit (fortigate_tag raw),
        action_from_kv_token raw (str.lit "action="))
    else if contains ",TRAFFIC," || contains ",THREAT," then do
      let action ← panos_action_field raw
      let tag := if contains ",THREAT," then "panos_threat" else "panos_traffic"
      ok (str.lit "Palo Alto", str.lit tag, action)
    else if raw.head? = some '\x7b' || contains "\"event_type\"" then do
      let value ← eve_action_value raw
      let sub := if contains "\"alert\"" then "suricata_alert" else "suricata_flow"
      ok (str.lit "Suricata", str.lit sub, eve_action raw value)
    else if contains "filterlog[" || contains "filterlog:" then
      let action :=
        if contains ",pass," then some "Allowed"
        else if contains ",block," then some "Blocked"
        else none
      ok (str.lit "pfSense", str.lit "pfsense_filterlog", action)
    else ok (str.lit "Unknown", str.lit "unknown_template", none)

/-- The first tag of a Cisco ASA line that is not in CEF has a colon behind its start, or a
    character ends fifteen bytes behind it. -/
def TagEnds (raw : List Char) : Prop :=
  str.find_str (str.lit "CEF:") raw = none → ∀ front back, raw = front ++ back →
    str.find_str (str.lit "%ASA-") raw = some (str.len front) →
    ':' ∈ back ∨ ∃ tag rest, back = tag ++ rest ∧ str.len tag = 15

theorem eve_action_value_ne_panic (raw : List Char) : eve_action_value raw ≠ panic := by
  unfold eve_action_value
  split
  · simp
  · rename_i p hp
    obtain ⟨a, after, rfl, rfl⟩ := str.exists_of_find_str hp
    rw [← str.len_append, str.slice_from_len, bind_ok]
    split
    · simp
    · rename_i q1 hq1
      obtain ⟨b, c, rest, rfl, rfl, hc, -⟩ := str.find_eq_some_iff.mp hq1
      obtain rfl : c = '"' := of_decide_eq_true hc
      rw [str.slice_from_succ_of_ascii b rest (by decide), bind_ok]
      split
      · simp
      · rename_i q2 hq2
        obtain ⟨value, d, rest, rfl, rfl, -, -⟩ := str.find_eq_some_iff.mp hq2
        have hsplit : b ++ '"' :: (value ++ d :: rest) = (b ++ ['"']) ++ value ++ d :: rest := by simp
        have hlen : str.len b + 1 = str.len (b ++ ['"']) := by
          rw [str.len_append]
          rfl
        rw [hsplit, hlen, ← str.len_append, str.slice_len, bind_ok]
        simp

theorem panos_action_field_ne_panic (raw : List Char) : panos_action_field raw ≠ panic := by
  rw [panos_action_field, ulpf_core.parser.extractors.split_csv_eq, bind_ok]
  dsimp only
  generalize Option.bind _ panos_verdict = verdict
  cases verdict with
  | some verdict => simp
  | none =>
    dsimp only
    split_ifs <;> simp

/-- Cutting the tag is what can go wrong. -/
theorem asa_tag_ne_panic_iff {front back : List Char}
    (hfind : str.find_str (str.lit "%ASA-") (front ++ back) = some (str.len front)) :
    asa_tag (front ++ back) ≠ panic ↔
      ':' ∈ back ∨ ∃ tag rest, back = tag ++ rest ∧ str.len tag = 15 := by
  rw [asa_tag, hfind]
  dsimp only
  rw [str.slice_from_len, bind_ok]
  cases hcolon : str.find (· = ':') back with
  | some stop =>
    obtain ⟨tag, c, rest, rfl, rfl, hc, -⟩ := str.find_eq_some_iff.mp hcolon
    rw [Option.getD_some, ← List.append_assoc, ← str.len_append, str.slice_len, bind_ok]
    refine iff_of_true (by simp) (.inl (List.mem_append_right _ ?_))
    rw [of_decide_eq_true hc]
    exact List.mem_cons_self
  | none =>
    have hno : ':' ∉ back := fun hmem => by
      have := str.find_eq_none_iff.mp hcolon ':' hmem
      cases this
    rw [Option.getD_none, or_iff_right hno]
    constructor
    · intro hne
      obtain ⟨tag, htag, -⟩ := bind_eq_ok_iff.mp (ne_panic_iff.mp hne).choose_spec
      obtain ⟨a, b, hab, hlen, hlen'⟩ := str.slice_eq_ok_iff.mp htag
      rw [List.append_assoc] at hab
      obtain ⟨rfl, rfl⟩ := str.append_inj_of_len hab hlen.symm
      rw [str.len_append] at hlen'
      exact ⟨tag, b, rfl, by omega⟩
    · rintro ⟨tag, rest, rfl, hlen⟩
      rw [← List.append_assoc, ← hlen, ← str.len_append, str.slice_len, bind_ok]
      simp

/-- The ground truth of a line is found exactly if the tag of a Cisco line can be cut out. -/
theorem extract_ground_truth_ne_panic_iff (raw : List Char) :
    extract_ground_truth raw ≠ panic ↔ TagEnds raw := by
  unfold extract_ground_truth TagEnds
  dsimp only
  cases hcef : str.find_str (str.lit "CEF:") raw with
  | some cef_pos =>
    obtain ⟨front, back, rfl, rfl⟩ := str.exists_of_find_str hcef
    dsimp only
    rw [List.append_assoc, str.slice_from_len, bind_ok]
    exact iff_of_true (by simp) (fun h => by cases h)
  | none =>
    dsimp only
    by_cases hasa : str.contains (str.lit "%ASA-") raw = true
    · obtain ⟨pos, hpos⟩ := Option.isSome_iff_exists.mp hasa
      obtain ⟨front, back, rfl, rfl⟩ := str.exists_of_find_str hpos
      rw [List.append_assoc] at hpos ⊢
      rw [if_pos (List.append_assoc front _ back ▸ hasa), bind_ok_ne_panic_iff,
        asa_tag_ne_panic_iff hpos]
      constructor
      · intro hends _ front' back' hsplit hfind
        rw [hpos, Option.some_inj] at hfind
        obtain ⟨rfl, rfl⟩ := str.append_inj_of_len hsplit hfind
        exact hends
      · exact fun hends => hends rfl front _ rfl hpos
    · have hnone : str.find_str (str.lit "%ASA-") raw = none :=
        Option.not_isSome_iff_eq_none.mp hasa
      rw [if_neg hasa, hnone]
      refine iff_of_true ?_ fun _ front back _ h => by cases h
      by_cases hfortinet : (str.contains (str.lit "devname=") raw ||
          str.contains (str.lit "type=\"traffic\"") raw || str.contains (str.lit "logid=") raw) = true
      · rw [if_pos hfortinet]
        simp
      rw [if_neg hfortinet]
      by_cases hpanos : (str.contains (str.lit ",TRAFFIC,") raw ||
          str.contains (str.lit ",THREAT,") raw) = true
      · rw [if_pos hpanos]
        exact bind_ok_ne_panic_iff.mpr (panos_action_field_ne_panic raw)
      rw [if_neg hpanos]
      by_cases hsuricata : (decide (raw.head? = some '\x7b') ||
          str.contains (str.lit "\"event_type\"") raw) = true
      · rw [if_pos hsuricata]
        exact bind_ok_ne_panic_iff.mpr (eve_action_value_ne_panic raw)
      rw [if_neg hsuricata]
      split <;> simp

end ulpf_ai.evaluator.EvaluatorEngine
