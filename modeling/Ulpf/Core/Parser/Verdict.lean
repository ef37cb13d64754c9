import Ulpf.Core.Parser.Relay
import Ulpf.Core.Parser.Universal

open Result
open ulpf_core.schema.ocsf
open ulpf_core.parser.classifier
open ulpf_integrity.merkle (Digest)

namespace ulpf_core.parser.extractors

namespace fortigate

/-- The pairs of a text that the tokenizer gets through. -/
def kvPairs (crates : Crates) (text : List Char) : List (List Char × List Char) :=
  (readTokens (str.trim text)).map fun token => (token.key crates, token.value)

theorem KvTokenizer.pairs_eq_ok {text : List Char} (h : FortigateExtractor.Reads text)
    (crates : Crates) : KvTokenizer.pairs crates text = ok (kvPairs crates text) := by
  rw [FortigateExtractor.Reads] at h
  rw [KvTokenizer.pairs_eq, if_pos h, kvPairs]

theorem Fields.set_action (fields : Fields) (pair : List Char × List Char) :
    (fields.set pair).action =
      if keyOf pair = "action" then some (String.ofList pair.2) else fields.action := by
  unfold Fields.set keyOf
  generalize String.ofList pair.1 = key
  dsimp only
  split
  all_goals first | rfl | exact (if_neg (by assumption)).symm

theorem action_collected (pairs : List (List Char × List Char)) :
    (collected pairs).action =
      (last_write.latest keyOf pairs "action").map fun pair => String.ofList pair.2 :=
  (last_write.field_foldl Fields.action Fields.set (fun pair => String.ofList pair.2)
    Fields.set_action pairs {}).trans Option.or_none

theorem Fields.disposition_event (fields : Fields) (crates : Crates) (now_ms : Int)
    (raw : List Char) :
    (fields.event crates now_ms raw).disposition = (disposition_of fields.action).1 := by
  have haction : fields.normalize_ports.action = fields.action := rfl
  rw [Fields.event, haction]
  obtain ⟨disp, act_id⟩ := disposition_of fields.action
  simp only [NetworkActivity.with_unmapped_eq]
  rfl

end fortigate

theorem FortigateExtractor.disposition_of_parse {raw : List Char} (h : FortigateExtractor.Reads raw)
    (crates : Crates) (now_ms : Int) :
    ∃ event, FortigateExtractor.parse crates now_ms raw = ok (.ok event) ∧
      event.disposition = (fortigate.disposition_of
        (((last_write.latest fortigate.keyOf (fortigate.kvPairs crates raw) "action").map
          Prod.snd).map String.ofList)).1 := by
  refine ⟨_, FortigateExtractor.parse_of_pairs (fortigate.KvTokenizer.pairs_eq_ok h crates) now_ms, ?_⟩
  rw [fortigate.Fields.disposition_event, fortigate.action_collected, Option.map_map]
  rfl

namespace cef

open fortigate (keyOf)

/-- The keys of the action in an extension. -/
def isAction (pair : List Char × List Char) : Bool := keyOf pair = "act" || keyOf pair = "action"

def actionValue (pair : List Char × List Char) : List Char :=
  unescape_cef (str.trim_matches (· = '"') pair.2)

theorem Fields.set_action (fields : Fields) (pair : List Char × List Char) :
    (fields.set pair).action =
      if isAction pair = true then some (String.ofList (actionValue pair)) else fields.action := by
  unfold Fields.set isAction keyOf
  generalize String.ofList pair.1 = key
  dsimp only
  split
  case h_12 =>
    rename_i hact haction _ _
    rw [decide_eq_false hact, decide_eq_false haction]
    rfl
  all_goals rfl

theorem action_foldl (pairs : List (List Char × List Char)) :
    (pairs.foldl Fields.set {}).action =
      (last_write.latest isAction pairs true).map fun pair => String.ofList (actionValue pair) :=
  (last_write.field_foldl Fields.action Fields.set (fun pair => String.ofList (actionValue pair))
    Fields.set_action pairs {}).trans Option.or_none

theorem Fields.disposition_event (fields : Fields) (now_ms : Int) (raw : List Char)
    (header : List (List Char)) :
    (fields.event now_ms raw header).disposition = (disposition_of fields.action).1 := by
  have haction : fields.normalize_ports.action = fields.action := rfl
  rw [Fields.event, haction]
  obtain ⟨disp, act_id⟩ := disposition_of fields.action
  simp only [NetworkActivity.with_unmapped_eq]
  rfl

/-- The extension of a record, behind seven bars that are not escaped. -/
def extension (record : List Char) : List Char := (headerParts false 0 [] record).getD 7 []

end cef

theorem CefExtractor.disposition_of_parse {raw record : List Char} (hrecord : cef.record raw = some record)
    (h : CefExtractor.Reads raw) (crates : Crates) (now_ms : Int) :
    ∃ event, CefExtractor.parse crates now_ms raw = ok (.ok event) ∧
      event.disposition = (cef.disposition_of
        (((last_write.latest cef.isAction (fortigate.kvPairs crates (cef.extension record)) true).map
          cef.actionValue).map String.ofList)).1 := by
  have hreads : FortigateExtractor.Reads (cef.extension record) := h record hrecord
  obtain ⟨hnone, hmissing⟩ | ⟨n, rest, hsome, hslice, hrest⟩ :=
    str.find_str_spec (str.lit "CEF:") raw
  · rw [cef.record, hmissing] at hrecord
    cases hrecord
  · rw [cef.record, hrest] at hrecord
    cases hrecord
    rw [CefExtractor.parse, hsome]
    dsimp only
    rw [hslice, bind_ok, cef.split_cef_header_eq, bind_ok, ← cef.extension,
      fortigate.KvTokenizer.pairs_eq_ok hreads, bind_ok]
    refine ⟨_, rfl, ?_⟩
    rw [cef.Fields.disposition_event, cef.action_foldl, Option.map_map]
    rfl

namespace cisco_asa

/-- The layouts that are tried for a message code. -/
def layouts : String → List String
  | "302013" | "302015" | "302020" => [REGEX_BUILT]
  | "302014" | "302016" | "302021" => [REGEX_TEARDOWN]
  | "106023" => [REGEX_DENY]
  | "106001" | "106006" | "106007" => [REGEX_DENIED_CONN, REGEX_DROPPED_ACL]
  | "113019" => [REGEX_SESSION_DISCONNECT]
  | _ => []

theorem layout_of_none {crates : Crates} {pattern : String} {body : List Char}
    (h : crates.captures pattern body = none) (parse : Captures → Result NetworkActivity)
    (otherwise : Result NetworkActivity) : layout crates pattern body parse otherwise = otherwise := by
  rw [layout, h]

theorem message_of_no_layout {crates : Crates} {body : List Char} {message_code : String}
    (h : ∀ pattern ∈ layouts message_code, crates.captures pattern body = none) (now_ms : Int)
    (raw : List Char) (unmapped : HashMap String String) :
    message crates now_ms raw body unmapped message_code =
      ok (fallback_parse now_ms raw body unmapped) := by
  unfold message
  dsimp only
  split
  all_goals first
    | exact layout_of_none (h _ List.mem_cons_self) _ _
    | exact (layout_of_none (h _ List.mem_cons_self) _ _).trans
        (layout_of_none (h _ (List.mem_cons_of_mem _ List.mem_cons_self)) _ _)
    | rfl

/-- A line of which nothing but its body is read. -/
def FallsBack (crates : Crates) (raw body : List Char) : Prop :=
  ∃ captures message_code text, crates.captures REGEX_ASA_HEADER raw = some captures ∧
    captures.get raw 2 = ok message_code ∧ captures.get raw 3 = ok text ∧ body = text.getD [] ∧
    ∀ pattern ∈ layouts (String.ofList (message_code.getD [])), crates.captures pattern body = none

theorem FallsBack.body_unique {crates : Crates} {raw body body' : List Char}
    (h : FallsBack crates raw body) (h' : FallsBack crates raw body') : body' = body := by
  obtain ⟨captures, -, text, hcaptures, -, htext, rfl, -⟩ := h
  obtain ⟨captures', -, text', hcaptures', -, htext', rfl, -⟩ := h'
  rw [hcaptures] at hcaptures'
  cases hcaptures'
  rw [htext] at htext'
  cases htext'
  rfl

/-- The body is cut out of the line. -/
theorem FallsBack.body_infix {crates : Crates} {raw body : List Char}
    (h : FallsBack crates raw body) : body <:+: raw := by
  obtain ⟨captures, -, text, -, -, htext, rfl, -⟩ := h
  rw [Captures.get] at htext
  split at htext
  · obtain ⟨slice, hslice, htext⟩ := bind_eq_ok_iff.mp htext
    cases htext
    obtain ⟨a, b, hraw, -, -⟩ := str.slice_eq_ok_iff.mp hslice
    exact ⟨a, b, hraw.symm⟩
  · cases htext
    exact List.nil_infix

end cisco_asa

theorem CiscoAsaExtractor.disposition_of_parse {crates : Crates} {raw body : List Char}
    (h : cisco_asa.FallsBack crates raw body) (now_ms : Int) :
    ∃ event, CiscoAsaExtractor.parse crates now_ms raw = ok (.ok event) ∧
      event.disposition = cisco_asa.fallback_disposition body := by
  obtain ⟨captures, message_code, text, hcaptures, hcode, htext, rfl, hlayouts⟩ := h
  obtain ⟨severity, hseverity⟩ :=
    ne_panic_iff.mp ((Crates.aligned_of_captures hcaptures).get_ne_panic 1)
  rw [CiscoAsaExtractor.parse, hcaptures]
  dsimp only
  rw [hseverity, bind_ok, hcode, bind_ok, htext, bind_ok,
    cisco_asa.message_of_no_layout hlayouts, bind_ok]
  refine ⟨_, rfl, ?_⟩
  rw [cisco_asa.fallback_parse, cisco_asa.asa_activity, NetworkActivity.with_unmapped_eq]
  rfl

end ulpf_core.parser.extractors

namespace ulpf_core.parser.UniversalParser

/-- Stamping an event keeps its disposition. -/
theorem exists_event_iff_extract (H : Type) [Digest H] {crates : Crates} {reading : Reading}
    {raw : List Char} {d : String} :
    (∃ event, parse H crates reading raw = ok (.ok event) ∧ event.disposition = d) ↔
      ∃ activity, extract crates reading.now_ms raw (Classifier.classify raw) = ok (.ok activity) ∧
        activity.disposition = d := by
  rw [parse, parse_with_format]
  rcases extract crates reading.now_ms raw (Classifier.classify raw) with ⟨err | activity⟩ | _
  · simp
  · simp [stamp]
  · simp

end ulpf_core.parser.UniversalParser
