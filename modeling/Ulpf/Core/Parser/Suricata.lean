import Ulpf.Core.Schema
import Ulpf.Core.Parser.Csv

open Result
open ulpf_core.schema.ocsf

namespace ulpf_core.parser.extractors

namespace suricata

/-- The JSON text of a line: from the first brace on. -/
def json_slice (raw : List Char) : Result (List Char) :=
  match str.find (· = '\x7b') raw with
  | some pos => str.slice_from raw pos
  | none => ok (str.trim raw)

/-- What the flow and alert objects decide. -/
structure Verdict where
  traffic : Option Traffic
  disp : String
  act_id : Nat
  unmapped : HashMap String String

def insert_value (crates : Crates) (name : String) (value : Option Value)
    (unmapped : HashMap String String) : HashMap String String :=
  match value with
  | some v => unmapped.insert name (crates.to_string v)
  | none => unmapped

def state_activity (state : Option (List Char)) (act_id : Nat) : Nat :=
  match state.map fun s => String.ofList (str.to_ascii_lowercase s) with
  | some "closed" => activity_id.CLOSE
  | some "new" => activity_id.OPEN
  | _ => act_id

/-- The `flow` object of an event. -/
def read_flow (flow_obj : Value) (verdict : Verdict) : Verdict :=
  let bytes_toserver := (flow_obj.get "bytes_toserver").bind Value.as_u64
  let bytes_toclient := (flow_obj.get "bytes_toclient").bind Value.as_u64
  let pkts_toserver := (flow_obj.get "pkts_toserver").bind Value.as_u64
  let pkts_toclient := (flow_obj.get "pkts_toclient").bind Value.as_u64
  let flow_action := (flow_obj.get "action").bind Value.as_str
  let state := (flow_obj.get "state").bind Value.as_str
  { traffic :=
      if bytes_toserver.isSome || bytes_toclient.isSome || pkts_toserver.isSome ||
          pkts_toclient.isSome then
        some ⟨bytes_toclient, bytes_toserver, pkts_toclient, pkts_toserver⟩
      else verdict.traffic
    disp :=
      if flow_action.any fun a => str.eq_ignore_ascii_case a (str.lit "drop") then
        disposition.DROPPED
      else verdict.disp
    act_id := state_activity state verdict.act_id
    unmapped := insert_some "flow_state" state verdict.unmapped }

def alert_disposition (action : Option (List Char)) : String :=
  match action.map fun s => String.ofList (str.to_ascii_lowercase s) with
  | some "blocked" | some "reject" => disposition.BLOCKED
  | some "drop" | some "dropped" => disposition.DROPPED
  | some "allowed" | some "pass" => disposition.ALLOWED
  | _ => disposition.BLOCKED

/-- The `alert` object of an event. -/
def read_alert (crates : Crates) (alert_obj : Value) (verdict : Verdict) : Verdict :=
  let action := (alert_obj.get "action").bind Value.as_str
  let unmapped := insert_some "alert_action" action verdict.unmapped
  let unmapped :=
    insert_some "alert_signature" ((alert_obj.get "signature").bind Value.as_str) unmapped
  let unmapped :=
    insert_some "alert_category" ((alert_obj.get "category").bind Value.as_str) unmapped
  let unmapped := insert_value crates "alert_severity" (alert_obj.get "severity") unmapped
  { verdict with disp := alert_disposition action, act_id := activity_id.OTHER, unmapped }

/-- A port field; the number is cut to 16 bits. -/
def port (val : Value) (key : String) : Option Nat :=
  ((val.get key).bind Value.as_u64).map (· % 2 ^ 16)

/-- The event made of a JSON value. -/
def event (crates : Crates) (now_ms : Int) (raw : List Char) (val : Value) : NetworkActivity :=
  let text (key : String) : Option (List Char) := (val.get key).bind Value.as_str
  let event_time :=
    ((text "timestamp").map fun ts => parse_rfc3339_or_fallback crates ts now_ms).getD now_ms
  let event_type := (text "event_type").getD (str.lit "unknown")
  let proto_name := (text "proto").map str.to_ascii_uppercase
  let proto_num := proto_name.bind protocol_num_from_name
  let unmapped : HashMap String String :=
    AList.insert "event_type" (String.ofList event_type) (∅ : HashMap String String)
  let unmapped := insert_value crates "flow_id" (val.get "flow_id") unmapped
  let verdict : Verdict := ⟨none, disposition.ALLOWED, activity_id.TRAFFIC_FLOW, unmapped⟩
  let verdict :=
    match (val.get "flow").bind Value.as_object with
    | some flow_obj => read_flow flow_obj verdict
    | none => verdict
  let verdict :=
    match (val.get "alert").bind Value.as_object with
    | some alert_obj => read_alert crates alert_obj verdict
    | none => verdict
  let src_endpoint : Endpoint :=
    ⟨(text "src_ip").map String.ofList, port val "src_port", (text "in_iface").map String.ofList,
      none⟩
  let dst_endpoint : Endpoint :=
    ⟨(text "dest_ip").map String.ofList, port val "dest_port", none, none⟩
  let connection_info : ConnectionInfo := ⟨proto_num, proto_name.map String.ofList, none⟩
  let product : Product := ⟨"OISF", "Suricata", none⟩
  let metadata : Metadata := ⟨product, String.ofList raw, "", "", now_ms⟩
  (NetworkActivity.new verdict.act_id event_time verdict.disp src_endpoint dst_endpoint
    connection_info verdict.traffic metadata).with_unmapped verdict.unmapped

end suricata

/-- `SuricataExtractor::parse`. -/
def SuricataExtractor.parse (crates : Crates) (now_ms : Int) (raw : List Char) :
    Result (Except String NetworkActivity) := do
  let json_slice ← suricata.json_slice raw
  match crates.from_str json_slice with
  | .error e =>
    let line := String.ofList raw
    ok (.error s!"Failed to parse Suricata JSON: {e} in {line}")
  | .ok val => ok (.ok (suricata.event crates now_ms raw val))

theorem suricata.json_slice_ne_panic (raw : List Char) : suricata.json_slice raw ≠ panic := by
  unfold suricata.json_slice
  split
  · rename_i pos hfind
    obtain ⟨a, c, b, rfl, rfl, -, -⟩ := str.find_eq_some_iff.mp hfind
    rw [str.slice_from_len]
    simp
  · simp

theorem SuricataExtractor.parse_ne_panic (crates : Crates) (now_ms : Int) (raw : List Char) :
    SuricataExtractor.parse crates now_ms raw ≠ panic := by
  apply bind_ne_panic (suricata.json_slice_ne_panic raw)
  intro text
  split <;> simp

/-- The extractor errs for lines whose JSON part is not read only. -/
theorem SuricataExtractor.parse_eq_error_iff (crates : Crates) (now_ms : Int) (raw : List Char) :
    (∃ err, SuricataExtractor.parse crates now_ms raw = ok (.error err)) ↔
      ∃ json_slice e, suricata.json_slice raw = ok json_slice ∧
        crates.from_str json_slice = .error e := by
  obtain ⟨text, htext⟩ := ne_panic_iff.mp (suricata.json_slice_ne_panic raw)
  rw [SuricataExtractor.parse, htext, bind_ok]
  split <;> simp_all

end ulpf_core.parser.extractors
