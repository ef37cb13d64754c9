import Ulpf.Core.Schema
import Ulpf.Core.Parser.Csv

open Result
open ulpf_core.schema.ocsf

namespace ulpf_core.parser.extractors

namespace cisco_asa

def REGEX_ASA_HEADER : String := r"%ASA-(\d+)-(\d+):\s*(.*)"

def REGEX_BUILT : String :=
  r"Built\s+(inbound|outbound)?\s*([A-Za-z0-9]+)\s+connection\s+(\d+)\s+for\s+([^\s]+)(?:\s+\([^\)]+\))?\s+to\s+([^\s]+)"

def REGEX_TEARDOWN : String :=
  r"Teardown\s+([A-Za-z0-9]+)\s+connection\s+(\d+)\s+for\s+([^\s]+)\s+to\s+([^\s]+)(?:.*?duration\s+([^\s]+))?(?:.*?bytes\s+(\d+))?"

def REGEX_DENY : String :=
  r"Deny\s+([A-Za-z0-9]+)\s+src\s+([^\s]+)\s+dst\s+([^\s]+)(?:.*?by\s+access-group\s+([^\s\[]+))?"

def REGEX_DENIED_CONN : String :=
  r"(?:(Inbound|Outbound)\s+)?([A-Za-z0-9]+)\s+connection\s+denied\s+from\s+([^\s]+)\s+to\s+([^\s]+)(?:.*?interface\s+([^\s]+))?"

def REGEX_DROPPED_ACL : String :=
  r"(?i)dropped\s+([A-Za-z0-9]+)\s+from\s+([^\s,]+)\s+to\s+([^\s,]+)"

def REGEX_SESSION_DISCONNECT : String :=
  r"Group\s*=\s*([^,]+),\s*Username\s*=\s*([^,]+),\s*IP\s*=\s*([^,\s]+),\s*Session disconnected\.\s*Session Type:\s*([^,]+),\s*Duration:\s*([^,]+),\s*Bytes xmt:\s*(\d+),\s*Bytes rcv:\s*(\d+),\s*Reason:\s*(.+?)\s*$"

def normalize_direction (dir : List Char) : String :=
  match String.ofList (str.to_ascii_lowercase dir) with
  | "inbound" | "in" => "Inbound"
  | "outbound" | "out" => "Outbound"
  | _ => "Unknown"

def is_bracket (c : Char) : Bool := c = '(' || c = ')' || c = '[' || c = ']'

/-- The interface in front of the first colon, and what follows it. -/
def split_interface (clean : List Char) (default_intf : Option (List Char)) :
    Result (Option String × List Char) :=
  match str.find (· = ':') clean with
  | some colon_pos => do
    let (i, r) ← str.split_at clean colon_pos
    let rest ← str.slice_from r 1
    ok (some (String.ofList i), rest)
  | none => ok (default_intf.map String.ofList, clean)

/-- The address in front of the first slash, and the port behind it. -/
def split_port (rest : List Char) : Result (Option String × Option Nat) :=
  match str.find (· = '/') rest with
  | some slash_pos => do
    let (ip_part, port_part) ← str.split_at rest slash_pos
    let port ← str.slice_from port_part 1
    ok (some (String.ofList ip_part), str.parse_uint 16 port)
  | none => ok (some (String.ofList rest), none)

/-- Parses an endpoint of the form `interface:ip/port`, `ip/port`, `interface:ip` or
    `ip`. -/
def parse_endpoint_str (text : List Char) (default_intf : Option (List Char)) :
    Result (Option String × Option Nat × Option String) := do
  let clean := str.trim_matches is_bracket (str.trim text)
  let (intf, rest) ← split_interface clean default_intf
  let (ip, port) ← split_port rest
  ok (ip, port, intf)

/-- An endpoint without a zone. -/
def endpoint (text : List Char) (default_intf : Option (List Char)) : Result Endpoint := do
  let (ip, port, intf) ← parse_endpoint_str text default_intf
  ok ⟨ip, port, intf, none⟩

def asa_activity (now_ms : Int) (raw : List Char) (act_id : Nat) (disp : String)
    (src_endpoint dst_endpoint : Endpoint) (connection_info : ConnectionInfo)
    (traffic : Option Traffic) (unmapped : HashMap String String) : NetworkActivity :=
  let product : Product := ⟨"Cisco", "ASA", none⟩
  let metadata : Metadata := ⟨product, String.ofList raw, "", "", now_ms⟩
  (NetworkActivity.new act_id now_ms disp src_endpoint dst_endpoint connection_info traffic
    metadata).with_unmapped unmapped

def connection (proto_str : List Char) (direction : Option String) : ConnectionInfo :=
  let proto_name := str.to_ascii_uppercase proto_str
  ⟨protocol_num_from_name proto_name, some (String.ofList proto_name), direction⟩

/-- The verdict of a line without a layout of its own. Failure phrases win over
    success phrases, and those over the verbs. -/
def fallback_disposition (body : List Char) : String :=
  let body_lower := str.to_ascii_lowercase body
  if str.contains (str.lit "authentication failed") body_lower ||
      str.contains (str.lit "login failed") body_lower then
    disposition.BLOCKED
  else if str.contains (str.lit "Built") body || str.contains (str.lit "Teardown") body ||
      str.contains (str.lit "successful login") body_lower ||
      str.contains (str.lit "tunnel established") body_lower ||
      str.contains (str.lit "session disconnected") body_lower then
    disposition.ALLOWED
  else if str.contains (str.lit "Deny") body || str.contains (str.lit "denied") body then
    disposition.BLOCKED
  else if str.contains (str.lit "drop") body || str.contains (str.lit "dropped") body then
    disposition.DROPPED
  else disposition.UNKNOWN

def fallback_parse (now_ms : Int) (raw body : List Char) (unmapped : HashMap String String) :
    NetworkActivity :=
  let act_id :=
    if str.contains (str.lit "Built") body then activity_id.OPEN
    else if str.contains (str.lit "Teardown") body then activity_id.CLOSE
    else activity_id.OTHER
  asa_activity now_ms raw act_id (fallback_disposition body) {} {} {} none unmapped

section

variable (now_ms : Int) (raw body : List Char) (unmapped : HashMap String String) (caps : Captures)

def built : Result NetworkActivity := do
  let dir_str ← caps.get body 1
  let proto_str ← caps.get body 2
  let conn_id ← caps.get body 3
  let src_str ← caps.get body 4
  let dst_str ← caps.get body 5
  let src_endpoint ← endpoint (src_str.getD []) none
  let dst_endpoint ← endpoint (dst_str.getD []) none
  let direction := normalize_direction (dir_str.getD (str.lit "Unknown"))
  let unmapped := unmapped.insert "connection_id" (String.ofList (conn_id.getD []))
  ok (asa_activity now_ms raw activity_id.OPEN disposition.ALLOWED src_endpoint dst_endpoint
    (connection (proto_str.getD (str.lit "TCP")) (some direction)) none unmapped)

def teardown : Result NetworkActivity := do
  let proto_str ← caps.get body 1
  let conn_id ← caps.get body 2
  let src_str ← caps.get body 3
  let dst_str ← caps.get body 4
  let duration ← caps.get body 5
  let bytes ← caps.get body 6
  let src_endpoint ← endpoint (src_str.getD []) none
  let dst_endpoint ← endpoint (dst_str.getD []) none
  let unmapped := unmapped.insert "connection_id" (String.ofList (conn_id.getD []))
  let unmapped := insert_some "duration" duration unmapped
  let traffic : Option Traffic :=
    (bytes.bind (str.parse_uint 64)).map fun b => ⟨none, some b, none, none⟩
  ok (asa_activity now_ms raw activity_id.CLOSE disposition.ALLOWED src_endpoint dst_endpoint
    (connection (proto_str.getD (str.lit "TCP")) none) traffic unmapped)

def deny : Result NetworkActivity := do
  let proto_str ← caps.get body 1
  let src_str ← caps.get body 2
  let dst_str ← caps.get body 3
  let acl ← caps.get body 4
  let src_endpoint ← endpoint (src_str.getD []) none
  let dst_endpoint ← endpoint (dst_str.getD []) none
  let unmapped := insert_some "access_group" (acl.map (str.trim_matches (· = '"'))) unmapped
  ok (asa_activity now_ms raw activity_id.OTHER disposition.BLOCKED src_endpoint dst_endpoint
    (connection (proto_str.getD (str.lit "TCP")) none) none unmapped)

def denied_conn : Result NetworkActivity := do
  let dir_str ← caps.get body 1
  let proto_str ← caps.get body 2
  let src_str ← caps.get body 3
  let dst_str ← caps.get body 4
  let intf_str ← caps.get body 5
  let src_endpoint ← endpoint (src_str.getD []) intf_str
  let dst_endpoint ← endpoint (dst_str.getD []) none
  let direction := normalize_direction (dir_str.getD (str.lit "Inbound"))
  ok (asa_activity now_ms raw activity_id.OTHER disposition.DROPPED src_endpoint dst_endpoint
    (connection (proto_str.getD (str.lit "TCP")) (some direction)) none unmapped)

def dropped_acl : Result NetworkActivity := do
  let proto_str ← caps.get body 1
  let src_str ← caps.get body 2
  let dst_str ← caps.get body 3
  let src_endpoint ← endpoint (src_str.getD []) none
  let dst_endpoint ← endpoint (dst_str.getD []) none
  ok (asa_activity now_ms raw activity_id.OTHER disposition.DROPPED src_endpoint dst_endpoint
    (connection (proto_str.getD (str.lit "UDP")) none) none unmapped)

def session_disconnect : Result NetworkActivity := do
  let group ← caps.get body 1
  let username ← caps.get body 2
  let peer_ip ← caps.get body 3
  let session_type ← caps.get body 4
  let duration ← caps.get body 5
  let bytes_xmt ← caps.get body 6
  let bytes_rcv ← caps.get body 7
  let reason ← caps.get body 8
  let unmapped := insert_some "vpn_group" (group.map str.trim) unmapped
  let unmapped := insert_some "username" (username.map str.trim) unmapped
  let unmapped := insert_some "session_type" (session_type.map str.trim) unmapped
  let unmapped := insert_some "duration" (duration.map str.trim) unmapped
  let unmapped := insert_some "disconnect_reason" (reason.map str.trim) unmapped
  let traffic : Option Traffic :=
    match bytes_rcv.bind (str.parse_uint 64), bytes_xmt.bind (str.parse_uint 64) with
    | some rcv, some xmt => some ⟨some rcv, some xmt, none, none⟩
    | _, _ => none
  let src_endpoint : Endpoint := { ip := (peer_ip.map str.trim).map String.ofList }
  ok (asa_activity now_ms raw activity_id.CLOSE disposition.ALLOWED src_endpoint {} {} traffic
    unmapped)

end

/-- A layout, or what to do with a body that does not have it. -/
def layout (crates : Crates) (pattern : String) (body : List Char)
    (parse : Captures → Result NetworkActivity) (otherwise : Result NetworkActivity) :
    Result NetworkActivity :=
  match crates.captures pattern body with
  | some caps => parse caps
  | none => otherwise

/-- The layout that a message code calls for. -/
def message (crates : Crates) (now_ms : Int) (raw body : List Char)
    (unmapped : HashMap String String) (message_code : String) : Result NetworkActivity :=
  let fallback := ok (fallback_parse now_ms raw body unmapped)
  match message_code with
  | "302013" | "302015" | "302020" =>
    layout crates REGEX_BUILT body (built now_ms raw body unmapped) fallback
  | "302014" | "302016" | "302021" =>
    layout crates REGEX_TEARDOWN body (teardown now_ms raw body unmapped) fallback
  | "106023" => layout crates REGEX_DENY body (deny now_ms raw body unmapped) fallback
  | "106001" | "106006" | "106007" =>
    layout crates REGEX_DENIED_CONN body (denied_conn now_ms raw body unmapped)
      (layout crates REGEX_DROPPED_ACL body (dropped_acl now_ms raw body unmapped) fallback)
  | "113019" =>
    layout crates REGEX_SESSION_DISCONNECT body (session_disconnect now_ms raw body unmapped)
      fallback
  | _ => fallback

end cisco_asa

/-- `CiscoAsaExtractor::parse`. -/
def CiscoAsaExtractor.parse (crates : Crates) (now_ms : Int) (raw : List Char) :
    Result (Except String NetworkActivity) :=
  match crates.captures cisco_asa.REGEX_ASA_HEADER raw with
  | none => ok (.error s!"Raw log does not contain valid %ASA- header: {String.ofList raw}")
  | some captures => do
    let severity ← captures.get raw 1
    let message_code ← captures.get raw 2
    let body ← captures.get raw 3
    let severity := (severity.bind (str.parse_uint 8)).getD 6
    let message_code := String.ofList (message_code.getD [])
    let unmapped : HashMap String String :=
      AList.insert "cisco_severity" (toString severity) (∅ : HashMap String String)
    let unmapped := unmapped.insert "cisco_message_code" message_code
    let activity ← cisco_asa.message crates now_ms raw (body.getD []) unmapped message_code
    ok (.ok activity)

namespace cisco_asa

theorem split_interface_ne_panic (clean : List Char) (default_intf : Option (List Char)) :
    split_interface clean default_intf ≠ panic := by
  unfold split_interface
  split
  · rename_i colon_pos hfind
    obtain ⟨a, c, b, rfl, rfl, hc, -⟩ := str.find_eq_some_iff.mp hfind
    obtain rfl : c = ':' := by simpa using hc
    have hrest := str.slice_from_succ_of_ascii [] b (show ':'.utf8Size = 1 by decide)
    simp only [str.len_nil, Nat.zero_add, List.nil_append] at hrest
    simp [hrest]
  · simp

theorem split_port_ne_panic (rest : List Char) : split_port rest ≠ panic := by
  unfold split_port
  split
  · rename_i slash_pos hfind
    obtain ⟨a, c, b, rfl, rfl, hc, -⟩ := str.find_eq_some_iff.mp hfind
    obtain rfl : c = '/' := by simpa using hc
    have hport := str.slice_from_succ_of_ascii [] b (show '/'.utf8Size = 1 by decide)
    simp only [str.len_nil, Nat.zero_add, List.nil_append] at hport
    simp [hport]
  · simp

theorem endpoint_ne_panic (text : List Char) (default_intf : Option (List Char)) :
    endpoint text default_intf ≠ panic := by
  apply bind_ne_panic
  · apply bind_ne_panic (split_interface_ne_panic _ _)
    rintro ⟨intf, rest⟩
    apply bind_ne_panic (split_port_ne_panic rest)
    simp
  · simp

section

variable {body : List Char} {caps : Captures} (haligned : caps.Aligned body)

include haligned

theorem built_ne_panic (now_ms : Int) (raw : List Char) (unmapped : HashMap String String) :
    built now_ms raw body unmapped caps ≠ panic := by
  iterate 5 refine bind_ne_panic (haligned.get_ne_panic _) fun _ => ?_
  iterate 2 refine bind_ne_panic (endpoint_ne_panic _ _) fun _ => ?_
  simp

theorem teardown_ne_panic (now_ms : Int) (raw : List Char) (unmapped : HashMap String String) :
    teardown now_ms raw body unmapped caps ≠ panic := by
  iterate 6 refine bind_ne_panic (haligned.get_ne_panic _) fun _ => ?_
  iterate 2 refine bind_ne_panic (endpoint_ne_panic _ _) fun _ => ?_
  simp

theorem deny_ne_panic (now_ms : Int) (raw : List Char) (unmapped : HashMap String String) :
    deny now_ms raw body unmapped caps ≠ panic := by
  iterate 4 refine bind_ne_panic (haligned.get_ne_panic _) fun _ => ?_
  iterate 2 refine bind_ne_panic (endpoint_ne_panic _ _) fun _ => ?_
  simp

theorem denied_conn_ne_panic (now_ms : Int) (raw : List Char) (unmapped : HashMap String String) :
    denied_conn now_ms raw body unmapped caps ≠ panic := by
  iterate 5 refine bind_ne_panic (haligned.get_ne_panic _) fun _ => ?_
  iterate 2 refine bind_ne_panic (endpoint_ne_panic _ _) fun _ => ?_
  simp

theorem dropped_acl_ne_panic (now_ms : Int) (raw : List Char) (unmapped : HashMap String String) :
    dropped_acl now_ms raw body unmapped caps ≠ panic := by
  iterate 3 refine bind_ne_panic (haligned.get_ne_panic _) fun _ => ?_
  iterate 2 refine bind_ne_panic (endpoint_ne_panic _ _) fun _ => ?_
  simp

theorem session_disconnect_ne_panic (now_ms : Int) (raw : List Char)
    (unmapped : HashMap String String) :
    session_disconnect now_ms raw body unmapped caps ≠ panic := by
  iterate 8 refine bind_ne_panic (haligned.get_ne_panic _) fun _ => ?_
  simp

end

theorem layout_ne_panic (crates : Crates) (pattern : String) (body : List Char)
    {parse : Captures → Result NetworkActivity} {otherwise : Result NetworkActivity}
    (hparse : ∀ {caps}, caps.Aligned body → parse caps ≠ panic) (hotherwise : otherwise ≠ panic) :
    layout crates pattern body parse otherwise ≠ panic := by
  unfold layout
  split
  · rename_i caps hcaptures
    exact hparse (Crates.aligned_of_captures hcaptures)
  · exact hotherwise

theorem message_ne_panic (crates : Crates) (now_ms : Int) (raw body : List Char)
    (unmapped : HashMap String String) (message_code : String) :
    message crates now_ms raw body unmapped message_code ≠ panic := by
  have hfallback : ok (fallback_parse now_ms raw body unmapped) ≠ panic := by simp
  have hbuilt := layout_ne_panic crates REGEX_BUILT body
    (fun haligned => built_ne_panic haligned now_ms raw unmapped) hfallback
  have hteardown := layout_ne_panic crates REGEX_TEARDOWN body
    (fun haligned => teardown_ne_panic haligned now_ms raw unmapped) hfallback
  have hdeny := layout_ne_panic crates REGEX_DENY body
    (fun haligned => deny_ne_panic haligned now_ms raw unmapped) hfallback
  have hdropped := layout_ne_panic crates REGEX_DROPPED_ACL body
    (fun haligned => dropped_acl_ne_panic haligned now_ms raw unmapped) hfallback
  have hdenied := layout_ne_panic crates REGEX_DENIED_CONN body
    (fun haligned => denied_conn_ne_panic haligned now_ms raw unmapped) hdropped
  have hdisconnect := layout_ne_panic crates REGEX_SESSION_DISCONNECT body
    (fun haligned => session_disconnect_ne_panic haligned now_ms raw unmapped) hfallback
  unfold message
  split <;> assumption

end cisco_asa

theorem CiscoAsaExtractor.parse_ne_panic (crates : Crates) (now_ms : Int) (raw : List Char) :
    CiscoAsaExtractor.parse crates now_ms raw ≠ panic := by
  unfold CiscoAsaExtractor.parse
  split
  · simp
  · rename_i captures hcaptures
    have haligned := Crates.aligned_of_captures hcaptures
    iterate 3 refine bind_ne_panic (haligned.get_ne_panic _) fun _ => ?_
    apply bind_ne_panic (cisco_asa.message_ne_panic _ _ _ _ _ _)
    simp

/-- The extractor errs for lines without an ASA header only. -/
theorem CiscoAsaExtractor.parse_eq_error_iff (crates : Crates) (now_ms : Int) (raw : List Char) :
    (∃ err, CiscoAsaExtractor.parse crates now_ms raw = ok (.error err)) ↔
      crates.captures cisco_asa.REGEX_ASA_HEADER raw = none := by
  unfold CiscoAsaExtractor.parse
  cases crates.captures cisco_asa.REGEX_ASA_HEADER raw with
  | none => simp
  | some captures => simp [bind_eq_ok_iff]

end ulpf_core.parser.extractors
