import Ulpf.Core.Schema
import Ulpf.Core.Parser.Kv
import Ulpf.Core.Parser.Csv

open Result
open ulpf_core.schema.ocsf

namespace ulpf_core.parser.extractors

/-- A `proto` value: its number and name. A number keeps its IANA name, any other
    text is taken as the name. -/
def parse_proto (val : List Char) : Option Nat × Option String :=
  match str.parse_uint 8 val with
  | some num => (some num, some (protocol_name_from_num num))
  | none =>
    let name := str.to_ascii_uppercase val
    (protocol_num_from_name name, some (String.ofList name))

namespace fortigate

/-- The variables of the loop over the pairs. -/
structure Fields where
  src_ip : Option String := none
  dst_ip : Option String := none
  src_port : Option Nat := none
  dst_port : Option Nat := none
  src_intf : Option String := none
  dst_intf : Option String := none
  src_zone : Option String := none
  dst_zone : Option String := none
  proto_num : Option Nat := none
  proto_name : Option String := none
  action : Option String := none
  sent_bytes : Option Nat := none
  rcvd_bytes : Option Nat := none
  sent_pkts : Option Nat := none
  rcvd_pkts : Option Nat := none
  date_str : Option (List Char) := none
  time_str : Option (List Char) := none
  devname : Option String := none
  unmapped : HashMap String String := ∅

/-- One pair of the loop. -/
def Fields.set (fields : Fields) (pair : List Char × List Char) : Fields :=
  let key := String.ofList pair.1
  let val := pair.2
  match key with
  | "srcip" => { fields with src_ip := some (String.ofList val) }
  | "dstip" => { fields with dst_ip := some (String.ofList val) }
  | "srcport" => { fields with src_port := str.parse_uint 16 val }
  | "dstport" => { fields with dst_port := str.parse_uint 16 val }
  | "srcintf" => { fields with src_intf := some (String.ofList val) }
  | "dstintf" => { fields with dst_intf := some (String.ofList val) }
  | "srcintfrole" | "srczone" => { fields with src_zone := some (String.ofList val) }
  | "dstintfrole" | "dstzone" => { fields with dst_zone := some (String.ofList val) }
  | "proto" =>
    { fields with proto_num := (parse_proto val).1, proto_name := (parse_proto val).2 }
  | "action" => { fields with action := some (String.ofList val) }
  | "sentbyte" => { fields with sent_bytes := str.parse_uint 64 val }
  | "rcvdbyte" => { fields with rcvd_bytes := str.parse_uint 64 val }
  | "sentpkt" => { fields with sent_pkts := str.parse_uint 64 val }
  | "rcvdpkt" => { fields with rcvd_pkts := str.parse_uint 64 val }
  | "date" => { fields with date_str := some val }
  | "time" => { fields with time_str := some val }
  | "devname" => { fields with devname := some (String.ofList val) }
  | _ => { fields with unmapped := fields.unmapped.insert key (String.ofList val) }

def Fields.normalize_ports (fields : Fields) : Fields :=
  { fields with
    src_port := normalize_port fields.proto_num fields.src_port
    dst_port := normalize_port fields.proto_num fields.dst_port }

def disposition_of (action : Option String) : String × Nat :=
  match action.map fun s => String.ofList (str.to_ascii_lowercase s.toList) with
  | some "accept" | some "allow" | some "allowed" =>
    (disposition.ALLOWED, activity_id.TRAFFIC_FLOW)
  | some "deny" | some "denied" | some "block" | some "blocked" =>
    (disposition.BLOCKED, activity_id.OTHER)
  | some "drop" => (disposition.DROPPED, activity_id.OTHER)
  | some "close" | some "closed" | some "client-rst" | some "server-rst" | some "timeout"
  | some "reset" => (disposition.ALLOWED, activity_id.CLOSE)
  | some "open" | some "start" => (disposition.ALLOWED, activity_id.OPEN)
  | _ => (disposition.UNKNOWN, activity_id.TRAFFIC_FLOW)

/-- The event made of the collected fields. -/
def Fields.event (crates : Crates) (now_ms : Int) (raw : List Char) (fields : Fields) :
    NetworkActivity :=
  let fields := fields.normalize_ports
  let event_time :=
    match fields.date_str, fields.time_str with
    | some d, some t => parse_date_time_or_fallback crates d t now_ms
    | _, _ => now_ms
  let (disp, act_id) := disposition_of fields.action
  let src_port := if fields.proto_num = some 1 then none else fields.src_port
  let dst_port := if fields.proto_num = some 1 then none else fields.dst_port
  let src_endpoint : Endpoint := ⟨fields.src_ip, src_port, fields.src_intf, fields.src_zone⟩
  let dst_endpoint : Endpoint := ⟨fields.dst_ip, dst_port, fields.dst_intf, fields.dst_zone⟩
  let connection_info : ConnectionInfo := ⟨fields.proto_num, fields.proto_name, none⟩
  let traffic : Option Traffic :=
    if fields.sent_bytes.isSome || fields.rcvd_bytes.isSome || fields.sent_pkts.isSome ||
        fields.rcvd_pkts.isSome then
      some ⟨fields.rcvd_bytes, fields.sent_bytes, fields.rcvd_pkts, fields.sent_pkts⟩
    else none
  let product : Product := ⟨"Fortinet", fields.devname.getD "FortiGate", none⟩
  let metadata : Metadata := ⟨product, String.ofList raw, "", "", now_ms⟩
  (NetworkActivity.new act_id event_time disp src_endpoint dst_endpoint connection_info traffic
    metadata).with_unmapped fields.unmapped

end fortigate

/-- `FortigateExtractor::parse`, which has no error of its own. -/
def FortigateExtractor.parse (crates : Crates) (now_ms : Int) (raw : List Char) :
    Result (Except String NetworkActivity) := do
  let pairs ← fortigate.KvTokenizer.pairs crates raw
  let fields := pairs.foldl fortigate.Fields.set {}
  ok (.ok (fields.event crates now_ms raw))

/-- The lines that the extractor gets through: in front of every key the last
    whitespace is an ASCII character. -/
def FortigateExtractor.Reads (raw : List Char) : Prop :=
  ∀ token ∈ fortigate.readTokens (str.trim raw), token.KeyAligned

theorem FortigateExtractor.reads_singleton_iff {raw : List Char} {token : fortigate.Token}
    (h : fortigate.readToken (str.trim raw) = some (token, [])) :
    FortigateExtractor.Reads raw ↔ token.KeyAligned := by
  simp [FortigateExtractor.Reads, fortigate.readTokens_singleton h]

theorem FortigateExtractor.parse_ne_panic_iff (crates : Crates) (now_ms : Int) (raw : List Char) :
    FortigateExtractor.parse crates now_ms raw ≠ panic ↔ FortigateExtractor.Reads raw := by
  rw [FortigateExtractor.parse, fortigate.KvTokenizer.pairs_eq, FortigateExtractor.Reads]
  split <;> simp_all

theorem FortigateExtractor.parse_ne_error (crates : Crates) (now_ms : Int) (raw : List Char)
    (err : String) : FortigateExtractor.parse crates now_ms raw ≠ ok (.error err) := by
  simp [FortigateExtractor.parse, bind_eq_ok_iff]

end ulpf_core.parser.extractors
