import Ulpf.Core.Schema
import Ulpf.Core.Parser.Csv

open Result
open ulpf_core.schema.ocsf

namespace ulpf_core.parser.extractors

namespace pfsense

/-- The CSV part behind the `filterlog` tag. -/
def csv_part (raw : List Char) : Result (List Char) :=
  match str.find_str (str.lit "filterlog") raw with
  | some fl_pos => do
    let sub ← str.slice_from raw fl_pos
    match str.find (· = ':') sub with
    | some colon_pos => do
      let rest ← str.slice_from sub (colon_pos + 1)
      ok (str.trim rest)
    | none => ok (str.trim raw)
  | none => ok (str.trim raw)

/-- What the two layouts read differently. -/
structure Flow where
  src_ip : Option String := none
  dst_ip : Option String := none
  src_port : Option Nat := none
  dst_port : Option Nat := none
  proto_num : Option Nat := none
  proto_name : Option String := none

/-- Ports exist only for TCP and UDP, and never as 0. -/
def port (proto_num : Option Nat) (field : Option (List Char)) : Option Nat :=
  if proto_num = some 6 ∨ proto_num = some 17 then
    (field.bind (str.parse_uint 16)).filter (· ≠ 0)
  else none

def ipv4_flow (fields : List (List Char)) : Flow :=
  let num := (fields[15]?).bind (str.parse_uint 8)
  let name := (fields[16]?).map str.to_ascii_uppercase
  let proto_num := if num.isNone then name.bind protocol_num_from_name else num
  { src_ip := (fields[18]?).map String.ofList
    dst_ip := (fields[19]?).map String.ofList
    src_port := port proto_num fields[20]?
    dst_port := port proto_num fields[21]?
    proto_num
    proto_name := name.map String.ofList }

def ipv6_flow (fields : List (List Char)) : Flow :=
  let name := (fields[12]?).map str.to_ascii_uppercase
  let num := name.bind protocol_num_from_name
  let proto_num := if num.isNone then (fields[13]?).bind (str.parse_uint 8) else num
  { src_ip := (fields[15]?).map String.ofList
    dst_ip := (fields[16]?).map String.ofList
    src_port := port proto_num fields[17]?
    dst_port := port proto_num fields[18]?
    proto_num
    proto_name := name.map String.ofList }

def flow (ip_version : List Char) (fields : List (List Char)) : Flow :=
  if ip_version = ['4'] then ipv4_flow fields
  else if ip_version = ['6'] then ipv6_flow fields
  else {}

def disposition_of (action : List Char) : String :=
  match String.ofList (str.to_ascii_lowercase action) with
  | "pass" => disposition.ALLOWED
  | "block" | "reject" => disposition.BLOCKED
  | "drop" => disposition.DROPPED
  | _ => disposition.UNKNOWN

def direction_of (direction : List Char) : Option String :=
  match String.ofList (str.to_ascii_lowercase direction) with
  | "in" => some "Inbound"
  | "out" => some "Outbound"
  | _ => none

/-- The event made of the fields. -/
def event (now_ms : Int) (raw : List Char) (fields : List (List Char)) : NetworkActivity :=
  let rule_num := fields.getD 0 []
  let tracker := fields.getD 3 []
  let interface := fields.getD 4 []
  let reason := fields.getD 5 []
  let action := fields.getD 6 []
  let direction := fields.getD 7 []
  let ip_version := fields.getD 8 ['4']
  let flow := flow ip_version fields
  let disp := disposition_of action
  let act_id := if disp = disposition.ALLOWED then activity_id.TRAFFIC_FLOW else activity_id.OTHER
  let intf_opt := if interface.isEmpty then none else some (String.ofList interface)
  let src_endpoint : Endpoint := ⟨flow.src_ip, flow.src_port, intf_opt, none⟩
  let dst_endpoint : Endpoint := ⟨flow.dst_ip, flow.dst_port, none, none⟩
  let connection_info : ConnectionInfo :=
    ⟨flow.proto_num, flow.proto_name, direction_of direction⟩
  let unmapped := insert_nonempty "rule_number" rule_num ∅
  let unmapped := insert_nonempty "tracker" tracker unmapped
  let unmapped := insert_nonempty "reason" reason unmapped
  let unmapped := unmapped.insert "ip_version" (String.ofList ip_version)
  let product : Product := ⟨"Netgate", "pfSense filterlog", none⟩
  let metadata : Metadata := ⟨product, String.ofList raw, "", "", now_ms⟩
  (NetworkActivity.new act_id now_ms disp src_endpoint dst_endpoint connection_info none
    metadata).with_unmapped unmapped

end pfsense

/-- `PfSenseExtractor::parse`. -/
def PfSenseExtractor.parse (now_ms : Int) (raw : List Char) :
    Result (Except String NetworkActivity) := do
  let csv_part ← pfsense.csv_part raw
  let fields ← split_csv csv_part
  if fields.length < 9 then
    let found := fields.length
    let line := String.ofList raw
    ok (.error s!"pfSense filterlog has insufficient fields (found {found}): {line}")
  else ok (.ok (pfsense.event now_ms raw fields))

theorem pfsense.csv_part_ok (raw : List Char) : ∃ csv, pfsense.csv_part raw = ok csv := by
  unfold pfsense.csv_part
  split
  · rename_i fl_pos hfind
    obtain ⟨a, b, rfl, rfl⟩ := str.exists_of_find_str hfind
    rw [List.append_assoc, str.slice_from_len, bind_ok]
    split
    · rename_i colon_pos hcolon
      obtain ⟨front, c, back, hsub, rfl, hc, -⟩ := str.find_eq_some_iff.mp hcolon
      obtain rfl : c = ':' := by simpa using hc
      rw [hsub, str.slice_from_succ_of_ascii _ _ (by decide), bind_ok]
      exact ⟨_, rfl⟩
    · exact ⟨_, rfl⟩
  · exact ⟨_, rfl⟩

theorem PfSenseExtractor.parse_ne_panic (now_ms : Int) (raw : List Char) :
    PfSenseExtractor.parse now_ms raw ≠ panic := by
  obtain ⟨csv, hcsv⟩ := pfsense.csv_part_ok raw
  rw [PfSenseExtractor.parse, hcsv, bind_ok, split_csv_eq, bind_ok]
  split <;> simp

/-- The extractor errs for lines with fewer than 9 fields only. -/
theorem PfSenseExtractor.parse_eq_error_iff (now_ms : Int) (raw : List Char) :
    (∃ err, PfSenseExtractor.parse now_ms raw = ok (.error err)) ↔
      ∃ csv_part fields, pfsense.csv_part raw = ok csv_part ∧
        split_csv csv_part = ok fields ∧ fields.length < 9 := by
  obtain ⟨csv_part, hcsv⟩ := pfsense.csv_part_ok raw
  rw [PfSenseExtractor.parse, hcsv, bind_ok, split_csv_eq, bind_ok]
  split <;> simp_all [split_csv_eq]

end ulpf_core.parser.extractors
