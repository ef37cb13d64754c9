import Ulpf.Core.Schema
import Ulpf.Core.Parser.Csv

open Result
open ulpf_core.schema.ocsf

namespace ulpf_core.parser.extractors

namespace paloalto

/-- The CSV row without the header of a syslog relay. -/
def strip_syslog_prefix (raw : List Char) : Result (List Char) :=
  let trimmed := str.trim raw
  if (str.lit "1,20").isPrefixOf trimmed then ok trimmed
  else
    match str.find_str (str.lit " 1,20") trimmed with
    | some pos => str.slice_from trimmed (pos + 1)
    | none =>
      match str.find_str (str.lit ": 1,20") trimmed with
      | some pos => str.slice_from trimmed (pos + 2)
      | none =>
        match str.find_str (str.lit ",TRAFFIC,") trimmed with
        | some traffic_pos => do
          let before ← str.slice_to trimmed traffic_pos
          match str.rfind (· = ' ') before with
          | some space_pos => str.slice_from trimmed (space_pos + 1)
          | none => ok trimmed
        | none => ok trimmed

/-- A column of the row, counted from the base offset; empty columns are absent. -/
def column (fields : List (List Char)) (base : Int) (idx : Int) : Option (List Char) :=
  let actual := idx + base
  if 0 ≤ actual ∧ actual < fields.length then
    let s := str.trim (fields.getD actual.toNat [])
    if s.isEmpty then none else some s
  else none

def disposition_of (action_str : List Char) : String :=
  match String.ofList (str.to_ascii_lowercase action_str) with
  | "allow" => disposition.ALLOWED
  | "deny" => disposition.BLOCKED
  | "drop" => disposition.DROPPED
  | "reset-client" | "reset-server" | "reset-both" => disposition.BLOCKED
  | _ => disposition.UNKNOWN

def activity_of (subtype : List Char) (disp : String) : Nat :=
  match String.ofList (str.to_ascii_lowercase subtype) with
  | "start" => activity_id.OPEN
  | "end" => activity_id.CLOSE
  | "drop" | "deny" => activity_id.OTHER
  | _ => if disp = disposition.ALLOWED then activity_id.TRAFFIC_FLOW else activity_id.OTHER

/-- The event made of the columns. -/
def event (crates : Crates) (now_ms : Int) (raw : List Char) (fields : List (List Char)) :
    NetworkActivity :=
  let traffic_idx :=
    (fields.findIdx? fun f => str.eq_ignore_ascii_case f (str.lit "TRAFFIC")).getD 3
  let base : Int := traffic_idx - 3
  let get := column fields base
  let receive_time := get 1
  let serial := get 2
  let subtype := (get 4).getD []
  let src_ip := (get 7).map String.ofList
  let dst_ip := (get 8).map String.ofList
  let rule := get 11
  let app := get 14
  let src_zone := (get 16).map String.ofList
  let dst_zone := (get 17).map String.ofList
  let in_iface := (get 18).map String.ofList
  let out_iface := (get 19).map String.ofList
  let session_id := get 22
  let proto_str := (get 29).getD []
  let action_str := (get 30).getD []
  let is_icmp := str.eq_ignore_ascii_case proto_str (str.lit "icmp") ||
    str.eq_ignore_ascii_case proto_str (str.lit "icmp6") || proto_str = ['1']
  let src_port := if is_icmp then none else ((get 24).bind (str.parse_uint 16)).filter (· > 0)
  let dst_port := if is_icmp then none else ((get 25).bind (str.parse_uint 16)).filter (· > 0)
  let bytes_sent := (get 32).bind (str.parse_uint 64)
  let bytes_rcvd := (get 33).bind (str.parse_uint 64)
  let packets := (get 34).bind (str.parse_uint 64)
  let event_time :=
    (receive_time.map fun rt => parse_palo_alto_time_or_fallback crates rt now_ms).getD now_ms
  let proto_name :=
    if proto_str.isEmpty then none else some (str.to_ascii_uppercase proto_str)
  let proto_num := proto_name.bind protocol_num_from_name
  let disp := disposition_of action_str
  let act_id := activity_of subtype disp
  let portless := proto_name = some (str.lit "ICMP") || proto_num = some 1
  let final_src_port := if portless then none else src_port
  let final_dst_port := if portless then none else dst_port
  let src_endpoint : Endpoint := ⟨src_ip, final_src_port, in_iface, src_zone⟩
  let dst_endpoint : Endpoint := ⟨dst_ip, final_dst_port, out_iface, dst_zone⟩
  let connection_info : ConnectionInfo := ⟨proto_num, proto_name.map String.ofList, none⟩
  let traffic : Option Traffic :=
    if bytes_sent.isSome || bytes_rcvd.isSome || packets.isSome then
      some ⟨bytes_rcvd, bytes_sent, none, packets⟩
    else none
  let unmapped := insert_some "rule" rule ∅
  let unmapped := insert_some "application" app unmapped
  let unmapped := insert_some "serial" serial unmapped
  let unmapped := insert_some "session_id" session_id unmapped
  let unmapped :=
    if subtype.isEmpty then unmapped else unmapped.insert "subtype" (String.ofList subtype)
  let product : Product := ⟨"Palo Alto Networks", "PAN-OS", none⟩
  let metadata : Metadata := ⟨product, String.ofList raw, "", "", now_ms⟩
  (NetworkActivity.new act_id event_time disp src_endpoint dst_endpoint connection_info traffic
    metadata).with_unmapped unmapped

end paloalto

/-- `PaloAltoExtractor::parse`. -/
def PaloAltoExtractor.parse (crates : Crates) (now_ms : Int) (raw : List Char) :
    Result (Except String NetworkActivity) := do
  let csv_data ← paloalto.strip_syslog_prefix raw
  let fields ← split_csv csv_data
  if fields.length < 10 then
    let found := fields.length
    let line := String.ofList raw
    ok (.error s!"Palo Alto log does not have enough CSV fields (found {found}): {line}")
  else ok (.ok (paloalto.event crates now_ms raw fields))

theorem paloalto.strip_syslog_prefix_ok (raw : List Char) :
    ∃ csv_data, paloalto.strip_syslog_prefix raw = ok csv_data := by
  unfold paloalto.strip_syslog_prefix
  generalize str.trim raw = trimmed
  dsimp only
  split
  · exact ⟨_, rfl⟩
  · split
    · rename_i pos hfind
      obtain ⟨a, b, rfl, rfl⟩ := str.exists_of_find_str hfind
      have hlit : str.lit " 1,20" = ' ' :: str.lit "1,20" := by decide
      rw [hlit, List.append_assoc, List.cons_append,
        str.slice_from_succ_of_ascii _ _ (by decide)]
      exact ⟨_, rfl⟩
    · split
      · rename_i pos hfind
        obtain ⟨a, b, rfl, rfl⟩ := str.exists_of_find_str hfind
        have hlit : str.lit ": 1,20" = ':' :: ' ' :: str.lit "1,20" := by decide
        have hinput : a ++ str.lit ": 1,20" ++ b = (a ++ [':', ' ']) ++ (str.lit "1,20" ++ b) := by
          simp [hlit]
        have hlen : str.len a + 2 = str.len (a ++ [':', ' ']) := by
          rw [str.len_append]
          rfl
        rw [hinput, hlen, str.slice_from_len]
        exact ⟨_, rfl⟩
      · split
        · rename_i pos hfind
          obtain ⟨a, b, rfl, rfl⟩ := str.exists_of_find_str hfind
          rw [List.append_assoc, str.slice_to_len, bind_ok]
          obtain hnone | ⟨front, c, back, rfl, hc, hback⟩ :=
            str.forall_or_exists_last (· = ' ') a
          · rw [str.rfind_eq_none_iff.mpr hnone]
            exact ⟨_, rfl⟩
          · obtain rfl : c = ' ' := by simpa using hc
            rw [str.rfind_append_cons hc hback]
            dsimp only
            rw [List.append_assoc, List.cons_append, str.slice_from_succ_of_ascii _ _ (by decide)]
            exact ⟨_, rfl⟩
        · exact ⟨_, rfl⟩

theorem PaloAltoExtractor.parse_ne_panic (crates : Crates) (now_ms : Int) (raw : List Char) :
    PaloAltoExtractor.parse crates now_ms raw ≠ panic := by
  obtain ⟨csv_data, hcsv⟩ := paloalto.strip_syslog_prefix_ok raw
  rw [PaloAltoExtractor.parse, hcsv, bind_ok, split_csv_eq, bind_ok]
  split <;> simp

/-- The extractor errs for lines with fewer than 10 columns only. -/
theorem PaloAltoExtractor.parse_eq_error_iff (crates : Crates) (now_ms : Int) (raw : List Char) :
    (∃ err, PaloAltoExtractor.parse crates now_ms raw = ok (.error err)) ↔
      ∃ csv_data fields, paloalto.strip_syslog_prefix raw = ok csv_data ∧
        split_csv csv_data = ok fields ∧ fields.length < 10 := by
  obtain ⟨csv_data, hcsv⟩ := paloalto.strip_syslog_prefix_ok raw
  rw [PaloAltoExtractor.parse, hcsv, bind_ok, split_csv_eq, bind_ok]
  split <;> simp_all [split_csv_eq]

end ulpf_core.parser.extractors
