import Ulpf.Lib.Crates
import Ulpf.Ai.Evaluator.Address

open Result

namespace ulpf_ai.evaluator.EvaluatorEngine

/-- Map extractor-emitted vendor labels onto ground-truth vocabulary. -/
def map_audit_vendor (vendor_lower : List Char) : List Char :=
  if vendor_lower = str.lit "oisf" then str.lit "suricata"
  else if vendor_lower = str.lit "netgate" then str.lit "pfsense"
  else vendor_lower

/-- Whether a number appears as a fully delimited alphanumeric token. -/
def raw_contains_numeric (crates : Crates) (raw : List Char) (num : Nat) : Bool :=
  (raw.splitOnP fun c => !crates.is_alphanumeric c).any fun seg => seg = Nat.toDigits 10 num

def SRC_IP_KEYS : List (List Char) :=
  [str.lit "src=", str.lit "srcip=", str.lit "src_ip=", str.lit "saddr=", str.lit "srcaddr=",
   str.lit "source_ip=", str.lit "\"src_ip\"", str.lit "\"srcip\"", str.lit "\"source_ip\""]

def DST_IP_KEYS : List (List Char) :=
  [str.lit "dst=", str.lit "dstip=", str.lit "dst_ip=", str.lit "daddr=", str.lit "dstaddr=",
   str.lit "dest_ip=", str.lit "\"dst_ip\"", str.lit "\"dstip\"", str.lit "\"dst\""]

/-- An explicit key of the role, or two distinct addresses. -/
def raw_has_ip_marker (keys : List (List Char)) (raw : List Char) : Result Bool :=
  if keys.any fun k => str.contains k raw then ok true
  else do
    let n ← distinct_ipv4_count raw
    ok (decide (n ≥ 2))

def raw_has_src_ip_marker (raw : List Char) : Result Bool := raw_has_ip_marker SRC_IP_KEYS raw

def raw_has_dst_ip_marker (raw : List Char) : Result Bool := raw_has_ip_marker DST_IP_KEYS raw

def PORT_KEYS : List (List Char) :=
  [str.lit "spt=", str.lit "dpt=", str.lit "sport=", str.lit "dport=", str.lit "srcport=",
   str.lit "dstport=", str.lit "src_port=", str.lit "dst_port=", str.lit "port=", str.lit "srcPort=",
   str.lit "dstPort="]

/-- One to five digits with a value between 1 and 65535. -/
def digits_in_range (b : List UInt8) (start : Nat) : Bool :=
  let e := skip_digits b 5 start
  if e = start ∨ (b[e]?).any u8.is_ascii_digit then false
  else
    match (from_utf8 ((b.drop start).take (e - start))).bind fun s => str.parse_uint 32 s.toList with
    | some v => 1 ≤ v && v ≤ 65535
    | none => false

/-- A test at every occurrence of a pattern: `while let Some(p) = text[start..].find(pat)`. The test
    is given the offset of the occurrence, and the search goes on `step` bytes behind it. Each round
    moves on, so one unit of fuel for each byte is enough. -/
def any_occurrence (text pat : List Char) (step : Nat) (test : Nat → Bool) : Nat → Nat → Result Bool
  | 0, _ => ok false
  | fuel + 1, start => do
    let rest ← str.slice_from text start
    match str.find_str pat rest with
    | none => ok false
    | some p =>
      if test (start + p) then ok true
      else any_occurrence text pat step test fuel (start + p + step)

/-- `interface:IP/PORT` at a colon. -/
def endpoint_port_at (raw : List Char) (b : List UInt8) (i : Nat) : Result Bool :=
  if b[i]? = some 58 then do
    match ← ipv4_len_at raw (i + 1) with
    | some len =>
      let slash := i + 1 + len
      ok (b[slash]? = some 47 && digits_in_range b (slash + 1))
    | none => ok false
  else ok false

/-- A port key with a valid value, the shape `interface:IP/PORT`, or `]:PORT`. -/
def raw_has_port_marker (raw : List Char) : Result Bool := do
  let b := str.bytes raw
  let by_key ← PORT_KEYS.anyM fun key =>
    any_occurrence raw key (str.len key) (fun p => digits_in_range b (p + str.len key))
      (str.len raw + 1) 0
  if by_key then ok true
  else
    let by_endpoint ← (List.range b.length).anyM (endpoint_port_at raw b)
    if by_endpoint then ok true
    else
      match str.find_str (str.lit "]:") raw with
      | some p => ok (digits_in_range b (p + 2))
      | none => ok false

def PROTO_KEYS : List (List Char) :=
  [str.lit "proto=", str.lit "protocol=", str.lit "ip_proto=", str.lit "ipprotocol=",
   str.lit "\"proto\"", str.lit "\"protocol\""]

def PROTO_NAMES : List (List Char) :=
  [str.lit "TCP", str.lit "UDP", str.lit "ICMP", str.lit "ICMPV6", str.lit "GRE", str.lit "ESP",
   str.lit "SCTP", str.lit "OSPF", str.lit "IGMP", str.lit "AH"]

/-- A protocol key with a value. -/
def protocol_key_marker (raw key : List Char) : Result Bool :=
  match str.find_str key raw with
  | none => ok false
  | some p => do
    let rest ← str.slice_from raw (p + str.len key)
    let rest := str.trim_start
      (str.trim_start_matches (· = '"') (str.trim_start_matches (· = ':') rest))
    ok (!rest.isEmpty && !rest.head?.any fun c => c.is_whitespace || c = ',' || c = '\x7d' || c = ']')

/-- A whole word of a text in capitals. -/
def whole_word (ub : List UInt8) (name : List Char) (abs : Nat) : Bool :=
  let stop := abs + str.len name
  (abs = 0 || !(ub[abs - 1]?).any u8.is_ascii_alphabetic) && !(ub[stop]?).any u8.is_ascii_alphabetic

/-- A protocol key with a value, or the name of an IP protocol as a whole word. -/
def raw_has_protocol_marker (raw : List Char) : Result Bool := do
  let by_key ← PROTO_KEYS.anyM (protocol_key_marker raw)
  if by_key then ok true
  else
    let up := str.to_ascii_uppercase raw
    PROTO_NAMES.anyM fun name =>
      any_occurrence up name 1 (whole_word (str.bytes up) name) (str.len up + 1) 0

theorem raw_has_ip_marker_ne_panic (keys : List (List Char)) (raw : List Char) :
    raw_has_ip_marker keys raw ≠ panic := by
  rw [raw_has_ip_marker]
  split
  · simp
  · rw [distinct_ipv4_count_eq, bind_ok]
    simp

/-- The search goes on behind an ASCII text, which ends at a character boundary. -/
theorem any_occurrence_ne_panic {pat before behind : List Char} (hpat : pat = before ++ behind)
    (text : List Char) (test : Nat → Bool) (fuel : Nat) {front back : List Char}
    (htext : text = front ++ back) :
    any_occurrence text pat (str.len before) test fuel (str.len front) ≠ panic := by
  subst hpat
  induction fuel generalizing front back with
  | zero => exact fun h => by cases h
  | succ fuel ih =>
    rw [any_occurrence, htext, str.slice_from_len, bind_ok]
    split
    · simp
    · rename_i p hp
      obtain ⟨a, b, rfl, rfl⟩ := str.exists_of_find_str hp
      split
      · simp
      · rw [← htext, ← str.len_append, ← str.len_append]
        have hnext : text = front ++ a ++ before ++ (behind ++ b) := by
          rw [htext]
          simp only [List.append_assoc]
        exact ih hnext

theorem raw_has_port_marker_ne_panic (raw : List Char) : raw_has_port_marker raw ≠ panic := by
  rw [raw_has_port_marker]
  refine bind_ne_panic (anyM_ne_panic fun key _ => ?_) fun by_key => ?_
  · exact any_occurrence_ne_panic (List.append_nil key).symm raw _ _ (List.nil_append raw).symm
  · split
    · simp
    · refine bind_ne_panic (anyM_ne_panic fun i _ => ?_) fun by_endpoint => ?_
      · rw [endpoint_port_at]
        split
        · obtain ⟨r, hr, -⟩ := ipv4_len_at_spec raw (i + 1)
          rw [hr, bind_ok]
          cases r <;> simp
        · simp
      · split
        · simp
        · split <;> simp

theorem ascii_of_mem_proto_names {name : List Char} (hname : name ∈ PROTO_NAMES) :
    ∃ c rest, name = c :: rest ∧ c.utf8Size = 1 := by
  have hall : PROTO_NAMES.all (fun name => name.head?.any fun c => c.utf8Size = 1) = true := by decide
  have hfirst := List.all_eq_true.mp hall name hname
  cases name with
  | nil => cases hfirst
  | cons c rest => exact ⟨c, rest, rfl, of_decide_eq_true hfirst⟩

theorem raw_has_protocol_marker_ne_panic (raw : List Char) : raw_has_protocol_marker raw ≠ panic := by
  rw [raw_has_protocol_marker]
  refine bind_ne_panic (anyM_ne_panic fun key _ => ?_) fun by_key => ?_
  · rw [protocol_key_marker]
    split
    · simp
    · rename_i p hp
      obtain ⟨a, b, rfl, rfl⟩ := str.exists_of_find_str hp
      rw [← str.len_append, str.slice_from_len, bind_ok]
      simp
  · split
    · simp
    · refine anyM_ne_panic fun name hname => ?_
      obtain ⟨c, rest, rfl, hc⟩ := ascii_of_mem_proto_names hname
      have hlen : str.len [c] = 1 := by simpa using hc
      have := any_occurrence_ne_panic (List.singleton_append (x := c) (l := rest)).symm
        (str.to_ascii_uppercase raw) (whole_word (str.bytes (str.to_ascii_uppercase raw)) (c :: rest))
        (str.len (str.to_ascii_uppercase raw) + 1) (List.nil_append _).symm
      rwa [hlen] at this

end ulpf_ai.evaluator.EvaluatorEngine
