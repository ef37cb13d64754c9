import Ulpf.Core.Parser.Cef
import Ulpf.Core.Parser.PaloAlto
import Ulpf.Core.Parser.PfSense
import Ulpf.Core.Parser.Suricata

open Result
open ulpf_core.schema.ocsf

namespace ulpf_core.parser.extractors

/-- One of the two endpoints of an event. -/
inductive Side where
  | src
  | dst

/-- The key of its port in the events of Suricata. -/
def Side.portKey : Side → String
  | src => "src_port"
  | dst => "dest_port"

def Side.endpoint : Side → NetworkActivity → Endpoint
  | src, event => event.src_endpoint
  | dst, event => event.dst_endpoint

/-- The ports of an event as the extractors are to leave them. -/
structure PortsNormalized (event : NetworkActivity) : Prop where
  ne_zero : ∀ side : Side, (side.endpoint event).port ≠ some 0
  icmp : event.connection_info.protocol_num = some 1 →
    ∀ side : Side, (side.endpoint event).port = none

/-- Ports are read for TCP and UDP only. -/
def PortsOfTransport (event : NetworkActivity) : Prop :=
  ∀ side : Side, (side.endpoint event).port.isSome = true →
    event.connection_info.protocol_num = some 6 ∨ event.connection_info.protocol_num = some 17

section

variable (self : NetworkActivity) (unmapped : HashMap String String)

@[simp]
theorem endpoint_with_unmapped (side : Side) :
    side.endpoint (self.with_unmapped unmapped) = side.endpoint self := by
  unfold NetworkActivity.with_unmapped
  split <;> cases side <;> rfl

@[simp]
theorem connection_info_with_unmapped :
    (self.with_unmapped unmapped).connection_info = self.connection_info := by
  unfold NetworkActivity.with_unmapped
  split <;> rfl

end

theorem portsNormalized_of_sides {event : NetworkActivity}
    (h : ∀ side : Side, (side.endpoint event).port = none ∨
      (side.endpoint event).port ≠ some 0 ∧ event.connection_info.protocol_num ≠ some 1) :
    PortsNormalized event := by
  constructor
  · intro side
    obtain hnone | ⟨hne, -⟩ := h side
    · rw [hnone]
      simp
    · exact hne
  · intro hicmp side
    obtain hnone | ⟨-, hproto⟩ := h side
    · exact hnone
    · exact absurd hicmp hproto

theorem normalize_port_cases (proto_num port : Option Nat) :
    normalize_port proto_num port = none ∨
      normalize_port proto_num port ≠ some 0 ∧ proto_num ≠ some 1 := by
  unfold normalize_port
  split
  · exact .inl rfl
  · split
    · exact .inl rfl
    · exact .inr ⟨by assumption, by assumption⟩

theorem fortigate.portsNormalized_event (crates : Crates) (now_ms : Int) (raw : List Char)
    (fields : fortigate.Fields) : PortsNormalized (fields.event crates now_ms raw) := by
  apply portsNormalized_of_sides
  intro side
  simp only [Fields.event, endpoint_with_unmapped, connection_info_with_unmapped]
  -- the check for ICMP is made twice
  by_cases hicmp : fields.normalize_ports.proto_num = some 1
  · left
    cases side <;> exact if_pos hicmp
  · simp only [if_neg hicmp]
    cases side <;> exact normalize_port_cases fields.proto_num _

theorem cef.portsNormalized_event (now_ms : Int) (raw : List Char) (header : List (List Char))
    (fields : cef.Fields) : PortsNormalized (fields.event now_ms raw header) := by
  apply portsNormalized_of_sides
  intro side
  simp only [Fields.event, endpoint_with_unmapped, connection_info_with_unmapped]
  cases side <;> exact normalize_port_cases fields.proto_num _

/-- A port column, where either check for ICMP leaves it out. -/
theorem paloalto.final_port_cases {proto_num : Option Nat} {portless icmp : Bool}
    (hportless : proto_num = some 1 → portless = true) (port : Option Nat) :
    (if portless then none else if icmp then none else port.filter (· > 0)) = none ∨
      (if portless then none else if icmp then none else port.filter (· > 0)) ≠ some 0 ∧
        proto_num ≠ some 1 := by
  cases portless with
  | true => exact .inl rfl
  | false =>
    refine .inr ⟨?_, fun h => absurd (hportless h) (by decide)⟩
    cases icmp with
    | true => simp
    | false => simp [Option.filter_eq_some_iff]

theorem paloalto.portsNormalized_event (crates : Crates) (now_ms : Int) (raw : List Char)
    (fields : List (List Char)) : PortsNormalized (paloalto.event crates now_ms raw fields) := by
  apply portsNormalized_of_sides
  intro side
  simp only [paloalto.event, endpoint_with_unmapped, connection_info_with_unmapped]
  cases side <;>
    exact final_port_cases (fun h => (Bool.or_eq_true _ _).mpr (.inr (decide_eq_true h))) _

theorem pfsense.port_cases (proto_num : Option Nat) (field : Option (List Char)) :
    port proto_num field = none ∨
      port proto_num field ≠ some 0 ∧ (proto_num = some 6 ∨ proto_num = some 17) := by
  unfold port
  split
  · rename_i hproto
    refine .inr ⟨?_, hproto⟩
    rw [Ne, Option.filter_eq_some_iff]
    simp
  · exact .inl rfl

/-- The port of a side. -/
def pfsense.Flow.portOn (self : Flow) : Side → Option Nat
  | .src => self.src_port
  | .dst => self.dst_port

/-- The columns of either layout. -/
theorem pfsense.flow_cases (ip_version : List Char) (fields : List (List Char)) (side : Side) :
    (flow ip_version fields).portOn side = none ∨
      ∃ field, (flow ip_version fields).portOn side =
        port (flow ip_version fields).proto_num field := by
  unfold flow
  split
  · cases side <;> exact .inr ⟨_, rfl⟩
  split
  · cases side <;> exact .inr ⟨_, rfl⟩
  · cases side <;> exact .inl rfl

theorem pfsense.port_event (now_ms : Int) (raw : List Char) (fields : List (List Char))
    (side : Side) :
    (side.endpoint (event now_ms raw fields)).port =
      (flow (fields.getD 8 ['4']) fields).portOn side := by
  simp only [event, endpoint_with_unmapped]
  cases side <;> rfl

theorem pfsense.port_event_cases (now_ms : Int) (raw : List Char) (fields : List (List Char))
    (side : Side) :
    (side.endpoint (event now_ms raw fields)).port = none ∨
      (side.endpoint (event now_ms raw fields)).port ≠ some 0 ∧
      ((event now_ms raw fields).connection_info.protocol_num = some 6 ∨
        (event now_ms raw fields).connection_info.protocol_num = some 17) := by
  rw [port_event]
  simp only [event, connection_info_with_unmapped]
  obtain hnone | ⟨field, hport⟩ := flow_cases (fields.getD 8 ['4']) fields side
  · exact .inl hnone
  · rw [hport]
    exact port_cases _ field

/-- The extractors that normalize ports. -/
inductive Normalizing where
  | fortigate
  | cef
  | paloAlto
  | pfSense

def Normalizing.parse (crates : Crates) (now_ms : Int) (raw : List Char) :
    Normalizing → Result (Except String NetworkActivity)
  | fortigate => FortigateExtractor.parse crates now_ms raw
  | cef => CefExtractor.parse crates now_ms raw
  | paloAlto => PaloAltoExtractor.parse crates now_ms raw
  | pfSense => PfSenseExtractor.parse now_ms raw

/-- No line makes one of the extractors emit a port 0 or a port of ICMP, and the ports of pfSense
    belong to TCP or UDP. -/
theorem Normalizing.ports_of_parse (extractor : Normalizing) {crates : Crates} {now_ms : Int}
    {raw : List Char} {event : NetworkActivity}
    (h : extractor.parse crates now_ms raw = ok (.ok event)) :
    PortsNormalized event ∧ (extractor = pfSense → PortsOfTransport event) := by
  cases extractor with
  | fortigate =>
    obtain ⟨pairs, -, heq⟩ := bind_eq_ok_iff.mp h
    cases heq
    exact ⟨fortigate.portsNormalized_event crates now_ms raw _, fun heq => by cases heq⟩
  | cef =>
    rw [Normalizing.parse, CefExtractor.parse] at h
    split at h
    · cases h
    obtain ⟨record, -, h⟩ := bind_eq_ok_iff.mp h
    obtain ⟨header, -, h⟩ := bind_eq_ok_iff.mp h
    obtain ⟨pairs, -, heq⟩ := bind_eq_ok_iff.mp h
    cases heq
    exact ⟨cef.portsNormalized_event now_ms raw header _, fun heq => by cases heq⟩
  | paloAlto =>
    obtain ⟨csv_data, -, h⟩ := bind_eq_ok_iff.mp h
    obtain ⟨fields, -, h⟩ := bind_eq_ok_iff.mp h
    split at h
    · cases h
    cases h
    exact ⟨paloalto.portsNormalized_event crates now_ms raw fields, fun heq => by cases heq⟩
  | pfSense =>
    obtain ⟨csv_part, -, h⟩ := bind_eq_ok_iff.mp h
    obtain ⟨fields, -, h⟩ := bind_eq_ok_iff.mp h
    split at h
    · cases h
    cases h
    have hports := pfsense.port_event_cases now_ms raw fields
    refine ⟨portsNormalized_of_sides fun side => ?_, fun _ side hsome => ?_⟩
    · obtain hnone | ⟨hne, hproto⟩ := hports side
      · exact .inl hnone
      · exact .inr ⟨hne, by rcases hproto with hproto | hproto <;> simp [hproto]⟩
    · obtain hnone | ⟨-, hproto⟩ := hports side
      · rw [hnone] at hsome
        cases hsome
      · exact hproto

/-- The row of a UDP packet from port 0. -/
def filterlogRow : List Char :=
  str.lit "5,,,1,igb0,match,pass,in,4,0x0,,64,1,0,none,17,udp,60,10.0.0.1,10.0.0.2,0,53"

def filterlogFields : List (List Char) := csvFields false false false [] filterlogRow

theorem Normalizing.ports_of_parse_filterlogRow :
    ∃ event, pfSense.parse default 0 filterlogRow = ok (.ok event) ∧
      event.src_endpoint.port = none ∧ event.dst_endpoint.port = some 53 ∧
      PortsNormalized event ∧ PortsOfTransport event := by
  have hpart : pfsense.csv_part filterlogRow = ok filterlogRow := by decide
  have hlength : ¬ filterlogFields.length < 9 := by decide
  have hparse : pfSense.parse default 0 filterlogRow =
      ok (.ok (pfsense.event 0 filterlogRow filterlogFields)) := by
    rw [Normalizing.parse, PfSenseExtractor.parse, hpart, bind_ok, split_csv_eq, bind_ok,
      ← filterlogFields, if_neg hlength]
  obtain ⟨hnormalized, htransport⟩ := pfSense.ports_of_parse hparse
  refine ⟨_, hparse, ?_, ?_, hnormalized, htransport rfl⟩
  · exact (pfsense.port_event 0 filterlogRow filterlogFields .src).trans (by decide)
  · exact (pfsense.port_event 0 filterlogRow filterlogFields .dst).trans (by decide)

namespace suricata

/-- What `serde_json` reads for a non-negative integer: a float beyond 64 bits. -/
def IsInteger (n : Nat) : Value → Prop
  | .PosInt m => m = n ∧ n < 2 ^ 64
  | .Float _ => 2 ^ 64 ≤ n
  | _ => False

/-- The port that a number is to give. -/
def portOf (n : Nat) : Option Nat := if 1 ≤ n ∧ n ≤ 65535 then some n else none

theorem port_eq_portOf_iff {val v : Value} {key : String} {n : Nat} (hget : val.get key = some v)
    (hn : IsInteger n v) :
    port val key = portOf n ↔ (1 ≤ n ∧ n ≤ 65535) ∨ 2 ^ 64 ≤ n := by
  rw [port, hget, Option.bind_some, portOf]
  cases v with
  | PosInt m =>
    obtain ⟨rfl, hm⟩ := hn
    simp only [Value.as_u64, Option.map_some]
    split
    · rename_i hrange
      have hmod : m % 2 ^ 16 = m := Nat.mod_eq_of_lt (by omega)
      rw [hmod]
      exact iff_of_true rfl (.inl hrange)
    · rename_i hrange
      refine iff_of_false (by simp) ?_
      rintro (h | h)
      · exact hrange h
      · omega
  | Float text =>
    have hrange : ¬ (1 ≤ n ∧ n ≤ 65535) := by
      have h64 : 2 ^ 64 ≤ n := hn
      omega
    rw [if_neg hrange]
    exact iff_of_true rfl (.inr hn)
  | _ => exact absurd hn id

theorem port_event (crates : Crates) (now_ms : Int) (raw : List Char) (val : Value) (side : Side) :
    (side.endpoint (event crates now_ms raw val)).port = port val side.portKey := by
  simp only [event, endpoint_with_unmapped]
  cases side <;> rfl

end suricata

/-- The port of an event is the number of its JSON field, or nothing for a number that is no port,
    if and only if that number is one or does not fit into 64 bits. -/
theorem SuricataExtractor.parse_port_iff (crates : Crates) (now_ms : Int) {raw json_slice : List Char}
    {val v : Value} {n : Nat} (side : Side) (hslice : suricata.json_slice raw = ok json_slice)
    (hjson : crates.from_str json_slice = .ok val) (hget : val.get side.portKey = some v)
    (hn : suricata.IsInteger n v) :
    ∃ event, SuricataExtractor.parse crates now_ms raw = ok (.ok event) ∧
      ((side.endpoint event).port = suricata.portOf n ↔ (1 ≤ n ∧ n ≤ 65535) ∨ 2 ^ 64 ≤ n) := by
  refine ⟨suricata.event crates now_ms raw val, ?_, ?_⟩
  · rw [SuricataExtractor.parse, hslice, bind_ok, hjson]
  · rw [suricata.port_event]
    exact suricata.port_eq_portOf_iff hget hn

namespace suricata

/-- A line with two numbers that are no ports. -/
def wideLine : List Char := str.lit "\x7b\"src_port\":65616,\"dest_port\":0\x7d"

def wideValue : Value := .Object [("src_port", .PosInt 65616), ("dest_port", .PosInt 0)]

/-- Libraries that know the line. -/
def wideCrates : Crates :=
  { (default : Crates) with
    from_str := fun text => if text = wideLine then .ok wideValue else .error "" }

end suricata

theorem SuricataExtractor.parse_port_iff_wideLine :
    ∃ event, SuricataExtractor.parse suricata.wideCrates 0 suricata.wideLine = ok (.ok event) ∧
      ((Side.src.endpoint event).port = suricata.portOf 65616 ↔
        (1 ≤ 65616 ∧ 65616 ≤ 65535) ∨ 2 ^ 64 ≤ 65616) := by
  have hslice : suricata.json_slice suricata.wideLine = ok suricata.wideLine := rfl
  have hjson : suricata.wideCrates.from_str suricata.wideLine = .ok suricata.wideValue := rfl
  have hget : suricata.wideValue.get Side.src.portKey = some (.PosInt 65616) := rfl
  exact SuricataExtractor.parse_port_iff _ 0 .src hslice hjson hget ⟨rfl, by decide⟩

/-- The numbers come out as the ports 80 and 0. -/
theorem SuricataExtractor.parse_wideLine :
    ∃ event, SuricataExtractor.parse suricata.wideCrates 0 suricata.wideLine = ok (.ok event) ∧
      event.src_endpoint.port = some 80 ∧ suricata.portOf 65616 = none ∧
      event.dst_endpoint.port = some 0 ∧ suricata.portOf 0 = none := by
  refine ⟨suricata.event suricata.wideCrates 0 suricata.wideLine suricata.wideValue, rfl, rfl, ?_,
    rfl, ?_⟩ <;> decide

end ulpf_core.parser.extractors
