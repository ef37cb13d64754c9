import Ulpf.Core.Parser.Ports
import Ulpf.Core.Parser.Universal

open Result
open ulpf_core.schema.ocsf

/-- A number that is there fits into this many bits. -/
def Option.Fits (bits : Nat) (n : Option Nat) : Prop := ∀ k ∈ n, k < 2 ^ bits

namespace Option.Fits

variable {bits : Nat} {n m : Option Nat}

theorem none : Fits bits none := fun _ hk => nomatch hk

theorem some {k : Nat} (hk : k < 2 ^ bits) : Fits bits (some k) := by
  rintro _ ⟨⟩
  exact hk

theorem filter (h : Fits bits n) (p : Nat → Bool) : Fits bits (n.filter p) := by
  intro k hk
  rw [Option.mem_def, Option.filter_eq_some_iff] at hk
  exact h k hk.1

theorem ite (hn : Fits bits n) (hm : Fits bits m) (p : Prop) [Decidable p] :
    Fits bits (if p then n else m) := by
  split
  · exact hn
  · exact hm

theorem bind {α : Type} {f : α → Option Nat} (h : ∀ a, Fits bits (f a)) (a : Option α) :
    Fits bits (a.bind f) := by
  cases a with
  | none => exact none
  | some a => exact h a

theorem parse_uint (bits : Nat) (s : List Char) : Fits bits (str.parse_uint bits s) := by
  unfold str.parse_uint
  dsimp only
  -- with a sign in front and without
  split
  all_goals
    split
    · rename_i h
      exact some h.2.2
    · exact none

end Option.Fits

theorem List.ite_mem {α : Type} {a b : α} {values : List α} (ha : a ∈ values) (hb : b ∈ values)
    (p : Prop) [Decidable p] : (if p then a else b) ∈ values := by
  split
  · exact ha
  · exact hb

namespace ulpf_core.schema.ocsf

def activity_id.ALL : List Nat := [OPEN, CLOSE, TRAFFIC_FLOW, OTHER]

def disposition.ALL : List String := [ALLOWED, BLOCKED, DROPPED, UNKNOWN]

/-- The derived fields of an event follow from its activity, and its numbers have the ranges of the
    schema. -/
structure NetworkActivity.WellFormed (event : NetworkActivity) : Prop where
  activity_id : event.activity_id ∈ activity_id.ALL
  activity_name : event.activity_name = activity_name_from_id event.activity_id
  category_uid : event.category_uid = CATEGORY_UID_NETWORK_ACTIVITY
  class_uid : event.class_uid = CLASS_UID_NETWORK_ACTIVITY
  type_uid : event.type_uid = calculate_type_uid CLASS_UID_NETWORK_ACTIVITY event.activity_id
  src_port : event.src_endpoint.port.Fits 16
  dst_port : event.dst_endpoint.port.Fits 16
  protocol_num : event.connection_info.protocol_num.Fits 8
  unmapped : ∀ unmapped ∈ event.unmapped, unmapped.entries ≠ []

/-- The disposition is one of those of the schema. -/
def NetworkActivity.Standard (event : NetworkActivity) : Prop :=
  event.disposition ∈ disposition.ALL

theorem NetworkActivity.wellFormed_new {act_id : Nat} {src_endpoint dst_endpoint : Endpoint}
    {connection_info : ConnectionInfo} (hactivity : act_id ∈ activity_id.ALL)
    (hsrc : src_endpoint.port.Fits 16) (hdst : dst_endpoint.port.Fits 16)
    (hprotocol : connection_info.protocol_num.Fits 8) (time : Int) (disp : String)
    (traffic : Option Traffic) (metadata : Metadata) (unmapped : HashMap String String) :
    ((NetworkActivity.new act_id time disp src_endpoint dst_endpoint connection_info traffic
      metadata).with_unmapped unmapped).WellFormed := by
  rw [NetworkActivity.with_unmapped_eq]
  refine ⟨hactivity, rfl, rfl, rfl, rfl, hsrc, hdst, hprotocol, ?_⟩
  intro fields hfields
  dsimp only [NetworkActivity.new] at hfields
  split at hfields
  · cases hfields
  · rename_i hne
    cases hfields
    simpa using hne

@[simp] theorem NetworkActivity.disposition_with_unmapped (self : NetworkActivity)
    (unmapped : HashMap String String) :
    (self.with_unmapped unmapped).disposition = self.disposition := by
  rw [NetworkActivity.with_unmapped_eq]

end ulpf_core.schema.ocsf

namespace ulpf_core.parser.extractors

open Option (Fits)

/-- What every extractor is to keep to: the event is well formed, with a disposition of the schema. -/
structure Conforms (event : NetworkActivity) : Prop where
  wellFormed : event.WellFormed
  standard : event.Standard

theorem conforms_new {act_id : Nat} {disp : String} {src_endpoint dst_endpoint : Endpoint}
    {connection_info : ConnectionInfo} (hactivity : act_id ∈ activity_id.ALL)
    (hdisposition : disp ∈ disposition.ALL) (hsrc : src_endpoint.port.Fits 16)
    (hdst : dst_endpoint.port.Fits 16) (hprotocol : connection_info.protocol_num.Fits 8)
    (time : Int) (traffic : Option Traffic) (metadata : Metadata)
    (unmapped : HashMap String String) :
    Conforms ((NetworkActivity.new act_id time disp src_endpoint dst_endpoint connection_info
      traffic metadata).with_unmapped unmapped) where
  wellFormed := NetworkActivity.wellFormed_new hactivity hsrc hdst hprotocol ..
  standard := by
    rw [NetworkActivity.Standard, NetworkActivity.disposition_with_unmapped]
    exact hdisposition

theorem fits_protocol_num_from_name (name : List Char) : (protocol_num_from_name name).Fits 8 := by
  unfold protocol_num_from_name
  split <;> first | exact Fits.some (by decide) | exact Fits.none

theorem fits_parse_proto (val : List Char) : (parse_proto val).1.Fits 8 := by
  have hnumber := Fits.parse_uint 8 val
  unfold parse_proto
  split
  · rename_i num hnum
    rw [hnum] at hnumber
    exact hnumber
  · exact fits_protocol_num_from_name _

theorem fits_normalize_port {port : Option Nat} (h : port.Fits 16) (proto_num : Option Nat) :
    (normalize_port proto_num port).Fits 16 :=
  Fits.none.ite (Fits.none.ite h _) _

/-- The numbers that a loop over pairs has collected. -/
structure NumbersFit (src_port dst_port proto_num : Option Nat) : Prop where
  src_port : src_port.Fits 16
  dst_port : dst_port.Fits 16
  proto_num : proto_num.Fits 8

theorem numbersFit_none : NumbersFit none none none := ⟨Fits.none, Fits.none, Fits.none⟩

namespace fortigate

def Fields.Fit (fields : Fields) : Prop :=
  NumbersFit fields.src_port fields.dst_port fields.proto_num

theorem Fields.Fit.set {fields : Fields} (h : fields.Fit) (pair : List Char × List Char) :
    (fields.set pair).Fit := by
  obtain ⟨hsrc, hdst, hproto⟩ := h
  unfold Fields.set
  dsimp only
  split
  case h_3 => exact ⟨Fits.parse_uint 16 _, hdst, hproto⟩
  case h_4 => exact ⟨hsrc, Fits.parse_uint 16 _, hproto⟩
  case h_11 => exact ⟨hsrc, hdst, fits_parse_proto _⟩
  all_goals exact ⟨hsrc, hdst, hproto⟩

theorem disposition_of_mem (action : Option String) :
    (disposition_of action).1 ∈ disposition.ALL ∧ (disposition_of action).2 ∈ activity_id.ALL := by
  unfold disposition_of
  split <;> decide

theorem Fields.Fit.conforms_event {fields : Fields} (h : fields.Fit) (crates : Crates) (now_ms : Int)
    (raw : List Char) : Conforms (fields.event crates now_ms raw) := by
  obtain ⟨hdisp, hactivity⟩ := disposition_of_mem fields.normalize_ports.action
  exact conforms_new hactivity hdisp (Fits.none.ite (fits_normalize_port h.src_port _) _)
    (Fits.none.ite (fits_normalize_port h.dst_port _) _) h.proto_num ..

end fortigate

theorem FortigateExtractor.conforms {crates : Crates} {now_ms : Int} {raw : List Char}
    {event : NetworkActivity} (h : FortigateExtractor.parse crates now_ms raw = ok (.ok event)) :
    Conforms event := by
  obtain ⟨pairs, -, h⟩ := bind_eq_ok_iff.mp h
  cases h
  have hfit : (pairs.foldl fortigate.Fields.set {}).Fit :=
    pairs.foldlRecOn _ numbersFit_none fun _ hfields pair _ => hfields.set pair
  exact hfit.conforms_event crates now_ms raw

namespace cef

def Fields.Fit (fields : Fields) : Prop :=
  NumbersFit fields.src_port fields.dst_port fields.proto_num

theorem Fields.Fit.set {fields : Fields} (h : fields.Fit) (pair : List Char × List Char) :
    (fields.set pair).Fit := by
  obtain ⟨hsrc, hdst, hproto⟩ := h
  unfold Fields.set
  dsimp only
  split
  case h_3 | h_4 => exact ⟨Fits.parse_uint 16 _, hdst, hproto⟩
  case h_5 | h_6 => exact ⟨hsrc, Fits.parse_uint 16 _, hproto⟩
  case h_7 => exact ⟨hsrc, hdst, fits_parse_proto _⟩
  all_goals exact ⟨hsrc, hdst, hproto⟩

theorem disposition_of_mem (action : Option String) :
    (disposition_of action).1 ∈ disposition.ALL ∧ (disposition_of action).2 ∈ activity_id.ALL := by
  unfold disposition_of
  split <;> decide

theorem Fields.Fit.conforms_event {fields : Fields} (h : fields.Fit) (now_ms : Int)
    (raw : List Char) (header : List (List Char)) : Conforms (fields.event now_ms raw header) := by
  obtain ⟨hdisp, hactivity⟩ := disposition_of_mem fields.normalize_ports.action
  exact conforms_new hactivity hdisp (fits_normalize_port h.src_port _)
    (fits_normalize_port h.dst_port _) h.proto_num ..

end cef

theorem CefExtractor.conforms {crates : Crates} {now_ms : Int} {raw : List Char}
    {event : NetworkActivity} (h : CefExtractor.parse crates now_ms raw = ok (.ok event)) :
    Conforms event := by
  unfold CefExtractor.parse at h
  split at h
  · cases h
  obtain ⟨record, -, h⟩ := bind_eq_ok_iff.mp h
  obtain ⟨header, -, h⟩ := bind_eq_ok_iff.mp h
  obtain ⟨pairs, -, h⟩ := bind_eq_ok_iff.mp h
  cases h
  have hfit : (pairs.foldl cef.Fields.set {}).Fit :=
    pairs.foldlRecOn _ numbersFit_none fun _ hfields pair _ => hfields.set pair
  exact hfit.conforms_event now_ms raw header

namespace paloalto

theorem disposition_of_mem (action : List Char) : disposition_of action ∈ disposition.ALL := by
  unfold disposition_of
  split <;> decide

theorem activity_of_mem (subtype : List Char) (disp : String) :
    activity_of subtype disp ∈ activity_id.ALL := by
  unfold activity_of
  split
  case h_5 => exact List.ite_mem (by decide) (by decide) _
  all_goals decide

theorem conforms_event (crates : Crates) (now_ms : Int) (raw : List Char)
    (fields : List (List Char)) : Conforms (event crates now_ms raw fields) := by
  have hport : ∀ column : Option (List Char),
      ((column.bind (str.parse_uint 16)).filter (· > 0)).Fits 16 :=
    fun column => (Fits.bind (Fits.parse_uint 16) column).filter _
  exact conforms_new (activity_of_mem _ _) (disposition_of_mem _)
    (Fits.none.ite (Fits.none.ite (hport _) _) _) (Fits.none.ite (Fits.none.ite (hport _) _) _)
    (Fits.bind fits_protocol_num_from_name _) ..

end paloalto

theorem PaloAltoExtractor.conforms {crates : Crates} {now_ms : Int} {raw : List Char}
    {event : NetworkActivity} (h : PaloAltoExtractor.parse crates now_ms raw = ok (.ok event)) :
    Conforms event := by
  obtain ⟨csv_data, -, h⟩ := bind_eq_ok_iff.mp h
  obtain ⟨fields, -, h⟩ := bind_eq_ok_iff.mp h
  split at h
  · cases h
  · cases h
    exact paloalto.conforms_event crates now_ms raw fields

namespace pfsense

theorem disposition_of_mem (action : List Char) : disposition_of action ∈ disposition.ALL := by
  unfold disposition_of
  split <;> decide

theorem fits_port (proto_num : Option Nat) (field : Option (List Char)) :
    (port proto_num field).Fits 16 :=
  ((Fits.bind (Fits.parse_uint 16) field).filter _).ite Fits.none _

theorem fits_flow (ip_version : List Char) (fields : List (List Char)) :
    (flow ip_version fields).src_port.Fits 16 ∧ (flow ip_version fields).dst_port.Fits 16 ∧
      (flow ip_version fields).proto_num.Fits 8 := by
  unfold flow
  split
  · exact ⟨fits_port _ _, fits_port _ _, (Fits.bind fits_protocol_num_from_name _).ite
      (Fits.bind (Fits.parse_uint 8) _) _⟩
  split
  · exact ⟨fits_port _ _, fits_port _ _, (Fits.bind (Fits.parse_uint 8) _).ite
      (Fits.bind fits_protocol_num_from_name _) _⟩
  · exact ⟨Fits.none, Fits.none, Fits.none⟩

theorem conforms_event (now_ms : Int) (raw : List Char) (fields : List (List Char)) :
    Conforms (event now_ms raw fields) := by
  obtain ⟨hsrc, hdst, hproto⟩ := fits_flow (fields.getD 8 ['4']) fields
  exact conforms_new (List.ite_mem (by decide) (by decide) _) (disposition_of_mem _) hsrc hdst
    hproto ..

end pfsense

theorem PfSenseExtractor.conforms {now_ms : Int} {raw : List Char} {event : NetworkActivity}
    (h : PfSenseExtractor.parse now_ms raw = ok (.ok event)) : Conforms event := by
  obtain ⟨csv_part, -, h⟩ := bind_eq_ok_iff.mp h
  obtain ⟨fields, -, h⟩ := bind_eq_ok_iff.mp h
  split at h
  · cases h
  · cases h
    exact pfsense.conforms_event now_ms raw fields

namespace suricata

/-- The verdict that the flow and alert objects have left. -/
structure Verdict.Conforms (verdict : Verdict) : Prop where
  disp : verdict.disp ∈ disposition.ALL
  act_id : verdict.act_id ∈ activity_id.ALL

theorem Verdict.Conforms.read_flow {verdict : Verdict} (h : verdict.Conforms) (flow_obj : Value) :
    (read_flow flow_obj verdict).Conforms := by
  constructor
  · exact List.ite_mem (by decide) h.disp _
  · dsimp only [suricata.read_flow, state_activity]
    split
    · decide
    · decide
    · exact h.act_id

theorem alert_disposition_mem (action : Option (List Char)) :
    alert_disposition action ∈ disposition.ALL := by
  unfold alert_disposition
  split <;> decide

theorem Verdict.conforms_read_alert (crates : Crates) (alert_obj : Value) (verdict : Verdict) :
    (read_alert crates alert_obj verdict).Conforms :=
  ⟨alert_disposition_mem _, show activity_id.OTHER ∈ activity_id.ALL by decide⟩

theorem fits_port (val : Value) (key : String) : (port val key).Fits 16 := by
  intro k hk
  rw [port, Option.mem_def, Option.map_eq_some_iff] at hk
  obtain ⟨n, -, rfl⟩ := hk
  exact Nat.mod_lt _ (by decide)

theorem conforms_event (crates : Crates) (now_ms : Int) (raw : List Char) (val : Value) :
    extractors.Conforms (event crates now_ms raw val) := by
  have hstart : ∀ unmapped, (⟨none, disposition.ALLOWED, activity_id.TRAFFIC_FLOW, unmapped⟩ :
      Verdict).Conforms := fun _ =>
    ⟨show disposition.ALLOWED ∈ disposition.ALL by decide,
      show activity_id.TRAFFIC_FLOW ∈ activity_id.ALL by decide⟩
  have hnew : ∀ {verdict : Verdict}, verdict.Conforms → ∀ time interface metadata,
      extractors.Conforms ((NetworkActivity.new verdict.act_id time verdict.disp
        ⟨((val.get "src_ip").bind Value.as_str).map String.ofList, port val "src_port", interface,
          none⟩
        ⟨((val.get "dest_ip").bind Value.as_str).map String.ofList, port val "dest_port", none, none⟩
        ⟨(((val.get "proto").bind Value.as_str).map str.to_ascii_uppercase).bind
            protocol_num_from_name,
          (((val.get "proto").bind Value.as_str).map str.to_ascii_uppercase).map String.ofList, none⟩
        verdict.traffic metadata).with_unmapped verdict.unmapped) := fun h _ _ _ =>
    conforms_new h.act_id h.disp (fits_port _ _) (fits_port _ _)
      (Fits.bind fits_protocol_num_from_name _) ..
  unfold event
  dsimp only
  cases (val.get "alert").bind Value.as_object with
  | some alert_obj => exact hnew (Verdict.conforms_read_alert _ _ _) ..
  | none =>
    cases (val.get "flow").bind Value.as_object with
    | some flow_obj => exact hnew ((hstart _).read_flow _) ..
    | none => exact hnew (hstart _) ..

end suricata

theorem SuricataExtractor.conforms {crates : Crates} {now_ms : Int} {raw : List Char}
    {event : NetworkActivity} (h : SuricataExtractor.parse crates now_ms raw = ok (.ok event)) :
    Conforms event := by
  obtain ⟨text, -, h⟩ := bind_eq_ok_iff.mp h
  split at h
  · cases h
  · cases h
    exact suricata.conforms_event crates now_ms raw _

namespace cisco_asa

theorem fits_port_of_endpoint {text : List Char} {default_intf : Option (List Char)}
    {result : Endpoint} (h : endpoint text default_intf = ok result) : result.port.Fits 16 := by
  obtain ⟨⟨ip, port, intf⟩, hparts, h⟩ := bind_eq_ok_iff.mp h
  cases h
  obtain ⟨⟨intf', rest⟩, -, hparts⟩ := bind_eq_ok_iff.mp hparts
  obtain ⟨⟨ip', port'⟩, hport, hparts⟩ := bind_eq_ok_iff.mp hparts
  cases hparts
  dsimp only
  unfold split_port at hport
  split at hport
  · obtain ⟨parts, -, hport⟩ := bind_eq_ok_iff.mp hport
    obtain ⟨digits, -, hport⟩ := bind_eq_ok_iff.mp hport
    cases hport
    exact Fits.parse_uint 16 digits
  · cases hport
    exact Fits.none

theorem conforms_asa_activity {act_id : Nat} {disp : String} {src_endpoint dst_endpoint : Endpoint}
    {connection_info : ConnectionInfo} (hactivity : act_id ∈ activity_id.ALL)
    (hdisposition : disp ∈ disposition.ALL) (hsrc : src_endpoint.port.Fits 16)
    (hdst : dst_endpoint.port.Fits 16) (hprotocol : connection_info.protocol_num.Fits 8)
    (now_ms : Int) (raw : List Char) (traffic : Option Traffic) (unmapped : HashMap String String) :
    Conforms (asa_activity now_ms raw act_id disp src_endpoint dst_endpoint connection_info traffic
      unmapped) :=
  conforms_new hactivity hdisposition hsrc hdst hprotocol ..

theorem fits_connection (proto_str : List Char) (direction : Option String) :
    (connection proto_str direction).protocol_num.Fits 8 :=
  fits_protocol_num_from_name _

theorem fallback_disposition_mem (body : List Char) :
    fallback_disposition body ∈ disposition.ALL := by
  unfold fallback_disposition
  exact List.ite_mem (by decide) (List.ite_mem (by decide) (List.ite_mem (by decide)
    (List.ite_mem (by decide) (by decide) _) _) _) _

theorem conforms_fallback_parse (now_ms : Int) (raw body : List Char)
    (unmapped : HashMap String String) : Conforms (fallback_parse now_ms raw body unmapped) := by
  refine conforms_asa_activity ?_ (fallback_disposition_mem body) Fits.none Fits.none Fits.none ..
  exact List.ite_mem (by decide) (List.ite_mem (by decide) (by decide) _) _

section
variable {now_ms : Int} {raw body : List Char} {unmapped : HashMap String String} {caps : Captures}
  {event : NetworkActivity}

/-- The layouts with two endpoints end in the same way. -/
theorem conforms_of_endpoints {src_text dst_text proto_str : List Char}
    {src_intf dst_intf : Option (List Char)} {act_id : Nat} {disp : String} {direction : Option String}
    {traffic : Option Traffic} (hactivity : act_id ∈ activity_id.ALL)
    (hdisposition : disp ∈ disposition.ALL)
    (h : (do
      let src_endpoint ← endpoint src_text src_intf
      let dst_endpoint ← endpoint dst_text dst_intf
      ok (asa_activity now_ms raw act_id disp src_endpoint dst_endpoint
        (connection proto_str direction) traffic unmapped)) = ok event) : Conforms event := by
  obtain ⟨src, hsrc, h⟩ := bind_eq_ok_iff.mp h
  obtain ⟨dst, hdst, h⟩ := bind_eq_ok_iff.mp h
  cases h
  exact conforms_asa_activity hactivity hdisposition (fits_port_of_endpoint hsrc)
    (fits_port_of_endpoint hdst) (fits_connection _ _) ..

theorem conforms_built (h : built now_ms raw body unmapped caps = ok event) : Conforms event := by
  iterate 5 obtain ⟨_, -, h⟩ := bind_eq_ok_iff.mp h
  exact conforms_of_endpoints (by decide) (by decide) h

theorem conforms_teardown (h : teardown now_ms raw body unmapped caps = ok event) :
    Conforms event := by
  iterate 6 obtain ⟨_, -, h⟩ := bind_eq_ok_iff.mp h
  exact conforms_of_endpoints (by decide) (by decide) h

theorem conforms_deny (h : deny now_ms raw body unmapped caps = ok event) : Conforms event := by
  iterate 4 obtain ⟨_, -, h⟩ := bind_eq_ok_iff.mp h
  exact conforms_of_endpoints (by decide) (by decide) h

theorem conforms_denied_conn (h : denied_conn now_ms raw body unmapped caps = ok event) :
    Conforms event := by
  iterate 5 obtain ⟨_, -, h⟩ := bind_eq_ok_iff.mp h
  exact conforms_of_endpoints (by decide) (by decide) h

theorem conforms_dropped_acl (h : dropped_acl now_ms raw body unmapped caps = ok event) :
    Conforms event := by
  iterate 3 obtain ⟨_, -, h⟩ := bind_eq_ok_iff.mp h
  exact conforms_of_endpoints (by decide) (by decide) h

theorem conforms_session_disconnect
    (h : session_disconnect now_ms raw body unmapped caps = ok event) : Conforms event := by
  iterate 8 obtain ⟨_, -, h⟩ := bind_eq_ok_iff.mp h
  cases h
  exact conforms_asa_activity (by decide) (by decide) Fits.none Fits.none Fits.none ..

theorem conforms_layout {crates : Crates} {pattern : String}
    {parse : Captures → Result NetworkActivity} {otherwise : Result NetworkActivity}
    (hparse : ∀ {caps event}, parse caps = ok event → Conforms event)
    (hotherwise : otherwise = ok event → Conforms event)
    (h : layout crates pattern body parse otherwise = ok event) : Conforms event := by
  unfold layout at h
  split at h
  · exact hparse h
  · exact hotherwise h

theorem conforms_message {crates : Crates} {message_code : String}
    (h : message crates now_ms raw body unmapped message_code = ok event) : Conforms event := by
  have hfallback : ok (fallback_parse now_ms raw body unmapped) = ok event → Conforms event := by
    rintro ⟨⟩
    exact conforms_fallback_parse now_ms raw body unmapped
  unfold message at h
  dsimp only at h
  split at h
  case h_1 | h_2 | h_3 => exact conforms_layout conforms_built hfallback h
  case h_4 | h_5 | h_6 => exact conforms_layout conforms_teardown hfallback h
  case h_7 => exact conforms_layout conforms_deny hfallback h
  case h_8 | h_9 | h_10 =>
    exact conforms_layout conforms_denied_conn (conforms_layout conforms_dropped_acl hfallback) h
  case h_11 => exact conforms_layout conforms_session_disconnect hfallback h
  case h_12 => exact hfallback h

end

end cisco_asa

theorem CiscoAsaExtractor.conforms {crates : Crates} {now_ms : Int} {raw : List Char}
    {event : NetworkActivity} (h : CiscoAsaExtractor.parse crates now_ms raw = ok (.ok event)) :
    Conforms event := by
  unfold CiscoAsaExtractor.parse at h
  split at h
  · cases h
  iterate 3 obtain ⟨_, -, h⟩ := bind_eq_ok_iff.mp h
  obtain ⟨activity, hmessage, h⟩ := bind_eq_ok_iff.mp h
  cases h
  exact cisco_asa.conforms_message hmessage

end ulpf_core.parser.extractors

namespace ulpf_core.parser.UniversalParser

open ulpf_core.parser.extractors ulpf_core.parser.classifier

theorem conforms_extract {crates : Crates} {now_ms : Int} {raw : List Char} {format : VendorFormat}
    {event : NetworkActivity} (h : extract crates now_ms raw format = ok (.ok event)) :
    Conforms event := by
  cases format with
  | CiscoAsa => exact CiscoAsaExtractor.conforms h
  | Fortinet => exact FortigateExtractor.conforms h
  | PaloAlto => exact PaloAltoExtractor.conforms h
  | Suricata => exact SuricataExtractor.conforms h
  | PfSense => exact PfSenseExtractor.conforms h
  | Cef => exact CefExtractor.conforms h
  | Unknown => cases h

section
variable {H : Type} [ulpf_integrity.merkle.Digest H] {crates : Crates} {raw : List Char}
  {event : NetworkActivity}

/-- Stamping writes the metadata only. -/
theorem conforms_of_parse_with_format {reading : Reading} {format : VendorFormat}
    (h : parse_with_format H crates reading raw format = ok (.ok event)) : Conforms event := by
  obtain ⟨activity, hextract, h⟩ := and_then_eq_ok_iff.mp h
  cases h
  obtain ⟨⟨hactivity, hname, hcategory, hclass, htype, hsrc, hdst, hprotocol, hunmapped⟩, hdisp⟩ :=
    conforms_extract hextract
  exact ⟨⟨hactivity, hname, hcategory, hclass, htype, hsrc, hdst, hprotocol, hunmapped⟩, hdisp⟩

theorem conforms_lossless_event (fallback : Reading) (raw : List Char) (err : String) :
    Conforms (lossless_event H fallback raw err) :=
  conforms_new (by decide) (by decide) Option.Fits.none Option.Fits.none Option.Fits.none ..

theorem conforms_of_parse_lossless {reading fallback : Reading}
    (h : parse_lossless H crates reading fallback raw = ok event) : Conforms event := by
  obtain ⟨parsed, hparsed, h⟩ := bind_eq_ok_iff.mp h
  cases h
  cases parsed with
  | ok activity => exact conforms_of_parse_with_format hparsed
  | error err => exact conforms_lossless_event fallback raw err

end

end ulpf_core.parser.UniversalParser
