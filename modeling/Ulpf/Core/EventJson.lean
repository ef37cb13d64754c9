import Ulpf.Lib.JsonValue
import Ulpf.Core.Parser.WellFormed

open json

namespace ulpf_core.schema.ocsf

def Endpoint.to_value (self : Endpoint) : Value :=
  record [optional "ip" (self.ip.map .Text), optional "port" (self.port.map .PosInt),
    optional "interface" (self.interface.map .Text), optional "zone" (self.zone.map .Text)]

def Endpoint.of_value (v : Value) : Option Endpoint := do
  let ip ← nullable asText "ip" v
  let port ← nullable (asUint 16) "port" v
  let interface ← nullable asText "interface" v
  let zone ← nullable asText "zone" v
  return { ip, port, interface, zone }

def ConnectionInfo.to_value (self : ConnectionInfo) : Value :=
  record [optional "protocol_num" (self.protocol_num.map .PosInt),
    optional "protocol_name" (self.protocol_name.map .Text),
    optional "direction" (self.direction.map .Text)]

def ConnectionInfo.of_value (v : Value) : Option ConnectionInfo := do
  let protocol_num ← nullable (asUint 8) "protocol_num" v
  let protocol_name ← nullable asText "protocol_name" v
  let direction ← nullable asText "direction" v
  return { protocol_num, protocol_name, direction }

def Traffic.to_value (self : Traffic) : Value :=
  record [optional "bytes_in" (self.bytes_in.map .PosInt),
    optional "bytes_out" (self.bytes_out.map .PosInt),
    optional "packets_in" (self.packets_in.map .PosInt),
    optional "packets_out" (self.packets_out.map .PosInt)]

/-- The counters have the width of the integers of the crate. -/
def Traffic.of_value (v : Value) : Option Traffic := do
  let bytes_in ← nullable Value.as_u64 "bytes_in" v
  let bytes_out ← nullable Value.as_u64 "bytes_out" v
  let packets_in ← nullable Value.as_u64 "packets_in" v
  let packets_out ← nullable Value.as_u64 "packets_out" v
  return { bytes_in, bytes_out, packets_in, packets_out }

def Product.to_value (self : Product) : Value :=
  record [field "vendor_name" (.Text self.vendor_name), field "name" (.Text self.name),
    optional "version" (self.version.map .Text)]

def Product.of_value (v : Value) : Option Product := do
  let vendor_name ← required asText "vendor_name" v
  let name ← required asText "name" v
  let version ← nullable asText "version" v
  return { vendor_name, name, version }

def Metadata.to_value (self : Metadata) : Value :=
  record [field "product" self.product.to_value, field "raw_data" (.Text self.raw_data),
    field "raw_hash" (.Text self.raw_hash), field "event_id" (.Text self.event_id),
    field "ingest_time" (ofInt self.ingest_time)]

def Metadata.of_value (v : Value) : Option Metadata := do
  let product ← required Product.of_value "product" v
  let raw_data ← required asText "raw_data" v
  let raw_hash ← required asText "raw_hash" v
  let event_id ← required asText "event_id" v
  let ingest_time ← required asInt "ingest_time" v
  return { product, raw_data, raw_hash, event_id, ingest_time }

/-- The unmapped fields, in the order in which the map is listed. -/
def unmapped_to_value (unmapped : HashMap String String) : Value :=
  .Object (unmapped.entries.map fun entry => (entry.1, .Text entry.2))

def unmapped_of_value : Value → Option (HashMap String String)
  | .Object fields => do
    let texts ← fields.mapM fun field => (asText field.2).map fun text => (field.1, text)
    return texts.foldr (fun entry unmapped => unmapped.insert entry.1 entry.2) ∅
  | _ => none

namespace NetworkActivity

/-- The fields of an event in the order of its declaration. -/
def to_value (self : NetworkActivity) : Value :=
  record [field "activity_id" (.PosInt self.activity_id),
    field "activity_name" (.Text self.activity_name),
    field "category_uid" (.PosInt self.category_uid),
    field "class_uid" (.PosInt self.class_uid),
    field "type_uid" (.PosInt self.type_uid),
    field "time" (ofInt self.time),
    field "disposition" (.Text self.disposition),
    field "src_endpoint" self.src_endpoint.to_value,
    field "dst_endpoint" self.dst_endpoint.to_value,
    field "connection_info" self.connection_info.to_value,
    optional "traffic" (self.traffic.map Traffic.to_value),
    field "metadata" self.metadata.to_value,
    optional "unmapped" (self.unmapped.map unmapped_to_value)]

/-- `serde_json::to_string` of an event. -/
def to_json (self : NetworkActivity) : String := String.ofList (json.value self.to_value)

def of_value (v : Value) : Option NetworkActivity := do
  let activity_id ← required (asUint 8) "activity_id" v
  let activity_name ← required asText "activity_name" v
  let category_uid ← required (asUint 8) "category_uid" v
  let class_uid ← required (asUint 16) "class_uid" v
  let type_uid ← required (asUint 32) "type_uid" v
  let time ← required asInt "time" v
  let disposition ← required asText "disposition" v
  let src_endpoint ← required Endpoint.of_value "src_endpoint" v
  let dst_endpoint ← required Endpoint.of_value "dst_endpoint" v
  let connection_info ← required ConnectionInfo.of_value "connection_info" v
  let traffic ← nullable Traffic.of_value "traffic" v
  let metadata ← required Metadata.of_value "metadata" v
  let unmapped ← nullable unmapped_of_value "unmapped" v
  return { activity_id, activity_name, category_uid, class_uid, type_uid, time, disposition,
           src_endpoint, dst_endpoint, connection_info, traffic, metadata, unmapped }

/-- `serde_json::from_str` of an event. -/
def from_json (crates : Crates) (text : String) : Option NetworkActivity :=
  match crates.from_str text.toList with
  | .ok v => of_value v
  | .error _ => none

end NetworkActivity

/-- The counters are values of their type `u64`. -/
structure Traffic.Sized (traffic : Traffic) : Prop where
  bytes_in : traffic.bytes_in.Fits 64
  bytes_out : traffic.bytes_out.Fits 64
  packets_in : traffic.packets_in.Fits 64
  packets_out : traffic.packets_out.Fits 64

/-- The times and counters of an event are values of their types. -/
structure NetworkActivity.Sized (event : NetworkActivity) : Prop where
  time : I64 event.time
  ingest_time : I64 event.metadata.ingest_time
  traffic : ∀ traffic ∈ event.traffic, traffic.Sized

section

variable {depth : Nat}

theorem written_text {s : Option String} : ∀ v ∈ s.map Value.Text, Written depth v := by
  intro v hv
  obtain ⟨s, -, rfl⟩ := Option.map_eq_some_iff.mp hv
  exact .text s

theorem written_posInt {bits : Nat} {n : Option Nat} (hn : n.Fits bits) (hbits : bits ≤ 64) :
    ∀ v ∈ n.map Value.PosInt, Written depth v := by
  intro v hv
  obtain ⟨n, hmem, rfl⟩ := Option.map_eq_some_iff.mp hv
  exact .posInt ((hn n hmem).trans_le (Nat.pow_le_pow_right Nat.two_pos hbits))

theorem Endpoint.written_to_value {self : Endpoint} (hport : self.port.Fits 16) :
    Written (depth + 1) self.to_value :=
  (Fields.nil.optional written_text |>.optional written_text
    |>.optional (written_posInt hport (by decide)) |>.optional written_text).written_record (by decide)

theorem ConnectionInfo.written_to_value {self : ConnectionInfo}
    (hprotocol : self.protocol_num.Fits 8) : Written (depth + 1) self.to_value :=
  (Fields.nil.optional written_text |>.optional written_text
    |>.optional (written_posInt hprotocol (by decide))).written_record (by decide)

theorem Traffic.Sized.written_to_value {self : Traffic} (h : self.Sized) :
    Written (depth + 1) self.to_value :=
  (Fields.nil.optional (written_posInt h.packets_out le_rfl)
    |>.optional (written_posInt h.packets_in le_rfl)
    |>.optional (written_posInt h.bytes_out le_rfl)
    |>.optional (written_posInt h.bytes_in le_rfl)).written_record (by decide)

theorem Product.written_to_value (self : Product) : Written (depth + 1) self.to_value :=
  (Fields.nil.optional written_text |>.field (.text _) |>.field (.text _)).written_record (by decide)

theorem Metadata.written_to_value {self : Metadata} (hingest : I64 self.ingest_time) :
    Written (depth + 2) self.to_value :=
  (Fields.nil.field (written_ofInt hingest) |>.field (.text _) |>.field (.text _) |>.field (.text _)
    |>.field self.product.written_to_value).written_record (by decide)

/-- A map has every name once. -/
theorem written_unmapped_to_value (unmapped : HashMap String String) :
    Written (depth + 1) (unmapped_to_value unmapped) := by
  refine .object ?_ ?_
  · rw [List.map_map]
    exact unmapped.nodupKeys
  · intro field hfield
    obtain ⟨entry, -, rfl⟩ := List.mem_map.mp hfield
    exact .text _

/-- The derived identifiers of a well-formed event have the widths of the schema. -/
theorem NetworkActivity.WellFormed.ids_lt {self : NetworkActivity} (h : self.WellFormed) :
    self.activity_id < 2 ^ 8 ∧ self.category_uid < 2 ^ 8 ∧ self.class_uid < 2 ^ 16 ∧
      self.type_uid < 2 ^ 32 := by
  have hid : self.activity_id < 2 ^ 8 := by
    have hall : ∀ id ∈ activity_id.ALL, id < 2 ^ 8 := by decide
    exact hall _ h.activity_id
  refine ⟨hid, by rw [h.category_uid]; decide, by rw [h.class_uid]; decide, ?_⟩
  rw [h.type_uid, calculate_type_uid, CLASS_UID_NETWORK_ACTIVITY]
  omega

theorem NetworkActivity.written_to_value {self : NetworkActivity} (h : self.WellFormed)
    (hsized : self.Sized) : Written (depth + 3) self.to_value := by
  have htraffic : ∀ v ∈ self.traffic.map Traffic.to_value, Written (depth + 2) v := by
    intro v hv
    obtain ⟨traffic, hmem, rfl⟩ := Option.map_eq_some_iff.mp hv
    exact (hsized.traffic traffic hmem).written_to_value
  have hunmapped : ∀ v ∈ self.unmapped.map unmapped_to_value, Written (depth + 2) v := by
    intro v hv
    obtain ⟨unmapped, -, rfl⟩ := Option.map_eq_some_iff.mp hv
    exact written_unmapped_to_value unmapped
  obtain ⟨hactivity, hcategory, hclass, htype⟩ := h.ids_lt
  have hid : ∀ {n bits : Nat}, bits ≤ 64 → n < 2 ^ bits → Written (depth + 2) (.PosInt n) :=
    fun hbits hn => .posInt (hn.trans_le (Nat.pow_le_pow_right Nat.two_pos hbits))
  exact (Fields.nil.optional hunmapped |>.field (Metadata.written_to_value hsized.ingest_time)
    |>.optional htraffic |>.field (ConnectionInfo.written_to_value h.protocol_num)
    |>.field (Endpoint.written_to_value h.dst_port) |>.field (Endpoint.written_to_value h.src_port)
    |>.field (.text _) |>.field (written_ofInt hsized.time) |>.field (hid (by decide) htype)
    |>.field (hid (by decide) hclass) |>.field (hid (by decide) hcategory) |>.field (.text _)
    |>.field (hid (by decide) hactivity)).written_record (by decide)

theorem Endpoint.of_value_to_value {self : Endpoint} (hport : self.port.Fits 16) :
    of_value self.to_value = some self := by
  have hip : nullable asText "ip" self.to_value = some self.ip :=
    nullable_text (by simp [to_value])
  have hport : nullable (asUint 16) "port" self.to_value = some self.port :=
    nullable_uint (by simp [to_value]) hport
  have hinterface : nullable asText "interface" self.to_value = some self.interface :=
    nullable_text (by simp [to_value])
  have hzone : nullable asText "zone" self.to_value = some self.zone :=
    nullable_text (by simp [to_value])
  simp [of_value, hip, hport, hinterface, hzone]

theorem ConnectionInfo.of_value_to_value {self : ConnectionInfo}
    (hprotocol : self.protocol_num.Fits 8) : of_value self.to_value = some self := by
  have hnum : nullable (asUint 8) "protocol_num" self.to_value = some self.protocol_num :=
    nullable_uint (by simp [to_value]) hprotocol
  have hname : nullable asText "protocol_name" self.to_value = some self.protocol_name :=
    nullable_text (by simp [to_value])
  have hdirection : nullable asText "direction" self.to_value = some self.direction :=
    nullable_text (by simp [to_value])
  simp [of_value, hnum, hname, hdirection]

theorem Traffic.of_value_to_value (self : Traffic) : of_value self.to_value = some self := by
  have hbytes_in : nullable Value.as_u64 "bytes_in" self.to_value = some self.bytes_in :=
    nullable_u64 (by simp [to_value])
  have hbytes_out : nullable Value.as_u64 "bytes_out" self.to_value = some self.bytes_out :=
    nullable_u64 (by simp [to_value])
  have hpackets_in : nullable Value.as_u64 "packets_in" self.to_value = some self.packets_in :=
    nullable_u64 (by simp [to_value])
  have hpackets_out : nullable Value.as_u64 "packets_out" self.to_value = some self.packets_out :=
    nullable_u64 (by simp [to_value])
  simp [of_value, hbytes_in, hbytes_out, hpackets_in, hpackets_out]

theorem Product.of_value_to_value (self : Product) : of_value self.to_value = some self := by
  have hvendor : required asText "vendor_name" self.to_value = some self.vendor_name :=
    required_text (by simp [to_value])
  have hname : required asText "name" self.to_value = some self.name :=
    required_text (by simp [to_value])
  have hversion : nullable asText "version" self.to_value = some self.version :=
    nullable_text (by simp [to_value])
  simp [of_value, hvendor, hname, hversion]

theorem Metadata.of_value_to_value {self : Metadata} (hingest : I64 self.ingest_time) :
    of_value self.to_value = some self := by
  have hproduct : required Product.of_value "product" self.to_value = some self.product :=
    required_eq (by simp [to_value]) self.product.of_value_to_value
  have hraw_data : required asText "raw_data" self.to_value = some self.raw_data :=
    required_text (by simp [to_value])
  have hraw_hash : required asText "raw_hash" self.to_value = some self.raw_hash :=
    required_text (by simp [to_value])
  have hevent_id : required asText "event_id" self.to_value = some self.event_id :=
    required_text (by simp [to_value])
  have hingest_time : required asInt "ingest_time" self.to_value = some self.ingest_time :=
    required_int (by simp [to_value]) hingest
  simp [of_value, hproduct, hraw_data, hraw_hash, hevent_id, hingest_time]

/-- The entries of a map are put back in front of each other, so that their order stays. -/
theorem foldr_insert_entries (unmapped : HashMap String String) :
    (unmapped.entries.map fun entry => (entry.1, entry.2)).foldr
      (fun entry unmapped => unmapped.insert entry.1 entry.2) ∅ = unmapped := by
  refine AList.insertRec (C := fun unmapped =>
    (unmapped.entries.map fun entry => (entry.1, entry.2)).foldr
      (fun entry unmapped => unmapped.insert entry.1 entry.2) ∅ = unmapped) rfl ?_ unmapped
  intro name text rest hname ih
  rw [AList.entries_insert_of_notMem hname, List.map_cons, List.foldr_cons, ih]

theorem unmapped_of_value_to_value (unmapped : HashMap String String) :
    unmapped_of_value (unmapped_to_value unmapped) = some unmapped := by
  have htexts : (unmapped.entries.map fun entry => (entry.1, Value.Text entry.2)).mapM
      (fun field => (asText field.2).map fun text => (field.1, text)) =
        some (unmapped.entries.map fun entry => (entry.1, entry.2)) := by
    rw [List.mapM_map]
    exact List.mapM_pure
  simp only [unmapped_to_value, unmapped_of_value, htexts, Option.bind_eq_bind, Option.bind_some,
    foldr_insert_entries, Option.pure_def]

theorem NetworkActivity.of_value_to_value {self : NetworkActivity} (h : self.WellFormed)
    (hsized : self.Sized) : of_value self.to_value = some self := by
  obtain ⟨hid, hcategory_lt, hclass_lt, htype_lt⟩ := h.ids_lt
  have hactivity_id : required (asUint 8) "activity_id" self.to_value = some self.activity_id :=
    required_uint (by simp [to_value]) hid
  have hactivity_name : required asText "activity_name" self.to_value = some self.activity_name :=
    required_text (by simp [to_value])
  have hcategory : required (asUint 8) "category_uid" self.to_value = some self.category_uid :=
    required_uint (by simp [to_value]) hcategory_lt
  have hclass : required (asUint 16) "class_uid" self.to_value = some self.class_uid :=
    required_uint (by simp [to_value]) hclass_lt
  have htype : required (asUint 32) "type_uid" self.to_value = some self.type_uid :=
    required_uint (by simp [to_value]) htype_lt
  have htime : required asInt "time" self.to_value = some self.time :=
    required_int (by simp [to_value]) hsized.time
  have hdisposition : required asText "disposition" self.to_value = some self.disposition :=
    required_text (by simp [to_value])
  have hsrc : required Endpoint.of_value "src_endpoint" self.to_value = some self.src_endpoint :=
    required_eq (by simp [to_value]) (Endpoint.of_value_to_value h.src_port)
  have hdst : required Endpoint.of_value "dst_endpoint" self.to_value = some self.dst_endpoint :=
    required_eq (by simp [to_value]) (Endpoint.of_value_to_value h.dst_port)
  have hinfo : required ConnectionInfo.of_value "connection_info" self.to_value =
      some self.connection_info :=
    required_eq (by simp [to_value]) (ConnectionInfo.of_value_to_value h.protocol_num)
  have htraffic : nullable Traffic.of_value "traffic" self.to_value = some self.traffic :=
    nullable_eq Traffic.to_value (by simp [to_value])
      (fun traffic _ => traffic.of_value_to_value) (fun _ => nofun)
  have hmetadata : required Metadata.of_value "metadata" self.to_value = some self.metadata :=
    required_eq (by simp [to_value]) (Metadata.of_value_to_value hsized.ingest_time)
  have hunmapped : nullable unmapped_of_value "unmapped" self.to_value = some self.unmapped :=
    nullable_eq unmapped_to_value (by simp [to_value])
      (fun unmapped _ => unmapped_of_value_to_value unmapped) (fun _ => nofun)
  simp [of_value, hactivity_id, hactivity_name, hcategory, hclass, htype, htime, hdisposition,
    hsrc, hdst, hinfo, htraffic, hmetadata, hunmapped]

/-- A well-formed event is read back from its text, with nothing lost. -/
theorem NetworkActivity.from_json_to_json {crates : Crates} (hcrates : crates.ReadsBack)
    {self : NetworkActivity} (h : self.WellFormed) (hsized : self.Sized) :
    from_json crates self.to_json = some self := by
  rw [from_json, to_json, String.toList_ofList, hcrates _ (written_to_value h hsized)]
  exact of_value_to_value h hsized

end

end ulpf_core.schema.ocsf
