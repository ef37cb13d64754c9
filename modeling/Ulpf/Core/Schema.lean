import Ulpf.Lib.Crates

namespace ulpf_core.schema.ocsf

def CATEGORY_UID_NETWORK_ACTIVITY : Nat := 4

def CLASS_UID_NETWORK_ACTIVITY : Nat := 4001

namespace activity_id

def OPEN : Nat := 1
def CLOSE : Nat := 2
def TRAFFIC_FLOW : Nat := 3
def OTHER : Nat := 99

end activity_id

namespace disposition

def ALLOWED : String := "Allowed"
def BLOCKED : String := "Blocked"
def DROPPED : String := "Dropped"
def UNKNOWN : String := "Unknown"

end disposition

def activity_name_from_id (id : Nat) : String :=
  if id = activity_id.OPEN then "Open"
  else if id = activity_id.CLOSE then "Close"
  else if id = activity_id.TRAFFIC_FLOW then "Traffic/Flow"
  else if id = activity_id.OTHER then "Other"
  else "Unknown"

def calculate_type_uid (class_uid activity_id : Nat) : Nat := class_uid * 100 + activity_id

structure Endpoint where
  ip : Option String := none
  port : Option Nat := none
  interface : Option String := none
  zone : Option String := none
  deriving DecidableEq

structure ConnectionInfo where
  protocol_num : Option Nat := none
  protocol_name : Option String := none
  direction : Option String := none
  deriving DecidableEq

structure Traffic where
  bytes_in : Option Nat
  bytes_out : Option Nat
  packets_in : Option Nat
  packets_out : Option Nat
  deriving DecidableEq

structure Product where
  vendor_name : String
  name : String
  version : Option String
  deriving DecidableEq

structure Metadata where
  product : Product
  raw_data : String
  raw_hash : String
  event_id : String
  ingest_time : Int
  deriving DecidableEq

/-- OCSF 1.3 Network Activity Event (Class UID 4001). -/
structure NetworkActivity where
  activity_id : Nat
  activity_name : String
  category_uid : Nat
  class_uid : Nat
  type_uid : Nat
  time : Int
  disposition : String
  src_endpoint : Endpoint
  dst_endpoint : Endpoint
  connection_info : ConnectionInfo
  traffic : Option Traffic
  metadata : Metadata
  unmapped : Option (HashMap String String)
  deriving DecidableEq

namespace NetworkActivity

def new (activity_id : Nat) (time : Int) (disposition : String)
    (src_endpoint dst_endpoint : Endpoint) (connection_info : ConnectionInfo)
    (traffic : Option Traffic) (metadata : Metadata) : NetworkActivity where
  activity_id
  activity_name := activity_name_from_id activity_id
  category_uid := CATEGORY_UID_NETWORK_ACTIVITY
  class_uid := CLASS_UID_NETWORK_ACTIVITY
  type_uid := calculate_type_uid CLASS_UID_NETWORK_ACTIVITY activity_id
  time
  disposition
  src_endpoint
  dst_endpoint
  connection_info
  traffic
  metadata
  unmapped := none

def with_unmapped (self : NetworkActivity) (unmapped : HashMap String String) : NetworkActivity :=
  if unmapped.entries.isEmpty then self else { self with unmapped := some unmapped }

/-- The unmapped field of a name. -/
def unmappedField (self : NetworkActivity) (key : String) : Option String :=
  self.unmapped.bind fun unmapped => unmapped.lookup key

theorem with_unmapped_eq (self : NetworkActivity) (unmapped : HashMap String String) :
    self.with_unmapped unmapped =
      { self with unmapped := if unmapped.entries.isEmpty then self.unmapped else some unmapped } := by
  rw [with_unmapped]
  split <;> rfl

end NetworkActivity

end ulpf_core.schema.ocsf
