import Ulpf.Lib.Slice
import Ulpf.Integrity.Hash

open Result
open ulpf_integrity.merkle

namespace ulpf_integrity.storage

/-- Canonical record stored in Arrow and Parquet blocks. -/
structure StoredLogRecord where
  event_id : String
  block_id : Nat
  leaf_index : UInt32
  timestamp : Int
  vendor : String
  raw_log : String
  raw_hash : String
  ocsf_json : String
  deriving DecidableEq, Repr

/-- An Arrow `DictionaryArray<Int8Type>` over strings. -/
structure DictionaryArray where
  keys : List Nat
  values : List String
  keys_in_range : ∀ key ∈ keys, key < values.length

/-- An Arrow array, as far as the reader tells the physical types apart. A
    `FixedSizeBinary(32)` array holds digests; every type the reader knows nothing
    about is kept as its debug name and length. -/
inductive Column (H : Type) where
  | Utf8 (values : List String)
  | UInt64 (values : List Nat)
  | UInt32 (values : List UInt32)
  | Int64 (values : List Int)
  | Dictionary (array : DictionaryArray)
  | DictionaryOfOtherKeys (length : Nat)
  | DictionaryOfOtherValues (length : Nat)
  | FixedSizeBinary (values : List H)
  | Other (data_type : String) (length : Nat)

variable {H : Type}

namespace Column

def len : Column H → Nat
  | Utf8 values => values.length
  | UInt64 values => values.length
  | UInt32 values => values.length
  | Int64 values => values.length
  | Dictionary array => array.keys.length
  | DictionaryOfOtherKeys length | DictionaryOfOtherValues length => length
  | FixedSizeBinary values => values.length
  | Other _ length => length

def data_type : Column H → String
  | Utf8 _ => "Utf8"
  | UInt64 _ => "UInt64"
  | UInt32 _ => "UInt32"
  | Int64 _ => "Int64"
  | Dictionary _ | DictionaryOfOtherKeys _ | DictionaryOfOtherValues _ => "Dictionary"
  | FixedSizeBinary _ => "FixedSizeBinary(32)"
  | Other data_type _ => data_type

end Column

/-- An Arrow batch: columns of one length. -/
structure RecordBatch (H : Type) where
  columns : List (Column H)
  num_rows : Nat
  len_eq : ∀ column ∈ columns, column.len = num_rows

def RecordBatch.try_new (columns : List (Column H)) (num_rows : Nat) :
    Except String (RecordBatch H) :=
  if h : ∀ column ∈ columns, column.len = num_rows then .ok ⟨columns, num_rows, h⟩
  else .error "Failed to construct Arrow RecordBatch"

/-- Collecting an iterator of strings: a value gets its key when it is first seen.
    The key builder panics on the key it can no longer express as an `i8`. -/
def DictionaryArray.from_iter (strings : List String) : Result DictionaryArray :=
  if strings.eraseDups.length > 128 then panic
  else
    ok {
      keys := strings.map strings.eraseDups.idxOf
      values := strings.eraseDups
      keys_in_range := by
        intro key hkey
        obtain ⟨string, hstring, rfl⟩ := List.mem_map.mp hkey
        exact List.idxOf_lt_length_iff.mpr (List.mem_eraseDups.mpr hstring) }

/-- The number of distinct vendors of a block. -/
def distinctVendors (vendors : List String) : Nat := vendors.eraseDups.length

theorem distinctVendors_of_nodup {vendors : List String} (hnodup : vendors.Nodup) :
    distinctVendors vendors = vendors.length := by
  unfold distinctVendors
  induction vendors with
  | nil => simp
  | cons vendor vendors ih =>
    obtain ⟨hvendor, hnodup⟩ := List.nodup_cons.mp hnodup
    have hfilter : (vendors.filter fun other => !other == vendor) = vendors := by
      rw [List.filter_eq_self]
      intro other hother
      simp only [Bool.not_eq_true', beq_eq_false_iff_ne]
      rintro rfl
      exact hvendor hother
    rw [List.eraseDups_cons, hfilter, List.length_cons, ih hnodup, List.length_cons]

theorem distinctVendors_le_length (vendors : List String) :
    distinctVendors vendors ≤ vendors.length := by
  unfold distinctVendors
  induction hlength : vendors.length using Nat.strong_induction_on generalizing vendors with
  | _ n ih =>
    subst hlength
    cases vendors with
    | nil => simp
    | cons vendor vendors =>
      have hfilter := List.length_filter_le (fun other => !other == vendor) vendors
      have hrest := ih _ (by rw [List.length_cons]; omega)
        (vendors.filter fun other => !other == vendor) rfl
      rw [List.eraseDups_cons, List.length_cons, List.length_cons]
      omega

variable [Digest H]

/-- The bytes behind the hex text of one row's `raw_hash`. -/
def raw_hash_bytes (r : StoredLogRecord) : Except String H :=
  match hex.decode r.raw_hash with
  | none => .error s!"raw_hash for event {r.event_id} is not valid hex"
  | some bytes =>
    match Digest.of_bytes bytes with
    | none => .error s!"raw_hash for event {r.event_id} decodes to {bytes.length} bytes, expected 32 (SHA-256)"
    | some digest => .ok digest

/-- The columns of `log_schema`. -/
def log_columns (records : List StoredLogRecord) (vendors : DictionaryArray)
    (raw_hashes : List H) : List (Column H) :=
  [.Utf8 (records.map (·.event_id)), .UInt64 (records.map (·.block_id)),
    .UInt32 (records.map (·.leaf_index)), .Int64 (records.map (·.timestamp)), .Dictionary vendors,
    .Utf8 (records.map (·.raw_log)), .FixedSizeBinary raw_hashes, .Utf8 (records.map (·.ocsf_json))]

def records_to_batch (records : List StoredLogRecord) : Result (Except String (RecordBatch H)) := do
  let distinct := distinctVendors (records.map (·.vendor))
  if distinct > 128 then
    return .error s!"Too many distinct vendor values for Dictionary(Int8) block: {distinct} > 128 — split the block"
  let vendors ← DictionaryArray.from_iter (records.map (·.vendor))
  (collect (fun r => ok (raw_hash_bytes r)) records).and_then fun raw_hashes =>
    -- `try_from_iter` takes the value width from the first item and has none here
    if raw_hashes.isEmpty then ok (.error "Failed to build FixedSizeBinary(32) raw_hash column")
    else ok (RecordBatch.try_new (log_columns records vendors raw_hashes) records.length)

/-- `arr.value(i)`. -/
def value {α : Type} (values : List α) (i : Nat) : Result α :=
  match values[i]? with
  | some v => ok v
  | none => panic

namespace RecordBatch

def column (batch : RecordBatch H) (col : Nat) : Result (Column H) := value batch.columns col

def get_str (batch : RecordBatch H) (col : Nat) (name : String) :
    Result (Except String (List String)) := do
  match ← batch.column col with
  | .Utf8 values => ok (.ok values)
  | _ => ok (.error s!"Column {col} ({name}) is not a Utf8 StringArray")

def get_uint64 (batch : RecordBatch H) (col : Nat) (name : String) :
    Result (Except String (List Nat)) := do
  match ← batch.column col with
  | .UInt64 values => ok (.ok values)
  | _ => ok (.error s!"Column {col} ({name}) is not a UInt64Array")

def get_uint32 (batch : RecordBatch H) (col : Nat) (name : String) :
    Result (Except String (List UInt32)) := do
  match ← batch.column col with
  | .UInt32 values => ok (.ok values)
  | _ => ok (.error s!"Column {col} ({name}) is not a UInt32Array")

def get_int64 (batch : RecordBatch H) (col : Nat) (name : String) :
    Result (Except String (List Int)) := do
  match ← batch.column col with
  | .Int64 values => ok (.ok values)
  | _ => ok (.error s!"Column {col} ({name}) is not an Int64Array")

end RecordBatch

/-- The vendor column after sniffing: legacy `Utf8`, a dictionary over `Utf8`, or
    a dictionary over other values, which only fails once a row is read. -/
inductive VendorCol where
  | Plain (values : List String)
  | Dict (array : DictionaryArray)
  | DictOfOtherValues

inductive HashCol (H : Type) where
  | Plain (values : List String)
  | Binary (values : List H)

def vendor_col (batch : RecordBatch H) : Result (Except String VendorCol) := do
  match ← batch.column 4 with
  | .Utf8 values => ok (.ok (.Plain values))
  | .Dictionary array => ok (.ok (.Dict array))
  | .DictionaryOfOtherValues _ => ok (.ok .DictOfOtherValues)
  | .DictionaryOfOtherKeys _ => ok (.error "Column 4 (vendor) dictionary does not use Int8 keys")
  | other => ok (.error s!"Column 4 (vendor) has unexpected type {other.data_type}")

def hash_col (batch : RecordBatch H) : Result (Except String (HashCol H)) := do
  match ← batch.column 6 with
  | .Utf8 values => ok (.ok (.Plain values))
  | .FixedSizeBinary values => ok (.ok (.Binary values))
  | other => ok (.error s!"Column 6 (raw_hash) has unexpected type {other.data_type}")

def vendor_at (vendors : VendorCol) (i : Nat) : Result (Except String String) :=
  match vendors with
  | .Plain values => do
    let vendor ← value values i
    ok (.ok vendor)
  | .Dict array => do
    let key ← value array.keys i
    let vendor ← value array.values key
    ok (.ok vendor)
  | .DictOfOtherValues => ok (.error "Column 4 (vendor) dictionary values are not Utf8")

def hash_at (raw_hashes : HashCol H) (i : Nat) : Result String :=
  match raw_hashes with
  | .Plain values => value values i
  | .Binary values => do
    let digest ← value values i
    ok (Hash.to_hex digest)

/-- The columns of a batch once their physical types are known. -/
structure LogColumns (H : Type) where
  event_ids : List String
  block_ids : List Nat
  leaf_indices : List UInt32
  timestamps : List Int
  raw_logs : List String
  ocsf_jsons : List String
  vendors : VendorCol
  raw_hashes : HashCol H

def LogColumns.row (columns : LogColumns H) (i : Nat) : Result (Except String StoredLogRecord) := do
  let event_id ← value columns.event_ids i
  let block_id ← value columns.block_ids i
  let leaf_index ← value columns.leaf_indices i
  let timestamp ← value columns.timestamps i
  (vendor_at columns.vendors i).and_then fun vendor => do
    let raw_log ← value columns.raw_logs i
    let raw_hash ← hash_at columns.raw_hashes i
    let ocsf_json ← value columns.ocsf_jsons i
    ok (.ok { event_id, block_id, leaf_index, timestamp, vendor, raw_log, raw_hash, ocsf_json })

/-- Converts an Arrow batch into records, sniffing the physical type of the
    columns that older blocks store as plain text. -/
def batch_to_records (batch : RecordBatch H) : Result (Except String (List StoredLogRecord)) :=
  (batch.get_str 0 "event_id").and_then fun event_ids =>
  (batch.get_uint64 1 "block_id").and_then fun block_ids =>
  (batch.get_uint32 2 "leaf_index").and_then fun leaf_indices =>
  (batch.get_int64 3 "timestamp").and_then fun timestamps =>
  (batch.get_str 5 "raw_log").and_then fun raw_logs =>
  (batch.get_str 7 "ocsf_json").and_then fun ocsf_jsons =>
  (vendor_col batch).and_then fun vendors =>
  (hash_col batch).and_then fun raw_hashes =>
  let columns := LogColumns.mk event_ids block_ids leaf_indices timestamps raw_logs ocsf_jsons
    vendors raw_hashes
  collect columns.row (List.range batch.num_rows)

/-- A file in the storage directory. The reader hands the rows of a Parquet file
    back in batches; what is no Parquet file makes it fail. That the batches which
    the `parquet` crate has written are those that it reads is taken from the crate,
    also where all 128 keys of the vendor column are in use. -/
inductive ParquetFile (H : Type) where
  | Parquet (batches : List (RecordBatch H))
  | Garbage

/-- Reads all records of the file at `path`, which is absent or has the given
    content. -/
def read_parquet_file (path : String) (file : Option (ParquetFile H)) :
    Result (Except String (List StoredLogRecord)) :=
  match file with
  | none => ok (.error s!"Failed to open Parquet file at {str.debug path}")
  | some .Garbage => ok (.error "Failed to create ParquetRecordBatchReaderBuilder")
  | some (.Parquet batches) =>
    (collect batch_to_records batches).and_then fun records => ok (.ok records.flatten)

@[simp] theorem value_map {α β : Type} (f : α → β) (xs : List α) (i : Nat) (hi : i < xs.length) :
    value (xs.map f) i = ok (f xs[i]) := by
  simp [value, hi]

/-- Writing and reading a dictionary-encoded vendor gives the vendor back. -/
theorem vendor_at_from_iter {strings : List String} {array : DictionaryArray} {i : Nat}
    (hi : i < strings.length) (harray : DictionaryArray.from_iter strings = ok array) :
    vendor_at (.Dict array) i = ok (.ok strings[i]) := by
  unfold DictionaryArray.from_iter at harray
  split at harray
  · cases harray
  · cases harray
    have hmem : strings[i] ∈ strings.eraseDups := List.mem_eraseDups.mpr (List.getElem_mem hi)
    have hlookup : strings.eraseDups[strings.eraseDups.idxOf strings[i]]? = some strings[i] := by
      rw [List.getElem?_eq_getElem (List.idxOf_lt_length_iff.mpr hmem), List.getElem_idxOf]
    simp [vendor_at, hi, value, hlookup]

theorem hash_at_map_to_hex {records : List StoredLogRecord} {raw_hashes : List H}
    (hhashes : records.map (·.raw_hash) = raw_hashes.map Hash.to_hex) {i : Nat}
    (hi : i < records.length) : hash_at (.Binary raw_hashes) i = ok records[i].raw_hash := by
  have hlength : records.length = raw_hashes.length := by
    simpa using congrArg List.length hhashes
  have hi' : i < raw_hashes.length := hlength ▸ hi
  have hrow : records[i].raw_hash = Hash.to_hex raw_hashes[i] := by
    have hget := congrArg (·[i]?) hhashes
    simpa [hi, hi'] using hget
  simp [hash_at, value, hrow, hi']

/-- A batch reads as some records if its plain columns are theirs, and the columns whose type is
    sniffed read as theirs in every row. -/
theorem batch_to_records_of_columns {records : List StoredLogRecord} {batch : RecordBatch H}
    {vendor hash : Column H} {vendors : VendorCol} {raw_hashes : HashCol H}
    (hcolumns : batch.columns = [.Utf8 (records.map (·.event_id)), .UInt64 (records.map (·.block_id)),
      .UInt32 (records.map (·.leaf_index)), .Int64 (records.map (·.timestamp)), vendor,
      .Utf8 (records.map (·.raw_log)), hash, .Utf8 (records.map (·.ocsf_json))])
    (hrows : batch.num_rows = records.length)
    (hvendors : vendor_col batch = ok (.ok vendors)) (hhashes : hash_col batch = ok (.ok raw_hashes))
    (hvendor : ∀ i (hi : i < records.length), vendor_at vendors i = ok (.ok records[i].vendor))
    (hhash : ∀ i (hi : i < records.length), hash_at raw_hashes i = ok records[i].raw_hash) :
    batch_to_records batch = ok (.ok records) := by
  simp only [batch_to_records, hvendors, hhashes, RecordBatch.get_str, RecordBatch.get_uint64,
    RecordBatch.get_uint32, RecordBatch.get_int64, RecordBatch.column, hcolumns, value,
    List.getElem?_cons_zero, List.getElem?_cons_succ, bind_ok, and_then_ok, hrows]
  apply collect_range_eq_ok
  intro i hi
  simp [LogColumns.row, hi, hvendor, hhash]

/-- A batch built from the columns of some records reads back as these records. -/
theorem batch_to_records_of_log_columns {records : List StoredLogRecord} {vendors : DictionaryArray}
    {raw_hashes : List H} {batch : RecordBatch H}
    (hvendors : DictionaryArray.from_iter (records.map (·.vendor)) = ok vendors)
    (hhashes : records.map (·.raw_hash) = raw_hashes.map Hash.to_hex)
    (hcolumns : batch.columns = log_columns records vendors raw_hashes)
    (hrows : batch.num_rows = records.length) :
    batch_to_records batch = ok (.ok records) := by
  have hvendor_col : vendor_col batch = ok (.ok (.Dict vendors)) := by
    simp [vendor_col, RecordBatch.column, hcolumns, log_columns, value]
  have hhash_col : hash_col batch = ok (.ok (.Binary raw_hashes)) := by
    simp [hash_col, RecordBatch.column, hcolumns, log_columns, value]
  refine batch_to_records_of_columns hcolumns hrows hvendor_col hhash_col (fun i hi => ?_)
    fun i hi => hash_at_map_to_hex hhashes hi
  have hvendor := vendor_at_from_iter (i := i) (by simpa using hi) hvendors
  rwa [List.getElem_map] at hvendor

theorem raw_hash_bytes_eq_ok {r : StoredLogRecord} {digest : H}
    (hhash : r.raw_hash = Hash.to_hex digest) : raw_hash_bytes r = .ok digest := by
  simp [raw_hash_bytes, hhash, Hash.to_hex]

/-- Records whose `raw_hash` decodes to a digest make a batch as soon as there is one and the
    vendors fit the dictionary. -/
theorem records_to_batch_of_digests {records : List StoredLogRecord} {raw_hashes : List H}
    (hne : records ≠ []) (hdistinct : distinctVendors (records.map (·.vendor)) ≤ 128)
    (hhashes : List.Forall₂ (fun r digest => raw_hash_bytes r = .ok digest) records raw_hashes) :
    ∃ vendors, ∃ batch : RecordBatch H,
      DictionaryArray.from_iter (records.map (·.vendor)) = ok vendors ∧
      records_to_batch records = ok (.ok batch) ∧
      batch.columns = log_columns records vendors raw_hashes ∧
      batch.num_rows = records.length := by
  have hlength := hhashes.length_eq
  obtain ⟨vendors, hvendors⟩ : ∃ vendors,
      DictionaryArray.from_iter (records.map (·.vendor)) = ok vendors := by
    unfold DictionaryArray.from_iter
    rw [if_neg (by simpa [distinctVendors] using hdistinct)]
    exact ⟨_, rfl⟩
  have hdecoded : collect (fun r => ok (raw_hash_bytes r)) records = ok (.ok raw_hashes) := by
    rw [collect_eq_ok_iff]
    exact hhashes.imp fun _ _ hdigest => congrArg ok hdigest
  have hkeys : vendors.keys.length = records.length := by
    unfold DictionaryArray.from_iter at hvendors
    split at hvendors
    · cases hvendors
    · cases hvendors
      simp
  have hcolumns : ∀ column ∈ log_columns records vendors raw_hashes,
      column.len = records.length := by
    simp [log_columns, Column.len, hkeys, hlength]
  refine ⟨vendors, ⟨_, _, hcolumns⟩, hvendors, ?_, rfl, rfl⟩
  have hnonempty : raw_hashes ≠ [] := by
    rintro rfl
    exact hne (List.length_eq_zero_iff.mp hlength)
  have hfits : ¬ 128 < distinctVendors (records.map (·.vendor)) := by omega
  simp only [records_to_batch, hfits, ↓reduceIte, hvendors, bind_ok, hdecoded,
    and_then_ok, List.isEmpty_iff, hnonempty, RecordBatch.try_new, dif_pos hcolumns]

/-- Where that `raw_hash` is the text of the digest, the batch holds the records as they are. -/
theorem records_to_batch_ok {records : List StoredLogRecord} {raw_hashes : List H}
    (hne : records ≠ []) (hdistinct : distinctVendors (records.map (·.vendor)) ≤ 128)
    (hhashes : records.map (·.raw_hash) = raw_hashes.map Hash.to_hex) :
    ∃ batch : RecordBatch H, records_to_batch records = ok (.ok batch) ∧
      batch_to_records batch = ok (.ok records) := by
  have hdecoded : List.Forall₂ (fun r digest => raw_hash_bytes r = .ok digest) records
      raw_hashes := by
    rw [List.forall₂_iff_get]
    refine ⟨by simpa using congrArg List.length hhashes, fun i hi hi' => ?_⟩
    have hget := congrArg (·[i]?) hhashes
    exact raw_hash_bytes_eq_ok (by simpa [hi, hi'] using hget)
  obtain ⟨vendors, batch, hvendors, hbatch, hcolumns, hrows⟩ :=
    records_to_batch_of_digests hne hdistinct hdecoded
  exact ⟨batch, hbatch, batch_to_records_of_log_columns hvendors hhashes hcolumns hrows⟩

/-- A batch that was built reads back as the records it was built from. -/
theorem batch_to_records_of_records_to_batch {records : List StoredLogRecord} {raw_hashes : List H}
    {batch : RecordBatch H} (hne : records ≠ [])
    (hhashes : records.map (·.raw_hash) = raw_hashes.map Hash.to_hex)
    (hbatch : records_to_batch records = ok (.ok batch)) :
    batch_to_records batch = ok (.ok records) := by
  by_cases hdistinct : distinctVendors (records.map (·.vendor)) ≤ 128
  · obtain ⟨actual, hactual, hread⟩ := records_to_batch_ok hne hdistinct hhashes
    rw [hbatch] at hactual
    cases hactual
    exact hread
  · simp [records_to_batch, Nat.lt_of_not_le hdistinct] at hbatch

end ulpf_integrity.storage
