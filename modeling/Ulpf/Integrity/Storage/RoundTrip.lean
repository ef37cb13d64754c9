import Ulpf.Lib.Hex
import Ulpf.Integrity.Storage

open Result
open ulpf_integrity.merkle

namespace ulpf_integrity.storage

/-- The text of a SHA-256 digest, in either case. -/
def IsDigestText (s : String) : Prop :=
  s.toList.length = 64 ∧ ∀ c ∈ s.toList, hex.isDigit c = true

/-- A record with its digest in lowercase. -/
def StoredLogRecord.canonical (self : StoredLogRecord) : StoredLogRecord :=
  { self with raw_hash := String.ofList (str.to_ascii_lowercase self.raw_hash.toList) }

section

variable {H : Type} [Digest H]

theorem raw_hash_bytes_eq_ok_iff {r : StoredLogRecord} {digest : H} :
    raw_hash_bytes r = .ok digest ↔ hex.decode r.raw_hash = some (Digest.to_bytes digest) := by
  unfold raw_hash_bytes
  split
  · rename_i hnone
    simp [hnone]
  · rename_i bytes hbytes
    have hof_bytes : Digest.of_bytes bytes = some digest ↔ Digest.to_bytes digest = bytes :=
      Digest.of_bytes_eq_some_iff
    rw [hbytes, Option.some.injEq, eq_comm (a := bytes), ← hof_bytes]
    split <;> simp_all

/-- A stored digest is read back in lowercase. -/
theorem to_hex_of_raw_hash_bytes {r : StoredLogRecord} {digest : H}
    (h : raw_hash_bytes r = .ok digest) : r.canonical.raw_hash = Hash.to_hex digest := by
  have hdecode := raw_hash_bytes_eq_ok_iff.mp h
  rw [Hash.to_hex, hex.encode, hex.encodeByte_of_decodeChars hdecode]
  rfl

theorem canonical_eq_self {r : StoredLogRecord} {digest : H}
    (h : r.raw_hash = Hash.to_hex digest) : r.canonical = r := by
  have hlower : String.ofList (str.to_ascii_lowercase r.raw_hash.toList) = r.raw_hash :=
    (to_hex_of_raw_hash_bytes (raw_hash_bytes_eq_ok h)).trans h.symm
  rw [StoredLogRecord.canonical, hlower]

theorem exists_raw_hash_bytes_iff (r : StoredLogRecord) :
    (∃ digest : Hash, raw_hash_bytes r = .ok digest) ↔ IsDigestText r.raw_hash := by
  rw [IsDigestText, ← hex.exists_decode_iff r.raw_hash 32]
  constructor
  · rintro ⟨digest, hdigest⟩
    exact ⟨digest.bytes, raw_hash_bytes_eq_ok_iff.mp hdigest, digest.length_eq⟩
  · rintro ⟨bytes, hbytes, hlength⟩
    exact ⟨⟨bytes, hlength⟩, raw_hash_bytes_eq_ok_iff.mpr hbytes⟩

/-- What a batch is made of, once it is made. -/
theorem records_to_batch_eq_ok {records : List StoredLogRecord} {batch : RecordBatch H}
    (h : records_to_batch records = ok (.ok batch)) :
    distinctVendors (records.map (·.vendor)) ≤ 128 ∧
      ∃ vendors raw_hashes, DictionaryArray.from_iter (records.map (·.vendor)) = ok vendors ∧
        List.Forall₂ (fun r digest => raw_hash_bytes r = .ok digest) records raw_hashes ∧
        batch.columns = log_columns records vendors raw_hashes ∧
        batch.num_rows = records.length := by
  unfold records_to_batch at h
  dsimp only at h
  split at h
  · cases h
  rename_i hdistinct
  obtain ⟨vendors, hvendors, h⟩ := bind_eq_ok_iff.mp h
  obtain ⟨raw_hashes, hcollect, h⟩ := and_then_eq_ok_iff.mp h
  split at h
  · cases h
  unfold RecordBatch.try_new at h
  split at h
  · cases h
    simp only [collect_eq_ok_iff, ok.injEq] at hcollect
    exact ⟨Nat.le_of_not_lt hdistinct, vendors, raw_hashes, hvendors, hcollect, rfl, rfl⟩
  · cases h

omit [Digest H] in
theorem log_columns_canonical (records : List StoredLogRecord) (vendors : DictionaryArray)
    (raw_hashes : List H) :
    log_columns (records.map StoredLogRecord.canonical) vendors raw_hashes =
      log_columns records vendors raw_hashes := by
  simp only [log_columns, List.map_map]
  rfl

/-- A batch reads back as its records, each with its digest in lowercase. -/
theorem batch_to_records_canonical {records : List StoredLogRecord} {batch : RecordBatch H}
    (h : records_to_batch records = ok (.ok batch)) :
    batch_to_records batch = ok (.ok (records.map StoredLogRecord.canonical)) := by
  obtain ⟨-, vendors, raw_hashes, hvendors, hhashes, hcolumns, hrows⟩ := records_to_batch_eq_ok h
  have htexts : (records.map StoredLogRecord.canonical).map (·.raw_hash) =
      raw_hashes.map Hash.to_hex := by
    rw [List.map_map]
    exact List.forall₂_eq_eq_eq ▸ List.forall₂_map_left_iff.mpr (List.forall₂_map_right_iff.mpr
      (hhashes.imp fun _ _ hdigest => to_hex_of_raw_hash_bytes hdigest))
  have hvendors' : DictionaryArray.from_iter
      ((records.map StoredLogRecord.canonical).map (·.vendor)) = ok vendors := by
    rw [List.map_map]
    exact hvendors
  exact batch_to_records_of_log_columns hvendors' htexts
    (hcolumns.trans (log_columns_canonical records vendors raw_hashes).symm)
    (by rw [hrows, List.length_map])

end

theorem exists_digests {records : List StoredLogRecord}
    (h : ∀ r ∈ records, IsDigestText r.raw_hash) :
    ∃ raw_hashes : List Hash,
      List.Forall₂ (fun r digest => raw_hash_bytes r = .ok digest) records raw_hashes := by
  induction records with
  | nil => exact ⟨[], .nil⟩
  | cons r records ih =>
    obtain ⟨hr, hrecords⟩ := List.forall_mem_cons.mp h
    obtain ⟨digest, hdigest⟩ := (exists_raw_hash_bytes_iff r).mpr hr
    obtain ⟨raw_hashes, hhashes⟩ := ih hrecords
    exact ⟨digest :: raw_hashes, .cons hdigest hhashes⟩

/-- Which records make a batch. -/
theorem exists_records_to_batch_iff {records : List StoredLogRecord} (hne : records ≠ []) :
    (∃ batch : RecordBatch Hash, records_to_batch records = ok (.ok batch)) ↔
      distinctVendors (records.map (·.vendor)) ≤ 128 ∧
        ∀ r ∈ records, IsDigestText r.raw_hash := by
  constructor
  · rintro ⟨batch, hbatch⟩
    obtain ⟨hdistinct, -, raw_hashes, -, hhashes, -⟩ := records_to_batch_eq_ok hbatch
    refine ⟨hdistinct, fun r hr => ?_⟩
    obtain ⟨i, hi⟩ := List.mem_iff_get.mp hr
    obtain ⟨hlength, hget⟩ := List.forall₂_iff_get.mp hhashes
    exact (exists_raw_hash_bytes_iff r).mp ⟨_, hi ▸ hget i i.isLt (hlength ▸ i.isLt)⟩
  · rintro ⟨hdistinct, htexts⟩
    obtain ⟨raw_hashes, hhashes⟩ := exists_digests htexts
    obtain ⟨-, batch, -, hbatch, -⟩ := records_to_batch_of_digests hne hdistinct hhashes
    exact ⟨batch, hbatch⟩

/-- The columns of a block that was written before the dictionary and the binary digests. -/
structure LegacyColumns where
  event_ids : List String
  block_ids : List Nat
  leaf_indices : List UInt32
  timestamps : List Int
  vendors : List String
  raw_logs : List String
  raw_hashes : List String
  ocsf_jsons : List String

def LegacyColumns.columns (self : LegacyColumns) : List (Column Hash) :=
  [.Utf8 self.event_ids, .UInt64 self.block_ids, .UInt32 self.leaf_indices, .Int64 self.timestamps,
    .Utf8 self.vendors, .Utf8 self.raw_logs, .Utf8 self.raw_hashes, .Utf8 self.ocsf_jsons]

/-- The columns of records. -/
def LegacyColumns.of (records : List StoredLogRecord) : LegacyColumns where
  event_ids := records.map (·.event_id)
  block_ids := records.map (·.block_id)
  leaf_indices := records.map (·.leaf_index)
  timestamps := records.map (·.timestamp)
  vendors := records.map (·.vendor)
  raw_logs := records.map (·.raw_log)
  raw_hashes := records.map (·.raw_hash)
  ocsf_jsons := records.map (·.ocsf_json)

theorem batch_to_records_of_legacy {records : List StoredLogRecord} {batch : RecordBatch Hash}
    (hcolumns : batch.columns = (LegacyColumns.of records).columns)
    (hrows : batch.num_rows = records.length) : batch_to_records batch = ok (.ok records) := by
  have hvendor_col : vendor_col batch = ok (.ok (.Plain (records.map (·.vendor)))) := by
    simp [vendor_col, RecordBatch.column, hcolumns, LegacyColumns.columns, LegacyColumns.of, value]
  have hhash_col : hash_col batch = ok (.ok (.Plain (records.map (·.raw_hash)))) := by
    simp [hash_col, RecordBatch.column, hcolumns, LegacyColumns.columns, LegacyColumns.of, value]
  refine batch_to_records_of_columns hcolumns hrows hvendor_col hhash_col (fun i hi => ?_)
    fun i hi => ?_
  · simp [vendor_at, hi]
  · simp [hash_at, hi]

theorem map_getD_range {α : Type} (values : List α) (default : α) {n : Nat}
    (hlength : values.length = n) : (List.range n).map (values.getD · default) = values := by
  subst hlength
  exact List.ext_getElem (by simp) fun i hi hi' => by simp [hi']

/-- Columns of one length are the columns of records. -/
theorem LegacyColumns.exists_of {self : LegacyColumns} {n : Nat}
    (h : ∀ column ∈ self.columns, column.len = n) :
    ∃ records : List StoredLogRecord, records.length = n ∧ LegacyColumns.of records = self := by
  simp only [columns, List.forall_mem_cons, Column.len] at h
  obtain ⟨hevent, hblock, hleaf, htime, hvendor, hlog, hhash, hjson, -⟩ := h
  refine ⟨(List.range n).map fun i =>
    { event_id := self.event_ids.getD i ""
      block_id := self.block_ids.getD i 0
      leaf_index := self.leaf_indices.getD i 0
      timestamp := self.timestamps.getD i 0
      vendor := self.vendors.getD i ""
      raw_log := self.raw_logs.getD i ""
      raw_hash := self.raw_hashes.getD i ""
      ocsf_json := self.ocsf_jsons.getD i "" }, by simp, ?_⟩
  simp only [LegacyColumns.of, List.map_map, Function.comp_def, map_getD_range _ _ hevent,
    map_getD_range _ _ hblock, map_getD_range _ _ hleaf, map_getD_range _ _ htime,
    map_getD_range _ _ hvendor, map_getD_range _ _ hlog, map_getD_range _ _ hhash,
    map_getD_range _ _ hjson]

/-- Records are stored if and only if their vendors fit the dictionary and their digests are digests,
    and are then read back as they were, digests in lowercase. What older blocks hold is read as it
    is. -/
theorem storage_lossless {records : List StoredLogRecord} (hne : records ≠ [])
    {legacy : RecordBatch Hash} {columns : LegacyColumns} (hlegacy : legacy.columns = columns.columns) :
    ((∃ batch : RecordBatch Hash, records_to_batch records = ok (.ok batch)) ↔
      distinctVendors (records.map (·.vendor)) ≤ 128 ∧
        ∀ r ∈ records, IsDigestText r.raw_hash) ∧
    (∀ batch : RecordBatch Hash, records_to_batch records = ok (.ok batch) →
      batch_to_records batch = ok (.ok (records.map StoredLogRecord.canonical))) ∧
    ∃ stored, batch_to_records legacy = ok (.ok stored) ∧ LegacyColumns.of stored = columns := by
  refine ⟨exists_records_to_batch_iff hne, fun batch => batch_to_records_canonical, ?_⟩
  obtain ⟨stored, hlength, rfl⟩ := LegacyColumns.exists_of (hlegacy ▸ legacy.len_eq)
  exact ⟨stored, batch_to_records_of_legacy hlegacy hlength.symm, rfl⟩

/-- A record whose digest is written in capitals. -/
def capitalRecord : StoredLogRecord where
  event_id := "evt-1"
  block_id := 1
  leaf_index := 0
  timestamp := 0
  vendor := "cisco"
  raw_log := "deny"
  raw_hash := String.ofList (List.replicate 64 'A')
  ocsf_json := "\x7b\x7d"

def capitalColumns : LegacyColumns := LegacyColumns.of [capitalRecord]

def capitalBatch : RecordBatch Hash where
  columns := capitalColumns.columns
  num_rows := 1
  len_eq := by decide

theorem storage_lossless_capitalRecord :
    [capitalRecord] ≠ [] ∧ (∃ batch : RecordBatch Hash,
      records_to_batch [capitalRecord] = ok (.ok batch) ∧
      batch_to_records batch = ok (.ok [capitalRecord.canonical])) ∧
    ∃ stored, batch_to_records capitalBatch = ok (.ok stored) ∧
      LegacyColumns.of stored = capitalColumns := by
  have hne : [capitalRecord] ≠ [] := by simp
  have hcolumns : capitalBatch.columns = capitalColumns.columns := rfl
  obtain ⟨hiff, hread, hstored⟩ := storage_lossless hne hcolumns
  have htext : IsDigestText capitalRecord.raw_hash := by
    have hchars : capitalRecord.raw_hash.toList = List.replicate 64 'A' := String.toList_ofList
    rw [IsDigestText, hchars]
    refine ⟨List.length_replicate, fun c hc => ?_⟩
    rw [List.eq_of_mem_replicate hc]
    decide
  obtain ⟨batch, hbatch⟩ := hiff.mpr ⟨by decide, by simpa using htext⟩
  exact ⟨hne, ⟨batch, hbatch, hread batch hbatch⟩, hstored⟩

end ulpf_integrity.storage
