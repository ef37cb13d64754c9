import Ulpf.Integrity.Tamper.Block

open Result
open ulpf_integrity.merkle ulpf_integrity.storage ulpf_integrity.batcher

namespace ulpf_integrity.tamper

section

variable (H : Type) [Digest H]

/-- The block a file is taken for: the one its first record names, or the one the
    file name has where there is no record. -/
def target_block_id (records : List StoredLogRecord) (name : String) : Nat :=
  match records.head? with
  | some first => first.block_id
  | none =>
    (( str.strip_prefix "block_".toList (str.file_stem name.toList)).bind (str.parse_uint 64)).getD 0

/-- Verifies a block file by automatically finding its entry in the ledger. -/
def verify_block_with_ledger (reader : JsonReader) (disk : Disk H) (dir name ledger_path : String) :
    Result (Except String TamperReport) :=
  (read_parquet_file (path_join dir name) (disk.storage_dir name)).and_then fun records =>
  (ok (load_ledger_entries reader ledger_path disk.ledger)).and_then fun ledger_entries =>
    let block_id := target_block_id records name
    match ledger_entries.find? (·.block_id = block_id) with
    | none =>
      ok (.error
        s!"No corresponding ledger entry found for block ID {block_id} in {str.debug ledger_path}")
    | some entry => do
      let report ← verify_records H records entry
      ok (.ok report)

/-- The entry is the one that a flush made for these logs. -/
def CreatedByFlush (entry : LedgerEntry) (logs : List String) : Prop :=
  ∃ (io : Io) (env : Env) (self self' : BatchAccumulator) (disk disk' : Disk H)
    (flushed : BlockFlushResult H),
    self.buffer.map (·.raw_log) = logs ∧
    self.flush H io env disk = ok (.ok (some flushed), self', disk') ∧
    self'.in_memory_ledger.getLast? = some entry

/-- The file named `name` can be read, and its raw logs are the given ones. -/
def FileHolds (disk : Disk H) (name : String) (logs : List String) : Prop :=
  ∃ records, (∀ path, read_parquet_file path (disk.storage_dir name) = ok (.ok records)) ∧
    records.map (·.raw_log) = logs

/-- The file named `name` holds an intact copy of the block of `entry`, which was
    flushed with the given logs. -/
def HoldsCopyOf (disk : Disk H) (name : String) (entry : LedgerEntry) (logs : List String) : Prop :=
  ∃ records, (∀ path, read_parquet_file path (disk.storage_dir name) = ok (.ok records)) ∧
    HoldsLogs H logs records ∧ records.head?.map (·.block_id) = some entry.block_id

end

variable {H : Type} [Digest H]

theorem CreatedByFlush.spec {entry : LedgerEntry} {logs : List String}
    (hcreated : CreatedByFlush H entry logs) :
    logs ≠ [] ∧ entry.leaf_count = logs.length ∧ entry.merkle_root = rootOf H logs := by
  obtain ⟨io, env, self, self', disk, disk', flushed, rfl, hflush, hentry⟩ := hcreated
  obtain ⟨hflushed, rfl⟩ := entry_of_flush hflush hentry
  exact ⟨by simpa using hflushed.buffer_ne, by simp [BatchAccumulator.blockEntry], rfl⟩

/-- Reading depends on the path only in the text of an error. -/
theorem read_parquet_file_path {file : Option (ParquetFile H)} {records : List StoredLogRecord}
    {path : String} (hread : read_parquet_file path file = ok (.ok records)) (path' : String) :
    read_parquet_file path' file = ok (.ok records) := by
  cases file with
  | none => cases hread
  | some file => cases file <;> exact hread

/-- The entry that the lookup finds in a ledger with distinct block ids. -/
theorem find?_block_id_eq {entries : List LedgerEntry} {entry : LedgerEntry}
    (hdistinct : (entries.map (·.block_id)).Nodup) (hmem : entry ∈ entries) :
    entries.find? (·.block_id = entry.block_id) = some entry := by
  cases hfind : entries.find? (·.block_id = entry.block_id) with
  | none => exact absurd (List.find?_eq_none.mp hfind entry hmem) (by simp)
  | some found =>
    have hid : found.block_id = entry.block_id := by simpa using List.find?_some hfind
    rw [List.inj_on_of_nodup_map hdistinct (List.mem_of_find?_eq_some hfind) hmem hid]

/-- What a report on a block file is about. -/
theorem verify_block_with_ledger_eq_ok_iff {reader : JsonReader} {disk : Disk H}
    {dir name ledger_path : String} {report : TamperReport} :
    verify_block_with_ledger H reader disk dir name ledger_path = ok (.ok report) ↔
    ∃ records entries entry,
      read_parquet_file (path_join dir name) (disk.storage_dir name) = ok (.ok records) ∧
      load_ledger_entries reader ledger_path disk.ledger = .ok entries ∧
      entries.find? (·.block_id = target_block_id records name) = some entry ∧
      verify_records H records entry = ok report := by
  constructor
  · intro h
    obtain ⟨records, hread, h⟩ := and_then_eq_ok_iff.mp h
    obtain ⟨entries, hload, h⟩ := and_then_eq_ok_iff.mp h
    dsimp only at h
    split at h
    · cases h
    rename_i entry hfind
    obtain ⟨actual, hactual, h⟩ := bind_eq_ok_iff.mp h
    cases h
    exact ⟨records, entries, entry, hread, ok.inj hload, hfind, hactual⟩
  · rintro ⟨records, entries, entry, hread, hload, hfind, hreport⟩
    rw [verify_block_with_ledger, hread, and_then_ok, hload, and_then_ok]
    simp only [hfind, hreport, bind_ok]

/-- A block file verifies against the ledger exactly if it is an intact copy of some
    block of the ledger, whichever block the file is named for. -/
theorem verify_block_with_ledger_valid_iff [DomainSeparated H] {reader : JsonReader} {disk : Disk H}
    {ledger_path : String} {history : List (LedgerEntry × List String)}
    (hledger : load_ledger_entries reader ledger_path disk.ledger = .ok (history.map (·.1)))
    (hcreated : ∀ block ∈ history, CreatedByFlush H block.1 block.2)
    (hdistinct : (history.map (·.1.block_id)).Nodup) (dir name : String) :
    (∃ report, verify_block_with_ledger H reader disk dir name ledger_path = ok (.ok report) ∧
      report.is_valid = true) ↔
    ∃ block ∈ history, HoldsCopyOf H disk name block.1 block.2 := by
  have hids : ((history.map (·.1)).map (·.block_id)).Nodup := by
    rw [List.map_map]
    exact hdistinct
  constructor
  · rintro ⟨report, hverify, hvalid⟩
    obtain ⟨records, entries, entry, hread, hload, hfind, hreport⟩ :=
      verify_block_with_ledger_eq_ok_iff.mp hverify
    rw [hledger] at hload
    cases hload
    obtain ⟨block, hblock, rfl⟩ := List.mem_map.mp (List.mem_of_find?_eq_some hfind)
    have hid : block.1.block_id = target_block_id records name := by
      simpa using List.find?_some hfind
    obtain ⟨hne, hcount, hroot⟩ := (hcreated block hblock).spec
    have hholds := holdsLogs_of_is_valid hcount hroot hreport hvalid
    refine ⟨block, hblock, records, read_parquet_file_path hread, hholds, ?_⟩
    cases records with
    | nil => exact absurd hholds.raw_log_eq.symm hne
    | cons first rest => rw [hid]; rfl
  · rintro ⟨block, hblock, records, hread, hholds, hfirst⟩
    obtain ⟨-, hcount, hroot⟩ := (hcreated block hblock).spec
    obtain ⟨report, hreport, hvalid⟩ := is_valid_of_holdsLogs hcount hroot hholds
    have htarget : target_block_id records name = block.1.block_id := by
      cases records with
      | nil => cases hfirst
      | cons first rest => exact Option.some_injective _ hfirst
    have hfind := find?_block_id_eq hids (List.mem_map_of_mem hblock)
    rw [← htarget] at hfind
    exact ⟨report, verify_block_with_ledger_eq_ok_iff.mpr
      ⟨records, _, block.1, hread _, hledger, hfind, hreport⟩, hvalid⟩

/-- The file of a block that verifies has the logs of this block unless it is an
    intact copy of a block with other logs. -/
theorem fileHolds_of_copy_iff {disk : Disk H} {name : String} {logs : List String}
    {history : List (LedgerEntry × List String)} :
    ((∃ block ∈ history, HoldsCopyOf H disk name block.1 block.2) → FileHolds H disk name logs) ↔
      ∀ other ∈ history, other.2 ≠ logs → ¬ HoldsCopyOf H disk name other.1 other.2 := by
  constructor
  · intro hfile other hother hne hcopy
    obtain ⟨records, hread, hlogs⟩ := hfile ⟨other, hother, hcopy⟩
    obtain ⟨copied, hcopied, hholds, -⟩ := hcopy
    have hsame := (hread "").symm.trans (hcopied "")
    cases hsame
    exact hne (hholds.raw_log_eq.symm.trans hlogs)
  · rintro hforeign ⟨block, hblock, hcopy⟩
    by_cases hsame : block.2 = logs
    · obtain ⟨records, hread, hholds, -⟩ := hcopy
      exact ⟨records, hread, hholds.raw_log_eq.trans hsame⟩
    · exact absurd hcopy (hforeign block hblock hsame)

/-- Any non-empty buffer whose vendors fit the dictionary column can be flushed. -/
theorem createdByFlush_blockEntry (self : BatchAccumulator) (env : Env) (hne : self.buffer ≠ [])
    (hvendors : distinctVendors (self.buffer.map (·.vendor)) ≤ 128) :
    CreatedByFlush H (self.blockEntry H env) (self.buffer.map (·.raw_log)) := by
  obtain ⟨result, self', disk', hflush⟩ := self.flush_ok env (Disk.empty H) hvendors
  obtain ⟨hempty, -⟩ | ⟨flushed, rfl, hflushed⟩ := BatchAccumulator.flush_of_ok hflush
  · exact absurd hempty hne
  · refine ⟨Io.reliable, env, self, self', Disk.empty H, disk', flushed, rfl, hflush, ?_⟩
    rw [hflushed.batcher_eq, List.getLast?_concat]

end ulpf_integrity.tamper
