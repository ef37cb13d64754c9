import Ulpf.Integrity.Batcher.Flush

open Result
open ulpf_integrity.merkle ulpf_integrity.storage ulpf_integrity.batcher

namespace ulpf_integrity.tamper

variable {H : Type} [Digest H]

/-- Row by row, what it means that a block holds some logs. -/
theorem holdsLogs_iff {logs : List String} {records : List StoredLogRecord} :
    HoldsLogs H logs records ↔ records.length = logs.length ∧
      ∀ i (hi : i < records.length) (hlog : i < logs.length), records[i].raw_log = logs[i] ∧
        records[i].leaf_index = UInt32.ofNat i ∧
        records[i].raw_hash = digest_hex H records[i].raw_log.as_bytes := by
  constructor
  · rintro ⟨rfl, hintact⟩
    refine ⟨by simp, fun i hi _ => ⟨by simp, ?_⟩⟩
    simpa [RowIntact] using List.forall_mem_zipIdx.mp hintact i hi
  · rintro ⟨hlength, hrows⟩
    refine ⟨List.ext_getElem (by simpa using hlength) fun i hi hlog => ?_,
      List.forall_mem_zipIdx.mpr fun i hi => ?_⟩
    · rw [List.length_map] at hi
      simpa using (hrows i hi hlog).1
    · simpa [RowIntact] using (hrows i hi (hlength ▸ hi)).2

/-- Two lists of records that hold the same logs agree in the raw log, the leaf index
    and the raw hash of every row, and the other columns are free. -/
theorem holdsLogs_iff_agree {logs : List String} {written records : List StoredLogRecord}
    (hwritten : HoldsLogs H logs written) :
    HoldsLogs H logs records ↔ records.length = written.length ∧
      ∀ i (hi : i < records.length) (hw : i < written.length),
        records[i].raw_log = written[i].raw_log ∧ records[i].leaf_index = written[i].leaf_index ∧
        records[i].raw_hash = written[i].raw_hash := by
  obtain ⟨hlength, hrows⟩ := holdsLogs_iff.mp hwritten
  rw [holdsLogs_iff]
  constructor
  · rintro ⟨hrecordsLength, hrecords⟩
    refine ⟨hrecordsLength.trans hlength.symm, fun i hi hw => ?_⟩
    obtain ⟨hlog, hindex, hhash⟩ := hrows i hw (hlength ▸ hw)
    obtain ⟨hlog', hindex', hhash'⟩ := hrecords i hi (hlength ▸ hw)
    refine ⟨hlog'.trans hlog.symm, hindex'.trans hindex.symm, ?_⟩
    rw [hhash', hhash, hlog', hlog]
  · rintro ⟨hagreeLength, hagree⟩
    refine ⟨hagreeLength.trans hlength, fun i hi hl => ?_⟩
    obtain ⟨hlog, hindex, hhash⟩ := hrows i (hagreeLength ▸ hi) hl
    obtain ⟨hlog', hindex', hhash'⟩ := hagree i hi (hagreeLength ▸ hi)
    refine ⟨hlog'.trans hlog, hindex'.trans hindex, ?_⟩
    rw [hhash', hhash, hlog']

/-- The entry a flush appends is about the logs it took from the buffer. -/
theorem entry_of_flush {io : Io} {env : Env} {self self' : BatchAccumulator} {disk disk' : Disk H}
    {flushed : BlockFlushResult H} {entry : LedgerEntry}
    (hflush : self.flush H io env disk = ok (.ok (some flushed), self', disk'))
    (hentry : self'.in_memory_ledger.getLast? = some entry) :
    self.Flushed H env disk flushed self' disk' ∧ entry = self.blockEntry H env := by
  obtain ⟨-, hnone, -⟩ | ⟨result, hsome, hflushed⟩ := BatchAccumulator.flush_of_ok hflush
  · cases hnone
  · cases hsome
    rw [hflushed.batcher_eq, List.getLast?_concat] at hentry
    exact ⟨hflushed, (Option.some_injective _ hentry).symm⟩

/-- Tamper verification is sound and complete on raw logs: against the ledger entry
    of a flush, a list of records is valid exactly if it has the flushed logs in
    their order, each with its position and digest. The rows that fail a check are
    reported one by one. -/
theorem verify_records_is_valid_iff [DomainSeparated H] {io : Io} {env : Env}
    {self self' : BatchAccumulator} {disk disk' : Disk H} {flushed : BlockFlushResult H}
    {entry : LedgerEntry} {logs : List String}
    (hlogs : self.buffer.map (·.raw_log) = logs)
    (hflush : self.flush H io env disk = ok (.ok (some flushed), self', disk'))
    (hentry : self'.in_memory_ledger.getLast? = some entry) (records : List StoredLogRecord) :
    ∃ report, verify_records H records entry = ok report ∧
      (report.is_valid = true ↔ records.length = logs.length ∧
        ∀ i (hi : i < records.length) (hlog : i < logs.length), records[i].raw_log = logs[i] ∧
          records[i].leaf_index = UInt32.ofNat i ∧
          records[i].raw_hash = digest_hex H records[i].raw_log.as_bytes) ∧
      report.tampered_records.filter (·.reason.isDigestMismatch) =
        (records.zipIdx.filter fun row => row.1.raw_hash ≠ digest_hex H row.1.raw_log.as_bytes).map
          (fun row => digestMismatch (digest_hex H row.1.raw_log.as_bytes) row.1) ∧
      report.tampered_records.filter (·.reason.isIndexMismatch) =
        (records.zipIdx.filter fun row => row.1.leaf_index ≠ UInt32.ofNat row.2).map
          (fun row => indexMismatch (UInt32.ofNat row.2) row.1) := by
  obtain ⟨-, rfl⟩ := entry_of_flush hflush hentry
  have hcount : (self.blockEntry H env).leaf_count = logs.length := by
    simp [BatchAccumulator.blockEntry, ← hlogs]
  have hroot : (self.blockEntry H env).merkle_root = rootOf H logs := by
    rw [BatchAccumulator.blockEntry, hlogs]
  obtain ⟨report, hreport, -⟩ := verify_records_spec (H := H) records (self.blockEntry H env)
  refine ⟨report, hreport, ?_, filter_isDigestMismatch hreport, filter_isIndexMismatch hreport⟩
  rw [is_valid_iff_holdsLogs hcount hroot hreport, holdsLogs_iff]

/-- A batcher with one buffered log. -/
def singleLogBatcher : BatchAccumulator where
  config := ⟨1000, 2000, "data/parquet", "data/ledger.jsonl"⟩
  buffer := [⟨"cisco", "deny tcp", some 7, some "e0", none⟩]
  first_item_time := some 0
  current_block_id := 0
  in_memory_ledger := []

/-- The first block of a batcher. -/
theorem exists_first_flush (self : BatchAccumulator) (hbuffer : self.buffer ≠ [])
    (hledger : self.in_memory_ledger = [])
    (hvendors : distinctVendors (self.buffer.map (·.vendor)) ≤ 128) : ∃ flushed self' disk',
    self.flush Preimage Io.reliable Env.fixed (Disk.empty Preimage) =
      ok (.ok (some flushed), self', disk') ∧
    self'.in_memory_ledger = [self.blockEntry Preimage Env.fixed] := by
  obtain ⟨result, self', disk', hflush⟩ := self.flush_ok Env.fixed (Disk.empty Preimage) hvendors
  obtain ⟨hempty, -⟩ | ⟨flushed, rfl, hflushed⟩ := BatchAccumulator.flush_of_ok hflush
  · exact absurd hempty hbuffer
  · refine ⟨flushed, self', disk', hflush, ?_⟩
    rw [hflushed.batcher_eq, hledger]
    rfl

def pairBatcher : BatchAccumulator :=
  { singleLogBatcher with
    buffer := singleLogBatcher.buffer ++ [⟨"cisco", "permit udp", some 8, some "e1", none⟩] }

/-- Of two rows that are exchanged, each is reported. -/
theorem verify_records_is_valid_iff_exchanged : ∃ flushed self' disk' first second valid report,
    pairBatcher.flush Preimage Io.reliable Env.fixed (Disk.empty Preimage) =
      ok (.ok (some flushed), self', disk') ∧
    read_parquet_file "block" (disk'.storage_dir (block_filename 0)) = ok (.ok [first, second]) ∧
    verify_records Preimage [first, second] (pairBatcher.blockEntry Preimage Env.fixed) = ok valid ∧
    valid.is_valid = true ∧
    verify_records Preimage [second, first] (pairBatcher.blockEntry Preimage Env.fixed) = ok report ∧
    report.is_valid = false ∧
    (report.tampered_records.filter (·.reason.isIndexMismatch)).map (·.leaf_index) = [1, 0] := by
  obtain ⟨flushed, self', disk', hflush, hledger⟩ :=
    exists_first_flush pairBatcher (by decide) rfl (by decide)
  have hentry : self'.in_memory_ledger.getLast? = some (pairBatcher.blockEntry Preimage Env.fixed) := by
    rw [hledger]
    rfl
  have hread := (entry_of_flush hflush hentry).1.read_block "block"
  have hheld := holdsLogs_stored_records (H := Preimage) Env.fixed 0 pairBatcher.buffer
  obtain ⟨valid, hvalid, hvalid_iff, -⟩ := verify_records_is_valid_iff rfl hflush hentry
    (stored_records Preimage Env.fixed 0 pairBatcher.buffer)
  obtain ⟨report, hreport, hreport_iff, -, hindex⟩ := verify_records_is_valid_iff rfl hflush hentry
    (stored_records Preimage Env.fixed 0 pairBatcher.buffer).reverse
  refine ⟨flushed, self', disk', _, _, valid, report, hflush, hread, hvalid,
    hvalid_iff.mpr (holdsLogs_iff.mp hheld), hreport, ?_, ?_⟩
  · rw [← Bool.not_eq_true, hreport_iff]
    rintro ⟨-, hrows⟩
    exact absurd (hrows 0 (by decide) (by decide)).1 (by decide)
  · rw [hindex]
    rfl

/-- Which columns the ledger binds: against the entry of a flush, a list of records
    fails exactly if it differs from the records that the flush wrote in their number,
    or in the raw log, the leaf index or the raw hash of some row. -/
theorem verify_records_detects_iff [DomainSeparated H] {io : Io} {env : Env}
    {self self' : BatchAccumulator} {disk disk' : Disk H} {flushed : BlockFlushResult H}
    {entry : LedgerEntry} {path : String} {written : List StoredLogRecord}
    (hflush : self.flush H io env disk = ok (.ok (some flushed), self', disk'))
    (hentry : self'.in_memory_ledger.getLast? = some entry)
    (hwritten : read_parquet_file path (disk'.storage_dir entry.parquet_file) = ok (.ok written))
    (records : List StoredLogRecord) :
    ∃ report, verify_records H records entry = ok report ∧
      (report.is_valid = false ↔ records.length ≠ written.length ∨
        ∃ i, ∃ (hi : i < records.length) (hw : i < written.length),
          records[i].raw_log ≠ written[i].raw_log ∨
          records[i].leaf_index ≠ written[i].leaf_index ∨
          records[i].raw_hash ≠ written[i].raw_hash) := by
  obtain ⟨hflushed, rfl⟩ := entry_of_flush hflush hentry
  have hread := hflushed.read_block path
  rw [BatchAccumulator.blockEntry, hread] at hwritten
  cases hwritten
  have hheld := holdsLogs_stored_records (H := H) env self.current_block_id self.buffer
  obtain ⟨report, hreport, -⟩ := verify_records_spec (H := H) records (self.blockEntry H env)
  refine ⟨report, hreport, ?_⟩
  rw [← Bool.not_eq_true, is_valid_iff_holdsLogs (by simp [BatchAccumulator.blockEntry]) rfl hreport,
    holdsLogs_iff_agree hheld, not_and_or]
  simp only [not_forall, not_and_or, ne_eq]

/-- Every column that no hash covers rewritten in the only row of a block. -/
theorem verify_records_accepts_rewritten_columns : ∃ flushed self' disk' written forged report,
    singleLogBatcher.flush Preimage Io.reliable Env.fixed (Disk.empty Preimage) =
      ok (.ok (some flushed), self', disk') ∧
    self'.in_memory_ledger = [singleLogBatcher.blockEntry Preimage Env.fixed] ∧
    read_parquet_file "block" (disk'.storage_dir (block_filename 0)) = ok (.ok [written]) ∧
    forged.event_id ≠ written.event_id ∧ forged.block_id ≠ written.block_id ∧
    forged.timestamp ≠ written.timestamp ∧ forged.vendor ≠ written.vendor ∧
    forged.ocsf_json ≠ written.ocsf_json ∧
    verify_records Preimage [forged] (singleLogBatcher.blockEntry Preimage Env.fixed) = ok report ∧
    report.is_valid = true := by
  obtain ⟨flushed, self', disk', hflush, hledger⟩ :=
    exists_first_flush singleLogBatcher (by decide) rfl (by decide)
  obtain ⟨hflushed, -⟩ := entry_of_flush hflush (by rw [hledger]; rfl)
  have hread := hflushed.read_block "block"
  have hheld := holdsLogs_stored_records (H := Preimage) Env.fixed 0 singleLogBatcher.buffer
  have hforged : HoldsLogs Preimage (singleLogBatcher.buffer.map (·.raw_log))
      [{ event_id := "e1", block_id := 1, leaf_index := 0, timestamp := 8, vendor := "fortinet",
         raw_log := "deny tcp", raw_hash := digest_hex Preimage "deny tcp".as_bytes,
         ocsf_json := "null" }] :=
    (holdsLogs_iff_agree hheld).mpr ⟨rfl, by
      intro i hi _
      obtain rfl : i = 0 := by simpa using hi
      exact ⟨rfl, rfl, rfl⟩⟩
  have hcount : (singleLogBatcher.blockEntry Preimage Env.fixed).leaf_count = 1 := rfl
  obtain ⟨report, hreport, hvalid⟩ := is_valid_of_holdsLogs hcount rfl hforged
  exact ⟨flushed, self', disk', _, _, report, hflush, hledger, hread, by decide, by decide, by decide,
    by decide, by decide, hreport, hvalid⟩

/-- A changed leaf index is noticed. -/
theorem verify_records_detects_swapped_index : ∃ flushed self' disk' written report,
    singleLogBatcher.flush Preimage Io.reliable Env.fixed (Disk.empty Preimage) =
      ok (.ok (some flushed), self', disk') ∧
    read_parquet_file "block" (disk'.storage_dir (block_filename 0)) = ok (.ok [written]) ∧
    verify_records Preimage [{ written with leaf_index := 1 }]
      (singleLogBatcher.blockEntry Preimage Env.fixed) = ok report ∧
    report.is_valid = false := by
  obtain ⟨flushed, self', disk', hflush, hledger⟩ :=
    exists_first_flush singleLogBatcher (by decide) rfl (by decide)
  obtain ⟨hflushed, -⟩ := entry_of_flush hflush (by rw [hledger]; rfl)
  have hread := hflushed.read_block "block"
  have hentry : self'.in_memory_ledger.getLast? =
      some (singleLogBatcher.blockEntry Preimage Env.fixed) := by rw [hledger]; rfl
  obtain ⟨report, hreport, hinvalid⟩ := verify_records_detects_iff hflush hentry hread
    [{ event_id := "e0", block_id := 0, leaf_index := 1, timestamp := 7, vendor := "cisco",
       raw_log := "deny tcp", raw_hash := digest_hex Preimage "deny tcp".as_bytes,
       ocsf_json := "\x7b\x7d" }]
  refine ⟨flushed, self', disk', _, report, hflush, hread, hreport, hinvalid.mpr (.inr ?_)⟩
  exact ⟨0, by decide, by decide, .inr (.inl (by decide))⟩

end ulpf_integrity.tamper
