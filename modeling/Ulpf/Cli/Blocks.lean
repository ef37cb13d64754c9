import Ulpf.Integrity.Tamper.Ledger

open Result
open ulpf_integrity.merkle ulpf_integrity.storage ulpf_integrity.batcher ulpf_integrity.tamper

namespace ulpf_cli.serve.handlers

/-- The audit status of a block, as `GET /blocks` shows it. -/
inductive BlockStatus where
  | FILE_MISSING
  | PASS
  | FAIL
  | UNAUDITED
  deriving DecidableEq, Repr

structure BlockItem where
  block_id : Nat
  timestamp : Int
  leaf_count : Nat
  merkle_root : String
  parquet_file : String
  status : BlockStatus
  size_bytes : Nat
  file_exists : Bool
  deriving DecidableEq, Repr

/-- What the handlers know of the server: where the ledger and the blocks are, and
    the file sizes the operating system reports. -/
structure AppState where
  parquet_dir : String
  ledger_path : String
  metadata_len : String → Nat

section

variable (H : Type) [Digest H]

/-- The audit status of the block file with this name. -/
def audit_status (reader : JsonReader) (state : AppState) (disk : Disk H) (name : String) :
    Result BlockStatus :=
  if (disk.storage_dir name).isNone then ok .FILE_MISSING
  else do
    match ← verify_block_with_ledger H reader disk state.parquet_dir name state.ledger_path with
    | .ok report => ok (if report.is_valid then .PASS else .FAIL)
    | .error _ => ok .UNAUDITED

def block_item (reader : JsonReader) (state : AppState) (disk : Disk H) (entry : LedgerEntry) :
    Result BlockItem := do
  let block_filename := block_filename entry.block_id
  let file_exists := (disk.storage_dir block_filename).isSome
  let status ← audit_status H reader state disk block_filename
  ok { block_id := entry.block_id
       timestamp := entry.timestamp
       leaf_count := entry.leaf_count
       merkle_root := entry.merkle_root
       parquet_file := block_filename
       status
       size_bytes := if file_exists then state.metadata_len block_filename else 0
       file_exists }

/-- `GET /blocks`. -/
def get_blocks (reader : JsonReader) (state : AppState) (disk : Disk H) : Result (List BlockItem) :=
  if disk.ledger.isSome then
    match load_ledger_entries reader state.ledger_path disk.ledger with
    | .ok entries => map_each (block_item H reader state disk) entries
    | .error _ => ok []
  else ok []

end

variable {H : Type} [Digest H]

/-- A file passes the audit exactly if it verifies against the ledger. -/
theorem audit_status_eq_pass_iff (reader : JsonReader) (state : AppState) (disk : Disk H)
    (name : String) :
    audit_status H reader state disk name = ok .PASS ↔
      ∃ report, verify_block_with_ledger H reader disk state.parquet_dir name state.ledger_path =
        ok (.ok report) ∧ report.is_valid = true := by
  unfold audit_status
  split
  · rename_i hmissing
    have hnone : disk.storage_dir name = none := by simpa using hmissing
    simp [verify_block_with_ledger, hnone, read_parquet_file]
  · rw [bind_eq_ok_iff]
    constructor
    · rintro ⟨verdict, hverdict, hpass⟩
      cases verdict with
      | error e => cases hpass
      | ok report => exact ⟨report, hverdict, by simpa using hpass⟩
    · rintro ⟨report, hreport, hvalid⟩
      exact ⟨_, hreport, by simp [hvalid]⟩

theorem isSome_of_load_ok {reader : JsonReader} {path : String} {file : Option (List UInt8)}
    {entries : List LedgerEntry} (hledger : load_ledger_entries reader path file = .ok entries) :
    file.isSome = true := by
  cases file with
  | none => cases hledger
  | some => rfl

/-- `GET /blocks` answers as soon as no audit panics. -/
theorem get_blocks_ok {reader : JsonReader} {state : AppState} {disk : Disk H}
    {entries : List LedgerEntry}
    (hledger : load_ledger_entries reader state.ledger_path disk.ledger = .ok entries)
    (haudit : ∀ entry ∈ entries, ∃ status,
      audit_status H reader state disk (block_filename entry.block_id) = ok status) :
    ∃ items, get_blocks H reader state disk = ok items := by
  rw [get_blocks, if_pos (isSome_of_load_ok hledger), hledger]
  refine map_each_ok fun entry hentry => ?_
  obtain ⟨status, hstatus⟩ := haudit entry hentry
  exact ⟨_, by rw [block_item, hstatus, bind_ok]⟩

/-- The item that `GET /blocks` shows for a block of a ledger with distinct ids. -/
theorem get_blocks_pass_iff {reader : JsonReader} {state : AppState} {disk : Disk H}
    {entries : List LedgerEntry} {entry : LedgerEntry} {items : List BlockItem}
    (hledger : load_ledger_entries reader state.ledger_path disk.ledger = .ok entries)
    (hdistinct : (entries.map (·.block_id)).Nodup) (hmem : entry ∈ entries)
    (hitems : get_blocks H reader state disk = ok items) :
    (∃ item ∈ items, item.block_id = entry.block_id ∧ item.status = .PASS) ↔
      ∃ report, verify_block_with_ledger H reader disk state.parquet_dir
        (block_filename entry.block_id) state.ledger_path = ok (.ok report) ∧
        report.is_valid = true := by
  have hspec : ∀ {entry item}, block_item H reader state disk entry = ok item →
      item.block_id = entry.block_id ∧
      audit_status H reader state disk (block_filename entry.block_id) = ok item.status := by
    intro entry item hitem
    obtain ⟨status, hstatus, hitem⟩ := bind_eq_ok_iff.mp hitem
    cases hitem
    exact ⟨rfl, hstatus⟩
  rw [get_blocks, if_pos (isSome_of_load_ok hledger), hledger] at hitems
  obtain ⟨hforward, hbackward⟩ := exists_of_mem_map_each hitems
  rw [← audit_status_eq_pass_iff]
  constructor
  · rintro ⟨item, hitem, hid, hpass⟩
    obtain ⟨other, hother, hbuilt⟩ := hbackward item hitem
    obtain ⟨hotherId, hstatus⟩ := hspec hbuilt
    have hsame : other = entry :=
      List.inj_on_of_nodup_map hdistinct hother hmem (hotherId.symm.trans hid)
    rw [← hsame, hstatus, hpass]
  · intro hpass
    obtain ⟨item, hitem, hbuilt⟩ := hforward entry hmem
    obtain ⟨hid, hstatus⟩ := hspec hbuilt
    exact ⟨item, hitem, hid, Result.ok.inj (hstatus.symm.trans hpass)⟩

/-- When block files cannot be passed off as others: verification of the file named
    for a block, and `PASS` in `GET /blocks`, guarantee the logs of this block exactly
    if the file is no intact copy of a block of the ledger with other logs. -/
theorem block_file_identity_iff [DomainSeparated H] {reader : JsonReader} {state : AppState}
    {disk : Disk H} {history : List (LedgerEntry × List String)}
    (hledger : load_ledger_entries reader state.ledger_path disk.ledger = .ok (history.map (·.1)))
    (hcreated : ∀ block ∈ history, CreatedByFlush H block.1 block.2)
    (hdistinct : (history.map (·.1.block_id)).Nodup) {block : LedgerEntry × List String}
    (hblock : block ∈ history) :
    ((∀ report, verify_block_with_ledger H reader disk state.parquet_dir
        (block_filename block.1.block_id) state.ledger_path = ok (.ok report) →
      report.is_valid = true → FileHolds H disk (block_filename block.1.block_id) block.2) ↔
      ∀ other ∈ history, other.2 ≠ block.2 →
        ¬ HoldsCopyOf H disk (block_filename block.1.block_id) other.1 other.2) ∧
    ∀ items, get_blocks H reader state disk = ok items →
      ((∀ item ∈ items, item.block_id = block.1.block_id → item.status = .PASS →
        FileHolds H disk (block_filename block.1.block_id) block.2) ↔
        ∀ other ∈ history, other.2 ≠ block.2 →
          ¬ HoldsCopyOf H disk (block_filename block.1.block_id) other.1 other.2) := by
  have hvalid := verify_block_with_ledger_valid_iff hledger hcreated hdistinct state.parquet_dir
    (block_filename block.1.block_id)
  have hids : ((history.map (·.1)).map (·.block_id)).Nodup := by
    rw [List.map_map]
    exact hdistinct
  constructor
  · rw [← fileHolds_of_copy_iff, ← hvalid]
    exact ⟨fun h ⟨report, hreport, hpass⟩ => h report hreport hpass,
      fun h report hreport hpass => h ⟨report, hreport, hpass⟩⟩
  · intro items hitems
    rw [← fileHolds_of_copy_iff, ← hvalid,
      ← get_blocks_pass_iff hledger hids (List.mem_map_of_mem hblock) hitems]
    exact ⟨fun h ⟨item, hitem, hid, hpass⟩ => h item hitem hid hpass,
      fun h item hitem hid hpass => h ⟨item, hitem, hid, hpass⟩⟩

/-- A batcher with another log, which is to become block 1. -/
def nextLogBatcher : BatchAccumulator :=
  { singleLogBatcher with
    buffer := [⟨"cisco", "permit udp", some 8, some "e1", none⟩], current_block_id := 1 }

/-- The ledger after both blocks are flushed, with the logs of each. -/
def twoBlocks : List (LedgerEntry × List String) :=
  [(singleLogBatcher.blockEntry Preimage Env.fixed, ["deny tcp"]),
    (nextLogBatcher.blockEntry Preimage Env.fixed, ["permit udp"])]

theorem createdByFlush_twoBlocks : ∀ block ∈ twoBlocks, CreatedByFlush Preimage block.1 block.2 := by
  simp only [twoBlocks, List.forall_mem_cons, List.not_mem_nil, false_implies, implies_true, and_true]
  exact ⟨createdByFlush_blockEntry singleLogBatcher Env.fixed (by decide) (by decide),
    createdByFlush_blockEntry nextLogBatcher Env.fixed (by decide) (by decide)⟩

/-- The file content of block 0. -/
def denyFile : ParquetFile Preimage :=
  .Parquet [⟨[.Utf8 ["e0"], .UInt64 [0], .UInt32 [0], .Int64 [7],
    .Dictionary ⟨[0], ["cisco"], by decide⟩, .Utf8 ["deny tcp"],
    .FixedSizeBinary [Digest.sha256 "deny tcp".as_bytes], .Utf8 ["\x7b\x7d"]], 1,
    by simp [Column.len]⟩]

def demoState : AppState := ⟨"data/parquet", "data/ledger.jsonl", fun _ => 0⟩

/-- The two blocks' ledger over a storage directory that has only this file. -/
def diskWithFile (name : String) (file : ParquetFile Preimage) : Disk Preimage :=
  ⟨Function.update (fun _ => none) name (some file), some (ledgerText (twoBlocks.map (·.1)))⟩

theorem load_diskWithFile (name : String) (file : ParquetFile Preimage) :
    load_ledger_entries LedgerEntry.layoutReader "data/ledger.jsonl" (diskWithFile name file).ledger =
      .ok (twoBlocks.map (·.1)) :=
  load_ledger_entries_ledgerText _ _ (by decide)

/-- The rows of block 0. -/
def denyRecords : List StoredLogRecord :=
  stored_records Preimage Env.fixed 0 singleLogBatcher.buffer

theorem read_denyFile (name path : String) :
    read_parquet_file path ((diskWithFile name denyFile).storage_dir name) =
      ok (.ok denyRecords) := by
  simp only [diskWithFile, Function.update_self]
  rfl

theorem holdsCopyOf_denyFile (name : String) :
    HoldsCopyOf Preimage (diskWithFile name denyFile) name
      (singleLogBatcher.blockEntry Preimage Env.fixed) ["deny tcp"] :=
  ⟨denyRecords, read_denyFile name, holdsLogs_stored_records Env.fixed 0 singleLogBatcher.buffer, rfl⟩

/-- Block 0 under its own name verifies, and the file has the logs of block 0. -/
theorem block_file_identity_own_name :
    (∃ report, verify_block_with_ledger Preimage LedgerEntry.layoutReader
      (diskWithFile (block_filename 0) denyFile) demoState.parquet_dir (block_filename 0)
      demoState.ledger_path = ok (.ok report) ∧ report.is_valid = true) ∧
    FileHolds Preimage (diskWithFile (block_filename 0) denyFile) (block_filename 0)
      ["deny tcp"] := by
  have hledger : load_ledger_entries LedgerEntry.layoutReader demoState.ledger_path
      (diskWithFile (block_filename 0) denyFile).ledger = .ok (twoBlocks.map (·.1)) :=
    load_diskWithFile _ _
  have hfirst : twoBlocks.head (by decide) ∈ twoBlocks := List.head_mem _
  obtain ⟨report, hreport, hvalid⟩ := (verify_block_with_ledger_valid_iff hledger
    createdByFlush_twoBlocks (by decide) demoState.parquet_dir (block_filename 0)).mpr
    ⟨_, hfirst, holdsCopyOf_denyFile (block_filename 0)⟩
  refine ⟨⟨report, hreport, hvalid⟩, (block_file_identity_iff hledger createdByFlush_twoBlocks
    (by decide) hfirst).1.mpr ?_ report hreport hvalid⟩
  rintro other hother hne ⟨records, hread, hholds, -⟩
  have hsame := (hread "").symm.trans (read_denyFile (block_filename 0) "")
  cases hsame
  exact hne hholds.raw_log_eq.symm

/-- Block 0 copied over the file of block 1 passes as block 1. -/
theorem copied_block_passes_as_other_block :
    (∀ block ∈ twoBlocks, CreatedByFlush Preimage block.1 block.2) ∧
    load_ledger_entries LedgerEntry.layoutReader demoState.ledger_path
      (diskWithFile (block_filename 1) denyFile).ledger = .ok (twoBlocks.map (·.1)) ∧
    (∃ report, verify_block_with_ledger Preimage LedgerEntry.layoutReader
        (diskWithFile (block_filename 1) denyFile) demoState.parquet_dir (block_filename 1)
        demoState.ledger_path = ok (.ok report) ∧ report.is_valid = true) ∧
    (∃ items, get_blocks Preimage LedgerEntry.layoutReader demoState
        (diskWithFile (block_filename 1) denyFile) = ok items ∧
      ∃ item ∈ items, item.block_id = 1 ∧ item.status = .PASS) ∧
    ¬ FileHolds Preimage (diskWithFile (block_filename 1) denyFile) (block_filename 1)
        ["permit udp"] := by
  have hledger : load_ledger_entries LedgerEntry.layoutReader demoState.ledger_path
      (diskWithFile (block_filename 1) denyFile).ledger = .ok (twoBlocks.map (·.1)) :=
    load_diskWithFile _ _
  have hsecond : nextLogBatcher.blockEntry Preimage Env.fixed ∈ twoBlocks.map (·.1) := by
    simp [twoBlocks]
  have hvalid := (verify_block_with_ledger_valid_iff hledger createdByFlush_twoBlocks (by decide)
    demoState.parquet_dir (block_filename 1)).mpr
    ⟨_, List.mem_cons_self, holdsCopyOf_denyFile (block_filename 1)⟩
  refine ⟨createdByFlush_twoBlocks, hledger, hvalid, ?_, ?_⟩
  · have hmissing : audit_status Preimage LedgerEntry.layoutReader demoState
        (diskWithFile (block_filename 1) denyFile) (block_filename 0) = ok .FILE_MISSING := by
      have hother : block_filename 0 ≠ block_filename 1 := block_filename_injective.ne (by decide)
      simp [audit_status, diskWithFile, Function.update_of_ne hother]
    have hpass := (audit_status_eq_pass_iff LedgerEntry.layoutReader demoState
      (diskWithFile (block_filename 1) denyFile) (block_filename 1)).mpr hvalid
    obtain ⟨items, hitems⟩ := get_blocks_ok (H := Preimage) hledger (by
      simp only [twoBlocks, List.map_cons, List.map_nil, List.forall_mem_cons]
      exact ⟨⟨_, hmissing⟩, ⟨_, hpass⟩, by simp⟩)
    exact ⟨items, hitems, (get_blocks_pass_iff hledger (by decide) hsecond hitems).mpr hvalid⟩
  · rintro ⟨records, hread, hlogs⟩
    have hsame := (hread "").symm.trans (read_denyFile (block_filename 1) "")
    cases hsame
    exact absurd hlogs (by decide)

end ulpf_cli.serve.handlers
