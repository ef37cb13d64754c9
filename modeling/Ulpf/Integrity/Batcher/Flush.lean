import Ulpf.Integrity.Tamper.Records

open Result
open ulpf_integrity.merkle ulpf_integrity.storage ulpf_integrity.tamper

namespace ulpf_integrity.batcher

structure BatcherConfig where
  max_batch_size : Nat
  max_batch_duration_ms : Nat
  storage_dir : String
  ledger_path : String
  deriving DecidableEq, Repr

/-- An incoming unbatched log entry. -/
structure IncomingLog where
  vendor : String
  raw_log : String
  timestamp : Option Int
  event_id : Option String
  ocsf_json : Option String
  deriving DecidableEq, Repr

/-- Dual-trigger batch accumulator. Instants are nanoseconds. -/
structure BatchAccumulator where
  config : BatcherConfig
  buffer : List IncomingLog
  first_item_time : Option Nat
  current_block_id : Nat
  in_memory_ledger : List LedgerEntry
  deriving DecidableEq, Repr

/-- Result returned upon a successful block flush. -/
structure BlockFlushResult (H : Type) where
  block_id : Nat
  merkle_root : H
  leaf_count : Nat
  parquet_path : String
  tree : MerkleTree H

/-- What the accumulator shares with the outside: the files of the storage
    directory by name, and the bytes of the ledger file. -/
structure Disk (H : Type) where
  storage_dir : String → Option (ParquetFile H)
  ledger : Option (List UInt8)

def Disk.empty (H : Type) : Disk H := ⟨fun _ => none, none⟩

def Disk.write {H : Type} (disk : Disk H) (name : String) (file : ParquetFile H) : Disk H :=
  { disk with storage_dir := Function.update disk.storage_dir name (some file) }

theorem Disk.ledger_write {H : Type} (disk : Disk H) (name : String) (file : ParquetFile H) :
    (disk.write name file).ledger = disk.ledger := rfl

/-- The operating system and library calls of a flush that can fail. -/
inductive IoCall where
  | CreateStorageDir
  | CreateFile
  | InitWriter
  | WriteBatch
  | CloseWriter
  | CreateLedgerDir
  | OpenLedger
  | WriteLedger
  | FlushLedger
  deriving DecidableEq, Repr

/-- Which calls fail, with which message, and how much of the ledger line reaches
    the file when its write fails. -/
structure Io where
  fails : IoCall → Bool
  message : String
  ledger_bytes_written : Nat

def Io.reliable : Io where
  fails _ := false
  message := ""
  ledger_bytes_written := 0

/-- What a call reads from its surroundings: `Utc::now()`, the identifiers drawn
    for rows without one, `Instant::now()` and the later reading behind `elapsed`. -/
structure Env where
  now_ms : Int
  now_ms_i64 : json.I64 now_ms
  now_v7 : Nat → String
  instant : Nat
  elapsed_at : Nat

/-- Surroundings in which no clock moves. -/
def Env.fixed : Env := ⟨7, by decide, fun _ => "e0", 0, 0⟩

/-- `PathBuf::join` for a file name. -/
def path_join (dir name : String) : String := dir ++ "/" ++ name

/-- `format!("block_{:05}.parquet", block_id)`. -/
def block_filename (block_id : Nat) : String :=
  String.ofList ("block_".toList ++ str.zero_padded 5 block_id ++ ".parquet".toList)

theorem block_filename_injective : Function.Injective block_filename :=
  (str.ofList_surround_injective "block_".toList ".parquet".toList).comp
    (str.zero_padded_injective 5)

section

variable {H : Type} [Digest H]

/-- Writes a batch to a Parquet file. The file is truncated before the writer is
    set up, and it is a Parquet file only after the footer is written by `close`. -/
def write_parquet_file (io : Io) (dir name : String) (batch : RecordBatch H) (disk : Disk H) :
    Except String Unit × Disk H :=
  if io.fails .CreateStorageDir then (.error s!"Failed to create parent directory {str.debug dir}", disk)
  else if io.fails .CreateFile then
    (.error s!"Failed to create file at {str.debug (path_join dir name)}", disk)
  else
    let truncated := disk.write name .Garbage
    if io.fails .InitWriter then (.error "Failed to initialize ArrowWriter", truncated)
    else if io.fails .WriteBatch then (.error "Failed to write batch to Parquet", truncated)
    else if io.fails .CloseWriter then (.error "Failed to close Parquet writer", truncated)
    else (.ok (), disk.write name (.Parquet [batch]))

def write_records_to_parquet (io : Io) (dir name : String) (records : List StoredLogRecord)
    (disk : Disk H) : Result (Except String Unit × Disk H) := do
  match ← records_to_batch records with
  | .error e => ok (.error e, disk)
  | .ok batch => ok (write_parquet_file io dir name batch disk)

/-- Opening with `create` and `append` makes an empty file where there was none. -/
def append_ledger_entry (io : Io) (config : BatcherConfig) (entry : LedgerEntry) (disk : Disk H) :
    Except String Unit × Disk H :=
  if io.fails .CreateLedgerDir then (.error io.message, disk)
  else if io.fails .OpenLedger then
    (.error s!"Failed opening ledger at {str.debug config.ledger_path}", disk)
  else
    let contents := disk.ledger.getD []
    if io.fails .WriteLedger then
      (.error "Failed appending entry to ledger file",
        { disk with ledger := some (contents ++ (ledgerLine entry).take io.ledger_bytes_written) })
    else
      let disk := { disk with ledger := some (contents ++ ledgerLine entry) }
      if io.fails .FlushLedger then (.error "Failed syncing ledger file", disk)
      else (.ok (), disk)

variable (H)

/-- The rows of the block that a flush writes. -/
def stored_records (env : Env) (block_id : Nat) (logs : List IncomingLog) : List StoredLogRecord :=
  logs.mapIdx fun i item =>
    { event_id := item.event_id.getD (env.now_v7 i)
      block_id
      leaf_index := UInt32.ofNat i
      timestamp := item.timestamp.getD env.now_ms
      vendor := item.vendor
      raw_log := item.raw_log
      raw_hash := digest_hex H item.raw_log.as_bytes
      ocsf_json := item.ocsf_json.getD "\x7b\x7d" }

/-- Forces a flush of all currently accumulated logs into a Parquet block and
    ledger entry. The buffer and the block id are given up before anything is
    written. -/
def BatchAccumulator.flush (io : Io) (env : Env) (self : BatchAccumulator) (disk : Disk H) :
    Result (Except String (Option (BlockFlushResult H)) × BatchAccumulator × Disk H) :=
  if self.buffer.isEmpty then ok (.ok none, self, disk)
  else do
    let logs := self.buffer
    let block_id := self.current_block_id
    let self := { self with
      buffer := [], first_item_time := none, current_block_id := self.current_block_id + 1 }
    let count := logs.length
    let records := stored_records H env block_id logs
    let tree : MerkleTree H ← MerkleTree.from_raw_logs (records.map (·.raw_log.as_bytes))
    let parquet_filename := block_filename block_id
    let parquet_path := path_join self.config.storage_dir parquet_filename
    let (written, disk) ←
      write_records_to_parquet io self.config.storage_dir parquet_filename records disk
    match written with
    | .error _ =>
      ok (.error s!"Failed writing Parquet block to {str.debug parquet_path}", self, disk)
    | .ok () =>
      let ledger_entry : LedgerEntry :=
        { block_id
          timestamp := env.now_ms
          leaf_count := count
          merkle_root := Hash.to_hex tree.root
          parquet_file := parquet_filename }
      let (appended, disk) := append_ledger_entry io self.config ledger_entry disk
      match appended with
      | .error e => ok (.error e, self, disk)
      | .ok () =>
        let self := { self with in_memory_ledger := self.in_memory_ledger ++ [ledger_entry] }
        let result :=
          { block_id, merkle_root := tree.root, leaf_count := count, parquet_path, tree }
        ok (.ok (some result), self, disk)

/-- The ledger entry that a flush makes for the buffered logs. -/
def BatchAccumulator.blockEntry (env : Env) (self : BatchAccumulator) : LedgerEntry where
  block_id := self.current_block_id
  timestamp := env.now_ms
  leaf_count := self.buffer.length
  merkle_root := rootOf H (self.buffer.map (·.raw_log))
  parquet_file := block_filename self.current_block_id

/-- The accumulator once a flush has given up the buffer and the block id. -/
def BatchAccumulator.taken (self : BatchAccumulator) : BatchAccumulator :=
  { self with buffer := [], first_item_time := none, current_block_id := self.current_block_id + 1 }

/-- The disks that a flush goes through: nothing is written, the block file has no
    footer yet, it is complete, and then some bytes of the ledger line are there. -/
inductive BatchAccumulator.Effect (env : Env) (self : BatchAccumulator) (disk : Disk H) :
    Disk H → Prop where
  | untouched : Effect env self disk disk
  | truncated : Effect env self disk (disk.write (block_filename self.current_block_id) .Garbage)
  | written (batch : RecordBatch H)
      (hbatch : records_to_batch (stored_records H env self.current_block_id self.buffer) =
        ok (.ok batch)) :
      Effect env self disk (disk.write (block_filename self.current_block_id) (.Parquet [batch]))
  | appended (batch : RecordBatch H)
      (hbatch : records_to_batch (stored_records H env self.current_block_id self.buffer) =
        ok (.ok batch)) (bytes : Nat) :
      Effect env self disk
        { disk.write (block_filename self.current_block_id) (.Parquet [batch]) with
          ledger := some (disk.ledger.getD [] ++
            (ledgerLine (self.blockEntry H env)).take bytes) }

/-- What a flush that wrote a block did: the buffer became the rows of the block,
    and the entry went to the end of both ledgers. -/
structure BatchAccumulator.Flushed (env : Env) (batcher : BatchAccumulator) (disk : Disk H)
    (result : BlockFlushResult H) (batcher' : BatchAccumulator) (disk' : Disk H) : Prop where
  buffer_ne : batcher.buffer ≠ []
  result_block_id : result.block_id = batcher.current_block_id
  result_root : Hash.to_hex result.merkle_root = (batcher.blockEntry H env).merkle_root
  result_leaf_count : result.leaf_count = batcher.buffer.length
  batcher_eq : batcher' = { batcher with
    buffer := []
    first_item_time := none
    current_block_id := batcher.current_block_id + 1
    in_memory_ledger := batcher.in_memory_ledger ++ [batcher.blockEntry H env] }
  storage_eq : ∃ batch,
    records_to_batch (stored_records H env batcher.current_block_id batcher.buffer) = ok (.ok batch) ∧
    disk'.storage_dir = Function.update disk.storage_dir (block_filename batcher.current_block_id)
      (some (.Parquet [batch]))
  ledger_eq : disk'.ledger = some (disk.ledger.getD [] ++ ledgerLine (batcher.blockEntry H env))

end

section

variable {H : Type} [Digest H]

@[simp] theorem length_stored_records (env : Env) (block_id : Nat) (logs : List IncomingLog) :
    (stored_records H env block_id logs).length = logs.length := by
  simp [stored_records]

@[simp] theorem map_raw_log_stored_records (env : Env) (block_id : Nat) (logs : List IncomingLog) :
    (stored_records H env block_id logs).map (·.raw_log) = logs.map (·.raw_log) := by
  apply List.ext_getElem <;> simp [stored_records]

@[simp] theorem map_vendor_stored_records (env : Env) (block_id : Nat) (logs : List IncomingLog) :
    (stored_records H env block_id logs).map (·.vendor) = logs.map (·.vendor) := by
  apply List.ext_getElem <;> simp [stored_records]

theorem map_raw_hash_stored_records (env : Env) (block_id : Nat) (logs : List IncomingLog) :
    (stored_records H env block_id logs).map (·.raw_hash) =
      (logs.map fun item => (Digest.sha256 item.raw_log.as_bytes : H)).map Hash.to_hex := by
  apply List.ext_getElem <;> simp [stored_records, digest_hex]

/-- A flush numbers its rows and stores the digest of each raw log with it. -/
theorem holdsLogs_stored_records (env : Env) (block_id : Nat) (logs : List IncomingLog) :
    HoldsLogs H (logs.map (·.raw_log)) (stored_records H env block_id logs) := by
  refine ⟨map_raw_log_stored_records env block_id logs, List.forall_mem_zipIdx.mpr fun i hi => ?_⟩
  simp [RowIntact, stored_records]

/-- Building the batch of a flush fails exactly on too many vendors. -/
theorem records_to_batch_stored_records (env : Env) (block_id : Nat) {logs : List IncomingLog}
    (hne : logs ≠ []) :
    (128 < distinctVendors (logs.map (·.vendor)) ∧ ∃ e,
      records_to_batch (H := H) (stored_records H env block_id logs) = ok (.error e)) ∨
    (distinctVendors (logs.map (·.vendor)) ≤ 128 ∧ ∃ batch,
      records_to_batch (H := H) (stored_records H env block_id logs) = ok (.ok batch)) := by
  by_cases hvendors : distinctVendors (logs.map (·.vendor)) ≤ 128
  · right
    have hrecords : stored_records H env block_id logs ≠ [] := by
      simpa [← List.length_eq_zero_iff] using hne
    obtain ⟨batch, hbatch, -⟩ := records_to_batch_ok (H := H) hrecords (by simpa using hvendors)
      (map_raw_hash_stored_records env block_id logs)
    exact ⟨hvendors, batch, hbatch⟩
  · left
    rw [not_le] at hvendors
    exact ⟨hvendors, by simp [records_to_batch, hvendors]⟩

omit [Digest H] in
/-- How far writing the block file gets: the calls up to the first that fails. -/
theorem write_parquet_file_cases (io : Io) (dir name : String) (batch : RecordBatch H)
    (disk : Disk H) :
    ((∀ call ∈ [IoCall.CreateStorageDir, .CreateFile, .InitWriter, .WriteBatch, .CloseWriter],
        io.fails call = false) ∧
      write_parquet_file io dir name batch disk = (.ok (), disk.write name (.Parquet [batch]))) ∨
    ((∃ call, io.fails call = true) ∧ ∃ e disk', write_parquet_file io dir name batch disk =
      (.error e, disk') ∧ (disk' = disk ∨ disk' = disk.write name .Garbage)) := by
  unfold write_parquet_file
  split
  · exact .inr ⟨⟨_, ‹_›⟩, _, _, rfl, .inl rfl⟩
  split
  · exact .inr ⟨⟨_, ‹_›⟩, _, _, rfl, .inl rfl⟩
  dsimp only
  split
  · exact .inr ⟨⟨_, ‹_›⟩, _, _, rfl, .inr rfl⟩
  split
  · exact .inr ⟨⟨_, ‹_›⟩, _, _, rfl, .inr rfl⟩
  split
  · exact .inr ⟨⟨_, ‹_›⟩, _, _, rfl, .inr rfl⟩
  · left
    simp_all

omit [Digest H] in
/-- How far appending to the ledger gets. A line that is there in full can still be
    reported as an error. -/
theorem append_ledger_entry_cases (io : Io) (config : BatcherConfig) (entry : LedgerEntry)
    (disk : Disk H) :
    ((∀ call ∈ [IoCall.CreateLedgerDir, .OpenLedger, .WriteLedger, .FlushLedger],
        io.fails call = false) ∧ append_ledger_entry io config entry disk =
      (.ok (), { disk with ledger := some (disk.ledger.getD [] ++ ledgerLine entry) })) ∨
    ((∃ call, io.fails call = true) ∧ ∃ e disk', append_ledger_entry io config entry disk =
      (.error e, disk') ∧ (disk' = disk ∨ ∃ bytes,
        disk' = { disk with ledger := some (disk.ledger.getD [] ++ (ledgerLine entry).take bytes) })) := by
  unfold append_ledger_entry
  split
  · exact .inr ⟨⟨_, ‹_›⟩, _, _, rfl, .inl rfl⟩
  split
  · exact .inr ⟨⟨_, ‹_›⟩, _, _, rfl, .inl rfl⟩
  dsimp only
  split
  · exact .inr ⟨⟨_, ‹_›⟩, _, _, rfl, .inr ⟨_, rfl⟩⟩
  split
  · exact .inr ⟨⟨_, ‹_›⟩, _, _, rfl, .inr ⟨_, by rw [List.take_length]⟩⟩
  · left
    simp_all

theorem BatchAccumulator.flush_of_empty (self : BatchAccumulator) (io : Io) (env : Env)
    (disk : Disk H) (hempty : self.buffer = []) :
    self.flush H io env disk = ok (.ok none, self, disk) := by
  unfold BatchAccumulator.flush
  rw [if_pos (List.isEmpty_iff.mpr hempty)]

/-- A flush with logs to write builds the batch, writes the block file and appends the
    ledger entry, and stops at the first of these that fails. -/
theorem BatchAccumulator.flush_eq (self : BatchAccumulator) (io : Io) (env : Env) (disk : Disk H)
    (hne : self.buffer ≠ []) :
    (128 < distinctVendors (self.buffer.map (·.vendor)) ∧
      ∃ e, self.flush H io env disk = ok (.error e, self.taken, disk)) ∨
    (distinctVendors (self.buffer.map (·.vendor)) ≤ 128 ∧ ∃ (batch : RecordBatch H)
      (flushed : BlockFlushResult H),
      records_to_batch (stored_records H env self.current_block_id self.buffer) = ok (.ok batch) ∧
      flushed.block_id = self.current_block_id ∧
      Hash.to_hex flushed.merkle_root = (self.blockEntry H env).merkle_root ∧
      flushed.leaf_count = self.buffer.length ∧
      self.flush H io env disk =
        match write_parquet_file io self.config.storage_dir (block_filename self.current_block_id)
          batch disk with
        | (.error _, disk) =>
          ok (.error ("Failed writing Parquet block to " ++ str.debug (path_join
            self.config.storage_dir (block_filename self.current_block_id))), self.taken, disk)
        | (.ok (), disk) =>
          match append_ledger_entry io self.config (self.blockEntry H env) disk with
          | (.error e, disk) => ok (.error e, self.taken, disk)
          | (.ok (), disk) =>
            ok (.ok (some flushed), { self.taken with
              in_memory_ledger := self.in_memory_ledger ++ [self.blockEntry H env] }, disk)) := by
  obtain ⟨tree, htree, -⟩ := MerkleTree.from_raw_logs_spec (H := H)
    ((stored_records H env self.current_block_id self.buffer).map (·.raw_log.as_bytes))
  have hroot : Hash.to_hex tree.root = (self.blockEntry H env).merkle_root := by
    rw [rootOf_eq_of_from_raw_logs htree, map_raw_log_stored_records]
    rfl
  have hnonempty : self.buffer.isEmpty = false := by simpa using hne
  simp only [BatchAccumulator.flush, hnonempty, Bool.false_eq_true, ↓reduceIte, htree, bind_ok,
    write_records_to_parquet]
  obtain ⟨hvendors, e, hbatch⟩ | ⟨hvendors, batch, hbatch⟩ :=
    records_to_batch_stored_records (H := H) env self.current_block_id hne
  · simp only [hbatch, bind_ok]
    exact .inl ⟨hvendors, _, rfl⟩
  · have hentry : ({
        block_id := self.current_block_id
        timestamp := env.now_ms
        leaf_count := self.buffer.length
        merkle_root := Hash.to_hex tree.root
        parquet_file := block_filename self.current_block_id } : LedgerEntry) =
        self.blockEntry H env := by
      rw [hroot]
      rfl
    simp only [hbatch, bind_ok, hentry]
    refine .inr ⟨hvendors, batch, ⟨self.current_block_id, tree.root, self.buffer.length,
      path_join self.config.storage_dir (block_filename self.current_block_id), tree⟩, rfl, rfl, hroot,
      rfl, ?_⟩
    cases write_parquet_file io self.config.storage_dir (block_filename self.current_block_id) batch
      disk with
    | mk written disk =>
      cases written with
      | error e => rfl
      | ok =>
        dsimp only
        cases append_ledger_entry io self.config (self.blockEntry H env) disk with
        | mk appended disk => cases appended <;> rfl

/-- What a flush can do: find nothing to write, write the block and its ledger entry
    if neither the vendors nor an I/O call stop it, or fail with the buffer gone. -/
theorem BatchAccumulator.flush_spec (io : Io) (env : Env) (self : BatchAccumulator) (disk : Disk H) :
    ∃ result self' disk', self.flush H io env disk = ok (result, self', disk') ∧
      ((self.buffer = [] ∧ result = .ok none ∧ self' = self ∧ disk' = disk) ∨
      (distinctVendors (self.buffer.map (·.vendor)) ≤ 128 ∧ (∀ call, io.fails call = false) ∧
        ∃ flushed, result = .ok (some flushed) ∧ self.Flushed H env disk flushed self' disk') ∨
      ((128 < distinctVendors (self.buffer.map (·.vendor)) ∨ ∃ call, io.fails call = true) ∧
        self.buffer ≠ [] ∧ (∃ e, result = .error e) ∧ self' = self.taken ∧
        self.Effect H env disk disk')) := by
  by_cases hempty : self.buffer = []
  · exact ⟨_, _, _, self.flush_of_empty io env disk hempty, .inl ⟨hempty, rfl, rfl, rfl⟩⟩
  obtain ⟨hvendors, e, hflush⟩ | ⟨hvendors, batch, flushed, hbatch, hid, hroot, hcount, hflush⟩ :=
    self.flush_eq io env disk hempty
  · exact ⟨_, _, _, hflush, .inr (.inr ⟨.inl hvendors, hempty, ⟨_, rfl⟩, rfl, .untouched⟩)⟩
  rw [hflush]
  obtain ⟨hwriteCalls, hwrite⟩ | ⟨hfails, e', disk₁, hwrite, hdisk₁⟩ := write_parquet_file_cases io
    self.config.storage_dir (block_filename self.current_block_id) batch disk
  · obtain ⟨hledgerCalls, happend⟩ | ⟨hfails, e'', disk₂, happend, hdisk₂⟩ :=
      append_ledger_entry_cases io self.config (self.blockEntry H env)
        (disk.write (block_filename self.current_block_id) (.Parquet [batch]))
    · have hcalls : ∀ call, io.fails call = false := by
        intro call
        cases call <;> simp_all
      simp only [hwrite, happend]
      refine ⟨_, _, _, rfl, .inr (.inl ⟨hvendors, hcalls, flushed, rfl, ?_⟩)⟩
      exact ⟨hempty, hid, hroot, hcount, rfl, ⟨batch, hbatch, rfl⟩,
        by rw [Disk.ledger_write]⟩
    · simp only [hwrite, happend]
      refine ⟨_, _, _, rfl, .inr (.inr ⟨.inr hfails, hempty, ⟨_, rfl⟩, rfl, ?_⟩)⟩
      obtain rfl | ⟨bytes, rfl⟩ := hdisk₂
      · exact .written batch hbatch
      · rw [Disk.ledger_write]
        exact .appended batch hbatch bytes
  · simp only [hwrite]
    refine ⟨_, _, _, rfl, .inr (.inr ⟨.inr hfails, hempty, ⟨_, rfl⟩, rfl, ?_⟩)⟩
    obtain rfl | rfl := hdisk₁
    · exact .untouched
    · exact .truncated

/-- A flush that returns without an error found nothing to write, or wrote the
    block and its ledger entry. -/
theorem BatchAccumulator.flush_of_ok {io : Io} {env : Env} {self self' : BatchAccumulator}
    {disk disk' : Disk H} {result : Option (BlockFlushResult H)}
    (h : self.flush H io env disk = ok (.ok result, self', disk')) :
    (self.buffer = [] ∧ result = none ∧ self' = self ∧ disk' = disk) ∨
    ∃ flushed, result = some flushed ∧ self.Flushed H env disk flushed self' disk' := by
  obtain ⟨actual, actual', actualDisk, hflush, hspec⟩ := self.flush_spec io env disk
  rw [hflush] at h
  cases h
  obtain ⟨hempty, hresult, rfl, rfl⟩ | ⟨-, -, flushed, hresult, hflushed⟩ |
    ⟨-, -, ⟨e, he⟩, -⟩ := hspec
  · exact .inl ⟨hempty, Except.ok.inj hresult, rfl, rfl⟩
  · exact .inr ⟨flushed, Except.ok.inj hresult, hflushed⟩
  · cases he

/-- A flush that returns without an error leaves nothing in the buffer. -/
theorem BatchAccumulator.buffer_eq_nil_of_flush {io : Io} {env : Env} {self self' : BatchAccumulator}
    {disk disk' : Disk H} {result : Option (BlockFlushResult H)}
    (h : self.flush H io env disk = ok (.ok result, self', disk')) : self'.buffer = [] := by
  obtain ⟨hempty, -, rfl, -⟩ | ⟨flushed, -, hflushed⟩ := BatchAccumulator.flush_of_ok h
  · exact hempty
  · rw [hflushed.batcher_eq]

/-- A file with the batch of some logs reads back as their rows. -/
theorem read_stored_records {env : Env} {block_id : Nat} {logs : List IncomingLog}
    {batch : RecordBatch H} (hne : logs ≠ [])
    (hbatch : records_to_batch (stored_records H env block_id logs) = ok (.ok batch)) (path : String) :
    read_parquet_file path (some (.Parquet [batch])) =
      ok (.ok (stored_records H env block_id logs)) := by
  have hrecords : stored_records H env block_id logs ≠ [] := by
    simpa [← List.length_eq_zero_iff] using hne
  have hread :=
    batch_to_records_of_records_to_batch hrecords (map_raw_hash_stored_records env _ _) hbatch
  rw [read_parquet_file, collect, hread]
  simp [collect]

/-- The block file that a flush wrote reads back as the rows it was given. -/
theorem BatchAccumulator.Flushed.read_block {env : Env} {self self' : BatchAccumulator}
    {disk disk' : Disk H} {result : BlockFlushResult H}
    (hflushed : self.Flushed H env disk result self' disk') (path : String) :
    read_parquet_file path (disk'.storage_dir (block_filename self.current_block_id)) =
      ok (.ok (stored_records H env self.current_block_id self.buffer)) := by
  obtain ⟨batch, hbatch, hstorage⟩ := hflushed.storage_eq
  rw [hstorage, Function.update_self, read_stored_records hflushed.buffer_ne hbatch]

/-- Without an I/O error logs are flushed as long as their vendors fit the dictionary
    column. -/
theorem BatchAccumulator.flushed_of_reliable (self : BatchAccumulator) (env : Env) (disk : Disk H)
    (hne : self.buffer ≠ []) (hvendors : distinctVendors (self.buffer.map (·.vendor)) ≤ 128) :
    ∃ flushed self' disk', self.flush H Io.reliable env disk = ok (.ok (some flushed), self', disk') ∧
      self.Flushed H env disk flushed self' disk' := by
  obtain ⟨result, self', disk', hflush, hspec⟩ := self.flush_spec Io.reliable env disk
  obtain ⟨hempty, -⟩ | ⟨-, -, flushed, rfl, hflushed⟩ | ⟨hvendors' | ⟨call, hfails⟩, -⟩ := hspec
  · exact absurd hempty hne
  · exact ⟨_, _, _, hflush, hflushed⟩
  · omega
  · cases hfails

/-- Without an I/O error a flush succeeds, with or without logs. -/
theorem BatchAccumulator.flush_ok (self : BatchAccumulator) (env : Env) (disk : Disk H)
    (hvendors : distinctVendors (self.buffer.map (·.vendor)) ≤ 128) :
    ∃ result self' disk', self.flush H Io.reliable env disk = ok (.ok result, self', disk') := by
  by_cases hempty : self.buffer = []
  · exact ⟨none, self, disk, self.flush_of_empty Io.reliable env disk hempty⟩
  · obtain ⟨flushed, self', disk', hflush, -⟩ := self.flushed_of_reliable env disk hempty hvendors
    exact ⟨_, _, _, hflush⟩

end

end ulpf_integrity.batcher
