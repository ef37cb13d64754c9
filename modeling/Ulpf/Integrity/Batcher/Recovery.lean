import Ulpf.Integrity.Batcher.Archive
import Ulpf.Integrity.Batcher.Restart
import Ulpf.Integrity.Tamper.Ledger

open Result
open ulpf_integrity.merkle ulpf_integrity.storage ulpf_integrity.tamper

namespace ulpf_integrity.batcher

section

variable (H : Type) [Digest H]

/-- The file of a block has its rows, they name the block, and they verify. -/
structure Block.Stored (disk : Disk H) (block : Block) : Prop where
  parquet_file_eq : block.entry.parquet_file = block_filename block.entry.block_id
  read_eq : ∀ path, read_parquet_file path (disk.storage_dir (block_filename block.entry.block_id)) =
    ok (.ok block.records)
  head_eq : block.records.head?.map (·.block_id) = some block.entry.block_id
  verifies : ∃ report, verify_records H block.records block.entry = ok report ∧
    report.is_valid = true

/-- An archive that accumulators wrote: the ledger file holds the entries of the
    blocks in order of their numbers, and every block is stored. -/
structure Archive (disk : Disk H) (blocks : List Block) : Prop where
  ledger : LedgerOnDisk H disk (blocks.map Block.entry)
  stored : ∀ block ∈ blocks, block.Stored H disk
  graphic : ∀ block ∈ blocks, block.entry.Graphic
  increasing : (blocks.map (·.entry.block_id)).Pairwise (· < ·)

/-- An accumulator that goes on numbering behind the blocks of the archive. -/
def Continues (batcher : BatchAccumulator) (blocks : List Block) : Prop :=
  ∀ block ∈ blocks, block.entry.block_id < batcher.current_block_id

/-- The block of an entry passes verification against the ledger. -/
def BlockVerifies (reader : JsonReader) (config : BatcherConfig) (disk : Disk H)
    (entry : LedgerEntry) : Prop :=
  ∃ report, verify_block_with_ledger H reader disk config.storage_dir entry.parquet_file
      config.ledger_path = ok (.ok report) ∧ report.is_valid = true

/-- The entry is the one of a flush that returned this result. -/
def LedgerEntry.Acknowledges (entry : LedgerEntry) (flushed : BlockFlushResult H) : Prop :=
  entry.block_id = flushed.block_id ∧ entry.merkle_root = Hash.to_hex flushed.merkle_root ∧
    entry.leaf_count = flushed.leaf_count

/-- What a crash should leave: a ledger that loads, now and after any further calls
    that succeed and keep to the types of its numbers, with the entries of all flushes
    that had returned `Ok`, those of the given blocks and the later ones, and with all
    these blocks verifying. -/
def Recovers (reader : JsonReader) (config : BatcherConfig) (disk : Disk H) (blocks : List Block) :
    Prop :=
  ∃ self, BatchAccumulator.new reader config disk = .ok self ∧
    ∀ io calls results self' disk', run H io calls self disk = ok (results, self', disk') →
      (∀ result ∈ results, ∃ value, result = .ok value) →
      (∀ entry ∈ self'.in_memory_ledger, entry.Sized) →
      ∃ entries, load_ledger_entries reader config.ledger_path disk'.ledger = .ok entries ∧
        (∀ block ∈ blocks, block.entry ∈ entries ∧ BlockVerifies H reader config disk' block.entry) ∧
        ∀ flushed, .ok (some flushed) ∈ results → ∃ entry ∈ entries,
          entry.Acknowledges H flushed ∧ BlockVerifies H reader config disk' entry

/-- A crash that lets so many bytes of the ledger line through. -/
def cutAppend (bytes : Nat) : Io where
  fails call := call = .WriteLedger
  message := ""
  ledger_bytes_written := bytes

end

variable {H : Type} [Digest H]

/-- A block that is stored and whose entry the ledger has verifies. -/
theorem Block.Stored.blockVerifies {reader : JsonReader} {config : BatcherConfig} {disk : Disk H}
    {block : Block} (hstored : block.Stored H disk) {entries : List LedgerEntry}
    (hload : load_ledger_entries reader config.ledger_path disk.ledger = .ok entries)
    (hdistinct : (entries.map (·.block_id)).Nodup) (hmem : block.entry ∈ entries) :
    BlockVerifies H reader config disk block.entry := by
  obtain ⟨report, hreport, hvalid⟩ := hstored.verifies
  have htarget : target_block_id block.records block.entry.parquet_file = block.entry.block_id := by
    have hhead := hstored.head_eq
    cases hrecords : block.records with
    | nil => rw [hrecords] at hhead; cases hhead
    | cons first rest =>
      rw [hrecords] at hhead
      exact Option.some_injective _ hhead
  refine ⟨report, ?_, hvalid⟩
  rw [verify_block_with_ledger, hstored.parquet_file_eq, hstored.read_eq, and_then_ok, hload, and_then_ok,
    ← hstored.parquet_file_eq]
  simp only [htarget, find?_block_id_eq hdistinct hmem, hreport, bind_ok]

/-- The block that a file was written for is stored. -/
theorem stored_of_written {env : Env} {self : BatchAccumulator} {disk : Disk H}
    {batch : RecordBatch H} (hne : self.buffer ≠ [])
    (hbatch : records_to_batch (stored_records H env self.current_block_id self.buffer) = ok (.ok batch))
    (hfile : disk.storage_dir (block_filename self.current_block_id) = some (.Parquet [batch])) :
    Block.Stored H disk
      ⟨self.blockEntry H env, stored_records H env self.current_block_id self.buffer⟩ where
  parquet_file_eq := rfl
  read_eq path := by
    rw [← read_stored_records hne hbatch path, ← hfile]
    rfl
  head_eq := by
    obtain ⟨log, logs, hlogs⟩ := List.exists_cons_of_ne_nil hne
    simp [stored_records, hlogs, BatchAccumulator.blockEntry]
  verifies := is_valid_of_holdsLogs (by simp [BatchAccumulator.blockEntry]) rfl
    (holdsLogs_stored_records env _ _)

/-- Blocks with other numbers stay stored when a file is written. -/
theorem Block.Stored.of_storage {disk disk' : Disk H} {block : Block} (hstored : block.Stored H disk)
    {name : String} {file : Option (ParquetFile H)}
    (hstorage : disk'.storage_dir = Function.update disk.storage_dir name file)
    (hname : block_filename block.entry.block_id ≠ name) : block.Stored H disk' where
  parquet_file_eq := hstored.parquet_file_eq
  read_eq path := by rw [hstorage, Function.update_of_ne hname, hstored.read_eq]
  head_eq := hstored.head_eq
  verifies := hstored.verifies

/-- A block behind those of an archive, with its ledger line in full. -/
theorem Archive.append {disk disk' : Disk H} {blocks : List Block} (harchive : Archive H disk blocks)
    {env : Env} {self : BatchAccumulator} (hcontinues : Continues self blocks) {batch : RecordBatch H}
    (hne : self.buffer ≠ [])
    (hbatch : records_to_batch (stored_records H env self.current_block_id self.buffer) = ok (.ok batch))
    (hstorage : disk'.storage_dir = Function.update disk.storage_dir
      (block_filename self.current_block_id) (some (.Parquet [batch])))
    (hledger : disk'.ledger = some (disk.ledger.getD [] ++ ledgerLine (self.blockEntry H env))) :
    Archive H disk' (blocks ++
      [⟨self.blockEntry H env, stored_records H env self.current_block_id self.buffer⟩]) where
  ledger := by
    have hextended : LedgerExtended H disk' disk.ledger [self.blockEntry H env] :=
      .inl (by rw [hledger, ledgerText, List.flatMap_cons, List.flatMap_nil, List.append_nil])
    rw [List.map_append]
    exact harchive.ledger.extended hextended
  stored block hblock := by
    rcases List.mem_append.mp hblock with hold | hnew
    · refine (harchive.stored block hold).of_storage hstorage fun hname => ?_
      exact (hcontinues block hold).ne (block_filename_injective hname)
    · obtain rfl := List.mem_singleton.mp hnew
      exact stored_of_written hne hbatch (by rw [hstorage, Function.update_self])
  graphic block hblock := by
    rcases List.mem_append.mp hblock with hold | hnew
    · exact harchive.graphic block hold
    · obtain rfl := List.mem_singleton.mp hnew
      exact BatchAccumulator.graphic_blockEntry env self
  increasing := by
    rw [List.map_append, List.pairwise_append]
    exact ⟨harchive.increasing, by simp, by simpa [BatchAccumulator.blockEntry, Continues] using hcontinues⟩

/-- A call that returns without an error adds at most its own block to the archive. -/
theorem Archive.exec {disk disk' : Disk H} {blocks : List Block} (harchive : Archive H disk blocks)
    {io : Io} {env : Env} {self self' : BatchAccumulator} (hcontinues : Continues self blocks)
    {call : Call} {result : Option (BlockFlushResult H)}
    (hexec : call.exec H io env self disk = ok (.ok result, self', disk')) :
    ∃ new, Archive H disk' (blocks ++ new) ∧ Continues self' (blocks ++ new) ∧
      self'.in_memory_ledger = self.in_memory_ledger ++ new.map Block.entry ∧
      (disk.ledger ≠ none → disk'.ledger ≠ none) ∧
      ∀ flushed, result = some flushed → ∃ block ∈ new, block.entry.Acknowledges H flushed := by
  have hid := call.accept_current_block_id env self
  have haccept : Continues (call.accept env self) blocks := by
    intro block hblock
    rw [hid]
    exact hcontinues block hblock
  have hmemory := call.accept_in_memory_ledger env self
  have hidle : ∃ new, Archive H disk (blocks ++ new) ∧ Continues (call.accept env self) (blocks ++ new) ∧
      (call.accept env self).in_memory_ledger = self.in_memory_ledger ++ new.map Block.entry ∧
      (disk.ledger ≠ none → disk.ledger ≠ none) ∧ ∀ flushed : BlockFlushResult H, none = some flushed →
        ∃ block ∈ new, block.entry.Acknowledges H flushed :=
    ⟨[], by simpa using harchive, by simpa using haccept, by simpa using hmemory, id, by simp⟩
  rw [Call.exec_eq] at hexec
  split at hexec
  · obtain ⟨-, rfl, rfl, rfl⟩ | ⟨flushed, rfl, hflushed⟩ := BatchAccumulator.flush_of_ok hexec
    · exact hidle
    · obtain ⟨batch, hbatch, hstorage⟩ := hflushed.storage_eq
      refine ⟨_, harchive.append haccept hflushed.buffer_ne hbatch hstorage hflushed.ledger_eq, ?_,
        by rw [hflushed.batcher_eq, ← hmemory]; rfl, ?_, ?_⟩
      · rw [hflushed.batcher_eq]
        intro block hblock
        rcases List.mem_append.mp hblock with hold | hnew
        · exact (haccept block hold).trans (Nat.lt_succ_self _)
        · obtain rfl := List.mem_singleton.mp hnew
          exact Nat.lt_succ_self _
      · simp [hflushed.ledger_eq]
      · intro other hother
        cases hother
        exact ⟨_, List.mem_singleton_self _, hflushed.result_block_id.symm, hflushed.result_root.symm,
          hflushed.result_leaf_count.symm⟩
  · cases hexec
    exact hidle

/-- Calls that return without errors extend the archive by the blocks they report. -/
theorem Archive.run {disk disk' : Disk H} {blocks : List Block} (harchive : Archive H disk blocks)
    {io : Io} {self self' : BatchAccumulator} (hcontinues : Continues self blocks)
    {calls : List (Call × Env)} {results : List (Except String (Option (BlockFlushResult H)))}
    (hrun : run H io calls self disk = ok (results, self', disk'))
    (hok : ∀ result ∈ results, ∃ value, result = .ok value) :
    ∃ new, Archive H disk' (blocks ++ new) ∧
      self'.in_memory_ledger = self.in_memory_ledger ++ new.map Block.entry ∧
      (disk.ledger ≠ none → disk'.ledger ≠ none) ∧
      ∀ flushed, .ok (some flushed) ∈ results → ∃ block ∈ new, block.entry.Acknowledges H flushed := by
  induction calls generalizing disk blocks self results with
  | nil =>
    cases hrun
    exact ⟨[], by simpa using harchive, by simp, id, by simp⟩
  | cons head calls ih =>
    obtain ⟨call, env⟩ := head
    rw [batcher.run] at hrun
    obtain ⟨⟨result, self₁, disk₁⟩, hexec, hrun⟩ := bind_eq_ok_iff.mp hrun
    obtain ⟨⟨rest, self₂, disk₂⟩, hrest, hrun⟩ := bind_eq_ok_iff.mp hrun
    cases hrun
    obtain ⟨value, rfl⟩ := hok result List.mem_cons_self
    obtain ⟨new₁, harchive₁, hcontinues₁, hmemory₁, hledger₁, hflushed₁⟩ :=
      harchive.exec hcontinues hexec
    obtain ⟨new₂, harchive₂, hmemory₂, hledger₂, hflushed₂⟩ := ih harchive₁ hcontinues₁ hrest
      fun result hresult => hok result (List.mem_cons_of_mem _ hresult)
    refine ⟨new₁ ++ new₂, by simpa using harchive₂, by simp [hmemory₁, hmemory₂],
      fun h => hledger₂ (hledger₁ h), ?_⟩
    intro flushed hmem
    rcases List.mem_cons.mp hmem with hhead | htail
    · obtain ⟨block, hblock, hack⟩ := hflushed₁ flushed (Except.ok.inj hhead).symm
      exact ⟨block, List.mem_append_left _ hblock, hack⟩
    · obtain ⟨block, hblock, hack⟩ := hflushed₂ flushed htail
      exact ⟨block, List.mem_append_right _ hblock, hack⟩

/-- An archive with a ledger file recovers, as far as some of its blocks go. -/
theorem Archive.recovers {disk : Disk H} {blocks kept : List Block} (harchive : Archive H disk blocks)
    (hsized : ∀ block ∈ blocks, block.entry.Sized) (hledger : disk.ledger ≠ none)
    (hkept : ∀ block ∈ kept, block ∈ blocks) (reader : JsonReader)
    (config : BatcherConfig) : Recovers H reader config disk kept := by
  obtain ⟨self, hnew, hmemory⟩ := harchive.ledger.new_eq reader config (List.forall_mem_map.mpr hsized)
  have hcontinues : Continues self blocks := by
    obtain ⟨-, hid, -⟩ := BatchAccumulator.new_eq_ok hnew
    intro block hblock
    rw [hid, hmemory]
    refine BatchAccumulator.lt_next_block_id ?_ block.entry (List.mem_map_of_mem hblock)
    rw [List.map_map]
    exact harchive.increasing
  refine ⟨self, hnew, fun io calls results self' disk' hrun hok hsized' => ?_⟩
  obtain ⟨new, harchive', hmemory', hledger', hflushed⟩ := harchive.run hcontinues hrun hok
  rw [hmemory', hmemory, ← List.map_append] at hsized'
  have hload := harchive'.ledger.load_eq reader config.ledger_path hsized' (hledger' hledger)
  have hdistinct : (((blocks ++ new).map Block.entry).map (·.block_id)).Nodup := by
    rw [List.map_map]
    exact harchive'.increasing.imp Nat.ne_of_lt
  have hverifies : ∀ block ∈ blocks ++ new, block.entry ∈ (blocks ++ new).map Block.entry ∧
      BlockVerifies H reader config disk' block.entry := fun block hblock =>
    have hmem := List.mem_map_of_mem hblock
    ⟨hmem, (harchive'.stored block hblock).blockVerifies hload hdistinct hmem⟩
  refine ⟨_, hload, fun block hblock => hverifies block (List.mem_append_left _ (hkept block hblock)),
    fun flushed hmem => ?_⟩
  obtain ⟨block, hblock, hack⟩ := hflushed flushed hmem
  obtain ⟨hentry, hverify⟩ := hverifies block (List.mem_append_right _ hblock)
  exact ⟨block.entry, hentry, hack, hverify⟩

omit [Digest H] in
theorem LedgerOnDisk.getD_eq {disk : Disk H} {entries : List LedgerEntry}
    (hledger : LedgerOnDisk H disk entries) : disk.ledger.getD [] = ledgerText entries := by
  obtain hsome | ⟨hnone, rfl⟩ := hledger
  · rw [hsome, Option.getD_some]
  · rw [hnone]
    rfl

/-- What a crash in the middle of the append leaves on disk. -/
theorem BatchAccumulator.flush_cutAppend {env : Env} {self self' : BatchAccumulator}
    {disk crashed : Disk H} {bytes : Nat} {result : Except String (Option (BlockFlushResult H))}
    (hne : self.buffer ≠ []) (hvendors : distinctVendors (self.buffer.map (·.vendor)) ≤ 128)
    (hcrash : self.flush H (cutAppend bytes) env disk = ok (result, self', crashed)) :
    ∃ batch,
      records_to_batch (stored_records H env self.current_block_id self.buffer) = ok (.ok batch) ∧
      crashed.storage_dir = Function.update disk.storage_dir (block_filename self.current_block_id)
        (some (.Parquet [batch])) ∧
      crashed.ledger = some (disk.ledger.getD [] ++
        (ledgerLine (self.blockEntry H env)).take bytes) := by
  obtain ⟨hmany, -⟩ | ⟨-, batch, flushed, hbatch, -, -, -, hflush⟩ :=
    self.flush_eq (H := H) (cutAppend bytes) env disk hne
  · omega
  · have hdied : self.flush H (cutAppend bytes) env disk = ok (_, _, _) := hflush
    rw [hdied] at hcrash
    cases hcrash
    exact ⟨batch, hbatch, rfl, rfl⟩

/-- As long as the numbers last, one more block can be flushed. -/
theorem exists_run_flushes (H : Type) [Digest H] (env : Env) {self : BatchAccumulator}
    (hempty : self.buffer = []) (hid : self.current_block_id + 1 < 2 ^ 64) (disk : Disk H)
    (log : IncomingLog) :
    ∃ results self' disk', ∃ entry : LedgerEntry, entry.Graphic ∧ entry.Sized ∧
      self'.in_memory_ledger = self.in_memory_ledger ++ [entry] ∧
      run H Io.reliable [(.Push log, env), (.Flush, env)] self disk = ok (results, self', disk') ∧
      (∀ result ∈ results, ∃ value, result = .ok value) ∧
      disk'.ledger = some (disk.ledger.getD [] ++ ledgerLine entry) := by
  have hbuffer : ((Call.Push log).accept env self).buffer = [log] := by simp [Call.accept, hempty]
  obtain ⟨flushed, self₁, disk₁, hflush, hflushed⟩ :=
    ((Call.Push log).accept env self).flushed_of_reliable env disk (by simp [hbuffer])
      ((distinctVendors_le_length _).trans (by simp [hbuffer]))
  have hempty₁ := BatchAccumulator.buffer_eq_nil_of_flush hflush
  have hgraphic := BatchAccumulator.graphic_blockEntry (H := H) env ((Call.Push log).accept env self)
  have hsized : (((Call.Push log).accept env self).blockEntry H env).Sized :=
    ⟨hid, env.now_ms_i64, by simp [BatchAccumulator.blockEntry, hbuffer]⟩
  have hmemory : self₁.in_memory_ledger =
      self.in_memory_ledger ++ [((Call.Push log).accept env self).blockEntry H env] := by
    rw [hflushed.batcher_eq]
    rfl
  have hexec := Call.exec_eq Io.reliable env self disk (Call.Push log)
  by_cases hflushes : (Call.Push log).flushes env self = true
  · have hidle : Call.Flush.exec H Io.reliable env self₁ disk₁ = ok (.ok none, self₁, disk₁) := by
      exact self₁.flush_of_empty Io.reliable env disk₁ hempty₁
    rw [if_pos hflushes, hflush] at hexec
    refine ⟨[.ok (some flushed), .ok none], self₁, disk₁, _, hgraphic, hsized, hmemory, ?_, by simp,
      hflushed.ledger_eq⟩
    simp only [run, hexec, bind_ok, hidle]
  · rw [if_neg hflushes] at hexec
    refine ⟨[.ok none, .ok (some flushed)], self₁, disk₁, _, hgraphic, hsized, hmemory, ?_, by simp,
      hflushed.ledger_eq⟩
    have hlast : Call.Flush.exec H Io.reliable env ((Call.Push log).accept env self) disk = _ := hflush
    simp only [run, hexec, bind_ok, hlast]

/-- When a crash in the middle of a ledger append is recovered from: exactly if none
    or all of the line got into the file, its newline included. Of a line that was cut
    short the loader makes an error, at once or, if only the newline is missing, when
    the next append has joined it. -/
theorem crash_in_append_recovers_iff {reader : JsonReader} (hstrict : reader.Strict)
    {disk : Disk H} {blocks : List Block} (harchive : Archive H disk blocks)
    (hsized : ∀ block ∈ blocks, block.entry.Sized) {self : BatchAccumulator}
    (hcontinues : Continues self blocks) (hnext : self.current_block_id + 2 < 2 ^ 64)
    (hcount : self.buffer.length < 2 ^ 64) (hne : self.buffer ≠ [])
    (hvendors : distinctVendors (self.buffer.map (·.vendor)) ≤ 128) {env : Env} {bytes : Nat}
    {result : Except String (Option (BlockFlushResult H))} {self' : BatchAccumulator}
    {crashed : Disk H}
    (hcrash : self.flush H (cutAppend bytes) env disk = ok (result, self', crashed))
    (config : BatcherConfig) :
    Recovers H reader config crashed blocks ↔
      bytes = 0 ∨ (ledgerLine (self.blockEntry H env)).length ≤ bytes := by
  obtain ⟨batch, hbatch, hstorage, hledger⟩ := BatchAccumulator.flush_cutAppend hne hvendors hcrash
  have hentry : (self.blockEntry H env).Sized := ⟨Nat.lt_of_succ_lt hnext, env.now_ms_i64, hcount⟩
  constructor
  · rintro ⟨fresh, hnew, hrecovers⟩
    by_contra hcut
    obtain ⟨hpos, hshort⟩ := not_or.mp hcut
    have hall : ∀ e ∈ blocks.map Block.entry ++ [self.blockEntry H env], e.Graphic := by
      simp only [List.forall_mem_append, List.forall_mem_map, List.forall_mem_singleton]
      exact ⟨harchive.graphic, BatchAccumulator.graphic_blockEntry env self⟩
    -- The ledger loads as it is only if nothing but the newline is missing.
    obtain ⟨hbuffer, hid, ⟨hnone, -⟩ | hload⟩ := BatchAccumulator.new_eq_ok hnew
    · rw [hledger] at hnone
      cases hnone
    rw [hledger, harchive.ledger.getD_eq, ← List.append_nil (_ ++ _),
      show [] = ledgerText [] from rfl] at hload
    obtain ⟨-, -, hmemory⟩ := eq_nil_of_load_torn hstrict hall (by omega) (by omega) hload
    rw [hmemory, BatchAccumulator.next_block_id, List.getLast?_concat] at hid
    obtain ⟨results, fresh', disk', entry, hgraphic, hentry', hmemory', hrun, hok, hledger'⟩ :=
      exists_run_flushes H env hbuffer (hid ▸ hnext) crashed ⟨"cisco", "deny tcp", none, none, none⟩
    have hsized' : ∀ e ∈ fresh'.in_memory_ledger, e.Sized := by
      rw [hmemory', hmemory]
      simp only [List.forall_mem_append, List.forall_mem_map, List.forall_mem_singleton]
      exact ⟨⟨hsized, hentry⟩, hentry'⟩
    obtain ⟨entries, hload', -⟩ := hrecovers _ _ _ _ _ hrun hok hsized'
    rw [hledger', hledger, Option.getD_some, harchive.ledger.getD_eq,
      show ledgerLine entry = ledgerText [entry] by simp [ledgerText]] at hload'
    have hall' : ∀ e ∈ blocks.map Block.entry ++ self.blockEntry H env :: [entry], e.Graphic := by
      rw [List.append_cons, List.forall_mem_append, List.forall_mem_singleton]
      exact ⟨hall, hgraphic⟩
    obtain ⟨hnone, -⟩ := eq_nil_of_load_torn hstrict hall' (by omega) (by omega) hload'
    cases hnone
  · rintro (rfl | hwhole)
    · have harchive' : Archive H crashed blocks := by
        refine ⟨.inl ?_, fun block hblock => ?_, harchive.graphic, harchive.increasing⟩
        · rw [hledger, List.take_zero, List.append_nil, harchive.ledger.getD_eq]
        · refine (harchive.stored block hblock).of_storage hstorage fun hname => ?_
          exact (hcontinues block hblock).ne (block_filename_injective hname)
      exact harchive'.recovers hsized (by simp [hledger]) (fun _ h => h) reader config
    · rw [List.take_of_length_le hwhole] at hledger
      refine (harchive.append hcontinues hne hbatch hstorage hledger).recovers ?_ (by simp [hledger])
        (fun _ h => List.mem_append_left _ h) reader config
      rw [List.forall_mem_append, List.forall_mem_singleton]
      exact ⟨hsized, hentry⟩

/-- One acknowledged block, and an accumulator with a log for the next one. -/
theorem exists_archive_of_one_block :
    ∃ (flushed : BlockFlushResult Preimage) (self : BatchAccumulator) (disk : Disk Preimage)
      (block : Block),
      (Call.Push ⟨"cisco", "deny tcp", none, none, none⟩).exec Preimage Io.reliable Env.fixed
        eagerBatcher (Disk.empty Preimage) = ok (.ok (some flushed), self, disk) ∧
      self.buffer = [] ∧ self.config = eagerBatcher.config ∧ self.current_block_id = 1 ∧
      Archive Preimage disk [block] ∧ block.entry.Sized ∧ Continues self [block] ∧
      block.entry.Acknowledges Preimage flushed := by
  have hempty : Archive Preimage (Disk.empty Preimage) [] :=
    ⟨.inr ⟨rfl, rfl⟩, by simp, by simp, by simp⟩
  obtain ⟨flushed, self, disk, hflush, hflushed⟩ :=
    BatchAccumulator.flushed_of_reliable (H := Preimage)
      ((Call.Push ⟨"cisco", "deny tcp", none, none, none⟩).accept Env.fixed eagerBatcher) Env.fixed
      (Disk.empty Preimage) (by simp [Call.accept]) (by decide)
  obtain ⟨batch, hbatch, hstorage⟩ := hflushed.storage_eq
  refine ⟨flushed, self, disk, _, ?_, BatchAccumulator.buffer_eq_nil_of_flush hflush, ?_, ?_,
    hempty.append (by simp [Continues]) hflushed.buffer_ne hbatch hstorage hflushed.ledger_eq,
    by decide, ?_, hflushed.result_block_id.symm, hflushed.result_root.symm, hflushed.result_leaf_count.symm⟩
  · rw [Call.exec_push_eq_flush (by decide), hflush]
  · rw [hflushed.batcher_eq]
    rfl
  · rw [hflushed.batcher_eq]
    rfl
  · rw [hflushed.batcher_eq]
    intro block hblock
    obtain rfl := List.mem_singleton.mp hblock
    exact Nat.lt_succ_self _

/-- The second push dies in its append. -/
theorem exists_crash_of_second_push {self : BatchAccumulator} (hbuffer : self.buffer = [])
    (hconfig : self.config = eagerBatcher.config) (disk : Disk Preimage) (bytes : Nat) :
    ∃ e self' crashed,
      ((Call.Push ⟨"cisco", "permit udp", none, none, none⟩).accept Env.fixed self).buffer =
        [⟨"cisco", "permit udp", none, none, none⟩] ∧
      ((Call.Push ⟨"cisco", "permit udp", none, none, none⟩).accept Env.fixed self).flush Preimage
        (cutAppend bytes) Env.fixed disk = ok (.error e, self', crashed) ∧
      (Call.Push ⟨"cisco", "permit udp", none, none, none⟩).exec Preimage (cutAppend bytes) Env.fixed
        self disk = ok (.error e, self', crashed) := by
  have haccepted : ((Call.Push ⟨"cisco", "permit udp", none, none, none⟩).accept Env.fixed self).buffer =
      [⟨"cisco", "permit udp", none, none, none⟩] := by simp [Call.accept, hbuffer]
  obtain ⟨result, self', crashed, hflush, hspec⟩ :=
    ((Call.Push ⟨"cisco", "permit udp", none, none, none⟩).accept Env.fixed self).flush_spec
      (cutAppend bytes) Env.fixed disk
  obtain ⟨hempty, -⟩ | ⟨-, hcalls, -⟩ | ⟨-, -, ⟨e, rfl⟩, -⟩ := hspec
  · rw [haccepted] at hempty
    cases hempty
  · cases hcalls .WriteLedger
  · refine ⟨e, self', crashed, haccepted, hflush, ?_⟩
    rw [Call.exec_push_eq_flush (by rw [hconfig]; decide), hflush]

/-- A crash after one byte of the second line: the ledger with the first block does
    not load any more. -/
theorem crash_after_one_byte_stops_restart :
    ∃ (flushed : BlockFlushResult Preimage) (self : BatchAccumulator) (disk : Disk Preimage)
      (e : String) (self' : BatchAccumulator) (crashed : Disk Preimage) (message : String),
      (Call.Push ⟨"cisco", "deny tcp", none, none, none⟩).exec Preimage Io.reliable Env.fixed
        eagerBatcher (Disk.empty Preimage) = ok (.ok (some flushed), self, disk) ∧
      (Call.Push ⟨"cisco", "permit udp", none, none, none⟩).exec Preimage (cutAppend 1) Env.fixed
        self disk = ok (.error e, self', crashed) ∧
      BatchAccumulator.new LedgerEntry.canonicalReader eagerBatcher.config crashed = .error message := by
  obtain ⟨flushed, self, disk, block, hpush, hbuffer, hconfig, -, harchive, -⟩ :=
    exists_archive_of_one_block
  obtain ⟨e, self', crashed, haccepted, hflush, hcrash⟩ :=
    exists_crash_of_second_push hbuffer hconfig disk 1
  obtain ⟨batch, -, -, hledger⟩ := BatchAccumulator.flush_cutAppend (by simp [haccepted])
    ((distinctVendors_le_length _).trans (by simp [haccepted])) hflush
  cases hnew : BatchAccumulator.new LedgerEntry.canonicalReader eagerBatcher.config crashed with
  | error message => exact ⟨flushed, self, disk, e, self', crashed, message, hpush, hcrash, hnew⟩
  | ok fresh =>
    obtain ⟨-, -, ⟨hnone, -⟩ | hload⟩ := BatchAccumulator.new_eq_ok hnew
    · rw [hledger] at hnone
      cases hnone
    · generalize (Call.Push ⟨"cisco", "permit udp", none, none, none⟩).accept Env.fixed self = batcher
        at hledger
      obtain ⟨s, hs⟩ := (batcher.blockEntry Preimage Env.fixed).to_json_eq_cons
      have hgraphic := BatchAccumulator.graphic_blockEntry (H := Preimage) Env.fixed batcher
      have hlength := hgraphic.length_ledgerLine
      rw [hs, List.length_cons, List.length_cons] at hlength
      rw [hledger, harchive.ledger.getD_eq] at hload
      have hall : ∀ entry ∈ [block].map Block.entry ++ [batcher.blockEntry Preimage Env.fixed],
          entry.Graphic := by
        simpa using ⟨harchive.graphic block (by simp), hgraphic⟩
      rw [← List.append_nil (_ ++ _), show [] = ledgerText [] from rfl] at hload
      obtain ⟨-, hbytes, -⟩ := eq_nil_of_load_torn LedgerEntry.strict_canonicalReader hall Nat.one_pos
        (by omega) hload
      rw [hs, List.length_cons, List.length_cons] at hbytes
      omega

/-- A crash before the first byte of the second line is recovered from. -/
theorem crash_before_first_byte_recovers :
    ∃ (flushed : BlockFlushResult Preimage) (self : BatchAccumulator) (disk : Disk Preimage)
      (block : Block) (e : String) (self' : BatchAccumulator) (crashed : Disk Preimage),
      (Call.Push ⟨"cisco", "deny tcp", none, none, none⟩).exec Preimage Io.reliable Env.fixed
        eagerBatcher (Disk.empty Preimage) = ok (.ok (some flushed), self, disk) ∧
      block.entry.Acknowledges Preimage flushed ∧
      (Call.Push ⟨"cisco", "permit udp", none, none, none⟩).exec Preimage (cutAppend 0) Env.fixed
        self disk = ok (.error e, self', crashed) ∧
      Recovers Preimage LedgerEntry.canonicalReader eagerBatcher.config crashed [block] := by
  obtain ⟨flushed, self, disk, block, hpush, hbuffer, hconfig, hid, harchive, hsized, hcontinues, hack⟩ :=
    exists_archive_of_one_block
  obtain ⟨e, self', crashed, haccepted, hflush, hcrash⟩ :=
    exists_crash_of_second_push hbuffer hconfig disk 0
  refine ⟨flushed, self, disk, block, e, self', crashed, hpush, hack, hcrash, ?_⟩
  refine (crash_in_append_recovers_iff LedgerEntry.strict_canonicalReader harchive
    (List.forall_mem_singleton.mpr hsized) ?_ ?_ ?_ ?_ ?_ hflush _).mpr (.inl rfl)
  · exact hcontinues
  · rw [Call.accept_current_block_id, hid]
    decide
  · simp [haccepted]
  · simp [haccepted]
  · exact (distinctVendors_le_length _).trans (by simp [haccepted])

end ulpf_integrity.batcher
