import Ulpf.Core.EventJson
import Ulpf.Integrity.Batcher.Contents
import Ulpf.Cli.Provenance

open Result
open ulpf_core.parser ulpf_core.parser.extractors ulpf_core.schema.ocsf
open ulpf_integrity.batcher ulpf_integrity.merkle ulpf_integrity.storage

namespace ulpf_cli.ingest

/-- A line of an archive, the event that it was parsed to and the row that holds it. -/
structure ArchivedLine where
  line : Line
  event : NetworkActivity
  row : StoredLogRecord

section

variable (H : Type) [Digest H] (crates : Crates)

/-- The event of the line has times and counters of their types. -/
def Line.Sized (line : Line) : Prop :=
  ∀ event, UniversalParser.parse_lossless H crates line.reading line.fallback line.raw_log.toList =
    ok event → event.Sized

/-- The row has the line as it came and the event that it was parsed to. -/
structure ArchivedLine.Sound (entry : ArchivedLine) : Prop where
  parsed : UniversalParser.parse_lossless H crates entry.line.reading entry.line.fallback
    entry.line.raw_log.toList = ok entry.event
  raw_log : entry.row.raw_log = entry.line.raw_log
  raw_hash : entry.row.raw_hash = digest_hex H entry.line.raw_log.as_bytes
  event_id : entry.row.event_id = entry.event.metadata.event_id
  vendor : entry.row.vendor = entry.event.metadata.product.vendor_name
  timestamp : entry.row.timestamp = entry.event.time
  ocsf_json : entry.row.ocsf_json = entry.event.to_json

/-- The file of the block has these lines. -/
structure HoldsLines (disk : Disk H) (block_id : Nat) (archived : List ArchivedLine) : Prop where
  read : ∀ path, read_parquet_file path (disk.storage_dir (block_filename block_id)) =
    ok (.ok (archived.map ArchivedLine.row))
  sound : ∀ entry ∈ archived, entry.Sound H crates
  numbered : ∀ i (hi : i < archived.length), archived[i].row.block_id = block_id ∧
    archived[i].row.leaf_index = UInt32.ofNat i

/-- The archive has these blocks behind those that the session started from: every file has its
    lines and verifies against its entry, and the entries went to the ledger. -/
structure ArchiveOf (session : Session) (disk : Disk H) (blocks : List (List ArchivedLine)) :
    Prop where
  nonempty : ∀ archived ∈ blocks, archived ≠ []
  holds : ∀ (j : Nat) (archived : List ArchivedLine), blocks[j]? = some archived →
    HoldsLines H crates disk (session.first_block_id + j) archived
  ledger : ∃ entries : List LedgerEntry, LedgerExtended H disk session.ledger entries ∧
    entries.length = blocks.length ∧
    ∀ (j : Nat) (archived : List ArchivedLine) (entry : LedgerEntry), blocks[j]? = some archived →
      entries[j]? = some entry →
      Block.Archived H disk (session.first_block_id + j) ⟨entry, archived.map ArchivedLine.row⟩

/-- An ingest that ends without an error: the batcher goes on with the archive that it finds, the
    lines are processed in turn, and the rest of the buffer is flushed. The numbers of the blocks,
    which are at most as many as the lines, stay within their type. -/
def Ingests (reader : JsonReader) (config : BatcherConfig) (disk : Disk H) (lines : List Line)
    (disk' : Disk H) : Prop :=
  ∃ (worker worker' : Worker H) (io io' : Io) (env : Env) (batcher' : BatchAccumulator)
      (result : Option (BlockFlushResult H)),
    BatchAccumulator.new reader config disk = .ok worker.batcher ∧
    worker.batcher.current_block_id + lines.length < 2 ^ 64 ∧ worker.disk = disk ∧
    worker.feed crates NetworkActivity.to_json io lines = ok (.ok (), worker') ∧
    worker'.batcher.flush H io' env worker'.disk = ok (.ok result, batcher', disk')

end

variable {H : Type} [Digest H] {crates : Crates}

theorem ArchivedLine.Sound.wellFormed {entry : ArchivedLine} (h : entry.Sound H crates) :
    entry.event.WellFormed :=
  (UniversalParser.conforms_of_parse_lossless h.parsed).wellFormed

/-- The event of a line can be read back from the archive. -/
theorem ArchivedLine.Sound.from_json (hcrates : crates.ReadsBack) {entry : ArchivedLine}
    (h : entry.Sound H crates) (hsized : entry.event.Sized) :
    NetworkActivity.from_json crates entry.row.ocsf_json = some entry.event := by
  rw [h.ocsf_json]
  exact NetworkActivity.from_json_to_json hcrates h.wellFormed hsized

/-- The events of a block of sized lines are sized. -/
theorem HoldsLines.sized {disk : Disk H} {block_id j : Nat} {lines : List Line}
    (hsized : ∀ line ∈ lines, line.Sized H crates) {blocks : List (List ArchivedLine)}
    (hlines : blocks.flatten.map ArchivedLine.line = lines) {archived : List ArchivedLine}
    (harchived : blocks[j]? = some archived) (h : HoldsLines H crates disk block_id archived) :
    ∀ entry ∈ archived, entry.event.Sized := by
  intro entry hentry
  refine hsized entry.line ?_ _ (h.sound entry hentry).parsed
  rw [← hlines]
  exact List.mem_map_of_mem (List.mem_flatten_of_mem (List.mem_of_getElem? harchived) hentry)

section

variable {lines : List Line} {logs : List IncomingLog}

theorem exists_archived_of_forall₂ {rows : List StoredLogRecord}
    (h : List.Forall₂ (fun line row => ∃ event, ArchivedLine.Sound H crates ⟨line, event, row⟩)
      lines rows) :
    ∃ archived : List ArchivedLine, archived.map ArchivedLine.line = lines ∧
      archived.map ArchivedLine.row = rows ∧ ∀ entry ∈ archived, entry.Sound H crates := by
  induction h with
  | nil => exact ⟨[], rfl, rfl, by simp⟩
  | @cons line row lines rows hsound hrest ih =>
    obtain ⟨event, hevent⟩ := hsound
    obtain ⟨archived, rfl, rfl, hall⟩ := ih
    exact ⟨⟨line, event, row⟩ :: archived, rfl, rfl, List.forall_mem_cons.mpr ⟨hevent, hall⟩⟩

/-- The rows that a flush makes of the logs of some lines hold these lines. -/
theorem exists_archived_of_incoming
    (hlines : List.Forall₂ (fun line log => line.incoming H crates NetworkActivity.to_json = ok log)
      lines logs) (env : Env) (block_id : Nat) :
    ∃ archived : List ArchivedLine, archived.map ArchivedLine.line = lines ∧
      archived.map ArchivedLine.row = stored_records H env block_id logs ∧
      ∀ entry ∈ archived, entry.Sound H crates := by
  apply exists_archived_of_forall₂
  rw [List.forall₂_iff_get] at hlines ⊢
  obtain ⟨hlength, hlog⟩ := hlines
  refine ⟨by rw [length_stored_records, hlength], fun i hline hrow => ?_⟩
  obtain ⟨event, hparse, hincoming⟩ := bind_eq_ok_iff.mp (hlog i hline (hlength ▸ hline))
  have hi : i < logs.length := hlength ▸ hline
  have hitem : logs[i] = (Event.of_activity NetworkActivity.to_json event).incoming
      lines[i].raw_log := (Result.ok.inj hincoming).symm
  refine ⟨event, hparse, ?_, ?_, ?_, ?_, ?_, ?_⟩ <;>
    simp [stored_records, hitem, Event.incoming, Event.of_activity]

/-- The lines of several batches, with the blocks that the batches became. -/
theorem exists_blocks_of_incoming {batches : List Batch}
    (hlines : List.Forall₂ (fun line log => line.incoming H crates NetworkActivity.to_json = ok log)
      lines (batches.flatMap Batch.logs)) (first_block_id : Nat) :
    ∃ blocks : List (List ArchivedLine), blocks.flatten.map ArchivedLine.line = lines ∧
      List.Forall₂ (fun archived block => archived.map ArchivedLine.row = block.records ∧
        ∀ entry ∈ archived, entry.Sound H crates) blocks (blocksOf H first_block_id batches) := by
  induction batches generalizing lines first_block_id with
  | nil =>
    cases hlines
    exact ⟨[], rfl, .nil⟩
  | cons batch batches ih =>
    rw [List.flatMap_cons] at hlines
    obtain ⟨archived, hline, hrow, hsound⟩ := exists_archived_of_incoming
      (List.forall₂_take_append _ _ _ hlines) batch.env first_block_id
    obtain ⟨blocks, hrest, hblocks⟩ :=
      ih (List.forall₂_drop_append _ _ _ hlines) (first_block_id + 1)
    refine ⟨archived :: blocks, ?_, ?_⟩
    · rw [List.flatten_cons, List.map_append, hline, hrest, List.take_append_drop]
    · rw [blocksOf_cons]
      exact .cons ⟨hrow, hsound⟩ hblocks

/-- The lines of the consumer in turn: the batcher has a log for each of them. -/
theorem Worker.contains_feed {to_json : NetworkActivity → String} {io : Io} {session : Session}
    {batches : List Batch} {worker worker' : Worker H}
    (h : Contains H session batches worker.batcher worker.disk)
    (hfeed : worker.feed crates to_json io lines = ok (.ok (), worker')) :
    ∃ new logs, List.Forall₂ (fun line log => line.incoming H crates to_json = ok log) lines logs ∧
      Contains H session (batches ++ new) worker'.batcher worker'.disk ∧
      new.flatMap Batch.logs ++ worker'.batcher.buffer = worker.batcher.buffer ++ logs := by
  induction lines generalizing worker batches with
  | nil =>
    cases hfeed
    exact ⟨[], [], .nil, by simpa using h, by simp⟩
  | cons line lines ih =>
    rw [Worker.feed] at hfeed
    obtain ⟨⟨result, worker₁⟩, hprocess, hfeed⟩ := bind_eq_ok_iff.mp hfeed
    cases hlog : line.incoming H crates to_json with
    | panic =>
      rw [Worker.process_panic worker hlog] at hprocess
      cases hprocess
    | ok log =>
      obtain ⟨pushed, batcher', disk', worker₂, hexec, hprocess', rfl, rfl⟩ :=
        Worker.process_spec worker hlog io
      rw [hprocess'] at hprocess
      cases hprocess
      cases pushed with
      | error e => cases hfeed
      | ok value =>
        obtain ⟨new, hcontains, hnew⟩ := h.exec hexec
        obtain ⟨new₂, logs, hlogs, hcontains₂, hnew₂⟩ := ih hcontains hfeed
        refine ⟨new ++ new₂, log :: logs, .cons hlog hlogs, ?_, ?_⟩
        · rw [← List.append_assoc]
          exact hcontains₂
        · rw [List.flatMap_append, List.append_assoc, hnew₂, ← List.append_assoc, hnew]
          simp [Call.logs]

end

theorem HoldsLines.of_archived {disk : Disk H} {block_id : Nat} {batch : Batch}
    {archived : List ArchivedLine} (hblock : (batch.block H block_id).Archived H disk block_id)
    (hrow : archived.map ArchivedLine.row = (batch.block H block_id).records)
    (hsound : ∀ entry ∈ archived, entry.Sound H crates) : HoldsLines H crates disk block_id archived where
  read := by
    rw [hrow]
    exact hblock.read_eq
  sound := hsound
  numbered := by
    intro i hi
    have hlength : archived.length = (batch.block H block_id).records.length := by
      rw [← hrow, List.length_map]
    have hget : archived[i].row = (batch.block H block_id).records[i] := by
      rw [← List.getElem_of_eq hrow (by simpa using hi), List.getElem_map]
    rw [hget]
    exact ⟨by simp [Batch.block, stored_records], hblock.leaf_index_eq i (hlength ▸ hi)⟩

theorem ArchiveOf.of_contains {session : Session} {batches : List Batch}
    {batcher : BatchAccumulator} {disk : Disk H} (h : Contains H session batches batcher disk)
    {blocks : List (List ArchivedLine)}
    (hblocks : List.Forall₂ (fun archived block => archived.map ArchivedLine.row = block.records ∧
      ∀ entry ∈ archived, entry.Sound H crates) blocks (blocksOf H session.first_block_id batches)) :
    ArchiveOf H crates session disk blocks := by
  rw [List.forall₂_iff_get] at hblocks
  obtain ⟨hlength, hrow⟩ := hblocks
  rw [length_blocksOf] at hlength
  have hblock : ∀ (j : Nat) (archived : List ArchivedLine), blocks[j]? = some archived →
      ∃ batch : Batch, batches[j]? = some batch ∧
        archived.map ArchivedLine.row = (batch.block H (session.first_block_id + j)).records ∧
        ∀ entry ∈ archived, entry.Sound H crates := by
    intro j archived harchived
    obtain ⟨hj, rfl⟩ := List.getElem?_eq_some_iff.mp harchived
    have hj' : j < batches.length := hlength ▸ hj
    refine ⟨batches[j], List.getElem?_eq_getElem hj', ?_⟩
    simpa [blocksOf] using hrow j hj (by simpa using hj')
  refine ⟨?_, ?_, (blocksOf H session.first_block_id batches).map Block.entry,
    h.accounts.ledger_extended, by simp [hlength], ?_⟩
  · intro archived hmem
    obtain ⟨j, hj, rfl⟩ := List.mem_iff_getElem.mp hmem
    obtain ⟨batch, hbatch, hrows, -⟩ := hblock j _ (List.getElem?_eq_getElem hj)
    have hpos := (h.accounts.rows _ (mem_blocksOf_of_getElem? hbatch)).1
    rw [← hrows, List.length_map] at hpos
    exact List.ne_nil_of_length_pos hpos
  · intro j archived harchived
    obtain ⟨batch, hbatch, hrows, hsound⟩ := hblock j archived harchived
    exact .of_archived (h.archived hbatch) hrows hsound
  · intro j archived entry harchived hentry
    obtain ⟨batch, hbatch, hrows, -⟩ := hblock j archived harchived
    have hentry' : entry = (batch.block H (session.first_block_id + j)).entry := by
      obtain ⟨hj, rfl⟩ := List.getElem?_eq_some_iff.mp hbatch
      simpa [blocksOf, hj, eq_comm] using hentry
    rw [hentry', hrows]
    exact h.archived hbatch

/-- The blocks of an ingest are in the order of the lines, and each has its own lines. -/
theorem Ingests.exists_blocks {reader : JsonReader} {config : BatcherConfig} {disk disk' : Disk H}
    {lines : List Line} (h : Ingests H crates reader config disk lines disk') :
    ∃ (batcher : BatchAccumulator) (blocks : List (List ArchivedLine)),
      BatchAccumulator.new reader config disk = .ok batcher ∧
      batcher.current_block_id + lines.length < 2 ^ 64 ∧
      blocks.flatten.map ArchivedLine.line = lines ∧
      ArchiveOf H crates ⟨config, disk.ledger, batcher.in_memory_ledger⟩ disk' blocks := by
  obtain ⟨worker, worker', io, io', env, batcher', result, hnew, hroom, rfl, hfeed, hflush⟩ := h
  have hstart := Contains.of_new hnew
  obtain ⟨batches, logs, hlogs, hcontains, hfed⟩ := Worker.contains_feed hstart hfeed
  have hexec : Call.Flush.exec H io' env worker'.batcher worker'.disk =
      ok (.ok result, batcher', disk') := hflush
  obtain ⟨last, hcontains, hlast⟩ := hcontains.exec hexec
  obtain ⟨hbuffer, -, -⟩ := BatchAccumulator.new_eq_ok hnew
  rw [BatchAccumulator.buffer_eq_nil_of_flush hflush, List.append_nil] at hlast
  have hall : (batches ++ last).flatMap Batch.logs = logs := by
    rw [List.flatMap_append, hlast, Call.logs, List.append_nil, hfed, hbuffer, List.nil_append]
  rw [← hall] at hlogs
  obtain ⟨blocks, hlines, hblocks⟩ := exists_blocks_of_incoming hlogs
    (Session.first_block_id ⟨config, worker.disk.ledger, worker.batcher.in_memory_ledger⟩)
  exact ⟨worker.batcher, blocks, hnew, hroom, hlines, .of_contains hcontains hblocks⟩

/-- Without an error of the file system, lines that the extractors get through are ingested, in
    batches that have no more logs than a block can have vendors. -/
theorem exists_ingests {reader : JsonReader} {config : BatcherConfig} {disk : Disk H}
    {lines : List Line} (hsize : config.max_batch_size ≤ 128)
    (hlines : ∀ line ∈ lines, UniversalParser.Reads line.raw_log.toList
      (classifier.Classifier.classify line.raw_log.toList))
    {batcher : BatchAccumulator} (hnew : BatchAccumulator.new reader config disk = .ok batcher)
    (hroom : batcher.current_block_id + lines.length < 2 ^ 64) :
    ∃ disk', Ingests H crates reader config disk lines disk' := by
  let worker : Worker H :=
    { miner := ulpf_ai.drain.DrainMiner.new ulpf_ai.drain.DrainConfig.default
      batcher, disk, total_parsed := 0, total_anomalies := 0, total_blocks := 0 }
  have hstart : Contains H _ [] worker.batcher worker.disk := Contains.of_new hnew
  have hconfig : worker.batcher.config = config := hstart.accounts.config_eq
  obtain ⟨worker', hfeed, hshort⟩ := Worker.exists_feed crates NetworkActivity.to_json hlines
    (hconfig ▸ hsize) hstart.buffer_lt
  obtain ⟨result, batcher', disk', hflush⟩ := worker'.exists_flush hshort Env.fixed
  exact ⟨disk', worker, worker', _, _, _, batcher', result, hnew, hroom, rfl, hfeed, hflush⟩

/-- The archive is lossless. Lines that the extractors get through are ingested, unless a write
    fails; and however they are ingested, the new blocks have them in order, each in the row of its
    place, and the event that a line was parsed to can be read back from its row. -/
theorem ingested_events_read_back (hcrates : crates.ReadsBack) {reader : JsonReader}
    {config : BatcherConfig} {disk : Disk H} {batcher : BatchAccumulator}
    (hnew : BatchAccumulator.new reader config disk = .ok batcher) {lines : List Line}
    (hsized : ∀ line ∈ lines, line.Sized H crates) :
    (config.max_batch_size ≤ 128 → batcher.current_block_id + lines.length < 2 ^ 64 →
      (∀ line ∈ lines, UniversalParser.Reads line.raw_log.toList
        (classifier.Classifier.classify line.raw_log.toList)) →
      ∃ disk', Ingests H crates reader config disk lines disk') ∧
    ∀ disk', Ingests H crates reader config disk lines disk' →
      ∃ blocks : List (List ArchivedLine), blocks.flatten.map ArchivedLine.line = lines ∧
        ∀ (j : Nat) (archived : List ArchivedLine), blocks[j]? = some archived →
          HoldsLines H crates disk' (batcher.current_block_id + j) archived ∧
          ∀ entry ∈ archived,
            NetworkActivity.from_json crates entry.row.ocsf_json = some entry.event := by
  refine ⟨fun hsize hroom hlines => exists_ingests hsize hlines hnew hroom, fun disk' hingests => ?_⟩
  obtain ⟨batcher', blocks, hnew', -, hlines, harchive⟩ := hingests.exists_blocks
  cases hnew.symm.trans hnew'
  have hid : batcher.current_block_id = BatchAccumulator.next_block_id batcher.in_memory_ledger :=
    (Contains.of_new hnew).accounts.current_block_id_eq
  refine ⟨blocks, hlines, fun j archived harchived => ?_⟩
  have hholds := harchive.holds j archived harchived
  rw [hid]
  exact ⟨hholds, fun entry hentry => (hholds.sound entry hentry).from_json hcrates
    (hholds.sized hsized hlines harchived entry hentry)⟩

/-- The event of a line that was not parsed has the time of the fallback. -/
theorem sized_lossless_event {fallback : Reading} (hnow : json.I64 fallback.now_ms)
    (raw : List Char) (err : String) :
    (UniversalParser.lossless_event H fallback raw err).Sized := by
  rw [UniversalParser.lossless_event, NetworkActivity.with_unmapped_eq]
  exact ⟨hnow, hnow, by simp [NetworkActivity.new]⟩

theorem sized_plainLines :
    ∀ line ∈ [plainLine "hello", plainLine "world"], line.Sized H Crates.layout := by
  have hclass : ∀ raw_log ∈ ["hello", "world"],
      classifier.Classifier.classify raw_log.toList = .Unknown := by decide +kernel
  intro line hline event hparse
  obtain ⟨raw_log, hmem, rfl⟩ := List.mem_map.mp (show line ∈ ["hello", "world"].map plainLine from hline)
  have hunknown : classifier.Classifier.classify (plainLine raw_log).raw_log.toList = .Unknown :=
    hclass raw_log hmem
  rw [UniversalParser.parse_lossless, UniversalParser.parse, hunknown] at hparse
  cases hparse
  exact sized_lossless_event (show json.I64 0 by decide) _ _

def smallBatches : BatcherConfig := ⟨2, 2000, "data/parquet", "data/ledger.jsonl"⟩

theorem new_smallBatches : BatchAccumulator.new LedgerEntry.layoutReader smallBatches
    (Disk.empty Preimage) = .ok ⟨smallBatches, [], none, 0, []⟩ := rfl

theorem exists_ingests_plainLines : ∃ disk', Ingests Preimage Crates.layout LedgerEntry.layoutReader
    smallBatches (Disk.empty Preimage) [plainLine "hello", plainLine "world"] disk' :=
  exists_ingests (by decide) reads_plainLines new_smallBatches (by decide)

/-- Two lines go into one block, and both events are read back from it. -/
theorem ingested_events_read_back_two_lines :
    ∃ disk', Ingests Preimage Crates.layout LedgerEntry.layoutReader smallBatches
        (Disk.empty Preimage) [plainLine "hello", plainLine "world"] disk' ∧
      ∃ blocks : List (List ArchivedLine),
        blocks.flatten.map ArchivedLine.line = [plainLine "hello", plainLine "world"] ∧
        ∀ (j : Nat) (archived : List ArchivedLine), blocks[j]? = some archived →
          HoldsLines Preimage Crates.layout disk' (0 + j) archived ∧ ∀ entry ∈ archived,
            NetworkActivity.from_json Crates.layout entry.row.ocsf_json = some entry.event := by
  obtain ⟨disk', hingests⟩ := exists_ingests_plainLines
  exact ⟨disk', hingests, (ingested_events_read_back Crates.layout_readsBack new_smallBatches
    sized_plainLines).2 disk' hingests⟩

end ulpf_cli.ingest
