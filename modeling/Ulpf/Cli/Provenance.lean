import Ulpf.Integrity.Batcher.Restart
import Ulpf.Ai.Pipeline
import Ulpf.Cli.Process

open Result
open ulpf_core.parser ulpf_core.parser.classifier ulpf_core.parser.lru_cache
open ulpf_core.schema.ocsf ulpf_ai.onboarder ulpf_ai.pipeline
open ulpf_integrity.batcher ulpf_integrity.merkle ulpf_integrity.storage

/-- The event carries the line and its digest. -/
structure ulpf_core.parser.Traces (H : Type) [Digest H] (raw : List Char) (event : NetworkActivity) : Prop where
  raw_data : event.metadata.raw_data = String.ofList raw
  raw_hash : event.metadata.raw_hash = digest_hex H (str.bytes raw)

@[simp] theorem ulpf_core.schema.ocsf.NetworkActivity.metadata_with_unmapped
    (self : NetworkActivity) (unmapped : HashMap String String) :
    (self.with_unmapped unmapped).metadata = self.metadata := by
  unfold with_unmapped
  split <;> rfl

section

variable {H : Type} [Digest H] {crates : Crates} {raw : List Char} {event : NetworkActivity}

namespace ulpf_core.parser.UniversalParser

theorem traces_stamp (reading : Reading) (raw : List Char) (activity : NetworkActivity) :
    Traces H raw (stamp H reading raw activity) := ⟨rfl, rfl⟩

theorem traces_lossless_event (fallback : Reading) (raw : List Char) (err : String) :
    Traces H raw (lossless_event H fallback raw err) := by
  constructor <;> simp [lossless_event, NetworkActivity.new, compute_sha256]

theorem traces_or_lossless {parsed : Except String NetworkActivity}
    (hparsed : ∀ event, parsed = .ok event → Traces H raw event) (fallback : Reading) :
    Traces H raw (or_lossless H fallback raw parsed) := by
  cases parsed with
  | ok event => exact hparsed event rfl
  | error err => exact traces_lossless_event fallback raw err

theorem traces_of_parse_with_format {reading : Reading} {format : VendorFormat}
    (hparse : parse_with_format H crates reading raw format = ok (.ok event)) :
    Traces H raw event := by
  obtain ⟨activity, -, hstamp⟩ := and_then_eq_ok_iff.mp hparse
  cases hstamp
  exact traces_stamp reading raw activity

theorem traces_of_parse_lossless {reading fallback : Reading}
    (hparse : parse_lossless H crates reading fallback raw = ok event) : Traces H raw event := by
  obtain ⟨parsed, hparsed, hevent⟩ := bind_eq_ok_iff.mp hparse
  cases hevent
  apply traces_or_lossless
  rintro activity rfl
  exact traces_of_parse_with_format hparsed

theorem traces_of_parse_cached_lossless {reading fallback : Reading}
    {cache cache' : SignatureLruCache}
    (hparse : parse_cached_lossless H crates reading fallback cache raw = ok (event, cache')) :
    Traces H raw event := by
  obtain ⟨⟨parsed, after⟩, hcached, hevent⟩ := bind_eq_ok_iff.mp hparse
  obtain ⟨sig_hash, -, hcached⟩ := bind_eq_ok_iff.mp hcached
  obtain ⟨parsed', hparsed, hsame⟩ := bind_eq_ok_iff.mp hcached
  cases hsame
  cases hevent
  apply traces_or_lossless
  rintro activity rfl
  exact traces_of_parse_with_format hparsed

end ulpf_core.parser.UniversalParser

namespace ulpf_ai.onboarder

theorem ParserDefinition.traces_of_parse_with_regex {reading : Reading} {self : ParserDefinition}
    {compiled_re : String}
    (hparse : self.parse_with_regex H crates reading compiled_re raw = ok (.ok event)) :
    Traces H raw event := by
  unfold parse_with_regex at hparse
  split at hparse
  · cases hparse
  dsimp only at hparse
  -- the ten groups with a field of their own, and the others
  iterate 11 obtain ⟨_, -, hparse⟩ := bind_eq_ok_iff.mp hparse
  cases hparse
  constructor <;> simp [NetworkActivity.new, compute_sha256]

end ulpf_ai.onboarder

namespace ulpf_ai.pipeline.TieredPipeline

variable {clock : Clock} {sig_hash : UInt64} {self after : TieredPipeline}

theorem traces_of_parse_with_format {format : VendorFormat}
    (hparse : parse_with_format H crates clock raw format = ok event) : Traces H raw event := by
  obtain ⟨parsed, hparsed, hparse⟩ := bind_eq_ok_iff.mp hparse
  cases parsed with
  | ok activity =>
    cases hparse
    exact UniversalParser.traces_of_parse_with_format hparsed
  | error e => exact UniversalParser.traces_of_parse_lossless hparse

theorem traces_of_follow_route
    (hroute : self.follow_route H crates clock sig_hash raw = ok (some event, after)) :
    Traces H raw event := by
  obtain ⟨hnone, -⟩ | ⟨key, registry, -, hparsed, -⟩ := follow_route_cases H crates clock hroute
  · cases hnone
  · obtain ⟨parser, re, hparsed⟩ := DynamicParserRegistry.exists_of_parse_key hparsed
    exact ParserDefinition.traces_of_parse_with_regex hparsed

theorem traces_of_parse_pinned
    (hparse : self.parse_pinned H crates clock raw sig_hash = ok (event, after)) :
    Traces H raw event := by
  obtain ⟨-, hnative, -⟩ | ⟨-, key, registry, hkeyed, -⟩ | ⟨hlossless, -⟩ :=
    parse_pinned_cases H crates clock hparse
  · exact UniversalParser.traces_of_parse_with_format hnative
  · obtain ⟨parser, re, hparsed⟩ := DynamicParserRegistry.exists_of_parse_any_keyed hkeyed
    exact ParserDefinition.traces_of_parse_with_regex hparsed
  · exact UniversalParser.traces_of_parse_lossless hlossless

theorem traces_of_process (hprocess : self.process H crates clock raw = ok (event, after)) :
    Traces H raw event := by
  obtain ⟨sig_hash, -, hprocess⟩ := bind_eq_ok_iff.mp hprocess
  dsimp only at hprocess
  split at hprocess
  · obtain ⟨activity, hparse, hprocess⟩ := bind_eq_ok_iff.mp hprocess
    cases hprocess
    exact traces_of_parse_with_format hparse
  · obtain ⟨⟨routed, followed⟩, hroute, hprocess⟩ := bind_eq_ok_iff.mp hprocess
    cases routed with
    | some activity =>
      cases hprocess
      exact traces_of_follow_route hroute
    | none =>
      obtain ⟨mined, -, hprocess⟩ := bind_eq_ok_iff.mp hprocess
      exact traces_of_parse_pinned hprocess

end ulpf_ai.pipeline.TieredPipeline

end

namespace ulpf_cli.ingest

/-- A block and the lines that went into it. -/
structure FlushedLines where
  block_id : Nat
  lines : List Line

section

variable {H : Type} [Digest H] (crates : Crates) (to_json : NetworkActivity → String)

/-- A row has the line, the digest and the id of the event that the line was parsed to. -/
def Line.Matches (H : Type) [Digest H] (line : Line) (record : StoredLogRecord) : Prop :=
  ∃ event, UniversalParser.parse_lossless H crates line.reading line.fallback line.raw_log.toList =
      ok event ∧
    record.raw_log = event.metadata.raw_data ∧ record.raw_hash = event.metadata.raw_hash ∧
    record.event_id = event.metadata.event_id

/-- The file of the block reads back as one row for each of its lines. -/
def FlushedLines.ReadsBack (disk : Disk H) (block : FlushedLines) : Prop :=
  ∃ records : List StoredLogRecord,
    (∀ path, read_parquet_file path (disk.storage_dir (block_filename block.block_id)) =
      ok (.ok records)) ∧
    List.Forall₂ (Line.Matches crates H) block.lines records

/-- The lines that a consumer has taken are in the blocks that it flushed, which are those that its
    ledger has behind the entries it started with, and in its buffer. -/
structure Holds (loaded : List LedgerEntry) (batcher : BatchAccumulator) (disk : Disk H)
    (blocks : List FlushedLines) (pending : List Line) : Prop where
  ledger : batcher.in_memory_ledger.map (·.block_id) =
    loaded.map (·.block_id) ++ blocks.map FlushedLines.block_id
  pending : List.Forall₂ (fun line log => line.incoming H crates to_json = ok log) pending
    batcher.buffer
  older : ∀ block ∈ blocks, block.block_id < batcher.current_block_id
  blocks : ∀ block ∈ blocks, block.ReadsBack crates disk

variable {crates to_json}

/-- The row that a flush makes of the log of a line matches the line. -/
theorem Line.matches_of_incoming {line : Line} {log : IncomingLog}
    (hlog : line.incoming H crates to_json = ok log) {record : StoredLogRecord}
    (hraw_log : record.raw_log = log.raw_log)
    (hraw_hash : record.raw_hash = digest_hex H log.raw_log.as_bytes)
    (hevent_id : ∀ id ∈ log.event_id, record.event_id = id) : line.Matches crates H record := by
  obtain ⟨event, hparse, hincoming⟩ := bind_eq_ok_iff.mp hlog
  cases hincoming
  have htraces := UniversalParser.traces_of_parse_lossless hparse
  refine ⟨event, hparse, ?_, ?_, hevent_id _ rfl⟩
  · rw [hraw_log, htraces.raw_data, String.ofList_toList]
    rfl
  · rw [hraw_hash, htraces.raw_hash, str.bytes, ← String.as_bytes_eq_flatMap]
    rfl

theorem forall₂_matches_stored_records {pending : List Line} {logs : List IncomingLog}
    (hpending : List.Forall₂ (fun line log => line.incoming H crates to_json = ok log) pending logs)
    (env : Env) (block_id : Nat) :
    List.Forall₂ (Line.Matches crates H) pending (stored_records H env block_id logs) := by
  rw [List.forall₂_iff_get] at hpending ⊢
  obtain ⟨hlength, hlog⟩ := hpending
  refine ⟨by rw [length_stored_records, hlength], fun i hline hrecord => ?_⟩
  have hi : i < logs.length := hlength ▸ hline
  refine Line.matches_of_incoming (hlog i hline hi) ?_ ?_ ?_
  · simp [stored_records]
  · simp [stored_records]
  · intro id hid
    have hsome : logs[i].event_id = some id := hid
    simp [stored_records, hsome]

/-- A flush leaves the files of older blocks alone, whether or not it succeeds. -/
theorem FlushedLines.ReadsBack.flush {io : Io} {env : Env} {batcher batcher' : BatchAccumulator}
    {disk disk' : Disk H} {result : Except String (Option (BlockFlushResult H))}
    (hflush : batcher.flush H io env disk = ok (result, batcher', disk')) {block : FlushedLines}
    (hblock : block.ReadsBack crates disk) (hlt : block.block_id < batcher.current_block_id) :
    block.ReadsBack crates disk' := by
  have hexec : Call.Flush.exec H io env batcher disk = ok (result, batcher', disk') := hflush
  obtain ⟨rfl, -⟩ | ⟨-, -, -, heffect⟩ := Call.exec_effect hexec
  · exact hblock
  · have hne : block_filename block.block_id ≠ block_filename batcher.current_block_id :=
      fun hsame => hlt.ne (block_filename_injective hsame)
    unfold ReadsBack
    rw [heffect.storage_dir hne]
    exact hblock

section

variable {io : Io} {env : Env} {batcher batcher' : BatchAccumulator} {disk disk' : Disk H}
  {loaded : List LedgerEntry} {blocks : List FlushedLines} {pending lines : List Line}
  {result : Except String (Option (BlockFlushResult H))}

/-- A call first takes its logs into the buffer. -/
theorem Holds.accept {call : Call} (h : Holds crates to_json loaded batcher disk blocks pending)
    (hlines : List.Forall₂ (fun line log => line.incoming H crates to_json = ok log) lines call.logs)
    (env : Env) :
    Holds crates to_json loaded (call.accept env batcher) disk blocks (pending ++ lines) := by
  have hbuffer : (call.accept env batcher).buffer = batcher.buffer ++ call.logs := by
    cases call <;> simp [Call.accept, Call.logs]
  refine ⟨?_, ?_, ?_, h.blocks⟩
  · rw [← h.ledger]
    cases call <;> rfl
  · rw [hbuffer]
    exact List.rel_append h.pending hlines
  · rw [call.accept_current_block_id]
    exact h.older

/-- What was pending is flushed as one block, or lost where the flush fails. -/
theorem Holds.flush (h : Holds crates to_json loaded batcher disk blocks pending)
    (hflush : batcher.flush H io env disk = ok (result, batcher', disk')) :
    ∃ new lost,
      pending = new.flatMap FlushedLines.lines ++ lost ∧
      Holds crates to_json loaded batcher' disk' (blocks ++ new) [] ∧
      ∀ value, result = .ok value → lost = [] := by
  have hread : ∀ block ∈ blocks, block.ReadsBack crates disk' := fun block hblock =>
    (h.blocks block hblock).flush hflush (h.older block hblock)
  obtain ⟨actual, actual', actualDisk, hactual, hspec⟩ := batcher.flush_spec io env disk
  rw [hactual] at hflush
  cases hflush
  obtain ⟨hempty, -, rfl, -⟩ | ⟨-, -, flushed, -, hflushed⟩ | ⟨-, -, ⟨e, rfl⟩, rfl, -⟩ := hspec
  · have hnone : pending = [] := List.forall₂_nil_right_iff.mp (hempty ▸ h.pending)
    refine ⟨[], [], by simp [hnone], ?_, fun _ _ => rfl⟩
    rw [List.append_nil]
    exact ⟨h.ledger, hnone ▸ h.pending, h.older, hread⟩
  · have hbatcher := hflushed.batcher_eq
    refine ⟨[⟨batcher.current_block_id, pending⟩], [], by simp, ⟨?_, ?_, ?_, ?_⟩, fun _ _ => rfl⟩
    · rw [hbatcher]
      simp [h.ledger, BatchAccumulator.blockEntry]
    · rw [hbatcher]
      exact .nil
    · rw [hbatcher]
      intro block hblock
      obtain hblock | hblock := List.mem_append.mp hblock
      · exact (h.older block hblock).trans (Nat.lt_succ_self _)
      · rw [List.mem_singleton.mp hblock]
        exact Nat.lt_succ_self _
    · intro block hblock
      obtain hblock | hblock := List.mem_append.mp hblock
      · exact hread block hblock
      · rw [List.mem_singleton.mp hblock]
        exact ⟨_, hflushed.read_block, forall₂_matches_stored_records h.pending env _⟩
  · refine ⟨[], pending, rfl, ?_, fun value hvalue => by cases hvalue⟩
    rw [List.append_nil]
    exact ⟨h.ledger, .nil, fun block hblock => (h.older block hblock).trans (Nat.lt_succ_self _),
      hread⟩

/-- A call of the batcher with the logs of some lines: what was pending and these lines are
    flushed, kept in the buffer, or lost where the call fails. -/
theorem Holds.exec {call : Call} (h : Holds crates to_json loaded batcher disk blocks pending)
    (hlines : List.Forall₂ (fun line log => line.incoming H crates to_json = ok log) lines call.logs)
    (hexec : call.exec H io env batcher disk = ok (result, batcher', disk')) :
    ∃ new pending' lost,
      pending ++ lines = new.flatMap FlushedLines.lines ++ pending' ++ lost ∧
      Holds crates to_json loaded batcher' disk' (blocks ++ new) pending' ∧
      ∀ value, result = .ok value → lost = [] := by
  have haccept := h.accept hlines env
  rw [Call.exec_eq] at hexec
  split at hexec
  · obtain ⟨new, lost, hsplit, hholds, hlost⟩ := haccept.flush hexec
    exact ⟨new, [], lost, by rw [hsplit, List.append_nil], hholds, hlost⟩
  · cases hexec
    refine ⟨[], pending ++ lines, [], by simp, ?_, fun _ _ => rfl⟩
    rw [List.append_nil]
    exact haccept

end

/-- The lines of the consumer in turn: every line that was taken is in a block or pending, and
    none is missing unless a push failed. -/
theorem Holds.feed {io : Io} {lines pending : List Line} {worker worker' : Worker H}
    {loaded : List LedgerEntry} {blocks : List FlushedLines} {outcome : Except String Unit}
    (h : Holds crates to_json loaded worker.batcher worker.disk blocks pending)
    (hfeed : worker.feed crates to_json io lines = ok (outcome, worker')) :
    ∃ new pending' rest,
      pending ++ lines = new.flatMap FlushedLines.lines ++ pending' ++ rest ∧
      Holds crates to_json loaded worker'.batcher worker'.disk (blocks ++ new) pending' ∧
      (outcome = .ok () → rest = []) := by
  induction lines generalizing worker blocks pending with
  | nil =>
    cases hfeed
    exact ⟨[], pending, [], by simp, by simpa using h, fun _ => rfl⟩
  | cons line lines ih =>
    rw [Worker.feed] at hfeed
    obtain ⟨⟨result, worker₁⟩, hprocess, hfeed⟩ := bind_eq_ok_iff.mp hfeed
    cases hlog : line.incoming H crates to_json with
    | panic =>
      rw [Worker.process_panic worker hlog] at hprocess
      cases hprocess
    | ok log =>
      obtain ⟨pushed, batcher', disk', worker₂, hexec, hprocess', rfl, rfl⟩ :=
        Worker.process_spec worker hlog io
      rw [hprocess'] at hprocess
      cases hprocess
      have hline : List.Forall₂ (fun line log => line.incoming H crates to_json = ok log) [line]
          (Call.Push log).logs := .cons hlog .nil
      obtain ⟨new, pending₁, lost, hsplit, hholds, hlost⟩ := h.exec hline hexec
      cases pushed with
      | error e =>
        cases hfeed
        refine ⟨new, pending₁, lost ++ lines, ?_, hholds, fun h => by cases h⟩
        rw [← List.append_assoc, ← hsplit, List.append_assoc, List.singleton_append]
      | ok value =>
        rw [hlost value rfl, List.append_nil] at hsplit
        obtain ⟨new₂, pending₂, rest, hsplit₂, hholds₂, hrest⟩ := ih hholds hfeed
        refine ⟨new ++ new₂, pending₂, rest, ?_, List.append_assoc blocks new new₂ ▸ hholds₂, hrest⟩
        rw [← List.singleton_append, ← List.append_assoc, hsplit, List.append_assoc, hsplit₂]
        simp

/-- Only a line that an extractor cannot get through has nothing for the batcher. -/
theorem Line.exists_incoming {line : Line}
    (hreads : UniversalParser.Reads line.raw_log.toList (Classifier.classify line.raw_log.toList))
    (crates : Crates) (to_json : NetworkActivity → String) :
    ∃ log, line.incoming H crates to_json = ok log := by
  obtain ⟨event, hparse⟩ := ne_panic_iff.mp
    ((UniversalParser.parse_lossless_ne_panic_iff H crates line.reading line.fallback _).mpr hreads)
  exact ⟨_, by rw [Line.incoming, hparse]; rfl⟩

/-- Without an error of the file system, lines that the extractors get through are processed, in
    batches that have no more logs than a block can have vendors. -/
theorem Worker.exists_feed (crates : Crates) (to_json : NetworkActivity → String) {lines : List Line}
    (hlines : ∀ line ∈ lines, UniversalParser.Reads line.raw_log.toList
      (Classifier.classify line.raw_log.toList)) {worker : Worker H}
    (hsize : worker.batcher.config.max_batch_size ≤ 128)
    (hbuffer : worker.batcher.buffer.length < max 1 worker.batcher.config.max_batch_size) :
    ∃ worker', worker.feed crates to_json Io.reliable lines = ok (.ok (), worker') ∧
      worker'.batcher.buffer.length ≤ 128 := by
  induction lines generalizing worker with
  | nil => exact ⟨worker, rfl, by omega⟩
  | cons line lines ih =>
    obtain ⟨hline, hrest⟩ := List.forall_mem_cons.mp hlines
    obtain ⟨log, hlog⟩ := Line.exists_incoming (H := H) hline crates to_json
    obtain ⟨pushed, batcher', disk', worker₁, hexec, hprocess, rfl, -⟩ :=
      Worker.process_spec worker hlog Io.reliable
    cases pushed with
    | error e =>
      obtain ⟨-, hmany⟩ := (Call.push_error_iff line.env worker.batcher worker.disk log).mp
        ⟨e, _, _, hexec⟩
      have hlength := (Call.Push log).length_accept_le line.env hbuffer
      have hdistinct := distinctVendors_le_length
        (((Call.Push log).accept line.env worker.batcher).buffer.map (·.vendor))
      rw [List.length_map] at hdistinct
      omega
    | ok flushed =>
      obtain ⟨hconfig, hlt⟩ := Call.length_lt_of_exec hbuffer hexec
      obtain ⟨worker', hfeed, hshort⟩ := ih hrest (hconfig ▸ hsize) (hconfig ▸ hlt)
      refine ⟨worker', ?_, hshort⟩
      rw [Worker.feed, hprocess]
      exact hfeed

/-- What is left in a buffer of this length can be flushed. -/
theorem Worker.exists_flush {worker : Worker H} (hshort : worker.batcher.buffer.length ≤ 128)
    (env : Env) : ∃ result batcher' disk',
      worker.batcher.flush H Io.reliable env worker.disk = ok (.ok result, batcher', disk') := by
  refine worker.batcher.flush_ok env worker.disk ((distinctVendors_le_length _).trans ?_)
  rwa [List.length_map]

end

/-- Every entry point of the parser and of the pipeline returns events that carry the line and
    its digest. Of the lines that the ingest closure takes, whether or not it ends in an error, those
    in a flushed block read back with the line, the digest and the id of their event, and the
    flushed blocks are all that its ledger has gained; the next lines are in the buffer, and in such
    a block after the next flush that succeeds; a rest remains only where a push has failed. -/
theorem provenance_preserved (H : Type) [Digest H] (crates : Crates)
    (to_json : NetworkActivity → String) :
    (∀ reading raw event, UniversalParser.parse H crates reading raw = ok (.ok event) →
      Traces H raw event) ∧
    (∀ reading fallback raw event,
      UniversalParser.parse_lossless H crates reading fallback raw = ok event → Traces H raw event) ∧
    (∀ reading fallback cache cache' raw event,
      UniversalParser.parse_cached_lossless H crates reading fallback cache raw =
        ok (event, cache') → Traces H raw event) ∧
    (∀ (pipeline pipeline' : TieredPipeline) clock raw event,
      pipeline.process H crates clock raw = ok (event, pipeline') → Traces H raw event) ∧
    ∀ io lines (worker worker' : Worker H) outcome, worker.batcher.buffer = [] →
      worker.feed crates to_json io lines = ok (outcome, worker') →
      ∃ (blocks : List FlushedLines) (pending rest : List Line),
        lines = blocks.flatMap FlushedLines.lines ++ pending ++ rest ∧
        (outcome = .ok () → rest = []) ∧
        Holds crates to_json worker.batcher.in_memory_ledger worker'.batcher worker'.disk blocks
          pending ∧
        ∀ io env result batcher' disk',
          worker'.batcher.flush H io env worker'.disk = ok (.ok result, batcher', disk') →
          ∃ last : List FlushedLines, pending = last.flatMap FlushedLines.lines ∧
            Holds crates to_json worker.batcher.in_memory_ledger batcher' disk' (blocks ++ last)
              [] := by
  refine ⟨fun _ _ _ => UniversalParser.traces_of_parse_with_format,
    fun _ _ _ _ => UniversalParser.traces_of_parse_lossless,
    fun _ _ _ _ _ _ => UniversalParser.traces_of_parse_cached_lossless,
    fun _ _ _ _ _ => TieredPipeline.traces_of_process, ?_⟩
  intro io lines worker worker' outcome hempty hfeed
  have hstart : Holds crates to_json worker.batcher.in_memory_ledger worker.batcher worker.disk []
      [] := by
    refine ⟨by simp, ?_, by simp, by simp⟩
    rw [hempty]
    exact .nil
  obtain ⟨blocks, pending, rest, hsplit, hholds, hrest⟩ := hstart.feed hfeed
  rw [List.nil_append] at hsplit hholds
  refine ⟨blocks, pending, rest, hsplit, hrest, hholds, ?_⟩
  intro io' env result batcher' disk' hflush
  obtain ⟨last, lost, hlast, hflushed, hlost⟩ := hholds.flush hflush
  rw [hlost result rfl, List.append_nil] at hlast
  exact ⟨last, hlast, hflushed⟩

/-- A line of no known format. -/
def plainLine (raw_log : String) : Line where
  raw_log
  reading := default
  fallback := default
  mined_at := 0
  env := Env.fixed

theorem reads_plainLines : ∀ line ∈ [plainLine "hello", plainLine "world"],
    UniversalParser.Reads line.raw_log.toList (Classifier.classify line.raw_log.toList) := by
  have hclass : ∀ raw_log ∈ ["hello", "world"], Classifier.classify raw_log.toList = .Unknown := by
    decide +kernel
  intro line hline
  obtain ⟨raw_log, hmem, rfl⟩ := List.mem_map.mp (show line ∈ ["hello", "world"].map plainLine from hline)
  rw [plainLine, hclass raw_log hmem]
  trivial

/-- The consumer of a first start with batches of two logs. -/
def pairWorker : Worker Hash :=
  { wideBatchWorker with batcher := ⟨⟨2, 2000, "data/parquet", "data/ledger.jsonl"⟩, [], none, 0, []⟩ }

/-- Two lines are flushed and read back from their block. -/
theorem provenance_preserved_two_lines :
    ∃ (worker : Worker Hash) (batcher' : BatchAccumulator) (disk' : Disk Hash)
      (result : Option (BlockFlushResult Hash)) (blocks : List FlushedLines),
      pairWorker.feed default (fun _ => "") Io.reliable [plainLine "hello", plainLine "world"] =
        ok (.ok (), worker) ∧
      worker.batcher.flush Hash Io.reliable Env.fixed worker.disk = ok (.ok result, batcher', disk') ∧
      blocks.flatMap FlushedLines.lines = [plainLine "hello", plainLine "world"] ∧
      batcher'.in_memory_ledger.map (·.block_id) = blocks.map FlushedLines.block_id ∧
      ∀ block ∈ blocks, block.ReadsBack default disk' := by
  obtain ⟨worker, hfeed, hshort⟩ := Worker.exists_feed default (fun _ => "") reads_plainLines
    (show pairWorker.batcher.config.max_batch_size ≤ 128 by decide) (by decide)
  obtain ⟨result, batcher', disk', hflush⟩ := worker.exists_flush hshort Env.fixed
  obtain ⟨-, -, -, -, hingest⟩ := provenance_preserved Hash default fun _ => ""
  obtain ⟨blocks, pending, rest, hlines, hrest, -, hflushed⟩ := hingest _ _ _ _ _ rfl hfeed
  obtain ⟨last, hlast, hholds⟩ := hflushed _ _ _ _ _ hflush
  refine ⟨worker, batcher', disk', result, blocks ++ last, hfeed, hflush, ?_, hholds.ledger,
    hholds.blocks⟩
  rw [hlines, hrest rfl, hlast, List.flatMap_append, List.append_nil]

end ulpf_cli.ingest
