import Ulpf.Cli.Archive
import Ulpf.Cli.Prove

open Result
open ulpf_core.schema.ocsf ulpf_cli.ingest
open ulpf_integrity.batcher ulpf_integrity.merkle ulpf_integrity.storage

namespace ulpf_cli.serve.handlers

structure RecordsQuery where
  offset : Option Nat
  limit : Option Nat
  vendor : Option String
  disposition : Option String
  ip : Option String
  query : Option String
  deriving DecidableEq, Repr

structure StoredRecordItem where
  event_id : String
  block_id : Nat
  leaf_index : UInt32
  timestamp : Int
  vendor : String
  raw_log : String
  raw_hash : String
  ocsf : Value

structure BlockRecordsResponse where
  block_id : Nat
  total_records_in_block : Nat
  filtered_records_count : Nat
  offset : Nat
  limit : Nat
  records : List StoredRecordItem

/-- The shape that the errors of the handler share. -/
def records_error (status : StatusCode) (error message : String) (block_id : Nat) :
    StatusCode × ErrorResponse :=
  (status, ⟨error, status.as_u16, message, some block_id, none⟩)

/-- `unwrap_or(50).clamp(1, 500)`. -/
def RecordsQuery.page_limit (query : RecordsQuery) : Nat := max 1 (min (query.limit.getD 50) 500)

section

variable (crates : Crates)

/-- The texts that the search field is looked for in. -/
def RecordsQuery.finds (q raw_log event_id raw_hash : String) : Bool :=
  let q_lower := crates.to_lowercase q.toList
  str.contains q_lower (crates.to_lowercase raw_log.toList) ||
    str.contains q_lower (crates.to_lowercase event_id.toList) ||
    str.contains q_lower (crates.to_lowercase raw_hash.toList)

/-- The disposition of the stored event. -/
def ocsf_disposition (r : StoredLogRecord) : Option (List Char) :=
  match crates.from_str r.ocsf_json.toList with
  | .ok val => (val.get "disposition").bind Value.as_str
  | .error _ => none

/-- The closure of `filter`. -/
def RecordsQuery.keeps (query : RecordsQuery) (r : StoredLogRecord) : Bool :=
  query.vendor.all (fun v => str.eq_ignore_ascii_case r.vendor.toList v.toList) &&
  query.query.all (fun q => RecordsQuery.finds crates q r.raw_log r.event_id r.raw_hash) &&
  query.ip.all (fun ip => str.contains ip.toList r.raw_log.toList) &&
  query.disposition.all (fun disp =>
    (ocsf_disposition crates r).any fun d => str.eq_ignore_ascii_case d disp.toList)

/-- The closure of `map`. -/
def stored_record_item (r : StoredLogRecord) : StoredRecordItem where
  event_id := r.event_id
  block_id := r.block_id
  leaf_index := r.leaf_index
  timestamp := r.timestamp
  vendor := r.vendor
  raw_log := r.raw_log
  raw_hash := r.raw_hash
  ocsf := match crates.from_str r.ocsf_json.toList with
    | .ok val => val
    | .error _ => .Object [("raw", .Text r.raw_log)]

variable {H : Type} [Digest H]

/-- `GET /blocks/:id/records`. -/
def get_block_records (state : AppState) (disk : Disk H) (block_id : Nat) (query : RecordsQuery) :
    Result (Except (StatusCode × ErrorResponse) BlockRecordsResponse) :=
  let filename := block_filename block_id
  let path := path_join state.parquet_dir filename
  if (disk.storage_dir filename).isNone then
    ok (.error (records_error .NOT_FOUND "Not Found"
      s!"Parquet block #{block_id} does not exist at {path}" block_id))
  else do
    match ← read_parquet_file path (disk.storage_dir filename) with
    | .error e => ok (.error (records_error .INTERNAL_SERVER_ERROR "Read Error"
        s!"Failed reading Parquet block #{block_id}: {e}" block_id))
    | .ok records =>
      let filtered := records.filter (query.keeps crates)
      let offset := query.offset.getD 0
      let limit := query.page_limit
      ok (.ok {
        block_id
        total_records_in_block := records.length
        filtered_records_count := filtered.length
        offset
        limit
        records := ((filtered.drop offset).take limit).map (stored_record_item crates) })

end

section

variable (H : Type) [Digest H] (crates : Crates)

/-- What a query asks for, in the terms of a line and its event. -/
def RecordsQuery.selects (query : RecordsQuery) (entry : ArchivedLine) : Bool :=
  query.vendor.all (fun v =>
    str.eq_ignore_ascii_case entry.event.metadata.product.vendor_name.toList v.toList) &&
  query.query.all (fun q => RecordsQuery.finds crates q entry.line.raw_log
    entry.event.metadata.event_id (digest_hex H entry.line.raw_log.as_bytes)) &&
  query.ip.all (fun ip => str.contains ip.toList entry.line.raw_log.toList) &&
  query.disposition.all (fun disp =>
    str.eq_ignore_ascii_case entry.event.disposition.toList disp.toList)

/-- What is to be shown of a line. -/
def archived_item (block_id : Nat) (entry : ArchivedLine) : StoredRecordItem where
  event_id := entry.event.metadata.event_id
  block_id
  leaf_index := entry.row.leaf_index
  timestamp := entry.event.time
  vendor := entry.event.metadata.product.vendor_name
  raw_log := entry.line.raw_log
  raw_hash := digest_hex H entry.line.raw_log.as_bytes
  ocsf := entry.event.to_value

/-- The pages of a query for a block, at its own page size: they show the lines that it selects,
    each once and in order. -/
structure Pages (state : AppState) (disk : Disk H) (block_id : Nat) (archived : List ArchivedLine)
    (query : RecordsQuery) (responses : Nat → BlockRecordsResponse) : Prop where
  answered : ∀ k, get_block_records crates state disk block_id
    { query with offset := some (k * query.page_limit) } = ok (.ok (responses k))
  counted : ∀ k, (responses k).total_records_in_block = archived.length ∧
    (responses k).filtered_records_count = (archived.filter (query.selects H crates)).length
  bounded : ∀ k, (responses k).limit = query.page_limit ∧
    (responses k).records.length ≤ query.page_limit ∧
    1 ≤ query.page_limit ∧ query.page_limit ≤ 500
  shown : ∀ pages, (archived.filter (query.selects H crates)).length ≤ pages * query.page_limit →
    (List.range pages).flatMap (fun k => (responses k).records) =
      (archived.filter (query.selects H crates)).map (archived_item H block_id)

end

variable {H : Type} [Digest H] {crates : Crates}

theorem RecordsQuery.one_le_page_limit (query : RecordsQuery) : 1 ≤ query.page_limit :=
  le_max_left 1 _

/-- Consecutive pages of a list, one behind the other. -/
theorem flatMap_pages {α : Type} (limit pages : Nat) (items : List α) :
    (List.range pages).flatMap (fun k => (items.drop (k * limit)).take limit) =
      items.take (pages * limit) := by
  induction pages with
  | zero => simp
  | succ pages ih =>
    rw [List.range_succ, List.flatMap_append, ih, List.flatMap_singleton, Nat.succ_mul,
      List.take_add]

theorem get_block_records_eq {state : AppState} {disk : Disk H} {block_id : Nat}
    {records : List StoredLogRecord} (hread : BlockReads H state disk block_id records)
    (query : RecordsQuery) :
    get_block_records crates state disk block_id query = ok (.ok {
      block_id
      total_records_in_block := records.length
      filtered_records_count := (records.filter (query.keeps crates)).length
      offset := query.offset.getD 0
      limit := query.page_limit
      records := (((records.filter (query.keeps crates)).drop (query.offset.getD 0)).take
        query.page_limit).map (stored_record_item crates) }) := by
  have hexists : (disk.storage_dir (block_filename block_id)).isNone = false := by
    rw [Option.isNone_eq_false_iff, Option.isSome_iff_ne_none]
    intro hnone
    rw [BlockReads, hnone] at hread
    cases hread
  rw [get_block_records]
  simp only [hexists, Bool.false_eq_true, ↓reduceIte]
  rw [hread, bind_ok]

section

variable {entry : ArchivedLine}

theorem from_str_of_sound (hcrates : crates.ReadsBack) (h : entry.Sound H crates)
    (hsized : entry.event.Sized) :
    crates.from_str entry.row.ocsf_json.toList = .ok entry.event.to_value := by
  rw [h.ocsf_json, NetworkActivity.to_json, String.toList_ofList]
  exact hcrates _ (NetworkActivity.written_to_value h.wellFormed hsized)

theorem keeps_of_sound (hcrates : crates.ReadsBack) (h : entry.Sound H crates)
    (hsized : entry.event.Sized) (query : RecordsQuery) :
    query.keeps crates entry.row = query.selects H crates entry := by
  have hdisposition : ocsf_disposition crates entry.row = some entry.event.disposition.toList := by
    rw [ocsf_disposition, from_str_of_sound hcrates h hsized]
    simp [NetworkActivity.to_value, Value.as_str]
  simp only [RecordsQuery.keeps, RecordsQuery.selects, hdisposition, h.vendor, h.raw_log,
    h.event_id, h.raw_hash, Option.any_some]

theorem stored_record_item_of_sound (hcrates : crates.ReadsBack) (h : entry.Sound H crates)
    (hsized : entry.event.Sized) {block_id : Nat} (hblock_id : entry.row.block_id = block_id) :
    stored_record_item crates entry.row = archived_item H block_id entry := by
  simp only [stored_record_item, archived_item, from_str_of_sound hcrates h hsized, h.vendor,
    h.raw_log, h.event_id, h.raw_hash, h.timestamp, hblock_id]

end

theorem filter_keeps_rows (hcrates : crates.ReadsBack) {disk : Disk H} {block_id : Nat}
    {archived : List ArchivedLine} (h : HoldsLines H crates disk block_id archived)
    (hsized : ∀ entry ∈ archived, entry.event.Sized) (query : RecordsQuery) :
    (archived.map ArchivedLine.row).filter (query.keeps crates) =
      (archived.filter (query.selects H crates)).map ArchivedLine.row := by
  rw [List.filter_map]
  congr 1
  exact List.filter_congr fun entry hentry =>
    keeps_of_sound hcrates (h.sound entry hentry) (hsized entry hentry) query

theorem map_stored_record_item_rows (hcrates : crates.ReadsBack) {disk : Disk H}
    {block_id : Nat} {archived : List ArchivedLine} (h : HoldsLines H crates disk block_id archived)
    (hsized : ∀ entry ∈ archived, entry.event.Sized) {shown : List ArchivedLine}
    (hshown : shown ⊆ archived) :
    (shown.map ArchivedLine.row).map (stored_record_item crates) =
      shown.map (archived_item H block_id) := by
  rw [List.map_map]
  refine List.map_congr_left fun entry hentry => ?_
  obtain ⟨i, hi, rfl⟩ := List.mem_iff_getElem.mp (hshown hentry)
  exact stored_record_item_of_sound hcrates (h.sound _ (List.getElem_mem hi))
    (hsized _ (List.getElem_mem hi)) (h.numbered i hi).1

theorem exists_pages (hcrates : crates.ReadsBack) {disk : Disk H} {block_id : Nat}
    {archived : List ArchivedLine} (h : HoldsLines H crates disk block_id archived)
    (hsized : ∀ entry ∈ archived, entry.event.Sized) (state : AppState) (query : RecordsQuery) :
    ∃ responses, Pages H crates state disk block_id archived query responses := by
  let selected := archived.filter (query.selects H crates)
  have hread : BlockReads H state disk block_id (archived.map ArchivedLine.row) := h.read _
  have hfiltered : (archived.map ArchivedLine.row).filter (query.keeps crates) =
      selected.map ArchivedLine.row := filter_keeps_rows hcrates h hsized query
  refine ⟨fun k =>
    { block_id
      total_records_in_block := archived.length
      filtered_records_count := selected.length
      offset := k * query.page_limit
      limit := query.page_limit
      records := ((selected.drop (k * query.page_limit)).take query.page_limit).map
        (archived_item H block_id) }, fun k => ?_, fun k => ⟨rfl, rfl⟩,
    fun k => ⟨rfl, ?_, query.one_le_page_limit, ?_⟩, ?_⟩
  · have hpage : (selected.drop (k * query.page_limit)).take query.page_limit ⊆ archived :=
      fun entry hentry => List.mem_of_mem_filter (List.mem_of_mem_drop (List.mem_of_mem_take hentry))
    rw [get_block_records_eq hread]
    -- neither the filter nor the page size looks at the offset
    change ok (Except.ok (BlockRecordsResponse.mk block_id _
      ((archived.map ArchivedLine.row).filter (query.keeps crates)).length _ _
      ((((archived.map ArchivedLine.row).filter (query.keeps crates)).drop
        (k * query.page_limit)).take query.page_limit |>.map (stored_record_item crates)))) = _
    rw [hfiltered, List.length_map, List.length_map, ← List.map_drop, ← List.map_take,
      map_stored_record_item_rows hcrates h hsized hpage]
    rfl
  · simp
  · simp [RecordsQuery.page_limit]
  · intro pages hpages
    rw [← List.map_flatMap, flatMap_pages, List.take_of_length_le hpages]

/-- Whatever was ingested can be found: each new block, numbered behind the ledger that was loaded,
    answers every query, and its pages show the lines that the query selects, with the events that
    they were parsed to. -/
theorem query_pages_show_selected_lines (hcrates : crates.ReadsBack) {reader : JsonReader}
    {config : BatcherConfig} {disk disk' : Disk H} {batcher : BatchAccumulator}
    (hnew : BatchAccumulator.new reader config disk = .ok batcher) {lines : List Line}
    (hsized : ∀ line ∈ lines, line.Sized H crates)
    (hingests : Ingests H crates reader config disk lines disk') (state : AppState) :
    ∃ blocks : List (List ArchivedLine), blocks.flatten.map ArchivedLine.line = lines ∧
      ∀ (j : Nat) (archived : List ArchivedLine), blocks[j]? = some archived →
        HoldsLines H crates disk' (BatchAccumulator.next_block_id batcher.in_memory_ledger + j)
          archived ∧
        ∀ query, ∃ responses, Pages H crates state disk'
          (BatchAccumulator.next_block_id batcher.in_memory_ledger + j) archived query responses := by
  obtain ⟨batcher', blocks, hnew', -, hlines, harchive⟩ := hingests.exists_blocks
  cases hnew.symm.trans hnew'
  refine ⟨blocks, hlines, fun j archived harchived => ?_⟩
  have hholds := harchive.holds j archived harchived
  exact ⟨hholds, exists_pages hcrates hholds (hholds.sized hsized hlines harchived) state⟩

/-- All records of unknown disposition, one to a page. -/
def unknownQuery : RecordsQuery where
  offset := none
  limit := some 1
  vendor := none
  disposition := some "unknown"
  ip := none
  query := none

/-- Two lines of one block, shown on pages of one record. -/
theorem query_pages_show_selected_lines_unknown :
    ∃ disk', Ingests Preimage Crates.layout LedgerEntry.layoutReader smallBatches
        (Disk.empty Preimage) [plainLine "hello", plainLine "world"] disk' ∧
      ∃ blocks : List (List ArchivedLine),
        blocks.flatten.map ArchivedLine.line = [plainLine "hello", plainLine "world"] ∧
        ∀ (j : Nat) (archived : List ArchivedLine), blocks[j]? = some archived →
          ∃ responses, Pages Preimage Crates.layout demoState disk' (0 + j) archived unknownQuery
            responses := by
  obtain ⟨disk', hingests⟩ := exists_ingests_plainLines
  obtain ⟨blocks, hlines, hblocks⟩ := query_pages_show_selected_lines Crates.layout_readsBack
    new_smallBatches sized_plainLines hingests demoState
  exact ⟨disk', hingests, blocks, hlines,
    fun j archived harchived => (hblocks j archived harchived).2 unknownQuery⟩

end ulpf_cli.serve.handlers
