import Ulpf.Lib.Replace
import Ulpf.Integrity.Storage.RoundTrip
import Ulpf.Ai.Drain
import Ulpf.Cli.Prove

open Result
open ulpf_integrity.merkle ulpf_integrity.storage ulpf_integrity.batcher ulpf_integrity.tamper
open ulpf_ai.drain (AlertSeverity)

namespace ulpf_cli.serve.handlers

structure TamperDrillRequest where
  block_id : Nat
  leaf_index : Nat := 0
  spoofed_ip : String := "10.99.99.99"
  confirm : Bool := false

structure TamperDrillResponse where
  status : String
  executed : Bool
  target_block_id : Nat
  target_leaf_index : Nat
  spoofed_ip : String
  source_evidence_path : String
  scratch_drill_path : String
  original_evidence_unmodified : Bool
  tamper_report : Option TamperReport
  message : String

/-- An alert of the feed. -/
structure AlertItem where
  id : String
  alert_type : String
  severity : AlertSeverity
  timestamp : Int
  title : String
  details : String
  block_id : Option Nat
  leaf_index : Option UInt32

/-- The block files by directory and name, and the bytes of the ledger. -/
structure Files (H : Type) where
  dirs : String → String → Option (ParquetFile H)
  ledger : Option (List UInt8)

namespace Files

variable {H : Type}

/-- What the storage functions see of a directory. -/
def disk (self : Files H) (dir : String) : Disk H := ⟨self.dirs dir, self.ledger⟩

/-- The files after a storage function has worked on a directory. -/
def set_disk (self : Files H) (dir : String) (disk : Disk H) : Files H :=
  ⟨Function.update self.dirs dir disk.storage_dir, disk.ledger⟩

/-- `std::fs::copy` onto the named file. -/
def copy_to (self : Files H) (dir name : String) (file : ParquetFile H) : Files H :=
  self.set_disk dir ((self.disk dir).write name file)

/-- Nothing but the named file differs. -/
structure SameBut (dir name : String) (files files' : Files H) : Prop where
  ledger_eq : files'.ledger = files.ledger
  dirs_eq : ∀ dir' name', (dir', name') ≠ (dir, name) →
    files'.dirs dir' name' = files.dirs dir' name'

theorem SameBut.refl (dir name : String) (files : Files H) : SameBut dir name files files :=
  ⟨rfl, fun _ _ _ => rfl⟩

theorem SameBut.trans {dir name : String} {first second third : Files H}
    (h : SameBut dir name first second) (h' : SameBut dir name second third) :
    SameBut dir name first third :=
  ⟨h'.ledger_eq.trans h.ledger_eq, fun dir' name' hne =>
    (h'.dirs_eq dir' name' hne).trans (h.dirs_eq dir' name' hne)⟩

@[simp]
theorem disk_set_disk (self : Files H) (dir : String) (disk : Disk H) :
    (self.set_disk dir disk).disk dir = disk := by
  simp [set_disk, Files.disk]

@[simp]
theorem set_disk_disk (self : Files H) (dir : String) :
    self.set_disk dir (self.disk dir) = self := by
  simp [set_disk, Files.disk]

@[simp]
theorem dirs_copy_to (self : Files H) (dir name : String) (file : ParquetFile H) :
    (self.copy_to dir name file).dirs dir name = some file := by
  simp [copy_to, set_disk, Disk.write]

theorem sameBut_write (self : Files H) (dir name : String) (file : ParquetFile H) :
    SameBut dir name self (self.set_disk dir ((self.disk dir).write name file)) := by
  refine ⟨rfl, fun dir' name' hne => ?_⟩
  dsimp only [set_disk]
  by_cases hdir : dir' = dir
  · subst hdir
    have hname : name' ≠ name := fun hname => hne (by rw [hname])
    rw [Function.update_self]
    exact Function.update_of_ne hname _ _
  · rw [Function.update_of_ne hdir]

end Files

/-- The paths the handler works with, besides those of the other handlers. -/
structure DrillState extends AppState where
  scratch_dir : String

/-- The calls of a drill that can fail: those of the rewriting, and the copying, which may leave
    something in the place of the clone. -/
structure DrillIo (H : Type) extends Io where
  copy_error : Option String
  copy_leaves : Option (ParquetFile H)

/-- What a drill may change. -/
structure Server (H : Type) where
  files : Files H
  alerts : List AlertItem

/-- `format!("tamper_drill_block_{:05}.parquet", block_id)`. -/
def drill_filename (block_id : Nat) : String :=
  String.ofList ("tamper_drill_block_".toList ++ str.zero_padded 5 block_id ++ ".parquet".toList)

def IP_REGEX : String := "\\b(?:[0-9]\x7b1,3\x7d\\.)\x7b3\x7d[0-9]\x7b1,3\x7d\\b"

/-- The log with its first address replaced, or with a mark where it has none. -/
def tampered_raw (crates : Crates) (original_raw : List Char) (spoofed_ip : String) :
    Result (List Char) :=
  if (crates.captures IP_REGEX original_raw).isSome then
    regex.replace crates IP_REGEX original_raw spoofed_ip.toList
  else
    ok (original_raw ++ " [TAMPER_DRILL_IP:".toList ++ spoofed_ip.toList ++ [']'])

section

variable (state : DrillState) (payload : TamperDrillRequest)

def original_path : String := path_join state.parquet_dir (block_filename payload.block_id)

def drill_copy_path : String := path_join state.scratch_dir (drill_filename payload.block_id)

def drill_error (status : StatusCode) (error message : String) : StatusCode × ErrorResponse :=
  prove_error status error message payload.block_id payload.leaf_index

def drill_preview : TamperDrillResponse where
  status := "preview"
  executed := false
  target_block_id := payload.block_id
  target_leaf_index := payload.leaf_index
  spoofed_ip := payload.spoofed_ip
  source_evidence_path := original_path state payload
  scratch_drill_path := drill_copy_path state payload
  original_evidence_unmodified := true
  tamper_report := none
  message := "Tamper Drill Plan: will clone evidence block to scratch directory and corrupt ONLY the copy. Pass 'confirm: true' to execute."

/-- The answer of an executed drill, whatever the report says. -/
def drill_detected (report : TamperReport) : TamperDrillResponse where
  status := "tamper_detected"
  executed := true
  target_block_id := payload.block_id
  target_leaf_index := payload.leaf_index
  spoofed_ip := payload.spoofed_ip
  source_evidence_path := original_path state payload
  scratch_drill_path := drill_copy_path state payload
  original_evidence_unmodified := true
  tamper_report := some report
  message := "Tamper Drill executed on cloned scratch copy. Original evidence remained 100% untouched. Red integrity alarm generated."

def drill_alarm (env : Env) : AlertItem where
  id := env.now_v7 0
  alert_type := "tamper_alarm"
  severity := .Critical
  timestamp := env.now_ms
  title := s!"Tamper Drill Alarm: Block #{payload.block_id}"
  details := s!"Adversarial drill detected spoofed IP {payload.spoofed_ip} at leaf {payload.leaf_index}. Merkle root mismatch on isolated clone."
  block_id := some payload.block_id
  leaf_index := some (UInt32.ofNat payload.leaf_index)

end

section

variable {H : Type} [Digest H] (crates : Crates) (reader : JsonReader) (io : DrillIo H) (env : Env)
  (state : DrillState) (payload : TamperDrillRequest)

/-- The steps on the clone, once it is there. -/
def drill_clone (server : Server H) :
    Result (Except (StatusCode × ErrorResponse) TamperDrillResponse × Server H) := do
  let name := drill_filename payload.block_id
  match ← read_parquet_file (drill_copy_path state payload)
    (server.files.dirs state.scratch_dir name) with
  | .error e => ok (.error (drill_error payload .INTERNAL_SERVER_ERROR "Read Error"
      s!"Failed reading scratch block clone: {e}"), server)
  | .ok records =>
    match records[payload.leaf_index]? with
    | none => ok (.error (drill_error payload .BAD_REQUEST "Index Out of Bounds"
        s!"Leaf index {payload.leaf_index} exceeds clone record count {records.length}"), server)
    | some record => do
      let raw_log ← tampered_raw crates record.raw_log.toList payload.spoofed_ip
      let records := records.set payload.leaf_index { record with raw_log := String.ofList raw_log }
      let (written, disk) ← write_records_to_parquet io.toIo state.scratch_dir name records
        (server.files.disk state.scratch_dir)
      let server := { server with files := server.files.set_disk state.scratch_dir disk }
      match written with
      | .error e => ok (.error (drill_error payload .INTERNAL_SERVER_ERROR "Write Error"
          s!"Failed rewriting tampered scratch block: {e}"), server)
      | .ok () => do
        match ← verify_block_with_ledger H reader (server.files.disk state.scratch_dir)
          state.scratch_dir name state.ledger_path with
        | .error e => ok (.error (drill_error payload .INTERNAL_SERVER_ERROR "Audit Failure"
            s!"Verification engine encountered unexpected error: {e}"), server)
        | .ok report =>
          ok (.ok (drill_detected state payload report),
            { server with alerts := drill_alarm payload env :: server.alerts })

/-- `POST /tamper/drill`. -/
def post_tamper_drill (server : Server H) :
    Result (Except (StatusCode × ErrorResponse) TamperDrillResponse × Server H) :=
  let name := drill_filename payload.block_id
  match server.files.dirs state.parquet_dir (block_filename payload.block_id) with
  | none => ok (.error (drill_error payload .NOT_FOUND "Not Found"
      s!"Target block #{payload.block_id} does not exist at {original_path state payload}"), server)
  | some original =>
    if !payload.confirm then ok (.ok (drill_preview state payload), server)
    else
      match io.copy_error with
      | some e =>
        let files := match io.copy_leaves with
          | some file => server.files.copy_to state.scratch_dir name file
          | none => server.files
        ok (.error (drill_error payload .INTERNAL_SERVER_ERROR "Copy Failed"
          s!"Failed cloning evidence block to scratch directory: {e}"), { server with files })
      | none =>
        drill_clone crates reader io env state payload
          { server with files := server.files.copy_to state.scratch_dir name original }

end

section

variable {H : Type} [Digest H] {crates : Crates} {reader : JsonReader} {io : DrillIo H} {env : Env}
  {state : DrillState} {payload : TamperDrillRequest}

/-- Writing records changes the named file at most, and leaves them there if it says so. -/
theorem write_records_to_parquet_cases {dir name : String} {records : List StoredLogRecord}
    {disk disk' : Disk H} {io : Io} {written : Except String Unit}
    (h : write_records_to_parquet io dir name records disk = ok (written, disk')) :
    (disk' = disk ∨ ∃ file, disk' = disk.write name file) ∧
      (written = .ok () → ∃ batch, records_to_batch records = ok (.ok batch) ∧
        disk' = disk.write name (.Parquet [batch])) := by
  obtain ⟨batch, hbatch, h⟩ := bind_eq_ok_iff.mp h
  cases batch with
  | error e =>
    cases h
    exact ⟨.inl rfl, nofun⟩
  | ok batch =>
    obtain ⟨-, hwrite⟩ | ⟨-, e, disk'', hwrite, hdisk⟩ :=
      write_parquet_file_cases io dir name batch disk
    · dsimp only at h
      rw [hwrite] at h
      cases h
      exact ⟨.inr ⟨_, rfl⟩, fun _ => ⟨batch, hbatch, rfl⟩⟩
    · dsimp only at h
      rw [hwrite] at h
      cases h
      exact ⟨hdisk.imp_right fun h => ⟨_, h⟩, nofun⟩

end

section

variable (H : Type) [Digest H]

/-- The entry anchors the rows: their number and root are the entry's, and each has its position and
    its digest. -/
structure Anchored (entry : LedgerEntry) (records : List StoredLogRecord) : Prop where
  count : records.length = entry.leaf_count
  intact : ∀ row ∈ records.zipIdx, RowIntact H row
  root : rootOf H (records.map (·.raw_log)) = entry.merkle_root

/-- The rows of the clone after the drill. -/
def drilledRecords (records : List StoredLogRecord) (leaf_index : Nat) (record : StoredLogRecord)
    (raw_log : List Char) : List StoredLogRecord :=
  (records.set leaf_index { record with raw_log := String.ofList raw_log }).map
    StoredLogRecord.canonical

/-- What an executed drill has worked on: the rows of the block, the row and its new text, and the
    entry that the ledger has for the block of the first row. -/
structure Drilled (crates : Crates) (reader : JsonReader) (state : DrillState)
    (payload : TamperDrillRequest) (file : Option (ParquetFile H)) (ledger : Option (List UInt8))
    (records : List StoredLogRecord) (record : StoredLogRecord) (raw_log : List Char)
    (entry : LedgerEntry) : Prop where
  read : ∀ path, read_parquet_file path file = ok (.ok records)
  row : records[payload.leaf_index]? = some record
  spoofed : tampered_raw crates record.raw_log.toList payload.spoofed_ip = ok raw_log
  found : ∃ entries first, load_ledger_entries reader state.ledger_path ledger = .ok entries ∧
    records.head? = some first ∧ entries.find? (·.block_id = first.block_id) = some entry

/-- The response is that of a drill on the file: it carries the report on the clone, which has the
    drilled rows, and the alarm is raised. -/
def ReportsDrill (crates : Crates) (reader : JsonReader) (env : Env) (state : DrillState)
    (payload : TamperDrillRequest) (file : Option (ParquetFile H)) (server server' : Server H)
    (response : TamperDrillResponse) : Prop :=
  ∃ records record raw_log entry report,
    Drilled H crates reader state payload file server.files.ledger records record raw_log entry ∧
    verify_records H (drilledRecords records payload.leaf_index record raw_log) entry = ok report ∧
    verify_block_with_ledger H reader (server'.files.disk state.scratch_dir) state.scratch_dir
      (drill_filename payload.block_id) state.ledger_path = ok (.ok report) ∧
    response = drill_detected state payload report ∧
    server'.alerts = drill_alarm payload env :: server.alerts

end

/-- The text that is to replace the first address of the log is that address. -/
def SpoofsNothing (crates : Crates) (original_raw : List Char) (spoofed_ip : String) : Prop :=
  ∃ captures found, crates.captures IP_REGEX original_raw = some captures ∧
    captures.get original_raw 0 = ok (some found) ∧
    regex.expand crates IP_REGEX captures original_raw spoofed_ip.toList = ok found

theorem tampered_raw_eq_iff {crates : Crates} {original_raw raw_log : List Char}
    {spoofed_ip : String} (h : tampered_raw crates original_raw spoofed_ip = ok raw_log) :
    raw_log = original_raw ↔ SpoofsNothing crates original_raw spoofed_ip := by
  unfold tampered_raw at h
  cases hcaptures : crates.captures IP_REGEX original_raw with
  | none =>
    rw [hcaptures] at h
    cases h
    refine iff_of_false (fun heq => ?_) ?_
    · have hlength := congrArg List.length heq
      simp at hlength
    · rintro ⟨captures, found, hsome, -⟩
      rw [hcaptures] at hsome
      cases hsome
  | some captures =>
    rw [hcaptures, if_pos Option.isSome_some] at h
    obtain ⟨before, found, after, hsplit, hfound, hreplace⟩ :=
      regex.replace_of_match hcaptures spoofed_ip.toList
    rw [hreplace] at h
    obtain ⟨text, htext, heq⟩ := bind_eq_ok_iff.mp h
    cases heq
    constructor
    · intro hsame
      rw [hsplit] at hsame
      have hmiddle : text = found := by simpa using hsame
      exact ⟨captures, found, hcaptures, hfound, hmiddle ▸ htext⟩
    · rintro ⟨captures', found', hcaptures', hfound', hexpand⟩
      rw [hcaptures] at hcaptures'
      cases hcaptures'
      rw [hfound] at hfound'
      cases hfound'
      rw [htext] at hexpand
      cases hexpand
      exact hsplit.symm

section

variable {H : Type} [Digest H] {crates : Crates} {reader : JsonReader} {io : DrillIo H} {env : Env}
  {state : DrillState} {payload : TamperDrillRequest}

theorem is_valid_iff_anchored {records : List StoredLogRecord} {entry : LedgerEntry}
    {report : TamperReport} (hreport : verify_records H records entry = ok report) :
    report.is_valid = true ↔ Anchored H entry records := by
  obtain ⟨actual, hactual, hvalid, -⟩ := verify_records_spec (H := H) records entry
  rw [hreport] at hactual
  cases hactual
  rw [hvalid, anomalies_eq_nil_iff]
  exact ⟨fun ⟨⟨hcount, hintact⟩, hroot⟩ => ⟨hcount, hintact, hroot⟩,
    fun ⟨hcount, hintact, hroot⟩ => ⟨⟨hcount, hintact⟩, hroot⟩⟩

/-- Intact rows have their digests in lowercase already. -/
theorem map_canonical_of_intact {records : List StoredLogRecord}
    (h : ∀ row ∈ records.zipIdx, RowIntact H row) :
    records.map StoredLogRecord.canonical = records := by
  refine List.ext_getElem (List.length_map _) fun i hi hi' => ?_
  rw [List.getElem_map]
  exact canonical_eq_self (List.forall_mem_zipIdx.mp h i hi').2

/-- A block that its entry anchors is anchored after the drill exactly if the text is still the
    same. -/
theorem anchored_drilledRecords_iff [DomainSeparated H] {records : List StoredLogRecord}
    {record : StoredLogRecord} {entry : LedgerEntry} {leaf_index : Nat} {raw_log : List Char}
    (hrow : records[leaf_index]? = some record) (h : Anchored H entry records) :
    Anchored H entry (drilledRecords records leaf_index record raw_log) ↔
      raw_log = record.raw_log.toList := by
  obtain ⟨hlt, rfl⟩ := List.getElem?_eq_some_iff.mp hrow
  constructor
  · intro hdrilled
    have hlogs : (drilledRecords records leaf_index _ raw_log).map (·.raw_log) =
        records.map (·.raw_log) :=
      rootOf_injective (by simp [drilledRecords]) (hdrilled.root.trans h.root.symm)
    have hleaf := congrArg (·[leaf_index]?) hlogs
    have htext : String.ofList raw_log = records[leaf_index].raw_log := by
      simpa [drilledRecords, StoredLogRecord.canonical, hlt] using hleaf
    rw [← htext, String.toList_ofList]
  · rintro rfl
    have hsame : drilledRecords records leaf_index records[leaf_index]
        records[leaf_index].raw_log.toList = records := by
      rw [drilledRecords, String.ofList_toList]
      exact (congrArg _ (List.set_getElem_self hlt)).trans (map_canonical_of_intact h.intact)
    rw [hsame]
    exact h

/-- The replaced row keeps its block, so that the entry is looked up by that of the first row. -/
theorem target_block_id_drilledRecords {records : List StoredLogRecord}
    {record first : StoredLogRecord} {leaf_index : Nat}
    (hrow : records[leaf_index]? = some record) (hfirst : records.head? = some first)
    (raw_log : List Char) (name : String) :
    target_block_id (drilledRecords records leaf_index record raw_log) name = first.block_id := by
  obtain ⟨rest, rfl⟩ := List.head?_eq_some_iff.mp hfirst
  cases leaf_index with
  | zero =>
    cases hrow
    rfl
  | succ => rfl

/-- What a clone that was rewritten reads as. -/
theorem read_of_write_records_to_parquet {dir name : String} {records : List StoredLogRecord}
    {disk disk' : Disk H} {io : Io}
    (h : write_records_to_parquet io dir name records disk = ok (.ok (), disk')) (path : String) :
    read_parquet_file path (disk'.storage_dir name) =
      ok (.ok (records.map StoredLogRecord.canonical)) ∧ disk'.ledger = disk.ledger := by
  obtain ⟨-, hwritten⟩ := write_records_to_parquet_cases h
  obtain ⟨batch, hbatch, rfl⟩ := hwritten rfl
  refine ⟨?_, rfl⟩
  simp [Disk.write, read_parquet_file, collect, batch_to_records_canonical hbatch]

/-- The report on a clone that was rewritten is about the drilled rows. -/
theorem report_of_written {dir name ledger_path : String} {records : List StoredLogRecord}
    {record : StoredLogRecord} {leaf_index : Nat} {raw_log : List Char} {disk disk' : Disk H} {io : Io}
    {report : TamperReport} (hrow : records[leaf_index]? = some record)
    (hwrite : write_records_to_parquet io dir name
      (records.set leaf_index { record with raw_log := String.ofList raw_log }) disk =
        ok (.ok (), disk'))
    (hverdict : verify_block_with_ledger H reader disk' dir name ledger_path = ok (.ok report)) :
    ∃ entries entry first, load_ledger_entries reader ledger_path disk.ledger = .ok entries ∧
      records.head? = some first ∧ entries.find? (·.block_id = first.block_id) = some entry ∧
      verify_records H (drilledRecords records leaf_index record raw_log) entry = ok report := by
  obtain ⟨drilled, entries, entry, hdrilled, hload, hfind, hreport⟩ :=
    verify_block_with_ledger_eq_ok_iff.mp hverdict
  obtain ⟨hclone, hledger⟩ := read_of_write_records_to_parquet hwrite (path_join dir name)
  rw [hclone] at hdrilled
  cases hdrilled
  rw [hledger] at hload
  obtain ⟨first, hfirst⟩ : ∃ first, records.head? = some first := by
    cases records with
    | nil => cases hrow
    | cons first => exact ⟨first, rfl⟩
  have htarget := target_block_id_drilledRecords hrow hfirst raw_log name
  rw [drilledRecords] at htarget
  rw [htarget] at hfind
  exact ⟨entries, entry, first, hload, hfirst, hfind, hreport⟩

/-- The steps on the clone change no other file, and end in an error or in a report. -/
theorem drill_clone_spec {server server' : Server H}
    {outcome : Except (StatusCode × ErrorResponse) TamperDrillResponse}
    (h : drill_clone crates reader io env state payload server = ok (outcome, server')) :
    Files.SameBut state.scratch_dir (drill_filename payload.block_id) server.files server'.files ∧
    ∀ response, outcome = .ok response → ReportsDrill H crates reader env state payload
      (server.files.dirs state.scratch_dir (drill_filename payload.block_id)) server server'
      response := by
  obtain ⟨read, hread, h⟩ := bind_eq_ok_iff.mp h
  cases read with
  | error e =>
    cases h
    exact ⟨.refl _ _ _, nofun⟩
  | ok records =>
    dsimp only at h
    split at h
    · cases h
      exact ⟨.refl _ _ _, nofun⟩
    rename_i record hrow
    obtain ⟨raw_log, hraw, h⟩ := bind_eq_ok_iff.mp h
    obtain ⟨⟨written, disk⟩, hwrite, h⟩ := bind_eq_ok_iff.mp h
    have hsame : Files.SameBut state.scratch_dir (drill_filename payload.block_id) server.files
        (server.files.set_disk state.scratch_dir disk) := by
      obtain ⟨rfl | ⟨file, rfl⟩, -⟩ := write_records_to_parquet_cases hwrite
      · rw [Files.set_disk_disk]
        exact .refl _ _ _
      · exact Files.sameBut_write _ _ _ _
    cases written with
    | error e =>
      cases h
      exact ⟨hsame, nofun⟩
    | ok =>
      obtain ⟨verdict, hverdict, h⟩ := bind_eq_ok_iff.mp h
      cases verdict with
      | error e =>
        cases h
        exact ⟨hsame, nofun⟩
      | ok report =>
        cases h
        refine ⟨hsame, ?_⟩
        rintro response ⟨⟩
        obtain ⟨entries, entry, first, hload, hfirst, hfind, hreport⟩ :=
          report_of_written hrow hwrite (by rwa [Files.disk_set_disk] at hverdict)
        exact ⟨records, record, raw_log, entry, report,
          ⟨read_parquet_file_path hread, hrow, hraw, entries, first, hload, hfirst, hfind⟩,
          hreport, hverdict, rfl, rfl⟩

/-- What `POST /tamper/drill` can do: fail, show the plan, or report on the clone. -/
theorem post_tamper_drill_spec {server server' : Server H}
    {outcome : Except (StatusCode × ErrorResponse) TamperDrillResponse}
    (h : post_tamper_drill crates reader io env state payload server = ok (outcome, server')) :
    Files.SameBut state.scratch_dir (drill_filename payload.block_id) server.files server'.files ∧
    ∀ response, outcome = .ok response → response = drill_preview state payload ∨
      ReportsDrill H crates reader env state payload
        (server.files.dirs state.parquet_dir (block_filename payload.block_id)) server server'
        response := by
  unfold post_tamper_drill at h
  dsimp only at h
  split at h
  · cases h
    exact ⟨.refl _ _ _, nofun⟩
  rename_i original horiginal
  split at h
  · cases h
    refine ⟨.refl _ _ _, ?_⟩
    rintro response ⟨⟩
    exact .inl rfl
  split at h
  · cases h
    refine ⟨?_, nofun⟩
    dsimp only
    split
    · exact Files.sameBut_write _ _ _ _
    · exact .refl _ _ _
  obtain ⟨hsame, hreports⟩ := drill_clone_spec h
  refine ⟨(Files.sameBut_write _ _ _ _).trans hsame, fun response hresponse => .inr ?_⟩
  rw [horiginal, ← Files.dirs_copy_to server.files state.scratch_dir]
  exact hreports response hresponse

theorem reportsDrill_of_status {server server' : Server H} {response : TamperDrillResponse}
    (h : post_tamper_drill crates reader io env state payload server = ok (.ok response, server'))
    (hstatus : response.status = "tamper_detected") :
    ReportsDrill H crates reader env state payload
      (server.files.dirs state.parquet_dir (block_filename payload.block_id)) server server'
      response := by
  obtain rfl | hreports := (post_tamper_drill_spec h).2 response rfl
  · exact absurd (show "preview" = "tamper_detected" from hstatus) (by decide)
  · exact hreports

/-- A drill touches no file but its clone. It answers that tampering was detected, and raises the
    alarm, whatever the report says: the report is one of tampering exactly if the entry of the
    ledger does not anchor the rows of the clone, and after a drill on a block that verified,
    exactly if the address was replaced by another text. -/
theorem post_tamper_drill_detects_iff [DomainSeparated H] {server server' : Server H}
    {outcome : Except (StatusCode × ErrorResponse) TamperDrillResponse}
    (h : post_tamper_drill crates reader io env state payload server = ok (outcome, server')) :
    Files.SameBut state.scratch_dir (drill_filename payload.block_id) server.files
      server'.files ∧
    ∀ response, outcome = .ok response → response.status = "tamper_detected" →
      ∃ records record raw_log entry report,
        Drilled H crates reader state payload
          (server.files.dirs state.parquet_dir (block_filename payload.block_id))
          server.files.ledger records record raw_log entry ∧
        verify_block_with_ledger H reader (server'.files.disk state.scratch_dir) state.scratch_dir
          (drill_filename payload.block_id) state.ledger_path = ok (.ok report) ∧
        response.tamper_report = some report ∧
        server'.alerts = drill_alarm payload env :: server.alerts ∧
        (report.is_valid = false ↔
          ¬ Anchored H entry (drilledRecords records payload.leaf_index record raw_log)) ∧
        (Anchored H entry records → (report.is_valid = false ↔
          ¬ SpoofsNothing crates record.raw_log.toList payload.spoofed_ip)) := by
  refine ⟨(post_tamper_drill_spec h).1, ?_⟩
  rintro response rfl hstatus
  obtain ⟨records, record, raw_log, entry, report, hdrilled, hreport, hclone, rfl, halerts⟩ :=
    reportsDrill_of_status h hstatus
  have hvalid : report.is_valid = false ↔
      ¬ Anchored H entry (drilledRecords records payload.leaf_index record raw_log) := by
    rw [← is_valid_iff_anchored hreport, Bool.not_eq_true]
  refine ⟨records, record, raw_log, entry, report, hdrilled, hclone, rfl, halerts, hvalid,
    fun hanchored => ?_⟩
  rw [hvalid, anchored_drilledRecords_iff hdrilled.row hanchored,
    tampered_raw_eq_iff hdrilled.spoofed]

/-- A row that is replaced by one that agrees in a column leaves the column as it is. -/
theorem map_set_eq {α β : Type} {xs : List α} {i : Nat} {x y : α} (f : α → β)
    (hx : xs[i]? = some x) (hsame : f x = f y) : (xs.set i y).map f = xs.map f := by
  obtain ⟨hlt, rfl⟩ := List.getElem?_eq_some_iff.mp hx
  have hlt' : i < (xs.map f).length := by rwa [List.length_map]
  have hget : f y = (xs.map f)[i] := by rw [List.getElem_map, hsame]
  rw [List.map_set, hget, List.set_getElem_self hlt']

/-- The rows of a drill can be written back wherever those of the block could. -/
theorem write_drilled_ok {io : Io} (hio : ∀ call, io.fails call = false)
    {records : List StoredLogRecord} {record : StoredLogRecord} {leaf_index : Nat}
    (hrow : records[leaf_index]? = some record)
    (hvendors : distinctVendors (records.map (·.vendor)) ≤ 128) {raw_hashes : List H}
    (hhashes : records.map (·.raw_hash) = raw_hashes.map Hash.to_hex) (raw_log : String)
    (dir name : String) (disk : Disk H) :
    ∃ disk', write_records_to_parquet io dir name (records.set leaf_index { record with raw_log })
      disk = ok (.ok (), disk') := by
  have hne : records.set leaf_index { record with raw_log } ≠ [] := by
    rw [ne_eq, List.set_eq_nil_iff]
    rintro rfl
    cases hrow
  have hvendor := map_set_eq (y := { record with raw_log }) (·.vendor) hrow rfl
  have hhash := map_set_eq (y := { record with raw_log }) (·.raw_hash) hrow rfl
  obtain ⟨batch, hbatch, -⟩ := records_to_batch_ok hne (by rwa [hvendor]) (hhash.trans hhashes)
  obtain ⟨-, hwrite⟩ | ⟨⟨call, hcall⟩, -⟩ := write_parquet_file_cases io dir name batch disk
  · refine ⟨disk.write name (.Parquet [batch]), ?_⟩
    rw [write_records_to_parquet, hbatch, bind_ok]
    exact congrArg ok hwrite
  · rw [hio call] at hcall
    cases hcall

/-- Where nothing fails, a confirmed drill on a block that the ledger knows is answered as one that
    detected tampering. -/
theorem post_tamper_drill_ok {server : Server H} {original : ParquetFile H}
    {records : List StoredLogRecord} {record : StoredLogRecord} {raw_log : List Char}
    {entry : LedgerEntry} {raw_hashes : List H} (hconfirm : payload.confirm = true)
    (hcopy : io.copy_error = none) (hio : ∀ call, io.fails call = false)
    (horiginal :
      server.files.dirs state.parquet_dir (block_filename payload.block_id) = some original)
    (hdrilled : Drilled H crates reader state payload (some original) server.files.ledger records
      record raw_log entry)
    (hvendors : distinctVendors (records.map (·.vendor)) ≤ 128)
    (hhashes : records.map (·.raw_hash) = raw_hashes.map Hash.to_hex) :
    ∃ response server',
      post_tamper_drill crates reader io env state payload server = ok (.ok response, server') ∧
      response.status = "tamper_detected" := by
  obtain ⟨entries, first, hload, hfirst, hfind⟩ := hdrilled.found
  obtain ⟨disk, hwrite⟩ := write_drilled_ok hio hdrilled.row hvendors hhashes
    (String.ofList raw_log) state.scratch_dir (drill_filename payload.block_id)
    ((server.files.copy_to state.scratch_dir (drill_filename payload.block_id) original).disk
      state.scratch_dir)
  obtain ⟨hclone, hledger⟩ := read_of_write_records_to_parquet hwrite
    (path_join state.scratch_dir (drill_filename payload.block_id))
  rw [← target_block_id_drilledRecords hdrilled.row hfirst raw_log
    (drill_filename payload.block_id)] at hfind
  obtain ⟨report, hreport, -⟩ := verify_records_spec (H := H)
    (drilledRecords records payload.leaf_index record raw_log) entry
  have hverify : verify_block_with_ledger H reader disk state.scratch_dir
      (drill_filename payload.block_id) state.ledger_path = ok (.ok report) :=
    verify_block_with_ledger_eq_ok_iff.mpr
      ⟨_, entries, entry, hclone, by rw [hledger]; exact hload, hfind, hreport⟩
  refine ⟨drill_detected state payload report,
    { files := (server.files.copy_to state.scratch_dir (drill_filename payload.block_id)
        original).set_disk state.scratch_dir disk
      alerts := drill_alarm payload env :: server.alerts }, ?_, rfl⟩
  simp only [post_tamper_drill, horiginal, hconfirm, hcopy, drill_clone, Files.dirs_copy_to,
    hdrilled.read, hdrilled.row, hdrilled.spoofed, hwrite, hverify, bind_ok, Files.disk_set_disk,
    Bool.not_true, Bool.false_eq_true, ↓reduceIte]

end

/-- A batcher with two logs, the first of which is an address. -/
def addressBatcher : BatchAccumulator :=
  { singleLogBatcher with
    buffer := [⟨"fortinet", "10.0.0.1", some 7, some "e0", none⟩,
      ⟨"fortinet", "deny tcp", some 8, some "e1", none⟩] }

/-- The file content of its block. -/
def addressFile : ParquetFile Preimage :=
  .Parquet [⟨[.Utf8 ["e0", "e1"], .UInt64 [0, 0], .UInt32 [0, 1], .Int64 [7, 8],
    .Dictionary ⟨[0, 0], ["fortinet"], by decide⟩, .Utf8 ["10.0.0.1", "deny tcp"],
    .FixedSizeBinary [Digest.sha256 "10.0.0.1".as_bytes, Digest.sha256 "deny tcp".as_bytes],
    .Utf8 ["\x7b\x7d", "\x7b\x7d"]], 2, by simp [Column.len]⟩]

def addressRecord : StoredLogRecord :=
  ⟨"e0", 0, 0, 7, "fortinet", "10.0.0.1", digest_hex Preimage "10.0.0.1".as_bytes, "\x7b\x7d"⟩

def addressRecords : List StoredLogRecord :=
  [addressRecord,
    ⟨"e1", 0, 1, 8, "fortinet", "deny tcp", digest_hex Preimage "deny tcp".as_bytes, "\x7b\x7d"⟩]

def addressEntry : LedgerEntry := addressBatcher.blockEntry Preimage Env.fixed

/-- A server that has this block, and its entry in the ledger. -/
def addressServer : Server Preimage where
  files := {
    dirs := fun dir name =>
      if dir = "data/parquet" ∧ name = block_filename 0 then some addressFile else none
    ledger := some (ledgerText [addressEntry]) }
  alerts := []

def addressCaptures (pattern : String) (text : List Char) : List Captures :=
  if pattern = IP_REGEX ∧ text = str.lit "10.0.0.1" then [⟨[some (0, 8)]⟩] else []

theorem mem_addressCaptures {pattern : String} {text : List Char} {captures : Captures}
    (h : captures ∈ addressCaptures pattern text) :
    text = str.lit "10.0.0.1" ∧ captures = ⟨[some (0, 8)]⟩ := by
  unfold addressCaptures at h
  split at h
  · rename_i hmatch
    exact ⟨hmatch.2, List.mem_singleton.mp h⟩
  · cases h

/-- Libraries that know the address. -/
def addressCrates : Crates :=
  { (default : Crates) with
    captures_iter := addressCaptures
    captures_aligned := fun _ _ _ hcaptures range hrange => by
      obtain ⟨rfl, rfl⟩ := mem_addressCaptures hcaptures
      obtain rfl : range = (0, 8) := by simpa using hrange
      exact ⟨_, rfl⟩
    captures_whole := fun _ _ _ hcaptures => by
      rw [(mem_addressCaptures hcaptures).2]
      rfl
    captures_ordered := fun _ _ => by
      unfold addressCaptures
      split
      · exact List.pairwise_singleton _ _
      · exact .nil
    capture_names := fun _ => [none] }

def drillState : DrillState := { demoState with scratch_dir := "data/scratch" }

def DrillIo.reliable : DrillIo Preimage :=
  { Io.reliable with copy_error := none, copy_leaves := none }

theorem drilled_addressServer {spoofed_ip : String} {raw_log : List Char}
    (hspoofed : tampered_raw addressCrates (str.lit "10.0.0.1") spoofed_ip = ok raw_log) :
    Drilled Preimage addressCrates LedgerEntry.layoutReader drillState ⟨0, 0, spoofed_ip, true⟩
      (some addressFile) addressServer.files.ledger addressRecords addressRecord raw_log
      addressEntry where
  read _ := rfl
  row := rfl
  spoofed := hspoofed
  found := ⟨[addressEntry], addressRecord, load_ledger_entries_ledgerText _ _ (by decide), rfl, rfl⟩

theorem anchored_addressRecords : Anchored Preimage addressEntry addressRecords :=
  ⟨rfl, (holdsLogs_stored_records Env.fixed 0 addressBatcher.buffer).intact, rfl⟩

theorem file_addressServer :
    addressServer.files.dirs drillState.parquet_dir (block_filename 0) = some addressFile := by
  simp [addressServer, drillState, demoState]

/-- The drill on this block is answered, whatever replaces the address. -/
theorem post_tamper_drill_addressServer {spoofed_ip : String} {raw_log : List Char}
    (hspoofed : tampered_raw addressCrates (str.lit "10.0.0.1") spoofed_ip = ok raw_log) :
    ∃ response server', post_tamper_drill addressCrates LedgerEntry.layoutReader DrillIo.reliable
        Env.fixed drillState ⟨0, 0, spoofed_ip, true⟩ addressServer = ok (.ok response, server') ∧
      response.status = "tamper_detected" :=
  post_tamper_drill_ok rfl rfl (fun _ => rfl) file_addressServer
    (drilled_addressServer hspoofed) (by decide)
    (show _ = [Digest.sha256 "10.0.0.1".as_bytes, Digest.sha256 "deny tcp".as_bytes].map
      Hash.to_hex from rfl)

/-- What the drill on this block works on. -/
theorem eq_of_drilled_addressServer {spoofed_ip : String} {records : List StoredLogRecord}
    {record : StoredLogRecord} {raw_log : List Char} {entry : LedgerEntry}
    (h : Drilled Preimage addressCrates LedgerEntry.layoutReader drillState ⟨0, 0, spoofed_ip, true⟩
      (addressServer.files.dirs drillState.parquet_dir (block_filename 0))
      addressServer.files.ledger records record raw_log entry) :
    records = addressRecords ∧ record = addressRecord ∧ entry = addressEntry := by
  rw [file_addressServer] at h
  obtain ⟨hread, hrow, -, entries, first, hload, hfirst, hfind⟩ := h
  have hrecords := hread ""
  cases hrecords
  cases hrow
  cases hfirst
  rw [show load_ledger_entries LedgerEntry.layoutReader drillState.ledger_path
    addressServer.files.ledger = .ok [addressEntry] from
      load_ledger_entries_ledgerText _ _ (by decide)] at hload
  cases hload
  cases hfind
  exact ⟨rfl, rfl, rfl⟩

/-- The default address is noticed, and the block of the drill is as it was. -/
theorem post_tamper_drill_detects_iff_default : ∃ response server' report,
    post_tamper_drill addressCrates LedgerEntry.layoutReader DrillIo.reliable Env.fixed drillState
      ⟨0, 0, "10.99.99.99", true⟩ addressServer = ok (.ok response, server') ∧
    response.tamper_report = some report ∧ report.is_valid = false ∧
    server'.files.dirs "data/parquet" (block_filename 0) = some addressFile := by
  have hraw : tampered_raw addressCrates (str.lit "10.0.0.1") "10.99.99.99" =
      ok (str.lit "10.99.99.99") := by decide
  obtain ⟨response, server', hanswer, hstatus⟩ := post_tamper_drill_addressServer hraw
  obtain ⟨hsame, hdetects⟩ := post_tamper_drill_detects_iff hanswer
  obtain ⟨records, record, raw_log, entry, report, hdrilled, -, hreport, -, -, hvalid⟩ :=
    hdetects response rfl hstatus
  obtain ⟨rfl, rfl, rfl⟩ := eq_of_drilled_addressServer hdrilled
  refine ⟨response, server', report, hanswer, hreport,
    (hvalid anchored_addressRecords).mpr ?_, ?_⟩
  · intro hnothing
    exact absurd ((tampered_raw_eq_iff hraw).mpr hnothing) (by decide)
  · rw [← file_addressServer]
    exact hsame.dirs_eq _ _ (by decide)

/-- The drill answers that tampering was detected and raises the alarm, with a report that says
    otherwise. -/
def AlarmsOnValidClone (spoofed_ip : String) : Prop :=
  ∃ response server' report,
    post_tamper_drill addressCrates LedgerEntry.layoutReader DrillIo.reliable Env.fixed drillState
      ⟨0, 0, spoofed_ip, true⟩ addressServer = ok (.ok response, server') ∧
    response.status = "tamper_detected" ∧
    server'.alerts = [drill_alarm ⟨0, 0, spoofed_ip, true⟩ Env.fixed] ∧
    response.tamper_report = some report ∧ report.is_valid = true

theorem alarmsOnValidClone {spoofed_ip : String}
    (hraw : tampered_raw addressCrates (str.lit "10.0.0.1") spoofed_ip =
      ok (str.lit "10.0.0.1")) : AlarmsOnValidClone spoofed_ip := by
  obtain ⟨response, server', hanswer, hstatus⟩ := post_tamper_drill_addressServer hraw
  obtain ⟨records, record, raw_log, entry, report, hdrilled, hreport, -, rfl, halerts⟩ :=
    reportsDrill_of_status hanswer hstatus
  obtain ⟨rfl, rfl, rfl⟩ := eq_of_drilled_addressServer hdrilled
  refine ⟨_, server', report, hanswer, rfl, halerts, rfl, ?_⟩
  rw [is_valid_iff_anchored hreport, anchored_drilledRecords_iff hdrilled.row anchored_addressRecords]
  exact ok.inj (hdrilled.spoofed.symm.trans hraw)

/-- The address is replaced by itself, as such or by a reference to the match. -/
theorem alarmsOnValidClone_same_address :
    AlarmsOnValidClone "10.0.0.1" ∧ AlarmsOnValidClone "$0" :=
  ⟨alarmsOnValidClone (by decide), alarmsOnValidClone (by decide)⟩

end ulpf_cli.serve.handlers
