import Ulpf.Cli.Drill

open Result
open ulpf_integrity.merkle ulpf_integrity.storage ulpf_integrity.batcher ulpf_integrity.tamper
open ulpf_cli.serve.handlers

namespace ulpf_cli

section
variable (H : Type) [Digest H]

/-- `ulpf verify`: the exit code, and the report that is printed. -/
def run_verify (reader : JsonReader) (disk : Disk H) (dir file ledger : String) :
    Result (Nat × Option TamperReport) :=
  if (disk.storage_dir file).isNone then ok (1, none)
  else if disk.ledger.isNone then ok (1, none)
  else do
    match ← verify_block_with_ledger H reader disk dir file ledger with
    | .error _ => ok (2, none)
    | .ok report => if report.is_valid then ok (0, some report) else ok (2, some report)

end

/-- How a command ends. An error that `main` returns makes the exit code 1. -/
inductive Ending where
  | Exit (code : Nat)
  | Panicked
  deriving DecidableEq, Repr

/-- The log with its first address replaced, or with a mark where it has none. -/
def tampered_log (crates : Crates) (original_log : List Char) (ip : String) : Result (List Char) :=
  if (crates.captures IP_REGEX original_log).isSome then
    regex.replace crates IP_REGEX original_log ip.toList
  else ok (original_log ++ " [SPOOFED_IP:".toList ++ ip.toList ++ [']'])

/-- `ulpf tamper`. -/
def run_tamper {H : Type} [Digest H] (crates : Crates) (io : Io) (disk : Disk H)
    (dir file : String) (leaf : Nat) (ip : String) : Result (Ending × Disk H) :=
  if (disk.storage_dir file).isNone then ok (.Exit 1, disk)
  else do
    match ← read_parquet_file (path_join dir file) (disk.storage_dir file) with
    | .error _ => ok (.Exit 1, disk)
    | .ok records =>
      match records[leaf]? with
      | none => ok (.Exit 1, disk)
      | some record => do
        let log ← tampered_log crates record.raw_log.toList ip
        let records := records.set leaf { record with raw_log := String.ofList log }
        let (written, disk) ← write_records_to_parquet io dir file records disk
        match written with
        | .error _ => ok (.Exit 1, disk)
        | .ok () =>
          -- the snippet is cut when the file has been rewritten already
          match str.slice_to log (min (str.len log) 90) with
          | .ok _ => ok (.Exit 0, disk)
          | .panic => ok (.Panicked, disk)

section
variable {H : Type} [Digest H] {crates : Crates} {reader : JsonReader} {io : Io}
  {disk disk' : Disk H} {dir file ledger ip : String} {leaf : Nat} {log : List Char}
  {records : List StoredLogRecord} {record : StoredLogRecord}

/-- A report that `ulpf verify` prints is that of the auditor, and decides the exit code. -/
theorem run_verify_eq_some_iff {code : Nat} {report : TamperReport} :
    run_verify H reader disk dir file ledger = ok (code, some report) ↔
      verify_block_with_ledger H reader disk dir file ledger = ok (.ok report) ∧
        code = if report.is_valid then 0 else 2 := by
  constructor
  · intro h
    unfold run_verify at h
    split at h
    · cases h
    split at h
    · cases h
    obtain ⟨outcome, houtcome, h⟩ := bind_eq_ok_iff.mp h
    cases outcome with
    | error e => cases h
    | ok report' =>
      cases hvalid : report'.is_valid with
      | false =>
        simp only [hvalid, Bool.false_eq_true, if_false] at h
        cases h
        exact ⟨houtcome, by simp [hvalid]⟩
      | true =>
        simp only [hvalid, if_true] at h
        cases h
        exact ⟨houtcome, by simp [hvalid]⟩
  · rintro ⟨hreport, rfl⟩
    obtain ⟨records, entries, entry, hread, hload, -, -⟩ :=
      verify_block_with_ledger_eq_ok_iff.mp hreport
    have hfile : (disk.storage_dir file).isNone = false := by
      cases hdisk : disk.storage_dir file with
      | none => simp [hdisk, read_parquet_file] at hread
      | some content => rfl
    have hledger : disk.ledger.isNone = false := by
      cases hbytes : disk.ledger with
      | none => simp [hbytes, load_ledger_entries] at hload
      | some bytes => rfl
    simp only [run_verify, hfile, hledger, hreport, Bool.false_eq_true, if_false]
    cases hvalid : report.is_valid <;> simp [hvalid]

/-- `ulpf verify` exits with 0 exactly if the auditor reports a valid block. -/
theorem run_verify_eq_zero_iff {report : TamperReport} :
    run_verify H reader disk dir file ledger = ok (0, some report) ↔
      verify_block_with_ledger H reader disk dir file ledger = ok (.ok report) ∧
        report.is_valid = true := by
  rw [run_verify_eq_some_iff]
  cases report.is_valid <;> simp

theorem tampered_log_eq_iff {original_log : List Char}
    (h : tampered_log crates original_log ip = ok log) :
    log = original_log ↔ SpoofsNothing crates original_log ip := by
  by_cases hmatch : (crates.captures IP_REGEX original_log).isSome
  · rw [tampered_log, if_pos hmatch] at h
    exact tampered_raw_eq_iff (by rw [tampered_raw, if_pos hmatch, h])
  · rw [tampered_log, if_neg hmatch] at h
    cases h
    refine iff_of_false (by simp) ?_
    rintro ⟨captures, -, hsome, -⟩
    simp [hsome] at hmatch

/-- The snippet cannot be cut where byte 90 of the log is inside a character. -/
theorem slice_snippet_eq_panic_iff (log : List Char) :
    str.slice_to log (min (str.len log) 90) = .panic ↔
      90 < str.len log ∧ ¬ ∃ front back, log = front ++ back ∧ str.len front = 90 := by
  have hcut : ∀ n, (∃ text, str.slice_to log n = ok text) ↔
      ∃ front back, log = front ++ back ∧ str.len front = n := by
    intro n
    constructor
    · rintro ⟨text, htext⟩
      obtain ⟨⟨front, back⟩, hparts, -⟩ := bind_eq_ok_iff.mp htext
      obtain ⟨hsplit, hlen⟩ := str.split_at_eq_ok_iff.mp hparts
      exact ⟨front, back, hsplit, hlen⟩
    · rintro ⟨front, back, rfl, rfl⟩
      exact ⟨front, str.slice_to_len front back⟩
  have hpanic : ∀ n, str.slice_to log n = .panic ↔ ¬ ∃ text, str.slice_to log n = ok text := by
    intro n
    cases str.slice_to log n <;> simp
  rw [hpanic, hcut]
  by_cases hlong : 90 < str.len log
  · rw [min_eq_right hlong.le]
    simp [hlong]
  · rw [min_eq_left (not_lt.mp hlong)]
    refine iff_of_false (not_not.mpr ⟨log, [], by simp, rfl⟩) (fun h => hlong h.1)

/-- What `ulpf tamper` has done when it does not end with exit code 1: it has rewritten the rows with
    one text replaced. -/
theorem run_tamper_spec {ending : Ending}
    (h : run_tamper crates io disk dir file leaf ip = ok (ending, disk')) (hending : ending ≠ .Exit 1) :
    ∃ records record log,
      read_parquet_file (path_join dir file) (disk.storage_dir file) = ok (.ok records) ∧
      records[leaf]? = some record ∧
      tampered_log crates record.raw_log.toList ip = ok log ∧
      write_records_to_parquet io dir file
        (records.set leaf { record with raw_log := String.ofList log }) disk = ok (.ok (), disk') ∧
      ending = if str.slice_to log (min (str.len log) 90) = .panic then .Panicked else .Exit 0 := by
  unfold run_tamper at h
  split at h
  · cases h
    exact absurd rfl hending
  obtain ⟨outcome, hread, h⟩ := bind_eq_ok_iff.mp h
  cases outcome with
  | error e =>
    cases h
    exact absurd rfl hending
  | ok records =>
    cases hrow : records[leaf]? with
    | none =>
      simp only [hrow] at h
      cases h
      exact absurd rfl hending
    | some record =>
      simp only [hrow] at h
      obtain ⟨log, hlog, h⟩ := bind_eq_ok_iff.mp h
      obtain ⟨⟨written, disk''⟩, hwrite, h⟩ := bind_eq_ok_iff.mp h
      cases written with
      | error e =>
        cases h
        exact absurd rfl hending
      | ok _ =>
        refine ⟨records, record, log, hread, hrow, hlog, ?_⟩
        cases hslice : str.slice_to log (min (str.len log) 90) with
        | ok text =>
          simp only [hslice] at h
          cases h
          exact ⟨hwrite, by simp⟩
        | panic =>
          simp only [hslice] at h
          cases h
          exact ⟨hwrite, by simp⟩

/-- The anomalies of rows of which one was replaced are those of the new row. -/
theorem flatMap_rowAnomalies_set (hintact : ∀ row ∈ records.zipIdx, RowIntact H row)
    (hleaf : leaf < records.length) (record : StoredLogRecord) :
    (records.set leaf record).zipIdx.flatMap (rowAnomalies H) = rowAnomalies H (record, leaf) := by
  have hothers : ∀ row ∈ (records.set leaf record).zipIdx, row.2 ≠ leaf →
      rowAnomalies H row = [] := by
    rintro ⟨row, i⟩ hrow hi
    rw [rowAnomalies_eq_nil_iff]
    refine hintact _ ?_
    rw [List.mem_zipIdx_iff_getElem?] at hrow ⊢
    rwa [List.getElem?_set_ne (Ne.symm hi)] at hrow
  have hsplit : (records.set leaf record).zipIdx =
      (records.take leaf).zipIdx ++ (record, leaf) :: (records.drop (leaf + 1)).zipIdx (leaf + 1) := by
    rw [List.set_eq_take_append_cons_drop, if_pos hleaf, List.zipIdx_append, List.zipIdx_cons]
    simp [hleaf.le]
  rw [hsplit] at hothers ⊢
  rw [List.flatMap_append, List.flatMap_cons]
  have hfront : (records.take leaf).zipIdx.flatMap (rowAnomalies H) = [] := by
    refine List.flatMap_eq_nil_iff.mpr fun row hrow => hothers row (by simp [hrow]) ?_
    have := List.snd_lt_of_mem_zipIdx hrow
    simp at this
    omega
  have hback : ((records.drop (leaf + 1)).zipIdx (leaf + 1)).flatMap (rowAnomalies H) = [] := by
    refine List.flatMap_eq_nil_iff.mpr fun row hrow => hothers row (by simp [hrow]) ?_
    have := List.le_snd_of_mem_zipIdx hrow
    omega
  rw [hfront, hback, List.nil_append, List.append_nil]

/-- Where no two texts have one digest, the report on an anchored block of which one text was
    replaced names this row and no other. -/
theorem verify_records_set (hsha : Function.Injective (Digest.sha256 : List UInt8 → H))
    {entry : LedgerEntry} (hanchored : Anchored H entry records)
    (hrow : records[leaf]? = some record) {raw_log : String} (hne : raw_log ≠ record.raw_log) :
    ∃ report, verify_records H (records.set leaf { record with raw_log }) entry = ok report ∧
      report.is_valid = false ∧ report.tampered_records =
        [digestMismatch (digest_hex H raw_log.as_bytes) { record with raw_log }] := by
  obtain ⟨hleaf, rfl⟩ := List.getElem?_eq_some_iff.mp hrow
  obtain ⟨hindex, hhash⟩ := List.forall_mem_zipIdx.mp hanchored.intact leaf hleaf
  have hdigest : digest_hex H raw_log.as_bytes ≠ records[leaf].raw_hash := by
    rw [hhash]
    intro heq
    exact hne (String.as_bytes_injective (hsha (Hash.to_hex_inj.mp heq)))
  have hrowAnomalies : rowAnomalies H ({ records[leaf] with raw_log }, leaf) =
      [digestMismatch (digest_hex H raw_log.as_bytes) { records[leaf] with raw_log }] := by
    simp only [Nat.zero_add] at hindex
    simp [rowAnomalies, hindex, hdigest]
  have hanomalies : anomalies H (records.set leaf { records[leaf] with raw_log }) entry =
      [digestMismatch (digest_hex H raw_log.as_bytes) { records[leaf] with raw_log }] := by
    rw [anomalies, flatMap_rowAnomalies_set hanchored.intact hleaf, hrowAnomalies]
    simp [hanchored.count]
  obtain ⟨report, hreport, hvalid, htampered⟩ :=
    verify_records_spec (H := H) (records.set leaf { records[leaf] with raw_log }) entry
  rw [hanomalies] at hvalid htampered
  refine ⟨report, hreport, ?_, by simpa using htampered⟩
  simpa using hvalid

/-- Rewriting a block whose rows are intact changes the text of the one row and nothing else. -/
theorem drilledRecords_of_intact (hintact : ∀ row ∈ records.zipIdx, RowIntact H row)
    (hrow : records[leaf]? = some record) (log : List Char) :
    drilledRecords records leaf record log =
      records.set leaf { record with raw_log := String.ofList log } := by
  obtain ⟨hleaf, rfl⟩ := List.getElem?_eq_some_iff.mp hrow
  have hcanonical : records[leaf].canonical = records[leaf] :=
    canonical_eq_self (List.forall_mem_zipIdx.mp hintact leaf hleaf).2
  have hhash : String.ofList (str.to_ascii_lowercase records[leaf].raw_hash.toList) =
      records[leaf].raw_hash := congrArg StoredLogRecord.raw_hash hcanonical
  rw [drilledRecords, List.map_set, map_canonical_of_intact hintact]
  simp only [StoredLogRecord.canonical, hhash]

/-- `ulpf verify` on a block that `ulpf tamper` has rewritten is about the rows with the one text
    replaced. -/
theorem verify_block_with_ledger_of_written {entries : List LedgerEntry} {entry : LedgerEntry}
    (hload : load_ledger_entries reader ledger disk.ledger = .ok entries)
    (hfind : entries.find? (·.block_id = target_block_id records file) = some entry)
    (hintact : ∀ row ∈ records.zipIdx, RowIntact H row) (hrow : records[leaf]? = some record)
    (hwrite : write_records_to_parquet io dir file
      (records.set leaf { record with raw_log := String.ofList log }) disk = ok (.ok (), disk'))
    {report : TamperReport}
    (hreport : verify_records H (records.set leaf { record with raw_log := String.ofList log })
      entry = ok report) :
    verify_block_with_ledger H reader disk' dir file ledger = ok (.ok report) := by
  obtain ⟨hread, hledger⟩ := read_of_write_records_to_parquet hwrite (path_join dir file)
  obtain ⟨first, hfirst⟩ : ∃ first, records.head? = some first := by
    cases records with
    | nil => cases hrow
    | cons first => exact ⟨first, rfl⟩
  have htarget := target_block_id_drilledRecords hrow hfirst log file
  rw [show target_block_id records file = first.block_id by simp [target_block_id, hfirst]] at hfind
  refine verify_block_with_ledger_eq_ok_iff.mpr ⟨_, entries, entry, hread, ?_, ?_, ?_⟩
  · rw [hledger, hload]
  · rw [← drilledRecords, htarget, hfind]
  · rw [← drilledRecords, drilledRecords_of_intact hintact hrow, hreport]

/-- `ulpf tamper` on a block that `ulpf verify` accepts: unless it ends with exit code 1 it has
    rewritten the file, also where it panics at the snippet. `ulpf verify` then exits with 2 and
    reports the digest of that leaf alone, but where the spoofed address is the one that stood there
    it prints the report it printed before. -/
theorem run_verify_after_run_tamper (hsha : Function.Injective (Digest.sha256 : List UInt8 → H))
    {report : TamperReport} {ending : Ending}
    (hbefore : run_verify H reader disk dir file ledger = ok (0, some report))
    (htamper : run_tamper crates io disk dir file leaf ip = ok (ending, disk'))
    (hending : ending ≠ .Exit 1) :
    disk'.ledger = disk.ledger ∧
    (∀ name, name ≠ file → disk'.storage_dir name = disk.storage_dir name) ∧
    ∃ records record log,
      read_parquet_file (path_join dir file) (disk.storage_dir file) = ok (.ok records) ∧
      records[leaf]? = some record ∧
      tampered_log crates record.raw_log.toList ip = ok log ∧
      (ending = .Panicked ↔
        90 < str.len log ∧ ¬ ∃ front back, log = front ++ back ∧ str.len front = 90) ∧
      (SpoofsNothing crates record.raw_log.toList ip →
        run_verify H reader disk' dir file ledger = ok (0, some report)) ∧
      (¬ SpoofsNothing crates record.raw_log.toList ip → ∃ report',
        run_verify H reader disk' dir file ledger = ok (2, some report') ∧
        report'.tampered_records = [digestMismatch (digest_hex H (String.ofList log).as_bytes)
          { record with raw_log := String.ofList log }]) := by
  obtain ⟨records, record, log, hread, hrow, hlog, hwrite, hend⟩ := run_tamper_spec htamper hending
  obtain ⟨-, hleaves⟩ := write_records_to_parquet_cases hwrite
  obtain ⟨batch, -, rfl⟩ := hleaves rfl
  obtain ⟨hverdict, hvalid⟩ := run_verify_eq_zero_iff.mp hbefore
  obtain ⟨records', entries, entry, hread', hload, hfind, hreport⟩ :=
    verify_block_with_ledger_eq_ok_iff.mp hverdict
  rw [hread] at hread'
  cases hread'
  have hanchored := (is_valid_iff_anchored hreport).mp hvalid
  refine ⟨rfl, fun name hname => Function.update_of_ne hname _ _,
    records, record, log, hread, hrow, hlog, ?_, ?_, ?_⟩
  · rw [hend, ← slice_snippet_eq_panic_iff]
    split <;> simp [*]
  · intro hsame
    obtain ⟨hleaf, rfl⟩ := List.getElem?_eq_some_iff.mp hrow
    obtain rfl := (tampered_log_eq_iff hlog).mpr hsame
    refine run_verify_eq_zero_iff.mpr ⟨?_, hvalid⟩
    refine verify_block_with_ledger_of_written hload hfind hanchored.intact hrow hwrite ?_
    rw [String.ofList_toList, List.set_getElem_self, hreport]
  · intro hother
    have hne : String.ofList log ≠ record.raw_log := fun heq =>
      hother ((tampered_log_eq_iff hlog).mp (by rw [← heq, String.toList_ofList]))
    obtain ⟨report', hreport', hinvalid, htampered⟩ := verify_records_set hsha hanchored hrow hne
    refine ⟨report', run_verify_eq_some_iff.mpr ⟨?_, by simp [hinvalid]⟩, htampered⟩
    exact verify_block_with_ledger_of_written hload hfind hanchored.intact hrow hwrite hreport'

/-- Where the calls of the rewriting succeed, `ulpf tamper` rewrites any row of a block. -/
theorem run_tamper_ok (hio : ∀ call, io.fails call = false)
    (hread : read_parquet_file (path_join dir file) (disk.storage_dir file) = ok (.ok records))
    (hrow : records[leaf]? = some record)
    (hlog : tampered_log crates record.raw_log.toList ip = ok log)
    (hvendors : distinctVendors (records.map (·.vendor)) ≤ 128) {raw_hashes : List H}
    (hhashes : records.map (·.raw_hash) = raw_hashes.map Hash.to_hex) :
    ∃ ending disk', run_tamper crates io disk dir file leaf ip = ok (ending, disk') ∧
      ending ≠ .Exit 1 := by
  have hfile : (disk.storage_dir file).isNone = false := by
    cases hdisk : disk.storage_dir file with
    | none => simp [hdisk, read_parquet_file] at hread
    | some content => rfl
  obtain ⟨disk', hwrite⟩ :=
    write_drilled_ok hio hrow hvendors hhashes (String.ofList log) dir file disk
  simp only [run_tamper, hfile, hread, hrow, hlog, hwrite, bind_ok, Bool.false_eq_true, if_false]
  cases str.slice_to log (min (str.len log) 90) with
  | ok text => exact ⟨.Exit 0, disk', rfl, by decide⟩
  | panic => exact ⟨.Panicked, disk', rfl, by decide⟩

end

/-- The block with the address is caught after the address was replaced, and its other row is not
    reported. -/
theorem run_verify_after_run_tamper_address : ∃ ending disk' report',
    run_tamper addressCrates Io.reliable (addressServer.files.disk "data/parquet") "data/parquet"
      (block_filename 0) 0 "10.99.99.99" = ok (ending, disk') ∧
    run_verify Preimage LedgerEntry.layoutReader disk' "data/parquet" (block_filename 0)
      "ledger.jsonl" = ok (2, some report') ∧
    report'.tampered_records.map (·.leaf_index) = [0] := by
  have hfile : (addressServer.files.disk "data/parquet").storage_dir (block_filename 0) =
      some addressFile := file_addressServer
  have hread : read_parquet_file (path_join "data/parquet" (block_filename 0))
      ((addressServer.files.disk "data/parquet").storage_dir (block_filename 0)) =
        ok (.ok addressRecords) := by rw [hfile]; rfl
  have hlog : tampered_log addressCrates (str.lit "10.0.0.1") "10.99.99.99" =
      ok (str.lit "10.99.99.99") := by decide
  have hreliable : ∀ call, Io.reliable.fails call = false := fun _ => rfl
  obtain ⟨ending, disk', htamper, hending⟩ := run_tamper_ok hreliable hread
    (show addressRecords[0]? = some addressRecord from rfl) hlog (by decide)
    (show _ = [Digest.sha256 "10.0.0.1".as_bytes, Digest.sha256 "deny tcp".as_bytes].map
      Hash.to_hex from rfl)
  obtain ⟨report, hreport⟩ : ∃ report, verify_records Preimage addressRecords addressEntry =
      ok report := (verify_records_spec _ _).imp fun _ h => h.1
  have hbefore : run_verify Preimage LedgerEntry.layoutReader
      (addressServer.files.disk "data/parquet") "data/parquet" (block_filename 0) "ledger.jsonl" =
        ok (0, some report) :=
    run_verify_eq_zero_iff.mpr ⟨verify_block_with_ledger_eq_ok_iff.mpr
      ⟨_, [addressEntry], addressEntry, hread, load_ledger_entries_ledgerText _ _ (by decide), rfl,
        hreport⟩,
      (is_valid_iff_anchored hreport).mpr anchored_addressRecords⟩
  have hsha : Function.Injective (Digest.sha256 : List UInt8 → Preimage) :=
    fun a b h => congrArg Preimage.input h
  obtain ⟨-, -, records, record, log, hread', hrow, hlog', -, -, hcaught⟩ :=
    run_verify_after_run_tamper hsha hbefore htamper hending
  rw [hread] at hread'
  cases hread'
  cases hrow
  rw [show addressRecord.raw_log.toList = str.lit "10.0.0.1" from rfl, hlog] at hlog'
  cases hlog'
  have hother : ¬ SpoofsNothing addressCrates addressRecord.raw_log.toList "10.99.99.99" :=
    fun h => absurd ((tampered_log_eq_iff hlog).mpr h) (by decide)
  obtain ⟨report', hverify, htampered⟩ := hcaught hother
  exact ⟨ending, disk', report', htamper, hverify, by rw [htampered]; rfl⟩

end ulpf_cli
