import Ulpf.Lib.JsonValue
import Ulpf.Lib.Lines
import Ulpf.Cli.Verify

open Result
open ulpf_integrity.merkle ulpf_integrity.storage ulpf_integrity.batcher ulpf_integrity.tamper

namespace ulpf_integrity.batcher

/-- An entry as a JSON value. -/
def LedgerEntry.to_value (entry : LedgerEntry) : Value :=
  json.record [json.field "block_id" (.PosInt entry.block_id),
    json.field "timestamp" (json.ofInt entry.timestamp),
    json.field "leaf_count" (.PosInt entry.leaf_count),
    json.field "merkle_root" (.Text entry.merkle_root),
    json.field "parquet_file" (.Text entry.parquet_file)]

theorem LedgerEntry.value_to_value (entry : LedgerEntry) :
    json.value entry.to_value = entry.to_json.toList := by
  have hint : json.value (json.ofInt entry.timestamp) = json.int entry.timestamp := by
    cases entry.timestamp <;> rfl
  rw [LedgerEntry.to_value, LedgerEntry.to_json, String.toList_ofList]
  simp [json.record, json.field, json.value, json.members, hint]

theorem LedgerEntry.Sized.written_to_value {depth : Nat} {entry : LedgerEntry} (h : entry.Sized) :
    json.Written (depth + 1) entry.to_value :=
  (json.Fields.nil.field (.text _) |>.field (.text _) |>.field (.posInt h.2.2)
    |>.field (json.written_ofInt h.2.1)
    |>.field (.posInt (Nat.lt_of_succ_lt h.1))).written_record (by decide)

theorem LedgerEntry.control_not_mem_to_json (entry : LedgerEntry) {b : UInt8} (hb : b.toNat < 0x20) :
    b ∉ entry.to_json.as_bytes := by
  refine String.not_mem_as_bytes (by omega) fun c hc => ?_
  have := LedgerEntry.toNat_of_mem_to_json hc
  omega

/-- The lines of a ledger start with those of the entries that were written first. -/
theorem lines_ledgerText_append (entries : List LedgerEntry) (rest : List UInt8) :
    buf_read.lines (ledgerText entries ++ rest) =
      entries.map (·.to_json.as_bytes) ++ buf_read.lines rest := by
  induction entries with
  | nil => rfl
  | cons entry entries ih =>
    have htext : ledgerText (entry :: entries) ++ rest =
        entry.to_json.as_bytes ++ buf_read.NEWLINE :: (ledgerText entries ++ rest) := by
      simp [ledgerText, ledgerLine]
    rw [htext, buf_read.lines_append (entry.control_not_mem_to_json (by decide))
      (entry.control_not_mem_to_json (by decide)), ih]
    rfl

/-- One entry without the end of its line is a ledger too. -/
theorem load_ledger_entries_to_json (reader : JsonReader) (path : String) {entry : LedgerEntry}
    (hsized : entry.Sized) : load_ledger_entries reader path (some entry.to_json.as_bytes) = .ok [entry] := by
  have hne : entry.to_json.as_bytes ≠ [] := by
    intro hnil
    have hempty : entry.to_json = "" := String.as_bytes_injective hnil
    have hhead := entry.head?_to_json
    rw [hempty] at hhead
    cases hhead
  have hlines : buf_read.lines entry.to_json.as_bytes = buf_read.lines (ledgerText [entry]) := by
    have hline := lines_ledgerText_append [entry] []
    have hlast := buf_read.linesFrom_append (entry.control_not_mem_to_json (by decide)) [] []
    rw [List.append_nil] at hline hlast
    rw [hline, buf_read.lines, hlast, List.nil_append, buf_read.linesFrom, if_neg hne]
    rfl
  rw [load_ledger_entries, hlines]
  exact load_lines_ledgerText reader (List.forall_mem_singleton.mpr hsized) 0

end ulpf_integrity.batcher

namespace ulpf_cli.serve.handlers

/-- `val.get("block_id").and_then(|v| v.as_u64()) == Some(block_id)` for a line that is JSON. -/
def names_block (crates : Crates) (block_id : Nat) (line : List Char) : Bool :=
  match crates.from_str line with
  | .ok val => (val.get "block_id").bind Value.as_u64 == some block_id
  | .error _ => false

/-- The lines of the ledger, up to one that is no text. -/
def ledger_lines (ledger : Option (List UInt8)) : List (List Char) :=
  match ledger with
  | some bytes => buf_read.decodeLines (buf_read.lines bytes)
  | none => []

/-- The first line of the ledger about the block. -/
def ledger_line (crates : Crates) (block_id : Nat) (ledger : Option (List UInt8)) : List Char :=
  ((ledger_lines ledger).find? (names_block crates block_id)).getD []

/-- The archive of an export, and the name it is offered under. -/
structure EvidenceBundle (A : Type) where
  download_filename : String
  archive : A

def bundle_readme (block_id : Nat) (now : String) : String :=
  let id := String.ofList (str.zero_padded 5 block_id)
  let name := block_filename block_id
  "================================================================================\n" ++
  "ULPF COURTROOM EVIDENCE BUNDLE\n" ++
  s!"Block ID: #{id}\n" ++
  s!"Timestamp: {now}\n" ++
  "Standard: RFC 6962 Certificate Transparency Standard / OCSF 1.3\n" ++
  "================================================================================\n\n" ++
  "CONTENTS:\n" ++
  s!"1. {name} (Columnar Parquet log archive with lossless raw logs, SHA-256 digests, and OCSF 1.3 records)\n" ++
  "2. ledger_entry.json (Immutable append-only Merkle ledger entry)\n" ++
  "3. SHA256SUMS (Cryptographic manifest of all bundle artifacts)\n\n" ++
  "VERIFICATION INSTRUCTIONS (Air-Gapped):\n" ++
  "To cryptographically audit this evidence block using the official ULPF verifier binary:\n\n" ++
  s!"ulpf verify --file {name} --ledger ledger_entry.json\n\n" ++
  "A green [PASS] indicates 100% cryptographic integrity: zero modified bytes, zero injected records,\n" ++
  "and exact Merkle root mathematical alignment.\n"

def bundle_download_filename (block_id : Nat) : String :=
  String.ofList ("ulpf_evidence_block_".toList ++ str.zero_padded 5 block_id ++ ".tar.gz".toList)

def export_error (status : StatusCode) (error message : String) (block_id : Nat) :
    StatusCode × ErrorResponse :=
  (status, ⟨error, status.as_u16, message, some block_id, none⟩)

/-- What the export takes from its surroundings: the bytes of a block file, an error that reading
    them may end in, the time of day, and the `tar` and `flate2` crates, which pack files into an
    archive in memory. -/
structure ExportIo (H A : Type) where
  parquet_bytes : ParquetFile H → List UInt8
  read_error : Option String
  now : String
  pack : List (String × List UInt8) → Except String A

/-- `GET /export/bundle/:id`. -/
def get_export_bundle {H A : Type} [Digest H] (crates : Crates) (io : ExportIo H A) (disk : Disk H)
    (block_id : Nat) : Except (StatusCode × ErrorResponse) (EvidenceBundle A) :=
  let name := block_filename block_id
  match disk.storage_dir name with
  | none => .error (export_error .NOT_FOUND "Not Found"
      s!"Block Parquet file {name} does not exist" block_id)
  | some file =>
    match io.read_error with
    | some e => .error (export_error .INTERNAL_SERVER_ERROR "Read Error"
        s!"Failed reading Parquet bytes: {e}" block_id)
    | none =>
      let line := String.ofList (ledger_line crates block_id disk.ledger)
      let parquet_sha := digest_hex H (io.parquet_bytes file)
      let ledger_sha := digest_hex H line.as_bytes
      let sha256sums := s!"{parquet_sha}  {name}\n{ledger_sha}  ledger_entry.json\n"
      match io.pack [("README.txt", (bundle_readme block_id io.now).as_bytes),
        (name, io.parquet_bytes file), ("ledger_entry.json", line.as_bytes),
        ("SHA256SUMS", sha256sums.as_bytes)] with
      | .error e => .error (export_error .INTERNAL_SERVER_ERROR "Compression Error"
          s!"Failed compressing evidence bundle: {e}" block_id)
      | .ok archive => .ok ⟨bundle_download_filename block_id, archive⟩

/-- What an auditor unpacks a bundle and reads its block with. -/
structure Unpacker (H A : Type) where
  unpack : A → List (String × List UInt8)
  parquet : List UInt8 → ParquetFile H

/-- The directory into which an archive is unpacked. -/
def Unpacker.disk {H A : Type} (self : Unpacker H A) (archive : A) : Disk H where
  storage_dir name := ((self.unpack archive).lookup name).map self.parquet
  ledger := (self.unpack archive).lookup "ledger_entry.json"

/-- What the auditor relies on in the formats: an archive has the files that were packed into it,
    and the bytes of a block file are read as that file. -/
structure Unpacker.Restores {H A : Type} (tools : Unpacker H A) (io : ExportIo H A) (disk : Disk H) :
    Prop where
  unpack_pack : ∀ files archive, io.pack files = .ok archive → tools.unpack archive = files
  parquet_bytes : ∀ name file, disk.storage_dir name = some file →
    tools.parquet (io.parquet_bytes file) = file

section
variable {H A : Type} [Digest H] {crates : Crates} {reader : JsonReader} {disk : Disk H}
  {io : ExportIo H A} {tools : Unpacker H A} {bundle : EvidenceBundle A} {block_id : Nat}

/-- A block file is none of the other files of a bundle. -/
theorem block_filename_ne {name : String} (hname : name.toList.head? ≠ some 'b') (block_id : Nat) :
    block_filename block_id ≠ name := by
  rintro rfl
  apply hname
  have hstart : "block_".toList = ['b', 'l', 'o', 'c', 'k', '_'] := by decide
  unfold block_filename
  rw [hstart, String.toList_ofList]
  rfl

/-- What an auditor has after unpacking: the file of the block, and its line of the ledger. -/
theorem Unpacker.Restores.disk_eq (hrestores : tools.Restores io disk)
    (h : get_export_bundle crates io disk block_id = .ok bundle) :
    (tools.disk bundle.archive).storage_dir (block_filename block_id) =
        disk.storage_dir (block_filename block_id) ∧
      (tools.disk bundle.archive).ledger =
        some (String.ofList (ledger_line crates block_id disk.ledger)).as_bytes := by
  unfold get_export_bundle at h
  cases hfile : disk.storage_dir (block_filename block_id) with
  | none =>
    simp only [hfile] at h
    cases h
  | some file =>
    simp only [hfile] at h
    split at h
    · cases h
    split at h
    · cases h
    rename_i archive hpack
    cases h
    have hreadme : (block_filename block_id == "README.txt") = false := by
      simpa using block_filename_ne (by decide) block_id
    have hledger : ("ledger_entry.json" == block_filename block_id) = false := by
      simpa using (block_filename_ne (by decide) block_id).symm
    simp [Unpacker.disk, hrestores.unpack_pack _ _ hpack, List.lookup_cons, hreadme, hledger,
      hrestores.parquet_bytes _ _ hfile]

/-- A line that was written for an entry names the block of the entry and no other. -/
theorem names_block_to_json (hcrates : crates.ReadsBack) {entry : LedgerEntry} (hsized : entry.Sized)
    (block_id : Nat) :
    names_block crates block_id entry.to_json.toList = decide (entry.block_id = block_id) := by
  have hget : entry.to_value.get "block_id" = some (.PosInt entry.block_id) := by
    simp [LedgerEntry.to_value]
  rw [names_block, ← entry.value_to_value, hcrates _ hsized.written_to_value]
  dsimp only
  rw [hget]
  exact Option.some_beq_some

/-- The line that the export takes from a ledger, whatever follows the entries. -/
theorem ledger_line_of_mem (hcrates : crates.ReadsBack) {entries : List LedgerEntry}
    (hsized : ∀ entry ∈ entries, entry.Sized) {entry : LedgerEntry}
    (hdistinct : (entries.map (·.block_id)).Nodup) (hmem : entry ∈ entries)
    (rest : List UInt8) :
    ledger_line crates entry.block_id (some (ledgerText entries ++ rest)) =
      entry.to_json.toList := by
  have hdecode : ∀ (lines : List LedgerEntry) (more : List (List UInt8)),
      buf_read.decodeLines (lines.map (·.to_json.as_bytes) ++ more) =
        lines.map (·.to_json.toList) ++ buf_read.decodeLines more := by
    intro lines more
    induction lines with
    | nil => rfl
    | cons line lines ih => simp [buf_read.decodeLines, ih]
  have hfind : (entries.map (·.to_json.toList)).find? (names_block crates entry.block_id) =
      some entry.to_json.toList := by
    have hsame : entries.find? (names_block crates entry.block_id ∘ fun e => e.to_json.toList) =
        entries.find? (·.block_id = entry.block_id) :=
      List.find?_congr fun e he => names_block_to_json hcrates (hsized e he) entry.block_id
    rw [List.find?_map, hsame, find?_block_id_eq hdistinct hmem]
    rfl
  rw [ledger_line, ledger_lines, lines_ledgerText_append, hdecode, List.find?_append, hfind]
  rfl

/-- The bundle of a block of the ledger verifies exactly if the block file is an intact copy of that
    very block: the lookup by the first row cannot end at another entry, since the bundle has no
    other. A bundle about a block that no line of the ledger names never verifies. -/
theorem run_verify_unpack_iff [DomainSeparated H] (hcrates : crates.ReadsBack)
    {history : List (LedgerEntry × List String)} {rest : List UInt8}
    (hledger : disk.ledger = some (ledgerText (history.map (·.1)) ++ rest))
    (hsized : ∀ block ∈ history, block.1.Sized)
    (hcreated : ∀ block ∈ history, CreatedByFlush H block.1 block.2)
    (hdistinct : (history.map (·.1.block_id)).Nodup) (hrestores : tools.Restores io disk)
    (hbundle : get_export_bundle crates io disk block_id = .ok bundle) (dir : String) :
    (∀ block ∈ history, block.1.block_id = block_id →
      ((∃ report, run_verify H reader (tools.disk bundle.archive) dir (block_filename block_id)
        "ledger_entry.json" = ok (0, some report)) ↔
          HoldsCopyOf H disk (block_filename block_id) block.1 block.2)) ∧
    ((∀ line ∈ ledger_lines disk.ledger, names_block crates block_id line = false) → ∀ report,
      run_verify H reader (tools.disk bundle.archive) dir (block_filename block_id)
        "ledger_entry.json" ≠ ok (0, some report)) := by
  obtain ⟨hstored, hline⟩ := hrestores.disk_eq hbundle
  constructor
  · rintro block hblock rfl
    have hload : load_ledger_entries reader "ledger_entry.json" (tools.disk bundle.archive).ledger =
        .ok ([block].map (·.1)) := by
      rw [hline, hledger, ledger_line_of_mem hcrates (List.forall_mem_map.mpr hsized)
        (by rw [List.map_map]; exact hdistinct) (List.mem_map_of_mem hblock), String.ofList_toList,
        load_ledger_entries_to_json reader _ (hsized block hblock)]
      rfl
    have hvalid := verify_block_with_ledger_valid_iff hload
      (by simpa using hcreated block hblock) (List.nodup_singleton _) dir
      (block_filename block.1.block_id)
    simp only [run_verify_eq_zero_iff, hvalid]
    simp [HoldsCopyOf, hstored]
  · intro hnames report hverify
    obtain ⟨records, entries, entry, -, hload, hfind, -⟩ :=
      verify_block_with_ledger_eq_ok_iff.mp (run_verify_eq_zero_iff.mp hverify).1
    have hempty : ledger_line crates block_id disk.ledger = [] := by
      rw [ledger_line, List.find?_eq_none.mpr fun line hmem => by simp [hnames line hmem],
        Option.getD_none]
    rw [hline, hempty] at hload
    cases hload
    cases hfind

end

/-- Archives that are the lists of their files, and one block file at hand. -/
def plainExport (file : ParquetFile Preimage) :
    ExportIo Preimage (List (String × List UInt8)) × Unpacker Preimage (List (String × List UInt8)) :=
  (⟨fun _ => [], none, "now", .ok⟩, ⟨id, fun _ => file⟩)

/-- Block 0 copied over the file of block 1 is shown as block 1 elsewhere, but the bundle of block 1
    does not verify. The bundle of block 0 from its own file does. -/
theorem run_verify_unpack_iff_copied :
    (∃ bundle report, get_export_bundle Crates.layout (plainExport denyFile).1
        (diskWithFile (block_filename 0) denyFile) 0 = .ok bundle ∧
      run_verify Preimage LedgerEntry.layoutReader ((plainExport denyFile).2.disk bundle.archive) ""
        (block_filename 0) "ledger_entry.json" = ok (0, some report)) ∧
    ∃ bundle, get_export_bundle Crates.layout (plainExport denyFile).1
        (diskWithFile (block_filename 1) denyFile) 1 = .ok bundle ∧
      ∀ report, run_verify Preimage LedgerEntry.layoutReader
        ((plainExport denyFile).2.disk bundle.archive) "" (block_filename 1) "ledger_entry.json" ≠
          ok (0, some report) := by
  have hfile : ∀ id, (diskWithFile (block_filename id) denyFile).storage_dir (block_filename id) =
      some denyFile := fun id => by simp [diskWithFile]
  have hledger : ∀ id, (diskWithFile (block_filename id) denyFile).ledger =
      some (ledgerText (twoBlocks.map (·.1)) ++ []) := fun id => by simp [diskWithFile]
  have hrestores : ∀ id, (plainExport denyFile).2.Restores (plainExport denyFile).1
      (diskWithFile (block_filename id) denyFile) := by
    refine fun id => ⟨fun files archive hpack => (Except.ok.inj hpack).symm, fun name file hname => ?_⟩
    by_cases heq : name = block_filename id
    · simpa [diskWithFile, heq, plainExport] using hname
    · simp [diskWithFile, heq] at hname
  have hanswer : ∀ id, ∃ bundle, get_export_bundle Crates.layout (plainExport denyFile).1
      (diskWithFile (block_filename id) denyFile) id = .ok bundle := fun id => by
    simp only [get_export_bundle, hfile]
    exact ⟨_, rfl⟩
  have hdistinct : (twoBlocks.map (·.1.block_id)).Nodup := by decide
  obtain ⟨bundle₀, hbundle₀⟩ := hanswer 0
  obtain ⟨bundle₁, hbundle₁⟩ := hanswer 1
  obtain ⟨report, hreport⟩ := ((run_verify_unpack_iff Crates.layout_readsBack (hledger 0) (by decide)
    createdByFlush_twoBlocks hdistinct (hrestores 0) hbundle₀ "").1 _ List.mem_cons_self rfl).mpr
      (holdsCopyOf_denyFile _)
  refine ⟨⟨bundle₀, report, hbundle₀, hreport⟩, bundle₁, hbundle₁, fun report₁ hreport₁ => ?_⟩
  obtain ⟨records, hread, hholds, -⟩ := ((run_verify_unpack_iff Crates.layout_readsBack (hledger 1)
    (by decide) createdByFlush_twoBlocks hdistinct (hrestores 1) hbundle₁ "").1 (_, ["permit udp"])
      (List.mem_cons_of_mem _ List.mem_cons_self) rfl).mp ⟨report₁, hreport₁⟩
  have hdeny := (read_denyFile (block_filename 1) "").symm.trans (hread "")
  cases hdeny
  exact absurd hholds.raw_log_eq (by decide)

end ulpf_cli.serve.handlers
