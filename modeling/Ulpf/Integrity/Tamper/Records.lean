import Ulpf.Integrity.Ledger
import Ulpf.Integrity.Merkle.Tree
import Ulpf.Integrity.Storage

open Result
open ulpf_integrity.merkle ulpf_integrity.storage ulpf_integrity.batcher

namespace ulpf_integrity.tamper

/-- Detailed explanation of why a record or block failed integrity verification. -/
inductive TamperReason where
  | DigestMismatch (stored_hash calculated_hash : String)
  | IndexMismatch (expected_index found_index : UInt32)
  | CountDiscrepancy (expected_count actual_count : Nat)
  | MerkleRootMismatch (ledger_root computed_root : String)
  deriving DecidableEq, Repr

/-- Information identifying an individually corrupted or tampered record. -/
structure TamperedRecord where
  leaf_index : UInt32
  event_id : String
  stored_raw_hash : String
  calculated_raw_hash : String
  raw_log_preview : String
  reason : TamperReason
  deriving DecidableEq, Repr

/-- Comprehensive forensic report generated after auditing a Parquet block. -/
structure TamperReport where
  is_valid : Bool
  block_id : Nat
  ledger_merkle_root : String
  computed_merkle_root : String
  expected_records : Nat
  actual_records : Nat
  tampered_records : List TamperedRecord
  summary : String
  deriving DecidableEq, Repr

def preview_log (log : String) : String :=
  let max_len := 64
  if log.toList.length ≤ max_len then log
  else String.ofList (log.toList.take max_len) ++ "..."

def countDiscrepancy (expected_records actual_records : Nat) : TamperedRecord where
  leaf_index := UInt32.ofNat actual_records
  event_id := ""
  stored_raw_hash := ""
  calculated_raw_hash := ""
  raw_log_preview := ""
  reason := .CountDiscrepancy expected_records actual_records

def indexMismatch (expected_idx : UInt32) (record : StoredLogRecord) : TamperedRecord where
  leaf_index := record.leaf_index
  event_id := record.event_id
  stored_raw_hash := record.raw_hash
  calculated_raw_hash := ""
  raw_log_preview := preview_log record.raw_log
  reason := .IndexMismatch expected_idx record.leaf_index

def digestMismatch (computed_digest : String) (record : StoredLogRecord) : TamperedRecord where
  leaf_index := record.leaf_index
  event_id := record.event_id
  stored_raw_hash := record.raw_hash
  calculated_raw_hash := computed_digest
  raw_log_preview := preview_log record.raw_log
  reason := .DigestMismatch record.raw_hash computed_digest

def merkleRootMismatch (ledger_root computed_root : String) : TamperedRecord where
  leaf_index := 0
  event_id := ""
  stored_raw_hash := ledger_root
  calculated_raw_hash := computed_root
  raw_log_preview := ""
  reason := .MerkleRootMismatch ledger_root computed_root

section

variable (H : Type) [Digest H]

/-- The body of the loop over the rows. -/
def check_row (tampered_records : List TamperedRecord) (row : StoredLogRecord × Nat) :
    List TamperedRecord :=
  let (record, i) := row
  let expected_idx := UInt32.ofNat i
  let tampered_records :=
    if record.leaf_index ≠ expected_idx then tampered_records ++ [indexMismatch expected_idx record]
    else tampered_records
  let computed_digest := digest_hex H record.raw_log.as_bytes
  if computed_digest ≠ record.raw_hash then tampered_records ++ [digestMismatch computed_digest record]
  else tampered_records

/-- Performs in-memory forensic verification on a slice of records. -/
def verify_records (records : List StoredLogRecord) (ledger_entry : LedgerEntry) :
    Result TamperReport := do
  let actual_records := records.length
  let expected_records := ledger_entry.leaf_count
  let tampered_records :=
    if actual_records ≠ expected_records then [countDiscrepancy expected_records actual_records]
    else []
  let tampered_records := records.zipIdx.foldl (check_row H) tampered_records
  let computed_tree : MerkleTree H ← MerkleTree.from_raw_logs (records.map (·.raw_log.as_bytes))
  let computed_root := Hash.to_hex computed_tree.root
  let ledger_root := ledger_entry.merkle_root
  let root_matches := decide (computed_root = ledger_root)
  let tampered_records :=
    if !root_matches && tampered_records.isEmpty then
      tampered_records ++ [merkleRootMismatch ledger_root computed_root]
    else tampered_records
  let is_valid := root_matches && tampered_records.isEmpty
  let summary :=
    if is_valid then "Block integrity mathematically verified against anchored Merkle root."
    else s!"Tamper detected: {tampered_records.length} anomaly/anomalies found. Recomputed root {computed_root} != Ledger root {ledger_root}."
  return {
    is_valid
    block_id := ledger_entry.block_id
    ledger_merkle_root := ledger_root
    computed_merkle_root := computed_root
    expected_records
    actual_records
    tampered_records
    summary }

/-- The anomalies of one row. -/
def rowAnomalies (row : StoredLogRecord × Nat) : List TamperedRecord :=
  (if row.1.leaf_index ≠ UInt32.ofNat row.2 then [indexMismatch (UInt32.ofNat row.2) row.1] else []) ++
  (if digest_hex H row.1.raw_log.as_bytes ≠ row.1.raw_hash then
    [digestMismatch (digest_hex H row.1.raw_log.as_bytes) row.1] else [])

/-- The anomalies found before the root is compared. -/
def anomalies (records : List StoredLogRecord) (ledger_entry : LedgerEntry) : List TamperedRecord :=
  (if records.length ≠ ledger_entry.leaf_count then
    [countDiscrepancy ledger_entry.leaf_count records.length] else []) ++
  records.zipIdx.flatMap (rowAnomalies H)

/-- The root the verifier computes for the rows of a block. -/
def rootOf (logs : List String) : String :=
  Hash.to_hex (treeHead ((logs.map String.as_bytes).map hash_leaf) : H)

/-- A row that carries its position and the digest of its own raw log. -/
def RowIntact (row : StoredLogRecord × Nat) : Prop :=
  row.1.leaf_index = UInt32.ofNat row.2 ∧ row.1.raw_hash = digest_hex H row.1.raw_log.as_bytes

/-- What validity of a block means: the rows hold the given logs in this order, each
    with its position and its own digest. -/
structure HoldsLogs (logs : List String) (records : List StoredLogRecord) : Prop where
  raw_log_eq : records.map (·.raw_log) = logs
  intact : ∀ row ∈ records.zipIdx, RowIntact H row

end

section

variable {H : Type} [Digest H]

/-- The tree over the raw logs of some rows has the root of these rows. -/
theorem rootOf_eq_of_from_raw_logs {records : List StoredLogRecord} {tree : MerkleTree H}
    (htree : MerkleTree.from_raw_logs (records.map (·.raw_log.as_bytes)) = ok tree) :
    Hash.to_hex tree.root = rootOf H (records.map (·.raw_log)) := by
  rw [(MerkleTree.valid_of_from_raw_logs htree).root_eq, rootOf]
  simp only [List.map_map, Function.comp_def]

/-- The row loop reports the anomalies of every row in row order. -/
theorem foldl_check_row (rows : List (StoredLogRecord × Nat)) (tampered_records : List TamperedRecord) :
    rows.foldl (check_row H) tampered_records = tampered_records ++ rows.flatMap (rowAnomalies H) := by
  induction rows generalizing tampered_records with
  | nil => simp
  | cons row rows ih =>
    have hrow : check_row H tampered_records row = tampered_records ++ rowAnomalies H row := by
      simp only [check_row, rowAnomalies]
      split_ifs <;> simp
    rw [List.foldl_cons, ih, hrow, List.flatMap_cons, List.append_assoc]

theorem rowAnomalies_eq_nil_iff (row : StoredLogRecord × Nat) :
    rowAnomalies H row = [] ↔ RowIntact H row := by
  have hdigest : row.1.raw_hash = digest_hex H row.1.raw_log.as_bytes ↔
      digest_hex H row.1.raw_log.as_bytes = row.1.raw_hash := eq_comm
  simp [rowAnomalies, RowIntact, hdigest]

theorem anomalies_eq_nil_iff (records : List StoredLogRecord) (ledger_entry : LedgerEntry) :
    anomalies H records ledger_entry = [] ↔
      records.length = ledger_entry.leaf_count ∧ ∀ row ∈ records.zipIdx, RowIntact H row := by
  simp only [anomalies, List.append_eq_nil_iff, List.flatMap_eq_nil_iff, rowAnomalies_eq_nil_iff]
  split_ifs <;> simp_all

/-- Verification always ends in a report: the anomalies of the count and of the
    rows, and a root mismatch only where nothing else was found. -/
theorem verify_records_spec (records : List StoredLogRecord) (ledger_entry : LedgerEntry) :
    ∃ report, verify_records H records ledger_entry = ok report ∧
      (report.is_valid = true ↔ anomalies H records ledger_entry = [] ∧
        rootOf H (records.map (·.raw_log)) = ledger_entry.merkle_root) ∧
      report.tampered_records = anomalies H records ledger_entry ++
        if anomalies H records ledger_entry = [] ∧
            rootOf H (records.map (·.raw_log)) ≠ ledger_entry.merkle_root then
          [merkleRootMismatch ledger_entry.merkle_root (rootOf H (records.map (·.raw_log)))]
        else [] := by
  obtain ⟨tree, htree, -⟩ := MerkleTree.from_raw_logs_spec (H := H)
    (records.map (·.raw_log.as_bytes))
  have hroot := rootOf_eq_of_from_raw_logs htree
  have hfold : records.zipIdx.foldl (check_row H)
      (if records.length ≠ ledger_entry.leaf_count then
        [countDiscrepancy ledger_entry.leaf_count records.length] else []) =
      anomalies H records ledger_entry := foldl_check_row _ _
  refine ⟨_, by rw [verify_records, htree, bind_ok, pure_eq_ok], ?_, ?_⟩
  · simp only [hfold, hroot]
    by_cases hmatch : rootOf H (records.map (·.raw_log)) = ledger_entry.merkle_root <;>
      simp [hmatch]
  · simp only [hfold, hroot]
    by_cases hmatch : rootOf H (records.map (·.raw_log)) = ledger_entry.merkle_root <;>
      by_cases hnone : anomalies H records ledger_entry = [] <;> simp [hmatch, hnone]

/-- A block that holds the logs of its ledger entry is reported as valid. -/
theorem is_valid_of_holdsLogs {logs : List String} {records : List StoredLogRecord}
    {ledger_entry : LedgerEntry} (hcount : ledger_entry.leaf_count = logs.length)
    (hroot : ledger_entry.merkle_root = rootOf H logs) (hholds : HoldsLogs H logs records) :
    ∃ report, verify_records H records ledger_entry = ok report ∧ report.is_valid = true := by
  obtain ⟨report, hreport, hvalid, -⟩ := verify_records_spec (H := H) records ledger_entry
  refine ⟨report, hreport, hvalid.mpr ⟨?_, ?_⟩⟩
  · rw [anomalies_eq_nil_iff, hcount, ← hholds.raw_log_eq, List.length_map]
    exact ⟨rfl, hholds.intact⟩
  · rw [hholds.raw_log_eq, hroot]

theorem rootOf_injective [DomainSeparated H] {xs ys : List String} (hlength : xs.length = ys.length)
    (hroot : rootOf H xs = rootOf H ys) : xs = ys := by
  have hbytes : xs.map String.as_bytes = ys.map String.as_bytes :=
    treeHead_map_hash_leaf_injective (by simpa using hlength) (Hash.to_hex_inj.mp hroot)
  exact List.map_injective_iff.mpr String.as_bytes_injective hbytes

/-- Under the idealised hash nothing but the logs of its ledger entry makes a block
    valid. -/
theorem holdsLogs_of_is_valid [DomainSeparated H] {logs : List String}
    {records : List StoredLogRecord} {ledger_entry : LedgerEntry} {report : TamperReport}
    (hcount : ledger_entry.leaf_count = logs.length)
    (hroot : ledger_entry.merkle_root = rootOf H logs)
    (hreport : verify_records H records ledger_entry = ok report) (hvalid : report.is_valid = true) :
    HoldsLogs H logs records := by
  obtain ⟨actual, hactual, hiff, -⟩ := verify_records_spec (H := H) records ledger_entry
  rw [hreport] at hactual
  cases hactual
  obtain ⟨hnone, hrecomputed⟩ := hiff.mp hvalid
  obtain ⟨hlength, hintact⟩ := (anomalies_eq_nil_iff records ledger_entry).mp hnone
  refine ⟨rootOf_injective (by simpa using hlength.trans hcount) (hrecomputed.trans hroot), hintact⟩

theorem is_valid_iff_holdsLogs [DomainSeparated H] {logs : List String}
    {records : List StoredLogRecord} {ledger_entry : LedgerEntry} {report : TamperReport}
    (hcount : ledger_entry.leaf_count = logs.length)
    (hroot : ledger_entry.merkle_root = rootOf H logs)
    (hreport : verify_records H records ledger_entry = ok report) :
    report.is_valid = true ↔ HoldsLogs H logs records := by
  refine ⟨holdsLogs_of_is_valid hcount hroot hreport, fun hholds => ?_⟩
  obtain ⟨actual, hactual, hvalid⟩ := is_valid_of_holdsLogs hcount hroot hholds
  rw [hreport] at hactual
  cases hactual
  exact hvalid

end

def TamperReason.isDigestMismatch : TamperReason → Bool
  | .DigestMismatch _ _ => true
  | _ => false

def TamperReason.isIndexMismatch : TamperReason → Bool
  | .IndexMismatch _ _ => true
  | _ => false

section

variable {H : Type} [Digest H]

/-- The entries of a report that come from one kind of row check are, in order,
    those of the rows that fail the check. -/
theorem filter_tampered_records {records : List StoredLogRecord} {ledger_entry : LedgerEntry}
    {report : TamperReport} (hreport : verify_records H records ledger_entry = ok report)
    {kind : TamperReason → Bool} (hcount : ∀ m n, kind (.CountDiscrepancy m n) = false)
    (hroot : ∀ r s, kind (.MerkleRootMismatch r s) = false)
    {bad : StoredLogRecord × Nat → Bool} {entry : StoredLogRecord × Nat → TamperedRecord}
    (hrow : ∀ row, (rowAnomalies H row).filter (fun t => kind t.reason) =
      if bad row then [entry row] else []) :
    report.tampered_records.filter (fun t => kind t.reason) = (records.zipIdx.filter bad).map entry := by
  obtain ⟨actual, hactual, -, htampered⟩ := verify_records_spec (H := H) records ledger_entry
  rw [hreport] at hactual
  cases hactual
  have hrows : ∀ rows : List (StoredLogRecord × Nat),
      (rows.flatMap (rowAnomalies H)).filter (fun t => kind t.reason) =
        (rows.filter bad).map entry := by
    intro rows
    induction rows with
    | nil => rfl
    | cons row rows ih =>
      rw [List.flatMap_cons, List.filter_append, ih, hrow]
      cases hbad : bad row <;> simp [hbad]
  rw [htampered, List.filter_append, anomalies, List.filter_append, hrows]
  have hfirst : (if records.length ≠ ledger_entry.leaf_count then
      [countDiscrepancy ledger_entry.leaf_count records.length] else []).filter
        (fun t => kind t.reason) = [] := by
    split <;> simp [countDiscrepancy, hcount]
  have hlast : ∀ p : Prop, ∀ [Decidable p], (if p then
      [merkleRootMismatch ledger_entry.merkle_root (rootOf H (records.map (·.raw_log)))]
      else []).filter (fun t => kind t.reason) = [] := by
    intro p _
    split <;> simp [merkleRootMismatch, hroot]
  rw [hfirst, hlast, List.nil_append, List.append_nil]

theorem filter_isDigestMismatch {records : List StoredLogRecord} {ledger_entry : LedgerEntry}
    {report : TamperReport} (hreport : verify_records H records ledger_entry = ok report) :
    report.tampered_records.filter (·.reason.isDigestMismatch) =
      (records.zipIdx.filter fun row => row.1.raw_hash ≠ digest_hex H row.1.raw_log.as_bytes).map
        fun row => digestMismatch (digest_hex H row.1.raw_log.as_bytes) row.1 := by
  refine filter_tampered_records hreport (fun _ _ => rfl) (fun _ _ => rfl) fun row => ?_
  have hne : digest_hex H row.1.raw_log.as_bytes ≠ row.1.raw_hash ↔
      row.1.raw_hash ≠ digest_hex H row.1.raw_log.as_bytes := ne_comm
  simp only [rowAnomalies, List.filter_append, hne, decide_eq_true_eq]
  split_ifs <;> rfl

theorem filter_isIndexMismatch {records : List StoredLogRecord} {ledger_entry : LedgerEntry}
    {report : TamperReport} (hreport : verify_records H records ledger_entry = ok report) :
    report.tampered_records.filter (·.reason.isIndexMismatch) =
      (records.zipIdx.filter fun row => row.1.leaf_index ≠ UInt32.ofNat row.2).map
        fun row => indexMismatch (UInt32.ofNat row.2) row.1 := by
  refine filter_tampered_records hreport (fun _ _ => rfl) (fun _ _ => rfl) fun row => ?_
  simp only [rowAnomalies, List.filter_append, decide_eq_true_eq]
  split_ifs <;> rfl

end

end ulpf_integrity.tamper
