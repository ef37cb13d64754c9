import Ulpf.Integrity.Merkle.Inclusion
import Ulpf.Cli.Blocks

open Result merkle_tree_hash
open ulpf_integrity.merkle ulpf_integrity.storage ulpf_integrity.batcher ulpf_integrity.tamper

namespace ulpf_cli.serve.handlers

/-- The HTTP statuses of a refused proof. -/
inductive StatusCode where
  | NOT_IMPLEMENTED
  | NOT_FOUND
  | INTERNAL_SERVER_ERROR
  | BAD_REQUEST
  deriving DecidableEq, Repr

def StatusCode.as_u16 : StatusCode → Nat
  | NOT_IMPLEMENTED => 501
  | NOT_FOUND => 404
  | INTERNAL_SERVER_ERROR => 500
  | BAD_REQUEST => 400

structure ErrorResponse where
  error : String
  code : Nat
  message : String
  block_id : Option Nat
  leaf_index : Option Nat
  deriving DecidableEq, Repr

structure AuditStep where
  hash : String
  side : String
  deriving DecidableEq, Repr

structure InclusionProofResponse where
  block_id : Nat
  leaf_index : Nat
  tree_size : Nat
  leaf_hash : String
  calculated_merkle_root : String
  ledger_merkle_root : Option String
  verified : Bool
  audit_path : List AuditStep
  standard : String
  deriving DecidableEq, Repr

/-- The shape that all errors of the handler share. -/
def prove_error (status : StatusCode) (error message : String) (block_id leaf_index : Nat) :
    StatusCode × ErrorResponse :=
  (status, ⟨error, status.as_u16, message, some block_id, some leaf_index⟩)

/-- The root that the ledger has for a block; a ledger that is absent or cannot be
    read has none. -/
def ledger_root (reader : JsonReader) (state : AppState) (ledger : Option (List UInt8))
    (block_id : Nat) : Option String :=
  if ledger.isSome then
    match load_ledger_entries reader state.ledger_path ledger with
    | .ok entries => (entries.find? (·.block_id == block_id)).map (·.merkle_root)
    | .error _ => none
  else none

section

variable (H : Type) [Digest H]

def audit_step (step : H × Side) : AuditStep where
  hash := Hash.to_hex step.1
  side := match step.2 with
    | .Left => "Left"
    | .Right => "Right"

variable [DecidableEq H]

/-- The proof for a row of a block that was read. The tree, the path and the root it
    is checked against all come from the rows. -/
def prove_record (records : List StoredLogRecord) (ledger_merkle_root : Option String)
    (block_id leaf_index : Nat) :
    Result (Except (StatusCode × ErrorResponse) InclusionProofResponse) :=
  match records[leaf_index]? with
  | none => ok (.error (prove_error .BAD_REQUEST "Index Out of Bounds"
      s!"Leaf index {leaf_index} is out of bounds (block #{block_id} has {records.length} records)"
      block_id leaf_index))
  | some record => do
    let tree : MerkleTree H ← MerkleTree.from_raw_logs (records.map (·.raw_log.as_bytes))
    match ← tree.inclusion_proof leaf_index with
    | .error e => ok (.error (prove_error .INTERNAL_SERVER_ERROR "Proof Generation Error"
        s!"Failed generating inclusion proof: {e.message}" block_id leaf_index))
    | .ok proof =>
      let target_hash : H := hash_leaf record.raw_log.as_bytes
      ok (.ok {
        block_id
        leaf_index
        tree_size := records.length
        leaf_hash := Hash.to_hex target_hash
        calculated_merkle_root := Hash.to_hex tree.root
        ledger_merkle_root
        verified := verify_inclusion_proof_by_hash target_hash proof.leaf_index proof.tree_size
          proof.audit_path tree.root
        audit_path := proof.audit_path.map (audit_step H)
        standard := "RFC 6962 Certificate Transparency Standard" })

/-- `GET /prove/:block/:leaf`. -/
def get_prove_inclusion (reader : JsonReader) (state : AppState) (disk : Disk H)
    (block_id leaf_index : Nat) (live : Option Bool) :
    Result (Except (StatusCode × ErrorResponse) InclusionProofResponse) :=
  if live ≠ some true then
    ok (.error (prove_error .NOT_IMPLEMENTED "Not Implemented"
      "Merkle inclusion proof endpoint is stubbed pending completion of #5 ([integrity/M] Ledger fsync + prove/consistency CLI). Pass '?live=true' to execute live RFC 6962 audit path computation."
      block_id leaf_index))
  else
    let filename := block_filename block_id
    if (disk.storage_dir filename).isNone then
      ok (.error (prove_error .NOT_FOUND "Not Found"
        s!"Parquet file for block #{block_id} not found" block_id leaf_index))
    else do
      match ← read_parquet_file (path_join state.parquet_dir filename) (disk.storage_dir filename) with
      | .error e => ok (.error (prove_error .INTERNAL_SERVER_ERROR "Read Error"
          s!"Failed reading block records: {e}" block_id leaf_index))
      | .ok records =>
        prove_record H records (ledger_root reader state disk.ledger block_id) block_id leaf_index

/-- What the handler finds for a block on disk. -/
def BlockReads (state : AppState) (disk : Disk H) (block_id : Nat) (records : List StoredLogRecord) :
    Prop :=
  read_parquet_file (path_join state.parquet_dir (block_filename block_id))
    (disk.storage_dir (block_filename block_id)) = ok (.ok records)

/-- The ledger file has an entry for the block with the root of these rows. -/
def LedgerHasRootOf (reader : JsonReader) (state : AppState) (disk : Disk H) (block_id : Nat)
    (records : List StoredLogRecord) : Prop :=
  ∃ entries, load_ledger_entries reader state.ledger_path disk.ledger = .ok entries ∧
    ∃ entry ∈ entries, entry.block_id = block_id ∧
      entry.merkle_root = rootOf H (records.map (·.raw_log))

/-- What an answer to a proof request should vouch for: the ledger has an entry for
    the block with the root of its rows, and the path in the answer leads from the
    log at the leaf to that root. -/
def VouchesForLedger (reader : JsonReader) (state : AppState) (disk : Disk H)
    (block_id leaf_index : Nat) (response : InclusionProofResponse) : Prop :=
  ∃ records record entries entry, BlockReads H state disk block_id records ∧
    records[leaf_index]? = some record ∧
    load_ledger_entries reader state.ledger_path disk.ledger = .ok entries ∧ entry ∈ entries ∧
    entry.block_id = block_id ∧ entry.merkle_root = response.calculated_merkle_root ∧
    response.calculated_merkle_root = rootOf H (records.map (·.raw_log)) ∧
    ∃ (root : H) (path : List (H × Side)), Hash.to_hex root = entry.merkle_root ∧
      response.audit_path = path.map (audit_step H) ∧
      verify_inclusion_proof record.raw_log.as_bytes leaf_index records.length path root = true

end

variable {H : Type} [Digest H] [DecidableEq H]

/-- For a leaf in range a proof is always made, and it is checked against the root it
    was made from, so that `verified` is true whatever the ledger has. -/
theorem prove_record_ok (block_id : Nat) {records : List StoredLogRecord} {record : StoredLogRecord}
    {leaf_index : Nat} (hrecord : records[leaf_index]? = some record)
    (ledger_merkle_root : Option String) :
    ∃ (response : InclusionProofResponse) (root : H) (path : List (H × Side)),
      prove_record H records ledger_merkle_root block_id leaf_index = ok (.ok response) ∧
      response.verified = true ∧ response.ledger_merkle_root = ledger_merkle_root ∧
      response.calculated_merkle_root = rootOf H (records.map (·.raw_log)) ∧
      Hash.to_hex root = rootOf H (records.map (·.raw_log)) ∧
      response.audit_path = path.map (audit_step H) ∧
      verify_inclusion_proof record.raw_log.as_bytes leaf_index records.length path root = true := by
  obtain ⟨tree, htree, hvalid⟩ := MerkleTree.from_raw_logs_spec (H := H)
    (records.map (·.raw_log.as_bytes))
  have hlog : (records.map (·.raw_log.as_bytes))[leaf_index]? = some record.raw_log.as_bytes := by
    rw [List.getElem?_map, hrecord, Option.map_some]
  obtain ⟨proof, hproof, hindex, hsize, hverify⟩ := hvalid.inclusion_proof_verifies hlog
  have hroot := rootOf_eq_of_from_raw_logs htree
  rw [List.length_map] at hsize hverify
  rw [prove_record, hrecord]
  simp only [htree, bind_ok, hproof]
  refine ⟨_, tree.root, proof.audit_path, rfl, ?_, rfl, hroot, hroot, rfl, hverify⟩
  dsimp only
  rw [hindex, hsize]
  exact hverify

theorem get_prove_inclusion_eq {reader : JsonReader} {state : AppState} {disk : Disk H}
    {block_id leaf_index : Nat} {records : List StoredLogRecord}
    (hread : BlockReads H state disk block_id records) :
    get_prove_inclusion H reader state disk block_id leaf_index (some true) =
      prove_record H records (ledger_root reader state disk.ledger block_id) block_id leaf_index := by
  have hexists : (disk.storage_dir (block_filename block_id)).isNone = false := by
    rw [Option.isNone_eq_false_iff, Option.isSome_iff_ne_none]
    intro hnone
    rw [BlockReads, hnone] at hread
    cases hread
  rw [get_prove_inclusion, if_neg (by simp)]
  simp only [hexists, Bool.false_eq_true, ↓reduceIte]
  rw [hread, bind_ok]

/-- A proof is only given for a leaf of a block file that can be read. -/
theorem exists_record_of_get_prove_inclusion {reader : JsonReader} {state : AppState} {disk : Disk H}
    {block_id leaf_index : Nat} {response : InclusionProofResponse}
    (hanswer : get_prove_inclusion H reader state disk block_id leaf_index (some true) =
      ok (.ok response)) :
    ∃ records record, BlockReads H state disk block_id records ∧
      records[leaf_index]? = some record := by
  have hfound := hanswer
  rw [get_prove_inclusion, if_neg (by simp)] at hfound
  dsimp only at hfound
  split at hfound
  · cases hfound
  obtain ⟨contents, hcontents, -⟩ := bind_eq_ok_iff.mp hfound
  cases contents with
  | error e =>
    rw [hcontents] at hfound
    cases hfound
  | ok records =>
    rw [get_prove_inclusion_eq hcontents, prove_record] at hanswer
    cases hrecord : records[leaf_index]? with
    | none =>
      rw [hrecord] at hanswer
      cases hanswer
    | some record => exact ⟨records, record, hcontents, hrecord⟩

/-- Every refusal carries the number of its status and names the block and the leaf
    that were asked for. -/
theorem error_of_get_prove_inclusion {reader : JsonReader} {state : AppState} {disk : Disk H}
    {block_id leaf_index : Nat} {live : Option Bool} {status : StatusCode} {error : ErrorResponse}
    (hrefused : get_prove_inclusion H reader state disk block_id leaf_index live =
      ok (.error (status, error))) :
    error.code = status.as_u16 ∧ error.block_id = some block_id ∧
      error.leaf_index = some leaf_index := by
  have hshape : ∀ {status' text message},
      (ok (.error (prove_error status' text message block_id leaf_index)) :
        Result (Except _ InclusionProofResponse)) = ok (.error (status, error)) →
      error.code = status.as_u16 ∧ error.block_id = some block_id ∧
        error.leaf_index = some leaf_index := by
    intro status' text message h
    cases h
    exact ⟨rfl, rfl, rfl⟩
  unfold get_prove_inclusion at hrefused
  dsimp only at hrefused
  split at hrefused
  · exact hshape hrefused
  split at hrefused
  · exact hshape hrefused
  obtain ⟨contents, -, hrefused⟩ := bind_eq_ok_iff.mp hrefused
  cases contents with
  | error e => exact hshape hrefused
  | ok records =>
    dsimp only at hrefused
    unfold prove_record at hrefused
    split at hrefused
    · exact hshape hrefused
    · obtain ⟨tree, -, hrefused⟩ := bind_eq_ok_iff.mp hrefused
      obtain ⟨proof, -, hrefused⟩ := bind_eq_ok_iff.mp hrefused
      cases proof with
      | error e => exact hshape hrefused
      | ok proof => cases hrefused

/-- An answer vouches for the ledger where the ledger has the root of the file's own logs. -/
theorem vouchesForLedger_of_root {reader : JsonReader} {state : AppState} {disk : Disk H}
    {block_id leaf_index : Nat} {records : List StoredLogRecord}
    (hread : BlockReads H state disk block_id records) (hleaf : leaf_index < records.length)
    (hledger : LedgerHasRootOf H reader state disk block_id records)
    {response : InclusionProofResponse}
    (hanswer : get_prove_inclusion H reader state disk block_id leaf_index (some true) =
      ok (.ok response)) : VouchesForLedger H reader state disk block_id leaf_index response := by
  obtain ⟨entries, hload, entry, hmem, hid, hroot⟩ := hledger
  have hrecord := List.getElem?_eq_getElem hleaf
  obtain ⟨actual, root, path, hprove, -, -, hcalculated, hhex, hpath, hverify⟩ :=
    prove_record_ok (H := H) block_id hrecord (ledger_root reader state disk.ledger block_id)
  rw [get_prove_inclusion_eq hread, hprove] at hanswer
  cases hanswer
  exact ⟨records, _, entries, entry, hread, hrecord, hload, hmem, hid, hroot.trans hcalculated.symm,
    hcalculated, root, path, hhex.trans hroot.symm, hpath, hverify⟩

/-- When a verified proof vouches for the ledger: exactly if the block file cannot be
    read, the leaf is out of range, or the ledger has an entry for the block with the
    root of the file's own logs. The handler does not compare the two roots. -/
theorem get_prove_inclusion_vouches_iff (reader : JsonReader) (state : AppState) (disk : Disk H)
    (block_id leaf_index : Nat) :
    (∀ response, get_prove_inclusion H reader state disk block_id leaf_index (some true) =
        ok (.ok response) → response.verified = true →
      VouchesForLedger H reader state disk block_id leaf_index response) ↔
    ∀ records, BlockReads H state disk block_id records → leaf_index < records.length →
      LedgerHasRootOf H reader state disk block_id records := by
  constructor
  · intro hvouches records hread hleaf
    obtain ⟨response, -, -, hprove, hverified, -, hcalculated, -⟩ := prove_record_ok (H := H)
      block_id (List.getElem?_eq_getElem hleaf)
      (ledger_root reader state disk.ledger block_id)
    obtain ⟨-, -, entries, entry, -, -, hload, hmem, hid, hroot, -⟩ :=
      hvouches response ((get_prove_inclusion_eq hread).trans hprove) hverified
    exact ⟨entries, hload, entry, hmem, hid, hroot.trans hcalculated⟩
  · rintro hledger response hanswer -
    obtain ⟨records, record, hread, hrecord⟩ := exists_record_of_get_prove_inclusion hanswer
    obtain ⟨hleaf, -⟩ := List.getElem?_eq_some_iff.mp hrecord
    exact vouchesForLedger_of_root hread hleaf (hledger records hread hleaf) hanswer

/-- Block 1's file is overwritten with other logs. The proof for its first log is
    answered as verified, next to a ledger root that is not the one of the file. -/
theorem overwritten_block_is_proved :
    ∃ response, get_prove_inclusion Preimage LedgerEntry.layoutReader demoState
        (diskWithFile (block_filename 1) denyFile) 1 0 (some true) = ok (.ok response) ∧
      response.verified = true ∧
      response.ledger_merkle_root ≠ some response.calculated_merkle_root ∧
      ¬ VouchesForLedger Preimage LedgerEntry.layoutReader demoState
        (diskWithFile (block_filename 1) denyFile) 1 0 response := by
  have hread : BlockReads Preimage demoState (diskWithFile (block_filename 1) denyFile) 1
      denyRecords := read_denyFile _ _
  have hload : load_ledger_entries LedgerEntry.layoutReader demoState.ledger_path
      (diskWithFile (block_filename 1) denyFile).ledger = .ok (twoBlocks.map (·.1)) :=
    load_diskWithFile _ _
  have hledger : ledger_root LedgerEntry.layoutReader demoState
      (diskWithFile (block_filename 1) denyFile).ledger 1 = some (rootOf Preimage ["permit udp"]) := by
    rw [ledger_root, if_pos (isSome_of_load_ok hload), hload]
    rfl
  have hdiffer : rootOf Preimage ["permit udp"] ≠ rootOf Preimage ["deny tcp"] := by
    intro hroots
    have hlogs : ["permit udp"] = ["deny tcp"] := rootOf_injective (by simp) hroots
    exact absurd hlogs (by decide)
  obtain ⟨response, -, -, hprove, hverified, hresponse, hcalculated, -⟩ :=
    prove_record_ok (H := Preimage) 1 (show denyRecords[0]? = some _ from rfl)
      (some (rootOf Preimage ["permit udp"]))
  refine ⟨response, ?_, hverified, ?_, ?_⟩
  · rw [get_prove_inclusion_eq hread, hledger, hprove]
  · rw [hresponse, hcalculated]
    exact fun hroots => hdiffer (Option.some.inj hroots)
  · rintro ⟨-, -, entries, entry, -, -, hentries, hmem, hid, hroot, -⟩
    rw [hload] at hentries
    cases hentries
    simp only [twoBlocks, List.map_cons, List.map_nil, List.mem_cons, List.not_mem_nil,
      or_false] at hmem
    rcases hmem with rfl | rfl
    · cases hid
    · exact hdiffer (hroot.trans hcalculated)

end ulpf_cli.serve.handlers
