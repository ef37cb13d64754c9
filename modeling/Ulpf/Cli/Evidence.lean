import Ulpf.Cli.Archive
import Ulpf.Cli.Export
import Ulpf.Cli.Prove

open Result
open ulpf_core.schema.ocsf ulpf_cli.ingest
open ulpf_integrity.batcher ulpf_integrity.merkle ulpf_integrity.storage ulpf_integrity.tamper

namespace ulpf_cli.serve.handlers

variable {H : Type} [Digest H] {crates : Crates} {reader : JsonReader} {disk : Disk H}

/-- What the archive is for: the block verifies from the command line, is shown as intact, gives a
    proof for each of its lines that leads to the root in the ledger, and verifies elsewhere as
    well, from its bundle alone. -/
structure Evident (H : Type) [Digest H] [DecidableEq H] (crates : Crates) (reader : JsonReader)
    (state : AppState) (disk : Disk H) (block_id : Nat) (archived : List ArchivedLine) : Prop where
  verified : ∃ report, run_verify H reader disk state.parquet_dir (block_filename block_id)
    state.ledger_path = ok (0, some report)
  shown : ∀ items, get_blocks H reader state disk = ok items →
    ∃ item ∈ items, item.block_id = block_id ∧ item.status = .PASS
  proved : ∀ i < archived.length, ∃ response,
    get_prove_inclusion H reader state disk block_id i (some true) = ok (.ok response) ∧
    response.verified = true ∧ VouchesForLedger H reader state disk block_id i response
  exported : ∀ {A : Type} (io : ExportIo H A) (tools : Unpacker H A) bundle dir,
    tools.Restores io disk → get_export_bundle crates io disk block_id = .ok bundle →
    ∃ report, run_verify H reader (tools.disk bundle.archive) dir (block_filename block_id)
      "ledger_entry.json" = ok (0, some report)

/-- A block on disk verifies against a ledger that has its entry. -/
theorem verify_block_of_archived {entries : List LedgerEntry} {block : Block} {block_id : Nat}
    (hblock : block.Archived H disk block_id)
    (hfirst : block.records.head?.map (·.block_id) = some block_id) {ledger_path : String}
    (hload : load_ledger_entries reader ledger_path disk.ledger = .ok entries)
    (hdistinct : (entries.map (·.block_id)).Nodup) (hmem : block.entry ∈ entries) (dir : String) :
    ∃ report, verify_block_with_ledger H reader disk dir (block_filename block_id) ledger_path =
      ok (.ok report) ∧ report.is_valid = true := by
  obtain ⟨report, hreport, hvalid⟩ := hblock.verifies
  refine ⟨report, verify_block_with_ledger_eq_ok_iff.mpr
    ⟨block.records, entries, block.entry, hblock.read_eq _, hload, ?_, hreport⟩, hvalid⟩
  have htarget : target_block_id block.records (block_filename block_id) = block.entry.block_id := by
    obtain ⟨first, hhead, rfl⟩ := Option.map_eq_some_iff.mp hfirst
    rw [hblock.block_id_eq]
    simp [target_block_id, hhead]
  rw [htarget]
  exact find?_block_id_eq hdistinct hmem

/-- A block of a ledger without duplicate numbers is evident. -/
theorem evident_of_archived [DecidableEq H] (hcrates : crates.ReadsBack) {block_id : Nat}
    {archived : List ArchivedLine} {entry : LedgerEntry} {entries : List LedgerEntry}
    (hholds : HoldsLines H crates disk block_id archived) (hne : archived ≠ [])
    (hblock : Block.Archived H disk block_id ⟨entry, archived.map ArchivedLine.row⟩)
    (hledger : disk.ledger = some (ledgerText entries)) (hsized : ∀ entry ∈ entries, entry.Sized)
    (hdistinct : (entries.map (·.block_id)).Nodup) (hmem : entry ∈ entries) (state : AppState) :
    Evident H crates reader state disk block_id archived := by
  have hpos := List.length_pos_iff.mpr hne
  have hfirst : (archived.map ArchivedLine.row).head?.map (·.block_id) = some block_id := by
    have hrow := (hholds.numbered 0 hpos).1
    rw [List.head?_eq_getElem?, List.getElem?_eq_getElem (by simpa using hpos), List.getElem_map,
      Option.map_some, hrow]
  have hload : ∀ path, load_ledger_entries reader path disk.ledger = .ok entries := by
    intro path
    rw [hledger, load_ledger_entries_ledgerText _ _ hsized]
  have hid : entry.block_id = block_id := hblock.block_id_eq
  have hpass := verify_block_of_archived hblock hfirst (hload state.ledger_path) hdistinct hmem
    state.parquet_dir
  refine ⟨?_, fun items hitems => ?_, fun i hi => ?_, fun io tools bundle dir hrestores hbundle => ?_⟩
  · obtain ⟨report, hverify⟩ := hpass
    exact ⟨report, run_verify_eq_zero_iff.mpr hverify⟩
  · rw [← hid] at hpass ⊢
    exact (get_blocks_pass_iff (hload state.ledger_path) hdistinct hmem hitems).mpr hpass
  · have hread : BlockReads H state disk block_id (archived.map ArchivedLine.row) := hholds.read _
    have hrow : (archived.map ArchivedLine.row)[i]? = some archived[i].row := by simp [hi]
    obtain ⟨response, -, -, hprove, hverified, -⟩ := prove_record_ok (H := H) block_id hrow
      (ledger_root reader state disk.ledger block_id)
    have hanswer := (get_prove_inclusion_eq hread).trans hprove
    obtain ⟨report, hreport, hvalid⟩ := hblock.verifies
    exact ⟨response, hanswer, hverified, vouchesForLedger_of_root hread (by simpa using hi)
      ⟨entries, hload _, entry, hmem, hid,
        ((is_valid_iff_anchored hreport).mp hvalid).root.symm⟩ hanswer⟩
  · obtain ⟨hstored, hline⟩ := hrestores.disk_eq hbundle
    have hunpacked : Block.Archived H (tools.disk bundle.archive) block_id
        ⟨entry, archived.map ArchivedLine.row⟩ :=
      { hblock with read_eq := by rw [hstored]; exact hblock.read_eq }
    have hentry : load_ledger_entries reader "ledger_entry.json"
        (tools.disk bundle.archive).ledger = .ok [entry] := by
      have hmade := ledger_line_of_mem hcrates hsized hdistinct hmem []
      rw [List.append_nil, hid, ← hledger] at hmade
      rw [hline, hmade, String.ofList_toList,
        load_ledger_entries_to_json reader _ (hsized entry hmem)]
    obtain ⟨report, hverify⟩ := verify_block_of_archived hunpacked hfirst hentry
      (List.nodup_singleton _) List.mem_cons_self dir
    exact ⟨report, run_verify_eq_zero_iff.mpr hverify⟩

/-- The numbers of a ledger stay distinct when the blocks of an ingest are appended to it. -/
theorem nodup_block_ids_append {loaded entries : List LedgerEntry}
    (hloaded : (loaded.map (·.block_id)).Pairwise (· < ·))
    (hentries : ∀ (j : Nat) (entry : LedgerEntry), entries[j]? = some entry →
      entry.block_id = BatchAccumulator.next_block_id loaded + j) :
    ((loaded ++ entries).map (·.block_id)).Nodup := by
  have hnew : entries.map (·.block_id) =
      (List.range entries.length).map (BatchAccumulator.next_block_id loaded + ·) := by
    refine List.ext_getElem (by simp) fun j hj _ => ?_
    have hj' : j < entries.length := by simpa using hj
    simp [hentries j entries[j] (List.getElem?_eq_getElem hj')]
  rw [List.map_append, hnew, List.nodup_append]
  refine ⟨hloaded.imp Nat.ne_of_lt, List.nodup_range.map fun _ _ => Nat.add_left_cancel, ?_⟩
  intro old hold new hnew
  obtain ⟨entry, hentry, rfl⟩ := List.mem_map.mp hold
  obtain ⟨j, -, rfl⟩ := List.mem_map.mp hnew
  have hlt := BatchAccumulator.lt_next_block_id hloaded entry hentry
  omega

/-- The entries of an ingest keep to their types as long as the numbers last. -/
theorem sized_entries {session : Session} {blocks : List (List ArchivedLine)} {n : Nat}
    (hrows : blocks.flatten.length = n) (hne : ∀ archived ∈ blocks, archived ≠ [])
    (hroom : session.first_block_id + n < 2 ^ 64) {entries : List LedgerEntry}
    (hlength : entries.length = blocks.length)
    (hblocks : ∀ (j : Nat) (archived : List ArchivedLine) (entry : LedgerEntry),
      blocks[j]? = some archived → entries[j]? = some entry →
      Block.Archived H disk (session.first_block_id + j) ⟨entry, archived.map ArchivedLine.row⟩) :
    ∀ entry ∈ entries, entry.Sized := by
  intro entry hentry
  obtain ⟨j, hj, rfl⟩ := List.mem_iff_getElem.mp hentry
  have hj' : j < blocks.length := hlength ▸ hj
  have hcount := length_le_length_flatten hne
  have hrow := (List.sublist_flatten_of_mem (List.getElem_mem hj')).length_le
  refine (hblocks j _ _ (List.getElem?_eq_getElem hj') (List.getElem?_eq_getElem hj)).sized ?_ ?_
  · omega
  · rw [List.length_map]
    omega

/-- Whatever was ingested can be proved. An archive with a sound ledger goes on; whatever lines are
    ingested, each new block is evident, and its lines are those that were ingested. -/
theorem ingested_lines_evident [DecidableEq H] (hcrates : crates.ReadsBack) {config : BatcherConfig}
    {disk' : Disk H} {lines : List Line} {loaded : List LedgerEntry}
    (hdisk : LedgerOnDisk H disk loaded) (hsized : ∀ entry ∈ loaded, entry.Sized)
    (hloaded : (loaded.map (·.block_id)).Pairwise (· < ·))
    (hingests : Ingests H crates reader config disk lines disk') (state : AppState) :
    ∃ blocks : List (List ArchivedLine), blocks.flatten.map ArchivedLine.line = lines ∧
      ∀ (j : Nat) (archived : List ArchivedLine), blocks[j]? = some archived →
        HoldsLines H crates disk' (BatchAccumulator.next_block_id loaded + j) archived ∧
        Evident H crates reader state disk' (BatchAccumulator.next_block_id loaded + j)
          archived := by
  obtain ⟨batcher, blocks, hnew, hroom, hlines, harchive⟩ := hingests.exists_blocks
  obtain ⟨batcher', hnew', rfl⟩ := hdisk.new_eq reader config hsized
  cases hnew.symm.trans hnew'
  rw [(Contains.of_new hnew).accounts.current_block_id_eq] at hroom
  obtain ⟨entries, hextended, hlength, hblocks⟩ := harchive.ledger
  have hnewSized : ∀ entry ∈ entries, entry.Sized :=
    sized_entries (by rw [← hlines, List.length_map]) harchive.nonempty hroom hlength hblocks
  refine ⟨blocks, hlines, fun j archived harchived => ?_⟩
  have hholds := harchive.holds j archived harchived
  obtain ⟨hj, rfl⟩ := List.getElem?_eq_some_iff.mp harchived
  have hmem : entries[j]? = some entries[j] := List.getElem?_eq_getElem (hlength ▸ hj)
  refine ⟨hholds, evident_of_archived hcrates hholds (harchive.nonempty _ (List.getElem_mem hj))
    (hblocks j _ _ harchived hmem) ?_ (List.forall_mem_append.mpr ⟨hsized, hnewSized⟩)
    (nodup_block_ids_append hloaded ?_)
    (List.mem_append_right _ (List.getElem_mem (hlength ▸ hj))) state⟩
  · obtain hsome | ⟨-, hnone⟩ := hdisk.extended hextended
    · exact hsome
    · rw [List.append_eq_nil_iff] at hnone
      rw [hnone.2] at hlength
      exact absurd hj (by rw [← hlength]; exact Nat.not_lt_zero j)
  · intro k entry hentry
    obtain ⟨hk, rfl⟩ := List.getElem?_eq_some_iff.mp hentry
    exact (hblocks k _ _ (List.getElem?_eq_getElem (hlength ▸ hk)) hentry).block_id_eq

/-- Two lines of one block, each with a proof of its own. -/
theorem ingested_lines_evident_two_lines :
    ∃ disk', Ingests Preimage Crates.layout LedgerEntry.layoutReader smallBatches
        (Disk.empty Preimage) [plainLine "hello", plainLine "world"] disk' ∧
      ∃ blocks : List (List ArchivedLine),
        blocks.flatten.map ArchivedLine.line = [plainLine "hello", plainLine "world"] ∧
        ∀ (j : Nat) (archived : List ArchivedLine), blocks[j]? = some archived →
          HoldsLines Preimage Crates.layout disk' (0 + j) archived ∧
          Evident Preimage Crates.layout LedgerEntry.layoutReader demoState disk' (0 + j)
            archived := by
  obtain ⟨disk', hingests⟩ := exists_ingests_plainLines
  exact ⟨disk', hingests, ingested_lines_evident Crates.layout_readsBack (.inr ⟨rfl, rfl⟩) (by simp)
    .nil hingests demoState⟩

end ulpf_cli.serve.handlers
