import Ulpf.Integrity.Batcher.Run

open Result
open ulpf_integrity.merkle ulpf_integrity.storage

namespace ulpf_integrity.batcher

section

variable (H : Type) [Digest H]

/-- What a failed call should leave behind: all logs that were pending, the one it was
    given included, the block id and the ledger as they were, and logs that the next
    successful flush archives. -/
structure Call.LosesNothing (call : Call) (env : Env) (batcher batcher' : BatchAccumulator)
    (disk' : Disk H) : Prop where
  buffer_eq : batcher'.buffer = (call.accept env batcher).buffer
  current_block_id_eq : batcher'.current_block_id = batcher.current_block_id
  in_memory_ledger_eq : batcher'.in_memory_ledger = batcher.in_memory_ledger
  archives : ∀ io later result batcher'' disk'',
    batcher'.flush H io later disk' = ok (.ok result, batcher'', disk'') →
    ∃ records, (∀ path, read_parquet_file path
        (disk''.storage_dir (block_filename batcher.current_block_id)) = ok (.ok records)) ∧
      records.map (·.raw_log) = (call.accept env batcher).buffer.map (·.raw_log)

end

variable {H : Type} [Digest H]

/-- When a failed call loses nothing: exactly if it cannot fail, because it flushes
    nothing, or because the vendors of the block fit the dictionary column and no I/O
    call fails. A flush gives up the buffer and the block id before its first effect. -/
theorem Call.exec_loses_nothing_iff (io : Io) (env : Env) (self : BatchAccumulator) (disk : Disk H)
    (call : Call) :
    (∀ e self' disk', call.exec H io env self disk = ok (.error e, self', disk') →
      call.LosesNothing H env self self' disk') ↔
    (call.flushes env self = true → (call.accept env self).buffer ≠ [] →
      distinctVendors ((call.accept env self).buffer.map (·.vendor)) ≤ 128 ∧
        ∀ ioCall, io.fails ioCall = false) := by
  obtain ⟨result, self', disk', hflush, hspec⟩ := (call.accept env self).flush_spec io env disk
  rw [Call.exec_eq]
  constructor
  · intro hloses hflushes hne
    rw [if_pos hflushes, hflush] at hloses
    obtain ⟨hempty, -⟩ | ⟨hvendors, hcalls, -⟩ | ⟨-, -, ⟨e, rfl⟩, rfl, -⟩ := hspec
    · exact absurd hempty hne
    · exact ⟨hvendors, hcalls⟩
    · exact absurd (hloses e _ _ rfl).buffer_eq.symm hne
  · intro hcannot e self'' disk'' herror
    split at herror
    · rename_i hflushes
      rw [hflush] at herror
      cases herror
      obtain ⟨-, hresult, -⟩ | ⟨-, -, flushed, hresult, -⟩ | ⟨hstopped, hne, -⟩ := hspec
      · cases hresult
      · cases hresult
      · obtain ⟨hvendors, hcalls⟩ := hcannot hflushes hne
        obtain hmany | ⟨ioCall, hfails⟩ := hstopped
        · omega
        · rw [hcalls] at hfails
          cases hfails
    · cases herror

/-- Without I/O errors a push fails exactly if it flushes a block with too many
    vendors. -/
theorem Call.push_error_iff (env : Env) (self : BatchAccumulator) (disk : Disk H)
    (log : IncomingLog) :
    (∃ e self' disk', (Push log).exec H Io.reliable env self disk = ok (.error e, self', disk')) ↔
    (Push log).flushes env self = true ∧
      128 < distinctVendors (((Push log).accept env self).buffer.map (·.vendor)) := by
  obtain ⟨result, self', disk', hflush, hspec⟩ :=
    ((Push log).accept env self).flush_spec Io.reliable env disk
  rw [Call.exec_eq]
  constructor
  · rintro ⟨e, self'', disk'', herror⟩
    split at herror
    · rename_i hflushes
      rw [hflush] at herror
      cases herror
      obtain ⟨-, hresult, -⟩ | ⟨-, -, flushed, hresult, -⟩ | ⟨hmany | ⟨ioCall, hfails⟩, -⟩ := hspec
      · cases hresult
      · cases hresult
      · exact ⟨hflushes, hmany⟩
      · cases hfails
    · cases herror
  · rintro ⟨hflushes, hmany⟩
    rw [if_pos hflushes, hflush]
    obtain ⟨hempty, -⟩ | ⟨hvendors, -⟩ | ⟨-, -, ⟨e, rfl⟩, -⟩ := hspec
    · simp [Call.accept] at hempty
    · omega
    · exact ⟨e, _, _, rfl⟩

/-- A disk that is full when the rows are written. -/
def fullDisk : Io where
  fails call := call = .WriteBatch
  message := "No space left on device"
  ledger_bytes_written := 0

/-- A push that finds the disk full loses its log and its block id. -/
theorem Call.push_on_full_disk_loses_log :
    ∃ e self' disk', (Call.Push ⟨"cisco", "deny tcp", none, none, none⟩).exec Preimage fullDisk
        Env.fixed ⟨⟨1, 2000, "data/parquet", "data/ledger.jsonl"⟩, [], none, 0, []⟩
        (Disk.empty Preimage) = ok (.error e, self', disk') ∧
      self'.buffer = [] ∧ self'.current_block_id = 1 ∧
      ¬ (Call.Push ⟨"cisco", "deny tcp", none, none, none⟩).LosesNothing Preimage Env.fixed
        ⟨⟨1, 2000, "data/parquet", "data/ledger.jsonl"⟩, [], none, 0, []⟩ self' disk' := by
  obtain ⟨result, self', disk', hflush, hspec⟩ := BatchAccumulator.flush_spec (H := Preimage) fullDisk
    Env.fixed ⟨⟨1, 2000, "data/parquet", "data/ledger.jsonl"⟩,
      [⟨"cisco", "deny tcp", none, none, none⟩], some 0, 0, []⟩ (Disk.empty Preimage)
  obtain ⟨hempty, -⟩ | ⟨-, hcalls, -⟩ | ⟨-, -, ⟨e, rfl⟩, rfl, -⟩ := hspec
  · cases hempty
  · cases hcalls .WriteBatch
  · have hexec : (Call.Push ⟨"cisco", "deny tcp", none, none, none⟩).exec Preimage fullDisk
        Env.fixed ⟨⟨1, 2000, "data/parquet", "data/ledger.jsonl"⟩, [], none, 0, []⟩
        (Disk.empty Preimage) = _ := (Call.exec_eq ..).trans ((if_pos rfl).trans hflush)
    refine ⟨e, _, disk', hexec, rfl, rfl, fun hloses => ?_⟩
    have hkept := hloses.buffer_eq
    cases hkept

end ulpf_integrity.batcher
