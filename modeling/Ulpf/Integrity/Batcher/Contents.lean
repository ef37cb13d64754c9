import Ulpf.Integrity.Batcher.Archive
import Ulpf.Integrity.Batcher.Recovery

open Result
open ulpf_integrity.merkle ulpf_integrity.storage ulpf_integrity.tamper

namespace ulpf_integrity.batcher

/-- The logs of a block and the surroundings of its flush. -/
structure Batch where
  env : Env
  logs : List IncomingLog

section

variable (H : Type) [Digest H]

/-- The block that a flush makes of a batch. -/
def Batch.block (batch : Batch) (block_id : Nat) : Block where
  entry :=
    { block_id
      timestamp := batch.env.now_ms
      leaf_count := batch.logs.length
      merkle_root := rootOf H (batch.logs.map (·.raw_log))
      parquet_file := block_filename block_id }
  records := stored_records H batch.env block_id batch.logs

/-- The blocks of consecutive batches. -/
def blocksOf (first_block_id : Nat) (batches : List Batch) : List Block :=
  batches.mapIdx fun j batch => batch.block H (first_block_id + j)

/-- The logs that an accumulator of the session has taken are in closed batches, with one block
    each, and in the buffer. -/
def Contains (session : Session) (batches : List Batch) (batcher : BatchAccumulator)
    (disk : Disk H) : Prop :=
  RunInvariant H session (batches.flatMap Batch.logs ++ batcher.buffer)
    (blocksOf H session.first_block_id batches) batcher disk

end

variable {H : Type} [Digest H]

@[simp] theorem length_blocksOf (first_block_id : Nat) (batches : List Batch) :
    (blocksOf H first_block_id batches).length = batches.length := List.length_mapIdx

theorem blocksOf_concat (first_block_id : Nat) (batches : List Batch) (batch : Batch) :
    blocksOf H first_block_id (batches ++ [batch]) =
      blocksOf H first_block_id batches ++ [batch.block H (first_block_id + batches.length)] := by
  simp [blocksOf, List.mapIdx_append]

theorem blocksOf_cons (first_block_id : Nat) (batch : Batch) (batches : List Batch) :
    blocksOf H first_block_id (batch :: batches) =
      batch.block H first_block_id :: blocksOf H (first_block_id + 1) batches := by
  simp [blocksOf, List.mapIdx_cons, Nat.add_assoc, Nat.add_comm 1]

theorem mem_blocksOf_of_getElem? {first_block_id j : Nat} {batches : List Batch} {batch : Batch}
    (h : batches[j]? = some batch) :
    batch.block H (first_block_id + j) ∈ blocksOf H first_block_id batches := by
  obtain ⟨hj, rfl⟩ := List.getElem?_eq_some_iff.mp h
  exact List.mem_mapIdx.mpr ⟨j, hj, rfl⟩

variable {session : Session} {batches : List Batch} {batcher batcher' : BatchAccumulator}
  {disk disk' : Disk H}

theorem Contains.of_new {reader : JsonReader} {config : BatcherConfig}
    (hnew : BatchAccumulator.new reader config disk = .ok batcher) :
    Contains H ⟨config, disk.ledger, batcher.in_memory_ledger⟩ [] batcher disk := by
  rw [Contains, (BatchAccumulator.new_eq_ok hnew).1]
  exact BatchAccumulator.runInvariant_of_new hnew

/-- The block of a closed batch is on disk. -/
theorem Contains.archived (h : Contains H session batches batcher disk) {j : Nat} {batch : Batch}
    (hbatch : batches[j]? = some batch) :
    (batch.block H (session.first_block_id + j)).Archived H disk (session.first_block_id + j) := by
  obtain ⟨hj, rfl⟩ := List.getElem?_eq_some_iff.mp hbatch
  have harchived := h.accounts.archived j (by simpa using hj)
  simpa only [blocksOf, List.getElem_mapIdx] using harchived

/-- A call that returns without an error closes at most one batch and loses no log. -/
theorem Contains.exec {io : Io} {env : Env} {call : Call} {result : Option (BlockFlushResult H)}
    (h : Contains H session batches batcher disk)
    (hexec : call.exec H io env batcher disk = ok (.ok result, batcher', disk')) :
    ∃ new, Contains H session (batches ++ new) batcher' disk' ∧
      new.flatMap Batch.logs ++ batcher'.buffer = batcher.buffer ++ call.logs := by
  have hbuffer : (call.accept env batcher).buffer = batcher.buffer ++ call.logs := by
    cases call <;> simp [Call.accept, Call.logs]
  have haccepted := h.accounts.accept env call
  rw [List.append_assoc, ← hbuffer] at haccepted
  have hlength : (call.accept env batcher).buffer.length ≤
      max 1 (call.accept env batcher).config.max_batch_size := by
    rw [Call.accept_config]
    exact call.length_accept_le env h.buffer_lt
  obtain ⟨hconfig, hlt⟩ := Call.length_lt_of_exec h.buffer_lt hexec
  rw [← hconfig] at hlt
  rw [Call.exec_eq] at hexec
  split at hexec
  · obtain ⟨-, -, rfl, rfl⟩ | ⟨flushed, -, hflushed⟩ := BatchAccumulator.flush_of_ok hexec
    · exact ⟨[], by simpa [Contains] using ⟨haccepted, hlt⟩, by simpa using hbuffer⟩
    · have hempty : batcher'.buffer = [] := by rw [hflushed.batcher_eq]
      have hid : (call.accept env batcher).current_block_id =
          session.first_block_id + batches.length := by
        simpa using haccepted.current_block_id_eq
      refine ⟨[⟨env, (call.accept env batcher).buffer⟩], ⟨?_, hlt⟩, by simp [hempty, hbuffer]⟩
      have haccounts := haccepted.flush hlength hflushed
      rw [hid] at haccounts
      rw [blocksOf_concat, hempty, List.append_nil, List.flatMap_append, List.flatMap_singleton]
      convert haccounts using 3
      rw [Batch.block, BatchAccumulator.blockEntry, hid]
  · cases hexec
    exact ⟨[], by simpa [Contains] using ⟨haccepted, hlt⟩, by simpa using hbuffer⟩

end ulpf_integrity.batcher
