import Ulpf.Integrity.Batcher.Run

open Result
open ulpf_integrity.merkle ulpf_integrity.storage ulpf_integrity.tamper

namespace ulpf_integrity.batcher

/-- A ledger entry with the rows of its block. -/
structure Block where
  entry : LedgerEntry
  records : List StoredLogRecord

/-- What an accumulator starts from: its configuration, the ledger file it found and
    the entries it loaded from it. -/
structure Session where
  config : BatcherConfig
  ledger : Option (List UInt8)
  loaded : List LedgerEntry

def Session.first_block_id (session : Session) : Nat :=
  BatchAccumulator.next_block_id session.loaded

section

variable (H : Type) [Digest H]

/-- The block with number `block_id` is on disk: its file holds the rows, in order
    of their leaf index, and they verify against the entry. -/
structure Block.Archived (disk : Disk H) (block_id : Nat) (block : Block) : Prop where
  block_id_eq : block.entry.block_id = block_id
  parquet_file_eq : block.entry.parquet_file = block_filename block_id
  read_eq : ∀ path, read_parquet_file path (disk.storage_dir (block_filename block_id)) =
    ok (.ok block.records)
  leaf_index_eq : ∀ i (hi : i < block.records.length), block.records[i].leaf_index = UInt32.ofNat i
  timestamp_i64 : json.I64 block.entry.timestamp
  leaf_count_eq : block.entry.leaf_count = block.records.length
  verifies : ∃ report, verify_records H block.records block.entry = ok report ∧
    report.is_valid = true

/-- The ledger file holds the entries; it is absent only while there are none. -/
def LedgerOnDisk (disk : Disk H) (entries : List LedgerEntry) : Prop :=
  disk.ledger = some (ledgerText entries) ∨ disk.ledger = none ∧ entries = []

/-- The ledger file was extended by lines for the entries; it is made by the first. -/
def LedgerExtended (disk : Disk H) (initial : Option (List UInt8)) (entries : List LedgerEntry) :
    Prop :=
  disk.ledger = some (initial.getD [] ++ ledgerText entries) ∨ disk.ledger = initial ∧ entries = []

/-- The state of an accumulator of the session that has been given the logs
    `pushed`: each of them is in exactly one place, a row of a block or the buffer. -/
structure Accounts (session : Session) (pushed : List IncomingLog) (blocks : List Block)
    (batcher : BatchAccumulator) (disk : Disk H) : Prop where
  config_eq : batcher.config = session.config
  ledger_eq : batcher.in_memory_ledger = session.loaded ++ blocks.map Block.entry
  current_block_id_eq : batcher.current_block_id = session.first_block_id + blocks.length
  logs_eq : blocks.flatMap (fun block => block.records.map (·.raw_log)) ++
    batcher.buffer.map (·.raw_log) = pushed.map (·.raw_log)
  rows : ∀ block ∈ blocks, 1 ≤ block.records.length ∧
    block.records.length ≤ max 1 session.config.max_batch_size
  archived : ∀ j (hj : j < blocks.length), blocks[j].Archived H disk (session.first_block_id + j)
  ledger_extended : LedgerExtended H disk session.ledger (blocks.map Block.entry)

end

variable {H : Type} [Digest H]

/-- The block of a flush is archived. -/
theorem BatchAccumulator.Flushed.archived {env : Env} {self self' : BatchAccumulator}
    {disk disk' : Disk H} {result : BlockFlushResult H}
    (hflushed : self.Flushed H env disk result self' disk') :
    Block.Archived H disk' self.current_block_id
      ⟨self.blockEntry H env, stored_records H env self.current_block_id self.buffer⟩ where
  block_id_eq := rfl
  parquet_file_eq := rfl
  read_eq := hflushed.read_block
  leaf_index_eq := by
    intro i hi
    simp [stored_records]
  timestamp_i64 := env.now_ms_i64
  leaf_count_eq := (length_stored_records ..).symm
  verifies := is_valid_of_holdsLogs (by simp [BatchAccumulator.blockEntry]) rfl
    (holdsLogs_stored_records env _ _)

/-- A flush does not touch the files of other blocks. -/
theorem Block.Archived.of_flushed {env : Env} {self self' : BatchAccumulator}
    {disk disk' : Disk H} {result : BlockFlushResult H} {block : Block} {block_id : Nat}
    (hflushed : self.Flushed H env disk result self' disk') (hne : block_id ≠ self.current_block_id)
    (harchived : block.Archived H disk block_id) : block.Archived H disk' block_id := by
  obtain ⟨batch, -, hstorage⟩ := hflushed.storage_eq
  have hfile : disk'.storage_dir (block_filename block_id) =
      disk.storage_dir (block_filename block_id) := by
    rw [hstorage, Function.update_of_ne]
    exact fun h => hne (block_filename_injective h)
  exact { harchived with read_eq := fun path => by rw [hfile, harchived.read_eq] }

omit [Digest H] in
theorem LedgerExtended.append {disk disk' : Disk H} {initial : Option (List UInt8)}
    {entries : List LedgerEntry} {entry : LedgerEntry}
    (hledger : LedgerExtended H disk initial entries)
    (hdisk : disk'.ledger = some (disk.ledger.getD [] ++ ledgerLine entry)) :
    LedgerExtended H disk' initial (entries ++ [entry]) := by
  left
  rw [hdisk]
  obtain hsome | ⟨hsame, rfl⟩ := hledger
  · simp [hsome, ledgerText]
  · simp [hsame, ledgerText]

omit [Digest H] in
/-- A ledger that is extended keeps the entries it had. -/
theorem LedgerOnDisk.extended {disk disk' : Disk H} {loaded entries : List LedgerEntry}
    (hdisk : LedgerOnDisk H disk loaded) (hledger : LedgerExtended H disk' disk.ledger entries) :
    LedgerOnDisk H disk' (loaded ++ entries) := by
  obtain hextended | ⟨hsame, rfl⟩ := hledger
  · left
    obtain hsome | ⟨hnone, rfl⟩ := hdisk
    · simp [hextended, hsome, ledgerText]
    · simp [hextended, hnone]
  · simpa [LedgerOnDisk, hsame] using hdisk

/-- Taking a log keeps the account. -/
theorem Accounts.accept {session : Session} {pushed : List IncomingLog}
    {blocks : List Block} {self : BatchAccumulator} {disk : Disk H}
    (haccounts : Accounts H session pushed blocks self disk) (env : Env) (call : Call) :
    Accounts H session (pushed ++ call.logs) blocks (call.accept env self) disk := by
  obtain ⟨hconfig, hledger, hid, hlogs, hrows, harchived, hdisk⟩ := haccounts
  cases call with
  | Push log =>
    refine ⟨hconfig, hledger, hid, ?_, hrows, harchived, hdisk⟩
    simp [Call.accept, Call.logs, ← hlogs]
  | CheckTimeout =>
    exact ⟨hconfig, hledger, hid, by simpa [Call.logs, Call.accept] using hlogs, hrows, harchived,
      hdisk⟩
  | Flush =>
    exact ⟨hconfig, hledger, hid, by simpa [Call.logs, Call.accept] using hlogs, hrows, harchived,
      hdisk⟩

/-- A flush moves the buffer into one more block. -/
theorem Accounts.flush {session : Session} {pushed : List IncomingLog}
    {blocks : List Block} {env : Env} {self self' : BatchAccumulator} {disk disk' : Disk H}
    {result : BlockFlushResult H} (haccounts : Accounts H session pushed blocks self disk)
    (hbuffer : self.buffer.length ≤ max 1 self.config.max_batch_size)
    (hflushed : self.Flushed H env disk result self' disk') :
    Accounts H session pushed (blocks ++
      [⟨self.blockEntry H env, stored_records H env self.current_block_id self.buffer⟩]) self' disk' := by
  obtain ⟨hconfig, hledger, hid, hlogs, hrows, harchived, hdisk⟩ := haccounts
  have hself := hflushed.batcher_eq
  subst hself
  refine ⟨hconfig, ?_, ?_, ?_, ?_, ?_, ?_⟩
  · simp [hledger]
  · simp [hid, Nat.add_assoc]
  · simpa using hlogs
  · intro block hblock
    rcases List.mem_append.mp hblock with hold | hnew
    · exact hrows block hold
    · obtain rfl := List.mem_singleton.mp hnew
      have hpos := List.length_pos_iff.mpr hflushed.buffer_ne
      rw [length_stored_records]
      exact ⟨hpos, hconfig ▸ hbuffer⟩
  · intro j hj
    by_cases hold : j < blocks.length
    · rw [List.getElem_append_left hold]
      exact (harchived j hold).of_flushed hflushed (by omega)
    · have hlast : j = blocks.length := by
        rw [List.length_append, List.length_singleton] at hj
        omega
      subst hlast
      rw [List.getElem_concat_length rfl, ← hid]
      exact hflushed.archived
  · rw [List.map_append]
    exact hdisk.append hflushed.ledger_eq

/-- There are no more nonempty parts than there are elements. -/
theorem length_le_length_flatten {α : Type} {parts : List (List α)}
    (hne : ∀ part ∈ parts, part ≠ []) : parts.length ≤ parts.flatten.length := by
  have hsum := List.length_le_sum_of_one_le (parts.map List.length) (by
    intro n hn
    obtain ⟨part, hpart, rfl⟩ := List.mem_map.mp hn
    exact List.length_pos_iff.mpr (hne part hpart))
  rwa [List.length_map, ← List.length_flatten] at hsum

/-- The entry of a block keeps to its types as long as the ids and the rows do. -/
theorem Block.Archived.sized {disk : Disk H} {block_id : Nat} {block : Block}
    (h : block.Archived H disk block_id) (hid : block_id + 1 < 2 ^ 64)
    (hrows : block.records.length < 2 ^ 64) : block.entry.Sized :=
  ⟨h.block_id_eq ▸ hid, h.timestamp_i64, h.leaf_count_eq ▸ hrows⟩

theorem Accounts.sized {session : Session} {pushed : List IncomingLog} {blocks : List Block}
    {batcher : BatchAccumulator} {disk : Disk H}
    (h : Accounts H session pushed blocks batcher disk)
    (hroom : session.first_block_id + pushed.length < 2 ^ 64) :
    ∀ block ∈ blocks, block.entry.Sized := by
  have hrows : (blocks.map Block.records).flatten.length ≤ pushed.length := by
    have hlogs := congrArg List.length h.logs_eq
    simp only [List.length_append, List.length_flatMap, List.length_map] at hlogs
    rw [List.length_flatten, List.map_map]
    exact (Nat.le_add_right _ _).trans_eq hlogs
  have hblocks : blocks.length ≤ (blocks.map Block.records).flatten.length := by
    rw [← List.length_map (f := Block.records)]
    refine length_le_length_flatten (List.forall_mem_map.mpr fun block hblock => ?_)
    exact List.ne_nil_of_length_pos (h.rows block hblock).1
  intro block hblock
  obtain ⟨j, hj, rfl⟩ := List.mem_iff_getElem.mp hblock
  have hrow := (List.sublist_flatten_of_mem (List.mem_map_of_mem (f := Block.records) hblock)).length_le
  exact (h.archived j hj).sized (by omega) (by omega)

section

variable (H)

/-- The invariant of a run: the account, and a buffer below the count trigger. -/
structure RunInvariant (session : Session) (pushed : List IncomingLog) (blocks : List Block)
    (batcher : BatchAccumulator) (disk : Disk H) : Prop where
  accounts : Accounts H session pushed blocks batcher disk
  buffer_lt : batcher.buffer.length < max 1 batcher.config.max_batch_size

/-- A run of calls, with the result of each. -/
def run (io : Io) : List (Call × Env) → BatchAccumulator → Disk H →
    Result (List (Except String (Option (BlockFlushResult H))) × BatchAccumulator × Disk H)
  | [], self, disk => ok ([], self, disk)
  | (call, env) :: calls, self, disk => do
    let (result, self, disk) ← call.exec H io env self disk
    let (results, self, disk) ← run io calls self disk
    ok (result :: results, self, disk)

/-- No block of the run has more vendors than the dictionary column can tell apart. -/
def VendorsFit (io : Io) : List (Call × Env) → BatchAccumulator → Disk H → Prop
  | [], _, _ => True
  | (call, env) :: calls, self, disk =>
    (call.flushes env self = true →
      distinctVendors ((call.accept env self).buffer.map (·.vendor)) ≤ 128) ∧
    ∀ result self' disk', call.exec H io env self disk = ok (result, self', disk') →
      VendorsFit io calls self' disk'

end

def pushedLogs (calls : List (Call × Env)) : List IncomingLog := calls.flatMap (·.1.logs)

theorem length_pushedLogs_le (calls : List (Call × Env)) : (pushedLogs calls).length ≤ calls.length := by
  induction calls with
  | nil => exact le_rfl
  | cons head calls ih =>
    obtain ⟨call, env⟩ := head
    have hlogs : call.logs.length ≤ 1 := by cases call <;> simp [Call.logs]
    rw [pushedLogs, List.flatMap_cons, List.length_append, List.length_cons, Nat.add_comm]
    exact Nat.add_le_add ih hlogs

/-- A call that returns without an error keeps the invariant. -/
theorem RunInvariant.exec {session : Session} {pushed : List IncomingLog}
    {blocks : List Block} {io : Io} {env : Env} {self self' : BatchAccumulator} {disk disk' : Disk H}
    {call : Call} {result : Option (BlockFlushResult H)}
    (hinv : RunInvariant H session pushed blocks self disk)
    (hexec : call.exec H io env self disk = ok (.ok result, self', disk')) :
    ∃ new, RunInvariant H session (pushed ++ call.logs) (blocks ++ new) self' disk' := by
  have haccepted := hinv.accounts.accept env call
  have hbuffer : (call.accept env self).buffer.length ≤
      max 1 (call.accept env self).config.max_batch_size := by
    rw [Call.accept_config]
    exact call.length_accept_le env hinv.buffer_lt
  obtain ⟨hconfig, hlt⟩ := Call.length_lt_of_exec hinv.buffer_lt hexec
  rw [← hconfig] at hlt
  rw [Call.exec_eq] at hexec
  split at hexec
  · obtain ⟨-, -, rfl, rfl⟩ | ⟨flushed, -, hflushed⟩ := BatchAccumulator.flush_of_ok hexec
    · exact ⟨[], by simpa using haccepted, hlt⟩
    · exact ⟨_, haccepted.flush hbuffer hflushed, hlt⟩
  · cases hexec
    exact ⟨[], by simpa using haccepted, hlt⟩

/-- Without an I/O error every call of a run succeeds and keeps the invariant. -/
theorem RunInvariant.run {session : Session} {pushed : List IncomingLog}
    {blocks : List Block} {self : BatchAccumulator} {disk : Disk H} {calls : List (Call × Env)}
    (hinv : RunInvariant H session pushed blocks self disk)
    (hvendors : VendorsFit H Io.reliable calls self disk) :
    ∃ results self' disk' new, run H Io.reliable calls self disk = ok (results, self', disk') ∧
      (∀ result ∈ results, ∃ value, result = .ok value) ∧
      RunInvariant H session (pushed ++ pushedLogs calls) (blocks ++ new) self' disk' := by
  induction calls generalizing pushed blocks self disk with
  | nil => exact ⟨[], self, disk, [], rfl, by simp, by simpa [pushedLogs] using hinv⟩
  | cons head calls ih =>
    obtain ⟨call, env⟩ := head
    obtain ⟨hfit, hrest⟩ := hvendors
    obtain ⟨result, self₁, disk₁, hexec⟩ : ∃ result self₁ disk₁,
        call.exec H Io.reliable env self disk = ok (.ok result, self₁, disk₁) := by
      rw [Call.exec_eq]
      split
      · rename_i hflushes
        exact (call.accept env self).flush_ok env disk (hfit hflushes)
      · exact ⟨_, _, _, rfl⟩
    obtain ⟨new₁, hinv₁⟩ := hinv.exec hexec
    obtain ⟨results, self', disk', new, hrun, hok, hinv'⟩ := ih hinv₁ (hrest _ _ _ hexec)
    refine ⟨.ok result :: results, self', disk', new₁ ++ new, ?_, ?_, ?_⟩
    · rw [batcher.run, hexec, bind_ok]
      simp only [hrun, bind_ok]
    · simpa using hok
    · simpa [pushedLogs] using hinv'

omit [Digest H] in
theorem LedgerOnDisk.load_eq {disk : Disk H} {entries : List LedgerEntry} (reader : JsonReader)
    (path : String) (hledger : LedgerOnDisk H disk entries) (hsized : ∀ entry ∈ entries, entry.Sized)
    (hexists : disk.ledger ≠ none) : load_ledger_entries reader path disk.ledger = .ok entries := by
  obtain hsome | ⟨hnone, -⟩ := hledger
  · rw [hsome, load_ledger_entries_ledgerText reader path hsized]
  · exact absurd hnone hexists

/-- A fresh accumulator has what it loaded from the ledger file, and nothing else. -/
theorem BatchAccumulator.runInvariant_of_new {reader : JsonReader} {config : BatcherConfig}
    {disk : Disk H} {self : BatchAccumulator}
    (hnew : BatchAccumulator.new reader config disk = .ok self) :
    RunInvariant H ⟨config, disk.ledger, self.in_memory_ledger⟩ [] [] self disk := by
  unfold BatchAccumulator.new at hnew
  generalize hloaded : (if disk.ledger.isSome then
    load_ledger_entries reader config.ledger_path disk.ledger else .ok []) = loaded at hnew
  cases loaded with
  | error e => cases hnew
  | ok entries =>
    cases hnew
    exact ⟨⟨rfl, by simp, rfl, rfl, by simp, by simp, .inr ⟨rfl, rfl⟩⟩, by simp⟩

omit [Digest H] in
/-- A ledger left by earlier runs loads. -/
theorem LedgerOnDisk.new_eq {disk : Disk H} {loaded : List LedgerEntry} (reader : JsonReader)
    (config : BatcherConfig) (hdisk : LedgerOnDisk H disk loaded)
    (hsized : ∀ entry ∈ loaded, entry.Sized) :
    ∃ self, BatchAccumulator.new reader config disk = .ok self ∧ self.in_memory_ledger = loaded := by
  have hloaded : (if disk.ledger.isSome then load_ledger_entries reader config.ledger_path disk.ledger
      else .ok []) = .ok loaded := by
    split
    · rename_i hsome
      exact hdisk.load_eq reader _ hsized (Option.isSome_iff_ne_none.mp hsome)
    · rename_i hnone
      obtain hsome | ⟨-, rfl⟩ := hdisk
      · simp [hsome] at hnone
      · rfl
  exact ⟨_, by rw [BatchAccumulator.new, hloaded]; rfl, rfl⟩

/-- The batcher neither loses, duplicates nor reorders logs. Whatever ledger it
    starts from and however pushes, timeout checks and flushes follow each other, the
    rows of its blocks followed by the buffer are the logs that were pushed. The
    blocks continue the numbering of the ledger, as long as it does not run out, the
    ledger file has the entries the accumulator remembers, and every block passes
    verification. -/
theorem BatchAccumulator.run_archives_pushed_logs (reader : JsonReader) (config : BatcherConfig)
    {disk : Disk H} {loaded : List LedgerEntry} (hdisk : LedgerOnDisk H disk loaded)
    (hsized : ∀ entry ∈ loaded, entry.Sized) :
    ∃ self, BatchAccumulator.new reader config disk = .ok self ∧
      ∀ calls, VendorsFit H Io.reliable calls self disk →
        BatchAccumulator.next_block_id loaded + calls.length < 2 ^ 64 →
        ∃ results self' disk', ∃ blocks : List Block,
          run H Io.reliable calls self disk = ok (results, self', disk') ∧
          (∀ result ∈ results, ∃ value, result = .ok value) ∧
          blocks.flatMap (fun block => block.records.map (·.raw_log)) ++
            self'.buffer.map (·.raw_log) = (pushedLogs calls).map (·.raw_log) ∧
          self'.in_memory_ledger = loaded ++ blocks.map Block.entry ∧
          (∀ j (hj : j < blocks.length), blocks[j].entry.block_id = BatchAccumulator.next_block_id loaded + j) ∧
          (∀ block ∈ blocks, 1 ≤ block.records.length ∧
            block.records.length ≤ max 1 config.max_batch_size ∧
            ∀ i (hi : i < block.records.length),
              block.records[i].leaf_index = UInt32.ofNat i) ∧
          (disk'.ledger = none → self'.in_memory_ledger = []) ∧
          (disk'.ledger ≠ none →
            load_ledger_entries reader config.ledger_path disk'.ledger =
              .ok self'.in_memory_ledger) ∧
          (∀ block ∈ blocks,
            (∀ path, read_parquet_file path (disk'.storage_dir block.entry.parquet_file) =
              ok (.ok block.records)) ∧
            ∃ report, verify_records H block.records block.entry = ok report ∧
              report.is_valid = true) := by
  obtain ⟨self, hnew, rfl⟩ := hdisk.new_eq reader config hsized
  refine ⟨self, hnew, fun calls hvendors hroom => ?_⟩
  obtain ⟨results, self', disk', blocks, hrun, hok, hinv'⟩ :=
    (BatchAccumulator.runInvariant_of_new hnew).run hvendors
  have hpushed := length_pushedLogs_le calls
  have hnewSized := hinv'.accounts.sized (by
    rw [List.nil_append, Session.first_block_id]
    dsimp only
    omega)
  obtain ⟨-, hledger, -, hlogs, hrows, harchived, hextended⟩ := hinv'.accounts
  rw [List.nil_append] at hledger hlogs harchived hrows hextended hnewSized
  have honDisk : LedgerOnDisk H disk' self'.in_memory_ledger := hledger ▸ hdisk.extended hextended
  have hblock : ∀ block ∈ blocks, ∃ block_id, block.Archived H disk' block_id := by
    intro block hmem
    obtain ⟨j, hj, rfl⟩ := List.mem_iff_getElem.mp hmem
    exact ⟨_, harchived j hj⟩
  refine ⟨results, self', disk', blocks, hrun, hok, hlogs, hledger, ?_, ?_, ?_, ?_, ?_⟩
  · exact fun j hj => (harchived j hj).block_id_eq
  · intro block hmem
    obtain ⟨_, harchivedBlock⟩ := hblock block hmem
    exact ⟨(hrows block hmem).1, (hrows block hmem).2, harchivedBlock.leaf_index_eq⟩
  · intro hnone
    obtain hsome | ⟨-, hempty⟩ := honDisk
    · rw [hnone] at hsome
      cases hsome
    · exact hempty
  · intro hexists
    refine honDisk.load_eq reader _ ?_ hexists
    rw [hledger, List.forall_mem_append, List.forall_mem_map]
    exact ⟨hsized, hnewSized⟩
  · intro block hmem
    obtain ⟨_, harchivedBlock⟩ := hblock block hmem
    exact ⟨harchivedBlock.parquet_file_eq ▸ harchivedBlock.read_eq, harchivedBlock.verifies⟩

/-- Two pushes into an accumulator with room for two logs, over an empty disk: the first waits, the
    second makes the block. -/
theorem BatchAccumulator.run_archives_pushed_logs_pair :
    ∃ self results self' disk', ∃ blocks : List Block,
      BatchAccumulator.new LedgerEntry.layoutReader ⟨2, 2000, "data/parquet", "data/ledger.jsonl"⟩
        (Disk.empty Preimage) = .ok self ∧
      run Preimage Io.reliable [(.Push ⟨"cisco", "deny tcp", none, none, none⟩, Env.fixed),
        (.Push ⟨"cef", "permit udp", none, none, none⟩, Env.fixed)] self
        (Disk.empty Preimage) = ok (results, self', disk') ∧
      blocks.flatMap (fun block => block.records.map (·.raw_log)) ++ self'.buffer.map (·.raw_log) =
        ["deny tcp", "permit udp"] := by
  have hdisk : LedgerOnDisk Preimage (Disk.empty Preimage) [] := .inr ⟨rfl, rfl⟩
  obtain ⟨self, hnew, hrun⟩ := BatchAccumulator.run_archives_pushed_logs LedgerEntry.layoutReader
    ⟨2, 2000, "data/parquet", "data/ledger.jsonl"⟩ hdisk (by simp)
  have hself : self = ⟨⟨2, 2000, "data/parquet", "data/ledger.jsonl"⟩, [], none, 0, []⟩ :=
    (Except.ok.inj hnew).symm
  subst hself
  obtain ⟨results, self', disk', blocks, hresult, -, hlogs, -⟩ :=
    hrun [(.Push ⟨"cisco", "deny tcp", none, none, none⟩, Env.fixed),
      (.Push ⟨"cef", "permit udp", none, none, none⟩, Env.fixed)] (by
        refine ⟨fun _ => by decide, fun result self' disk' hexec => ?_⟩
        cases hexec
        exact ⟨fun _ => by decide, fun _ _ _ _ => trivial⟩) (by decide)
  exact ⟨_, results, self', disk', blocks, hnew, hresult, hlogs⟩

end ulpf_integrity.batcher
