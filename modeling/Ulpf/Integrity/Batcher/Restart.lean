import Ulpf.Integrity.Batcher.Run
import Ulpf.Integrity.TornLedger

open Result
open ulpf_integrity.merkle ulpf_integrity.storage ulpf_integrity.tamper

namespace ulpf_integrity.batcher

/-- A block file is there in full, footer included. -/
def Disk.Complete {H : Type} (disk : Disk H) (name : String) : Prop :=
  ∃ batches, disk.storage_dir name = some (.Parquet batches)

/-- The ledger file is made of these appends, with increasing block numbers. Each has
    a byte in the file. -/
structure MadeOf (ledger : Option (List UInt8)) (appends : List Append) : Prop where
  text_eq : ledger.getD [] = tornText appends
  graphic : ∀ append ∈ appends, append.entry.Graphic
  bytes_pos : ∀ append ∈ appends, 0 < append.bytes
  increasing : (appends.map (·.entry.block_id)).Pairwise (· < ·)

/-- The block file that a call is going to create if no I/O call fails before. -/
def Call.target (env : Env) (self : BatchAccumulator) (call : Call) : Option String :=
  if call.flushes env self && !(call.accept env self).buffer.isEmpty then
    some (block_filename self.current_block_id)
  else none

/-- The storage directory and ledger, and the accumulators in use on them. -/
structure World (ι H : Type) where
  disk : Disk H
  batchers : ι → Option BatchAccumulator

/-- What can happen to an archive. A process that dies in a call dies at the I/O call
    that `io` makes fail, or right behind the last one if none does. -/
inductive Action (ι : Type) where
  | Create (i : ι) (config : BatcherConfig)
  | Call (i : ι) (io : Io) (env : Env) (call : batcher.Call)
  | Crash (i : ι) (io : Io) (env : Env) (call : batcher.Call)
  | Stop (i : ι)

namespace World

variable {ι H : Type} [DecidableEq ι] [Digest H]

/-- An empty archive that nothing uses. -/
def init : World ι H := ⟨Disk.empty H, fun _ => none⟩

def step (reader : JsonReader) (world : World ι H) : Action ι → Result (World ι H)
  | .Create i config =>
    match BatchAccumulator.new reader config world.disk with
    | .error _ => ok world
    | .ok self => ok { world with batchers := Function.update world.batchers i (some self) }
  | .Call i io env call =>
    match world.batchers i with
    | none => ok world
    | some self => do
      let (_, self, disk) ← call.exec H io env self world.disk
      ok { disk, batchers := Function.update world.batchers i (some self) }
  | .Crash i io env call =>
    match world.batchers i with
    | none => ok world
    | some self => do
      let (_, _, disk) ← call.exec H io env self world.disk
      ok { disk, batchers := Function.update world.batchers i none }
  | .Stop i => ok { world with batchers := Function.update world.batchers i none }

def run (reader : JsonReader) : List (Action ι) → World ι H → Result (World ι H)
  | [], world => ok world
  | action :: actions, world => do
    let world ← world.step reader action
    run reader actions world

/-- The block file that an action is going to create, whether or not it gets there. -/
def target (world : World ι H) : Action ι → Option String
  | .Call i _ env call | .Crash i _ env call => (world.batchers i).bind fun self => call.target env self
  | .Create _ _ | .Stop _ => none

/-- An accumulator is created only if no other is in use and the ledger accounts for
    the block files: none of them is complete from the number on at which the ledger
    continues. -/
def Orderly (reader : JsonReader) (world : World ι H) : Action ι → Prop
  | .Create _ config =>
    (∀ i, world.batchers i = none) ∧
    ∀ entries, (world.disk.ledger = none ∧ entries = [] ∨
        load_ledger_entries reader config.ledger_path world.disk.ledger = .ok entries) →
      ∀ n, BatchAccumulator.next_block_id entries ≤ n → ¬ world.disk.Complete (block_filename n)
  | .Call .. | .Crash .. | .Stop _ => True

/-- The worlds that are reached from one by orderly steps. -/
def Reachable (reader : JsonReader) : World ι H → World ι H → Prop :=
  Relation.ReflTransGen fun world world' =>
    ∃ action, world.Orderly reader action ∧ world.step reader action = ok world'

/-- At most one accumulator is in use, no block from its number on is complete, and
    its number is above those of all lines in the ledger. -/
structure Invariant (world : World ι H) (appends : List Append) : Prop where
  alone : ∀ i j, world.batchers i ≠ none → world.batchers j ≠ none → i = j
  fresh : ∀ i self, world.batchers i = some self → ∀ n, self.current_block_id ≤ n →
    ¬ world.disk.Complete (block_filename n)
  made_of : MadeOf world.disk.ledger appends
  below : ∀ i self, world.batchers i = some self → ∀ append ∈ appends,
    append.entry.block_id < self.current_block_id

end World

variable {H : Type} [Digest H]

theorem graphic_block_filename (block_id : Nat) :
    ∀ c ∈ (block_filename block_id).toList, c.is_ascii_graphic = true :=
  str.graphic_surround (List.all_eq_true.mp (by decide))
    (fun _ hc => str.graphic_of_mem_zero_padded hc) (List.all_eq_true.mp (by decide))

theorem BatchAccumulator.graphic_blockEntry (env : Env) (self : BatchAccumulator) :
    (self.blockEntry H env).Graphic := by
  refine LedgerEntry.graphic_of_fields (fun c hc => ?_) (graphic_block_filename _)
  rw [blockEntry, rootOf, Hash.to_hex] at hc
  exact hex.graphic_of_mem_encode hc

/-- A flush touches no other file than that of its block. -/
theorem BatchAccumulator.Effect.storage_dir {env : Env} {self : BatchAccumulator}
    {disk disk' : Disk H} (heffect : self.Effect H env disk disk') {name : String}
    (hname : name ≠ block_filename self.current_block_id) :
    disk'.storage_dir name = disk.storage_dir name := by
  cases heffect <;> simp [Disk.write, Function.update_of_ne hname]

/-- A flush appends some bytes of its ledger line, if it gets that far. -/
theorem BatchAccumulator.Effect.ledger {env : Env} {self : BatchAccumulator}
    {disk disk' : Disk H} (heffect : self.Effect H env disk disk') :
    ∃ bytes, disk'.ledger.getD [] = disk.ledger.getD [] ++
      (ledgerLine (self.blockEntry H env)).take bytes := by
  cases heffect with
  | appended _ _ bytes => exact ⟨bytes, rfl⟩
  | untouched | truncated | written => exact ⟨0, by simp [Disk.write]⟩

/-- What a call does to the disk and to the block number, however it ends. -/
theorem Call.exec_effect {io : Io} {env : Env} {self self' : BatchAccumulator} {disk disk' : Disk H}
    {call : Call} {result : Except String (Option (BlockFlushResult H))}
    (hexec : call.exec H io env self disk = ok (result, self', disk')) :
    (disk' = disk ∧ self'.current_block_id = self.current_block_id) ∨
    (call.flushes env self = true ∧ (call.accept env self).buffer ≠ [] ∧
      self'.current_block_id = self.current_block_id + 1 ∧
      (call.accept env self).Effect H env disk disk') := by
  have hid := call.accept_current_block_id env self
  rw [exec_eq] at hexec
  split at hexec
  · rename_i hflushes
    obtain ⟨actual, actual', actualDisk, hflush, hspec⟩ := (call.accept env self).flush_spec io env disk
    rw [hflush] at hexec
    cases hexec
    obtain ⟨-, -, rfl, rfl⟩ | ⟨-, -, flushed, -, hflushed⟩ | ⟨-, hne, -, rfl, heffect⟩ := hspec
    · exact .inl ⟨rfl, hid⟩
    · obtain ⟨batch, hbatch, hstorage⟩ := hflushed.storage_eq
      have hdisk : disk' = { disk.write (block_filename (call.accept env self).current_block_id)
          (.Parquet [batch]) with
          ledger := some (disk.ledger.getD [] ++
            (ledgerLine ((call.accept env self).blockEntry H env)).take
              (ledgerLine ((call.accept env self).blockEntry H env)).length) } := by
        rw [List.take_length, ← hflushed.ledger_eq, Disk.write, ← hstorage]
      refine .inr ⟨hflushes, hflushed.buffer_ne, ?_, hdisk ▸ .appended batch hbatch _⟩
      rw [hflushed.batcher_eq]
      exact congrArg (· + 1) hid
    · exact .inr ⟨hflushes, hne, congrArg (· + 1) hid, heffect⟩
  · cases hexec
    exact .inl ⟨rfl, hid⟩

theorem Call.exec_storage_dir {io : Io} {env : Env} {self self' : BatchAccumulator}
    {disk disk' : Disk H} {call : Call} {result : Except String (Option (BlockFlushResult H))}
    (hexec : call.exec H io env self disk = ok (result, self', disk')) {name : String}
    (hname : call.target env self ≠ some name) : disk'.storage_dir name = disk.storage_dir name := by
  obtain ⟨rfl, -⟩ | ⟨hflushes, hne, -, heffect⟩ := Call.exec_effect hexec
  · rfl
  · rw [Call.target, if_pos (by simp [hflushes, hne])] at hname
    apply heffect.storage_dir
    rw [Call.accept_current_block_id]
    exact fun h => hname (congrArg some h.symm)

omit [Digest H] in
/-- A fresh accumulator holds no logs and numbers behind the ledger that it loaded. -/
theorem BatchAccumulator.new_eq_ok {reader : JsonReader} {config : BatcherConfig} {disk : Disk H}
    {self : BatchAccumulator} (hnew : BatchAccumulator.new reader config disk = .ok self) :
    self.buffer = [] ∧
      self.current_block_id = BatchAccumulator.next_block_id self.in_memory_ledger ∧
      (disk.ledger = none ∧ self.in_memory_ledger = [] ∨
        load_ledger_entries reader config.ledger_path disk.ledger = .ok self.in_memory_ledger) := by
  unfold BatchAccumulator.new at hnew
  split at hnew
  · cases hload : load_ledger_entries reader config.ledger_path disk.ledger with
    | error e => rw [hload] at hnew; cases hnew
    | ok entries =>
      rw [hload] at hnew
      cases hnew
      exact ⟨rfl, rfl, .inr rfl⟩
  · rename_i hnone
    cases hnew
    exact ⟨rfl, rfl, .inl ⟨by simpa using hnone, rfl⟩⟩

/-- The next block comes after all entries of a ledger with increasing numbers. -/
theorem BatchAccumulator.lt_next_block_id {entries : List LedgerEntry}
    (hincreasing : (entries.map (·.block_id)).Pairwise (· < ·)) :
    ∀ entry ∈ entries, entry.block_id < BatchAccumulator.next_block_id entries := by
  induction entries using List.reverseRecOn with
  | nil => simp
  | append_singleton entries last _ =>
    rw [List.map_append, List.pairwise_append] at hincreasing
    intro entry hentry
    simp only [next_block_id, List.getLast?_concat, Option.map_some, Option.getD_some]
    rcases List.mem_append.mp hentry with hold | hlast
    · have := hincreasing.2.2 _ (List.mem_map_of_mem hold) last.block_id (by simp)
      omega
    · obtain rfl := List.mem_singleton.mp hlast
      omega

/-- A ledger that loads has the entries of its appends. -/
theorem MadeOf.load_eq {reader : JsonReader} (hstrict : reader.Strict) {ledger : Option (List UInt8)}
    {appends : List Append} (hmade : MadeOf ledger appends) {path : String}
    {entries : List LedgerEntry} (hload : load_ledger_entries reader path ledger = .ok entries) :
    entries = appends.map Append.entry := by
  cases ledger with
  | none => cases hload
  | some bytes =>
    have hbytes : bytes = tornText appends := hmade.text_eq
    subst hbytes
    rw [(load_tornText hstrict hmade.graphic hload).1,
      List.filter_eq_self.mpr fun append h => by simpa using hmade.bytes_pos append h]

theorem MadeOf.eq_nil_of_none {appends : List Append} (hmade : MadeOf none appends) :
    appends = [] := by
  cases appends with
  | nil => rfl
  | cons append appends =>
    have hpos := hmade.bytes_pos append List.mem_cons_self
    have hnil := hmade.text_eq.symm
    rw [Option.getD_none, tornText, List.flatMap_cons, List.append_eq_nil_iff, Append.written,
      List.take_eq_nil_iff, ledgerLine] at hnil
    obtain hzero | hline := hnil.1
    · omega
    · simp at hline

/-- An append with a greater number, of which nothing may get into the file. -/
theorem MadeOf.extend {ledger ledger' : Option (List UInt8)} {appends : List Append}
    (hmade : MadeOf ledger appends) {entry : LedgerEntry} {bytes : Nat} (hgraphic : entry.Graphic)
    (hbelow : ∀ append ∈ appends, append.entry.block_id < entry.block_id)
    (hledger : ledger'.getD [] = ledger.getD [] ++ (ledgerLine entry).take bytes) :
    ∃ appends', MadeOf ledger' appends' ∧
      ∀ append ∈ appends', append ∈ appends ∨ append.entry = entry := by
  by_cases hbytes : bytes = 0
  · rw [hbytes, List.take_zero, List.append_nil] at hledger
    exact ⟨appends, { hmade with text_eq := hledger.trans hmade.text_eq }, fun _ h => .inl h⟩
  · refine ⟨appends ++ [⟨entry, bytes⟩], ⟨?_, ?_, ?_, ?_⟩, ?_⟩
    · rw [hledger, hmade.text_eq, tornText, tornText, List.flatMap_append]
      simp [Append.written]
    · simpa [or_imp, forall_and, hgraphic] using hmade.graphic
    · simpa [or_imp, forall_and, Nat.pos_of_ne_zero hbytes] using hmade.bytes_pos
    · rw [List.map_append, List.pairwise_append]
      refine ⟨hmade.increasing, by simp, ?_⟩
      simpa using hbelow
    · intro append happend
      rcases List.mem_append.mp happend with hold | hnew
      · exact .inl hold
      · exact .inr (by rw [List.mem_singleton.mp hnew])

/-- An accumulator that flushes every log at once, before it has seen one. -/
def eagerBatcher : BatchAccumulator :=
  ⟨⟨1, 2000, "data/parquet", "data/ledger.jsonl"⟩, [], none, 0, []⟩

namespace World

variable {ι : Type}

omit [Digest H] in
theorem invariant_init : (init : World ι H).Invariant [] where
  alone := by simp [init]
  fresh := by simp [init]
  made_of := ⟨rfl, by simp, by simp, by simp⟩
  below := by simp

variable [DecidableEq ι]

theorem update_eq_some {batchers : ι → Option BatchAccumulator} {i j : ι}
    {next : Option BatchAccumulator} {batcher : BatchAccumulator}
    (hbatcher : Function.update batchers i next j = some batcher) :
    j = i ∧ next = some batcher ∨ j ≠ i ∧ batchers j = some batcher := by
  by_cases hj : j = i
  · subst hj
    rw [Function.update_self] at hbatcher
    exact .inl ⟨rfl, hbatcher⟩
  · rw [Function.update_of_ne hj] at hbatcher
    exact .inr ⟨hj, hbatcher⟩

omit [Digest H] [DecidableEq ι] in
/-- If one accumulator is in use the invariant speaks of this one only. -/
theorem invariant_of_only {disk : Disk H} {batchers : ι → Option BatchAccumulator}
    {appends : List Append} {i : ι} {self : BatchAccumulator}
    (honly : ∀ j batcher, batchers j = some batcher → j = i ∧ batcher = self)
    (hfresh : ∀ n, self.current_block_id ≤ n → ¬ disk.Complete (block_filename n))
    (hmade : MadeOf disk.ledger appends)
    (hbelow : ∀ append ∈ appends, append.entry.block_id < self.current_block_id) :
    Invariant ⟨disk, batchers⟩ appends where
  alone j k hj hk := by
    obtain ⟨_, hj⟩ := Option.ne_none_iff_exists'.mp hj
    obtain ⟨_, hk⟩ := Option.ne_none_iff_exists'.mp hk
    rw [(honly j _ hj).1, (honly k _ hk).1]
  fresh j batcher hbatcher := by
    rw [(honly j batcher hbatcher).2]
    exact hfresh
  made_of := hmade
  below j batcher hbatcher := by
    rw [(honly j batcher hbatcher).2]
    exact hbelow

/-- A call keeps the invariant, whether the accumulator lives on or dies in it. -/
theorem Invariant.exec {world : World ι H} {appends : List Append} (hinv : world.Invariant appends)
    {i : ι} {self self' : BatchAccumulator} (hself : world.batchers i = some self) {io : Io}
    {env : Env} {call : Call} {result : Except String (Option (BlockFlushResult H))}
    {disk' : Disk H} (hexec : call.exec H io env self world.disk = ok (result, self', disk'))
    {next : Option BatchAccumulator} (hnext : ∀ batcher ∈ next, batcher = self') :
    ∃ appends', Invariant ⟨disk', Function.update world.batchers i next⟩ appends' := by
  have honly : ∀ j batcher, Function.update world.batchers i next j = some batcher →
      j = i ∧ batcher = self' := by
    intro j batcher hbatcher
    obtain ⟨hj, hbatcher⟩ | ⟨hj, hbatcher⟩ := update_eq_some hbatcher
    · exact ⟨hj, hnext batcher hbatcher⟩
    · exact absurd (hinv.alone j i (by simp [hbatcher]) (by simp [hself])) hj
  have hfresh := hinv.fresh i self hself
  have hbelow := hinv.below i self hself
  obtain ⟨rfl, hid⟩ | ⟨-, -, hid, heffect⟩ := Call.exec_effect hexec
  · rw [← hid] at hfresh hbelow
    exact ⟨appends, invariant_of_only honly hfresh hinv.made_of hbelow⟩
  · have haccept := call.accept_current_block_id env self
    obtain ⟨bytes, hledger⟩ := heffect.ledger
    obtain ⟨appends', hmade, hmem⟩ := hinv.made_of.extend
      (BatchAccumulator.graphic_blockEntry env _) (fun append h => (hbelow append h).trans_eq haccept.symm)
      hledger
    refine ⟨appends', invariant_of_only honly ?_ hmade ?_⟩
    · intro n hn
      rw [Disk.Complete, heffect.storage_dir]
      · exact hfresh n (by omega)
      · intro hname
        have := block_filename_injective hname
        omega
    · intro append happend
      rw [hid]
      obtain hold | hnew := hmem append happend
      · exact (hbelow append hold).trans (Nat.lt_succ_self _)
      · rw [hnew]
        exact haccept.trans_lt (Nat.lt_succ_self _)

omit [Digest H] in
/-- An accumulator that is created over an accounted archive keeps the invariant. -/
theorem Invariant.create {reader : JsonReader} (hstrict : reader.Strict) {world : World ι H}
    {appends : List Append} (hinv : world.Invariant appends) {i : ι} {config : BatcherConfig}
    (horderly : world.Orderly reader (.Create i config)) {self : BatchAccumulator}
    (hnew : BatchAccumulator.new reader config world.disk = .ok self) :
    Invariant { world with batchers := Function.update world.batchers i (some self) } appends := by
  obtain ⟨hunused, haccounted⟩ := horderly
  obtain ⟨-, hid, hentries⟩ := BatchAccumulator.new_eq_ok hnew
  have honly : ∀ j batcher, Function.update world.batchers i (some self) j = some batcher →
      j = i ∧ batcher = self := by
    intro j batcher hbatcher
    obtain ⟨hj, hbatcher⟩ | ⟨-, hbatcher⟩ := update_eq_some hbatcher
    · exact ⟨hj, (Option.some_injective _ hbatcher).symm⟩
    · rw [hunused j] at hbatcher
      cases hbatcher
  have hmade := hinv.made_of
  refine invariant_of_only honly (hid ▸ haccounted _ hentries) hmade ?_
  intro append happend
  rw [hid]
  obtain ⟨hnone, -⟩ | hload := hentries
  · rw [hnone] at hmade
    rw [hmade.eq_nil_of_none] at happend
    cases happend
  · rw [hmade.load_eq hstrict hload]
    have hincreasing := hmade.increasing
    refine BatchAccumulator.lt_next_block_id ?_ append.entry (List.mem_map_of_mem happend)
    rwa [List.map_map]

omit [Digest H] in
theorem Invariant.stop {world : World ι H} {appends : List Append} (hinv : world.Invariant appends)
    (i : ι) : Invariant { world with batchers := Function.update world.batchers i none } appends := by
  have hold : ∀ j batcher, Function.update world.batchers i none j = some batcher →
      world.batchers j = some batcher := by
    intro j batcher hbatcher
    obtain ⟨-, hbatcher⟩ | ⟨-, hbatcher⟩ := update_eq_some hbatcher
    · cases hbatcher
    · exact hbatcher
  refine ⟨fun j k hj hk => ?_, fun j batcher h => hinv.fresh j batcher (hold j batcher h), hinv.made_of,
    fun j batcher h => hinv.below j batcher (hold j batcher h)⟩
  obtain ⟨_, hj⟩ := Option.ne_none_iff_exists'.mp hj
  obtain ⟨_, hk⟩ := Option.ne_none_iff_exists'.mp hk
  exact hinv.alone j k (by simp [hold j _ hj]) (by simp [hold k _ hk])

/-- A call and a crash run the same call: they differ in what is left of the
    accumulator. -/
theorem step_exec {reader : JsonReader} {world world' : World ι H} {action : Action ι} (i : ι)
    (io : Io) (env : Env) (call : Call)
    (haction : action = .Call i io env call ∨ action = .Crash i io env call)
    (hstep : world.step reader action = ok world') :
    world' = world ∨
    ∃ self result self' disk' next, world.batchers i = some self ∧
      call.exec H io env self world.disk = ok (result, self', disk') ∧
      (∀ batcher ∈ next, batcher = self') ∧
      world' = ⟨disk', Function.update world.batchers i next⟩ := by
  obtain rfl | rfl := haction
  all_goals
    rw [step] at hstep
    split at hstep
    · cases hstep
      exact .inl rfl
    · rename_i self hself
      obtain ⟨⟨result, self', disk'⟩, hexec, hstep⟩ := bind_eq_ok_iff.mp hstep
      cases hstep
      exact .inr ⟨self, result, self', disk', _, hself, hexec, by simp, rfl⟩

theorem Invariant.step {reader : JsonReader} (hstrict : reader.Strict) {world world' : World ι H}
    {appends : List Append} (hinv : world.Invariant appends) {action : Action ι}
    (horderly : world.Orderly reader action) (hstep : world.step reader action = ok world') :
    ∃ appends', world'.Invariant appends' := by
  cases action with
  | Create i config =>
    rw [World.step] at hstep
    split at hstep
    · cases hstep
      exact ⟨appends, hinv⟩
    · rename_i self hnew
      cases hstep
      exact ⟨appends, hinv.create hstrict horderly hnew⟩
  | Call i io env call | Crash i io env call =>
    obtain rfl | ⟨self, _, _, _, _, hself, hexec, hnext, rfl⟩ :=
      step_exec i io env call (by simp) hstep
    · exact ⟨appends, hinv⟩
    · exact hinv.exec hself hexec hnext
  | Stop i =>
    cases hstep
    exact ⟨appends, hinv.stop i⟩

theorem Invariant.of_reachable {reader : JsonReader} (hstrict : reader.Strict)
    {world world' : World ι H} {appends : List Append} (hinv : world.Invariant appends)
    (hreach : Reachable reader world world') : ∃ appends', world'.Invariant appends' := by
  induction hreach with
  | refl => exact ⟨appends, hinv⟩
  | tail _ hstep ih =>
    obtain ⟨appends', hinv'⟩ := ih
    obtain ⟨action, horderly, hstep⟩ := hstep
    exact hinv'.step hstrict horderly hstep

/-- No file changes but the one that an action is going to create. -/
theorem step_storage_dir {reader : JsonReader} {world world' : World ι H} {action : Action ι}
    (hstep : world.step reader action = ok world') {name : String}
    (hname : world.target action ≠ some name) :
    world'.disk.storage_dir name = world.disk.storage_dir name := by
  cases action with
  | Create i config =>
    rw [step] at hstep
    split at hstep <;> cases hstep <;> rfl
  | Stop i => cases hstep; rfl
  | Call i io env call | Crash i io env call =>
    obtain rfl | ⟨self, _, _, _, _, hself, hexec, -, rfl⟩ :=
      step_exec i io env call (by simp) hstep
    · rfl
    · rw [target, hself] at hname
      exact Call.exec_storage_dir hexec hname

omit [Digest H] [DecidableEq ι] in
/-- What an action is going to create is not complete. -/
theorem Invariant.target_not_complete {world : World ι H} {appends : List Append}
    (hinv : world.Invariant appends) {action : Action ι} {name : String}
    (hname : world.target action = some name) : ¬ world.disk.Complete name := by
  have hbatcher : ∃ i self env call, world.batchers i = some self ∧
      Call.target env self call = some name := by
    cases action with
    | Create i config => cases hname
    | Stop i => cases hname
    | Call i io env call | Crash i io env call =>
      obtain ⟨self, hself, htarget⟩ := Option.bind_eq_some_iff.mp hname
      exact ⟨i, self, env, call, hself, htarget⟩
  obtain ⟨i, self, env, call, hself, htarget⟩ := hbatcher
  rw [Call.target] at htarget
  split at htarget
  · cases htarget
    exact hinv.fresh i self hself _ le_rfl
  · cases htarget

/-- Blocks are write-once as long as accumulators are created one at a time and only
    over block files that the ledger accounts for: whatever pushes, flushes, I/O
    failures and crashes follow, no action is going to create a complete file again,
    and the entries of the ledger have different block ids. -/
theorem blocks_write_once {reader : JsonReader} (hstrict : reader.Strict) {world : World ι H}
    (hreach : Reachable reader init world) :
    (∀ name batches, world.disk.storage_dir name = some (.Parquet batches) →
      ∀ later, Reachable reader world later →
        later.disk.storage_dir name = some (.Parquet batches) ∧
        ∀ action, later.target action ≠ some name) ∧
    ∀ path entries, load_ledger_entries reader path world.disk.ledger = .ok entries →
      (entries.map (·.block_id)).Nodup := by
  obtain ⟨appends, hinv⟩ := invariant_init.of_reachable hstrict hreach
  constructor
  · intro name batches hcomplete later hlater
    have hkept : later.disk.storage_dir name = some (.Parquet batches) := by
      induction hlater with
      | refl => exact hcomplete
      | tail hlater hstep ih =>
        obtain ⟨action, -, hstep⟩ := hstep
        obtain ⟨_, hinv'⟩ := hinv.of_reachable hstrict hlater
        rw [step_storage_dir hstep, ih]
        exact fun htarget => hinv'.target_not_complete htarget ⟨batches, ih⟩
    obtain ⟨_, hinv'⟩ := hinv.of_reachable hstrict hlater
    exact ⟨hkept, fun action htarget => hinv'.target_not_complete htarget ⟨batches, hkept⟩⟩
  · intro path entries hload
    rw [hinv.made_of.load_eq hstrict hload, List.map_map]
    exact hinv.made_of.increasing.imp Nat.ne_of_lt

/-- The process dies when the block file is written and the ledger not opened yet. -/
def diesBeforeLedger : Io where
  fails call := call = .OpenLedger
  message := ""
  ledger_bytes_written := 0

theorem step_create_eager (reader : JsonReader) {world : World ι H} (hnone : world.disk.ledger = none)
    (i : ι) : world.step reader (.Create i eagerBatcher.config) =
      ok { world with batchers := Function.update world.batchers i (some eagerBatcher) } := by
  have hnew : BatchAccumulator.new reader eagerBatcher.config world.disk = .ok eagerBatcher := by
    rw [BatchAccumulator.new, hnone]
    rfl
  rw [step, hnew]

/-- A restart after a crash between block file and ledger takes the same number again,
    and the next block replaces the one that was there. -/
theorem crash_before_ledger_overwrites_block :
    ∃ crashed final : World Unit Preimage, ∃ before after : List StoredLogRecord,
      run LedgerEntry.canonicalReader [.Create () eagerBatcher.config,
        .Crash () diesBeforeLedger Env.fixed (.Push ⟨"cisco", "deny tcp", none, none, none⟩)] init =
          ok crashed ∧
      run LedgerEntry.canonicalReader [.Create () eagerBatcher.config,
        .Call () Io.reliable Env.fixed (.Push ⟨"cisco", "permit udp", none, none, none⟩)] crashed =
          ok final ∧
      read_parquet_file "" (crashed.disk.storage_dir (block_filename 0)) = ok (.ok before) ∧
      read_parquet_file "" (final.disk.storage_dir (block_filename 0)) = ok (.ok after) ∧
      before.map (·.raw_log) = ["deny tcp"] ∧ after.map (·.raw_log) = ["permit udp"] := by
  obtain ⟨e, batch, hbatch, hcrash⟩ : ∃ e batch,
      records_to_batch (stored_records Preimage Env.fixed 0 [⟨"cisco", "deny tcp", none, none, none⟩]) =
        ok (.ok batch) ∧
      (Call.Push ⟨"cisco", "deny tcp", none, none, none⟩).exec Preimage diesBeforeLedger Env.fixed
        eagerBatcher (Disk.empty Preimage) = ok (.error e,
          ((Call.Push ⟨"cisco", "deny tcp", none, none, none⟩).accept Env.fixed eagerBatcher).taken,
          (Disk.empty Preimage).write (block_filename 0) (.Parquet [batch])) := by
    rw [Call.exec_push_eq_flush (by decide)]
    obtain ⟨hvendors, -⟩ | ⟨-, batch, flushed, hbatch, -, -, -, hflush⟩ :=
      BatchAccumulator.flush_eq (H := Preimage)
        ((Call.Push ⟨"cisco", "deny tcp", none, none, none⟩).accept Env.fixed eagerBatcher)
        diesBeforeLedger Env.fixed (Disk.empty Preimage) (by simp [Call.accept])
    · exact absurd hvendors (by decide)
    · exact ⟨_, batch, hbatch, hflush⟩
  obtain ⟨flushed, self', disk', hflush, hflushed⟩ : ∃ flushed self' disk',
      (Call.Push ⟨"cisco", "permit udp", none, none, none⟩).exec Preimage Io.reliable Env.fixed
        eagerBatcher ((Disk.empty Preimage).write (block_filename 0) (.Parquet [batch])) =
          ok (.ok (some flushed), self', disk') ∧
      BatchAccumulator.Flushed Preimage Env.fixed
        ((Call.Push ⟨"cisco", "permit udp", none, none, none⟩).accept Env.fixed eagerBatcher)
        ((Disk.empty Preimage).write (block_filename 0) (.Parquet [batch])) flushed self' disk' := by
    rw [Call.exec_push_eq_flush (by decide)]
    exact BatchAccumulator.flushed_of_reliable _ _ _ (by simp [Call.accept]) (by decide)
  refine ⟨⟨(Disk.empty Preimage).write (block_filename 0) (.Parquet [batch]),
      Function.update (fun _ => none) () none⟩, ⟨disk', Function.update (fun _ => none) () (some self')⟩,
    _, _, ?_, ?_, read_stored_records (by simp) hbatch "", hflushed.read_block "",
    map_raw_log_stored_records .., map_raw_log_stored_records ..⟩
  · rw [run, step_create_eager _ rfl, bind_ok, run, step]
    simp only [Function.update_self, init, hcrash, bind_ok, run, Function.update_idem]
  · rw [run, step_create_eager _ rfl, bind_ok, run, step]
    simp only [Function.update_self, hflush, bind_ok, run, Function.update_idem]

/-- The first block of an archive stays as it was written. -/
theorem blocks_write_once_first_block :
    ∃ (world : World Unit Preimage) (batches : List (RecordBatch Preimage)),
      Reachable LedgerEntry.canonicalReader init world ∧
      world.disk.storage_dir (block_filename 0) = some (.Parquet batches) ∧
      ∀ later, Reachable LedgerEntry.canonicalReader world later →
        later.disk.storage_dir (block_filename 0) = some (.Parquet batches) := by
  obtain ⟨flushed, self', disk', hflush, hflushed⟩ :=
    BatchAccumulator.flushed_of_reliable (H := Preimage)
      ((Call.Push ⟨"cisco", "deny tcp", none, none, none⟩).accept Env.fixed eagerBatcher) Env.fixed
      (Disk.empty Preimage) (by simp [Call.accept]) (by decide)
  rw [← Call.exec_push_eq_flush (by decide)] at hflush
  obtain ⟨batch, -, hstorage⟩ := hflushed.storage_eq
  have hfile : disk'.storage_dir (block_filename 0) = some (.Parquet [batch]) := by
    rw [hstorage]
    exact Function.update_self ..
  have hcreate : Reachable LedgerEntry.canonicalReader (init : World Unit Preimage)
      ⟨Disk.empty Preimage, Function.update (fun _ => none) () (some eagerBatcher)⟩ := by
    refine .single ⟨.Create () eagerBatcher.config, ⟨fun _ => rfl, ?_⟩, step_create_eager _ rfl ()⟩
    rintro entries - n - ⟨batches, hbatches⟩
    cases hbatches
  have hreach : Reachable LedgerEntry.canonicalReader (init : World Unit Preimage)
      ⟨disk', Function.update (fun _ => none) () (some self')⟩ := by
    refine hcreate.tail ⟨.Call () Io.reliable Env.fixed
      (.Push ⟨"cisco", "deny tcp", none, none, none⟩), trivial, ?_⟩
    rw [step]
    simp only [Function.update_self, hflush, bind_ok, Function.update_idem]
  have honce := (blocks_write_once LedgerEntry.strict_canonicalReader hreach).1
  exact ⟨_, _, hreach, hfile, fun later hlater => (honce _ _ hfile later hlater).1⟩

end World

end ulpf_integrity.batcher
