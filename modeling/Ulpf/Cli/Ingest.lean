import Mathlib.Logic.Relation
import Ulpf.Core.Ingest.Queue
import Ulpf.Integrity.Batcher.Archive

open Result
open ulpf_core.ingest ulpf_integrity.batcher ulpf_integrity.merkle ulpf_integrity.storage

namespace ulpf_cli.ingest

/-- The flags of live ingest that decide how lines reach the archive. -/
structure IngestArgs where
  parquet_dir : String
  ledger : String
  batch_size : Nat
  batch_timeout : Nat
  queue_capacity : Nat
  drop_on_full : Bool

namespace IngestArgs

def batcher_config (args : IngestArgs) : BatcherConfig where
  max_batch_size := args.batch_size
  max_batch_duration_ms := args.batch_timeout
  storage_dir := args.parquet_dir
  ledger_path := args.ledger

def policy (args : IngestArgs) : BackpressurePolicy := if args.drop_on_full then .Drop else .Block

end IngestArgs

/-- A UDP listener, or the task of one TCP connection. -/
inductive Producer where
  /-- Waiting for the next line. -/
  | Idle
  | Pushing (line : String) (pc : PushPc)
  /-- The task has ended: its connection is gone, or a push failed. -/
  | Stopped

/-- The loop that a batch was popped in. -/
inductive Phase where
  | Live
  | Grace
  deriving DecidableEq, Repr

/-- The last line that ingest prints. -/
structure Summary where
  total_ingested : Nat
  total_parsed : Nat
  total_blocks : Nat
  stats : QueueStats

/-- Where the consumer stands. -/
inductive Consumer where
  /-- The `select!` between the next tick and the shutdown signal. -/
  | Select
  /-- The `for` loop over a popped batch. -/
  | Processing (batch : List (List UInt8)) (phase : Phase)
  | Closing (pc : ClosePc)
  /-- The grace drain. -/
  | Drain
  | FinalFlush
  | Stats
  | Report (stats : QueueStats)
  | Returned (summary : Summary)
  /-- A batcher call failed, and ingest ends without a final flush. -/
  | Failed

def Phase.resume : Phase → Consumer
  | Live => .Select
  | Grace => .Drain

/-- What the batcher is given of a parsed event. -/
structure Event where
  vendor_name : String
  time : Int
  event_id : String
  ocsf_json : String

def Event.incoming (event : Event) (raw_log : String) : IncomingLog where
  vendor := event.vendor_name
  raw_log
  timestamp := some event.time
  event_id := some event.event_id
  ocsf_json := some event.ocsf_json

/-- `std::str::from_utf8(&bytes).unwrap_or("")`. -/
def raw_str (item : List UInt8) : String := (from_utf8 item).getD ""

/-- The state of live ingest. `entered` is the history of the items that were
    appended to the queue; nothing reads it. -/
structure Ingest (ι H : Type) where
  queue : MemoryQueue ι
  producers : ι → Producer
  consumer : Consumer
  batcher : BatchAccumulator
  disk : Disk H
  total_ingested : Nat
  total_parsed : Nat
  total_blocks : Nat
  entered : List (List UInt8)

def Ingest.start {ι H : Type} (args : IngestArgs) (batcher : BatchAccumulator) (disk : Disk H) :
    Ingest ι H where
  queue := MemoryQueue.new args.queue_capacity args.policy
  producers _ := .Idle
  consumer := .Select
  batcher
  disk
  total_ingested := 0
  total_parsed := 0
  total_blocks := 0
  entered := []

variable {ι H : Type} [DecidableEq ι] [Digest H]

/-- One step of one task. The scheduler, the clocks, the network, the parser's
    events and the I/O outcomes are arbitrary. -/
inductive Step (args : IngestArgs) : Ingest ι H → Ingest ι H → Prop where
  | read_line (s : Ingest ι H) (i : ι) (line : String)
      (hproducer : s.producers i = .Idle) (hline : str.trim line.toList ≠ []) :
      Step args s { s with
        producers := Function.update s.producers i
          (.Pushing (String.ofList (str.trim line.toList)) .Enter)
        total_ingested := s.total_ingested + 1 }
  | push (s : Ingest ι H) (i : ι) (line : String) (pc pc' : PushPc) (queue' : MemoryQueue ι)
      (hproducer : s.producers i = .Pushing line pc)
      (hpush : push_step i line.as_bytes pc s.queue = some (pc', queue')) :
      Step args s { s with
        queue := queue'
        producers := Function.update s.producers i (.Pushing line pc')
        entered := if pc = .PushBack then s.entered ++ [line.as_bytes] else s.entered }
  | pushed (s : Ingest ι H) (i : ι) (line : String)
      (hproducer : s.producers i = .Pushing line (.Returned .Ok)) :
      Step args s { s with producers := Function.update s.producers i .Idle }
  | push_failed (s : Ingest ι H) (i : ι) (line message : String)
      (hproducer : s.producers i = .Pushing line (.Returned (.Err message))) :
      Step args s { s with producers := Function.update s.producers i .Stopped }
  | disconnected (s : Ingest ι H) (i : ι) (hproducer : s.producers i = .Idle) :
      Step args s { s with producers := Function.update s.producers i .Stopped }
  | tick (s : Ingest ι H) (hconsumer : s.consumer = .Select) (hlock : s.queue.lock = none) :
      Step args s { s with
        queue := (s.queue.pop_batch args.batch_size).2
        consumer := .Processing (s.queue.pop_batch args.batch_size).1 .Live }
  | process (s : Ingest ι H) (item : List UInt8) (rest : List (List UInt8)) (phase : Phase)
      (io : Io) (env : Env) (event : Event) (flushed : Option (BlockFlushResult H))
      (batcher' : BatchAccumulator) (disk' : Disk H)
      (hconsumer : s.consumer = .Processing (item :: rest) phase) (hitem : raw_str item ≠ "")
      (hpush : (Call.Push (event.incoming (raw_str item))).exec H io env s.batcher s.disk =
        ok (.ok flushed, batcher', disk')) :
      Step args s { s with
        consumer := .Processing rest phase
        batcher := batcher'
        disk := disk'
        total_parsed := s.total_parsed + 1
        total_blocks := s.total_blocks + flushed.toList.length }
  | process_failed (s : Ingest ι H) (item : List UInt8) (rest : List (List UInt8)) (phase : Phase)
      (io : Io) (env : Env) (event : Event) (e : String)
      (batcher' : BatchAccumulator) (disk' : Disk H)
      (hconsumer : s.consumer = .Processing (item :: rest) phase) (hitem : raw_str item ≠ "")
      (hpush : (Call.Push (event.incoming (raw_str item))).exec H io env s.batcher s.disk =
        ok (.error e, batcher', disk')) :
      Step args s { s with
        consumer := .Failed
        batcher := batcher'
        disk := disk'
        total_parsed := s.total_parsed + 1 }
  | skip (s : Ingest ι H) (item : List UInt8) (rest : List (List UInt8)) (phase : Phase)
      (hconsumer : s.consumer = .Processing (item :: rest) phase) (hitem : raw_str item = "") :
      Step args s { s with consumer := .Processing rest phase }
  | batch_done (s : Ingest ι H) (phase : Phase) (hconsumer : s.consumer = .Processing [] phase) :
      Step args s { s with consumer := phase.resume }
  | shutdown (s : Ingest ι H) (hconsumer : s.consumer = .Select) :
      Step args s { s with consumer := .Closing .Store }
  | close (s : Ingest ι H) (pc pc' : ClosePc) (queue' : MemoryQueue ι)
      (hconsumer : s.consumer = .Closing pc) (hclose : close_step pc s.queue = some (pc', queue')) :
      Step args s { s with queue := queue', consumer := .Closing pc' }
  | closed (s : Ingest ι H) (hconsumer : s.consumer = .Closing .Returned) :
      Step args s { s with consumer := .Drain }
  | drain (s : Ingest ι H) (hconsumer : s.consumer = .Drain) (hlock : s.queue.lock = none)
      (hbatch : (s.queue.pop_batch args.batch_size).1 ≠ []) :
      Step args s { s with
        queue := (s.queue.pop_batch args.batch_size).2
        consumer := .Processing (s.queue.pop_batch args.batch_size).1 .Grace }
  | drain_wait (s : Ingest ι H) (hconsumer : s.consumer = .Drain) (hlock : s.queue.lock = none)
      (hbatch : (s.queue.pop_batch args.batch_size).1 = []) :
      Step args s { s with queue := (s.queue.pop_batch args.batch_size).2 }
  | drain_end (s : Ingest ι H) (hconsumer : s.consumer = .Drain) (hlock : s.queue.lock = none)
      (hbatch : (s.queue.pop_batch args.batch_size).1 = []) :
      Step args s { s with
        queue := (s.queue.pop_batch args.batch_size).2
        consumer := .FinalFlush }
  | final_flush (s : Ingest ι H) (io : Io) (env : Env) (flushed : Option (BlockFlushResult H))
      (batcher' : BatchAccumulator) (disk' : Disk H) (hconsumer : s.consumer = .FinalFlush)
      (hflush : s.batcher.flush H io env s.disk = ok (.ok flushed, batcher', disk')) :
      Step args s { s with
        consumer := .Stats
        batcher := batcher'
        disk := disk'
        total_blocks := s.total_blocks + flushed.toList.length }
  | final_flush_failed (s : Ingest ι H) (io : Io) (env : Env) (e : String)
      (batcher' : BatchAccumulator) (disk' : Disk H) (hconsumer : s.consumer = .FinalFlush)
      (hflush : s.batcher.flush H io env s.disk = ok (.error e, batcher', disk')) :
      Step args s { s with consumer := .Failed, batcher := batcher', disk := disk' }
  | stats (s : Ingest ι H) (hconsumer : s.consumer = .Stats) (hlock : s.queue.lock = none) :
      Step args s { s with consumer := .Report s.queue.stats }
  | report (s : Ingest ι H) (stats : QueueStats) (hconsumer : s.consumer = .Report stats) :
      Step args s { s with
        consumer := .Returned
          { total_ingested := s.total_ingested
            total_parsed := s.total_parsed
            total_blocks := s.total_blocks
            stats } }

/-- The states that live ingest can reach from another one. -/
def Reachable (args : IngestArgs) : Ingest ι H → Ingest ι H → Prop :=
  Relation.ReflTransGen (Step args)

theorem Reachable.tail {args : IngestArgs} {s₀ s s' : Ingest ι H} (hreach : Reachable args s₀ s)
    (hstep : Step args s s') : Reachable args s₀ s' :=
  Relation.ReflTransGen.tail hreach hstep

namespace Consumer

/-- The popped items that the consumer has not looked at yet. -/
def inFlight : Consumer → List (List UInt8)
  | Processing batch _ => batch
  | _ => []

/-- The consumer has latched the shutdown flag. -/
def hasClosed : Consumer → Bool
  | Drain | FinalFlush | Stats | Report _ | Returned _ => true
  | Processing _ phase => phase = .Grace
  | Closing pc => pc ≠ .Store
  | Select | Failed => false

/-- The consumer has seen the queue empty at the end of the grace drain. -/
def hasDrained : Consumer → Bool
  | FinalFlush | Stats | Report _ | Returned _ => true
  | _ => false

def hasFlushed : Consumer → Bool
  | Stats | Report _ | Returned _ => true
  | _ => false

theorem hasClosed_of_hasDrained {c : Consumer} (h : c.hasDrained = true) : c.hasClosed = true := by
  cases c <;> simp_all [hasDrained, hasClosed]

theorem settled_of_hasFlushed {c : Consumer} (h : c.hasFlushed = true) :
    c.hasDrained = true ∧ c.inFlight = [] ∧ c ≠ .Failed := by
  cases c <;> simp_all [hasFlushed, hasDrained, inFlight]

end Consumer

section

variable {ι H : Type}

/-- The hand-off between producers and consumer. A producer that has read the flag
    as false and goes on to append holds the lock, so no such producer is left once
    the consumer has found the queue empty with the flag set. -/
structure Handoff (s : Ingest ι H) : Prop where
  lock_iff : ∀ i, s.queue.lock = some i ↔
    ∃ line pc, s.producers i = .Pushing line pc ∧ pc.holdsLock = true
  line_ne : ∀ i line pc, s.producers i = .Pushing line pc → line ≠ ""
  entered_line : ∀ item ∈ s.entered, raw_str item ≠ "" ∧ (raw_str item).as_bytes = item
  closed : s.consumer.hasClosed = true → s.queue.closed = true
  drained : s.consumer.hasDrained = true → s.queue.queue = [] ∧
    ∀ i line pc, s.producers i = .Pushing line pc → pc.committed = false

/-- After the drain no producer appends. -/
theorem Handoff.not_pushBack {s : Ingest ι H} (hinv : Handoff s) {i : ι} {line : String} {pc : PushPc}
    (hproducer : s.producers i = .Pushing line pc) (hdrained : s.consumer.hasDrained = true) :
    pc ≠ .PushBack := by
  rintro rfl
  have := (hinv.drained hdrained).2 i line _ hproducer
  cases this

/-- The consumer moves on, possibly with a queue whose lock is the same. -/
theorem Handoff.consume {s : Ingest ι H} (hinv : Handoff s) {queue' : MemoryQueue ι}
    {consumer' : Consumer} (batcher' : BatchAccumulator) (disk' : Disk H) (parsed blocks : Nat)
    (hlock : queue'.lock = s.queue.lock)
    (hclosed : consumer'.hasClosed = true → queue'.closed = true)
    (hdrained : consumer'.hasDrained = true → queue'.queue = [] ∧
      ∀ i line pc, s.producers i = .Pushing line pc → pc.committed = false) :
    Handoff { s with
      queue := queue'
      consumer := consumer'
      batcher := batcher'
      disk := disk'
      total_parsed := parsed
      total_blocks := blocks } where
  lock_iff := hlock ▸ hinv.lock_iff
  line_ne := hinv.line_ne
  entered_line := hinv.entered_line
  closed := hclosed
  drained := hdrained

/-- While the lock is free no producer is about to append. -/
theorem Handoff.not_committed {s : Ingest ι H} (hinv : Handoff s) (hlock : s.queue.lock = none)
    {i : ι} {line : String} {pc : PushPc} (hproducer : s.producers i = .Pushing line pc) :
    pc.committed = false := by
  by_contra hcommitted
  rw [Bool.not_eq_false] at hcommitted
  have hheld := (hinv.lock_iff i).mpr
    ⟨line, pc, hproducer, PushPc.holdsLock_of_committed hcommitted⟩
  rw [hlock] at hheld
  cases hheld

variable [DecidableEq ι]

/-- A producer that changes neither the queue nor whether it holds the lock. -/
theorem Handoff.update_producer {s : Ingest ι H} (hinv : Handoff s) {i : ι} {producer : Producer}
    (total_ingested : Nat)
    (hbefore : ∀ line pc, s.producers i = .Pushing line pc → pc.holdsLock = false)
    (hafter : ∀ line pc, producer = .Pushing line pc →
      line ≠ "" ∧ pc.holdsLock = false ∧ pc.committed = false) :
    Handoff { s with producers := Function.update s.producers i producer, total_ingested } where
  lock_iff j := by
    by_cases hj : j = i
    · subst hj
      rw [hinv.lock_iff]
      constructor
      · rintro ⟨line, pc, hproducer, hholds⟩
        rw [hbefore line pc hproducer] at hholds
        cases hholds
      · rintro ⟨line, pc, hproducer, hholds⟩
        rw [(hafter line pc (by simpa using hproducer)).2.1] at hholds
        cases hholds
    · simpa [Function.update_of_ne hj] using hinv.lock_iff j
  line_ne j line pc hproducer := by
    by_cases hj : j = i
    · subst hj
      exact (hafter line pc (by simpa using hproducer)).1
    · exact hinv.line_ne j line pc (by simpa [Function.update_of_ne hj] using hproducer)
  entered_line := hinv.entered_line
  closed := hinv.closed
  drained hdrained := by
    refine ⟨(hinv.drained hdrained).1, fun j line pc hproducer => ?_⟩
    by_cases hj : j = i
    · subst hj
      exact (hafter line pc (by simpa using hproducer)).2.2
    · exact (hinv.drained hdrained).2 j line pc (by simpa [Function.update_of_ne hj] using hproducer)

@[simp] theorem raw_str_as_bytes (line : String) : raw_str line.as_bytes = line := by
  simp [raw_str]

/-- A step inside `push` keeps the hand-off. -/
theorem Handoff.push {s : Ingest ι H} (hinv : Handoff s) {i : ι} {line : String} {pc pc' : PushPc}
    {queue' : MemoryQueue ι} (hproducer : s.producers i = .Pushing line pc)
    (hpush : push_step i line.as_bytes pc s.queue = some (pc', queue')) :
    Handoff { s with
      queue := queue'
      producers := Function.update s.producers i (.Pushing line pc')
      entered := if pc = .PushBack then s.entered ++ [line.as_bytes] else s.entered } := by
  have hstep := push_step_spec hpush
  have hline : line ≠ "" := hinv.line_ne i line pc hproducer
  constructor
  · refine hstep.lock_iff hinv.lock_iff ?_ ?_ ?_
    · simp [hproducer]
    · simp
    · intro j hj
      simp only [Function.update_of_ne hj]
  · intro j line' pc'' h
    by_cases hj : j = i
    · subst hj
      simp only [Function.update_self, Producer.Pushing.injEq] at h
      exact h.1 ▸ hline
    · exact hinv.line_ne j line' pc'' (by simpa [Function.update_of_ne hj] using h)
  · intro item hitem
    dsimp only at hitem
    split at hitem
    · rcases List.mem_append.mp hitem with hold | hnew
      · exact hinv.entered_line item hold
      · obtain rfl := List.mem_singleton.mp hnew
        simpa using hline
    · exact hinv.entered_line item hitem
  · intro hclosed
    exact hstep.closed_eq.trans (hinv.closed hclosed)
  · intro hdrained
    have hne := hinv.not_pushBack hproducer hdrained
    refine ⟨by rw [hstep.queue_eq, if_neg hne]; exact (hinv.drained hdrained).1, ?_⟩
    intro j line' pc'' h
    by_cases hj : j = i
    · subst hj
      simp only [Function.update_self, Producer.Pushing.injEq] at h
      obtain ⟨-, rfl⟩ := h
      by_contra hcommitted
      rw [Bool.not_eq_false] at hcommitted
      rcases hstep.committed hcommitted with hbefore | hopen
      · rw [(hinv.drained hdrained).2 j line pc hproducer] at hbefore
        cases hbefore
      · rw [hinv.closed (Consumer.hasClosed_of_hasDrained hdrained)] at hopen
        cases hopen
    · exact (hinv.drained hdrained).2 j line' pc'' (by simpa [Function.update_of_ne hj] using h)

end

/-- One step of any task keeps the hand-off. -/
theorem Handoff.step {args : IngestArgs} (hbatch : 1 ≤ args.batch_size) {s s' : Ingest ι H}
    (hinv : Handoff s) (hstep : Step args s s') : Handoff s' := by
  obtain ⟨-, hrest, hpopLock, hpopClosed⟩ := pop_batch_spec s.queue hbatch
  cases hstep with
  | read_line i line hproducer hline =>
    apply hinv.update_producer
    · intro line' pc h
      rw [hproducer] at h
      cases h
    · intro line' pc h
      obtain ⟨rfl, rfl⟩ := Producer.Pushing.inj h
      refine ⟨?_, rfl, rfl⟩
      intro hempty
      exact hline (by simpa using congrArg String.toList hempty)
  | push i line pc pc' queue' hproducer hpush => exact hinv.push hproducer hpush
  | pushed i line hproducer | push_failed i line message hproducer =>
    apply hinv.update_producer s.total_ingested
    · intro line' pc h
      rw [hproducer] at h
      cases h
      rfl
    · intro line' pc h
      cases h
  | disconnected i hproducer =>
    apply hinv.update_producer s.total_ingested
    · intro line' pc h
      rw [hproducer] at h
      cases h
    · intro line' pc h
      cases h
  | tick hconsumer hlock =>
    exact hinv.consume _ _ _ _ hpopLock (fun h => nomatch h) (fun h => nomatch h)
  | process item rest phase io env event flushed batcher' disk' hconsumer hitem hpush =>
    exact hinv.consume _ _ _ _ rfl (fun h => hinv.closed (hconsumer ▸ h)) (fun h => nomatch h)
  | skip item rest phase hconsumer hitem =>
    exact hinv.consume _ _ _ _ rfl (fun h => hinv.closed (hconsumer ▸ h)) (fun h => nomatch h)
  | batch_done phase hconsumer =>
    refine hinv.consume _ _ _ _ rfl (fun h => hinv.closed ?_) (fun h => ?_)
    · rw [hconsumer]
      cases phase
      · cases h
      · rfl
    · cases phase <;> cases h
  | shutdown hconsumer =>
    exact hinv.consume _ _ _ _ rfl (fun h => nomatch h) (fun h => nomatch h)
  | close pc pc' queue' hconsumer hclose =>
    have hclosed := hinv.closed
    rw [hconsumer] at hclosed
    cases pc with
    | Store =>
      cases hclose
      exact hinv.consume _ _ _ _ rfl (fun _ => rfl) (fun h => nomatch h)
    | NotifyNotFull | NotifyNotEmpty =>
      cases hclose
      exact hinv.consume _ _ _ _ rfl (fun _ => hclosed rfl) (fun h => nomatch h)
    | Returned => cases hclose
  | closed hconsumer =>
    exact hinv.consume _ _ _ _ rfl (fun _ => hinv.closed (hconsumer ▸ rfl)) (fun h => nomatch h)
  | drain hconsumer hlock hne =>
    have hclosed := hinv.closed (hconsumer ▸ rfl)
    exact hinv.consume _ _ _ _ hpopLock (fun _ => hpopClosed.trans hclosed) (fun h => nomatch h)
  | drain_wait hconsumer hlock hempty =>
    have hclosed := hinv.closed (hconsumer ▸ rfl)
    refine hinv.consume _ _ _ _ hpopLock (fun _ => hpopClosed.trans hclosed) (fun h => ?_)
    rw [hconsumer] at h
    cases h
  | drain_end hconsumer hlock hempty =>
    -- The queue is empty, the flag is set, and the free lock shows that no producer
    -- is between its last look at the flag and its append.
    have hclosed := hinv.closed (hconsumer ▸ rfl)
    exact hinv.consume _ _ _ _ hpopLock (fun _ => hpopClosed.trans hclosed)
      (fun _ => ⟨hrest hempty, fun i line pc => hinv.not_committed hlock⟩)
  | final_flush io env flushed batcher' disk' hconsumer hflush =>
    exact hinv.consume _ _ _ _ rfl (fun _ => hinv.closed (hconsumer ▸ rfl))
      (fun _ => hinv.drained (hconsumer ▸ rfl))
  | process_failed | final_flush_failed =>
    exact hinv.consume _ _ _ _ rfl (fun h => nomatch h) (fun h => nomatch h)
  | stats hconsumer hlock =>
    exact hinv.consume _ _ _ _ rfl (fun _ => hinv.closed (hconsumer ▸ rfl))
      (fun _ => hinv.drained (hconsumer ▸ rfl))
  | report stats hconsumer =>
    exact hinv.consume _ _ _ _ rfl (fun _ => hinv.closed (hconsumer ▸ rfl))
      (fun _ => hinv.drained (hconsumer ▸ rfl))

/-- The way of a line: every item that entered the queue has been given to the
    batcher, is in the consumer's hands, or is still queued, in this order. -/
structure Delivers (session : Session) (s : Ingest ι H) (processed : List IncomingLog)
    (blocks : List Block) : Prop where
  entered_eq : s.entered =
    processed.map (·.raw_log.as_bytes) ++ s.consumer.inFlight ++ s.queue.queue
  archive : RunInvariant H session processed blocks s.batcher s.disk
  flushed : s.consumer.hasFlushed = true → s.batcher.buffer = []

/-- One step of any task delivers no item twice and loses none, unless a batcher
    call fails. -/
theorem Delivers.step {args : IngestArgs} (hbatch : 1 ≤ args.batch_size) {session : Session}
    {s s' : Ingest ι H} {processed : List IncomingLog} {blocks : List Block} (hinv : Handoff s)
    (hdelivers : Delivers session s processed blocks) (hstep : Step args s s')
    (hok : s'.consumer ≠ .Failed) :
    ∃ processed' blocks', Delivers session s' processed' blocks' := by
  obtain ⟨hentered, harchive, hflushed⟩ := hdelivers
  obtain ⟨hpop, hrest, -⟩ := pop_batch_spec s.queue hbatch
  cases hstep with
  | read_line | pushed | push_failed | disconnected =>
    exact ⟨processed, blocks, hentered, harchive, hflushed⟩
  | push i line pc pc' queue' hproducer hpush =>
    refine ⟨processed, blocks, ?_, harchive, hflushed⟩
    rw [(push_step_spec hpush).queue_eq]
    dsimp only
    split
    · rw [hentered, List.append_assoc _ s.queue.queue]
    · exact hentered
  | tick hconsumer | drain hconsumer =>
    refine ⟨processed, blocks, ?_, harchive, fun h => by cases h⟩
    rw [hconsumer] at hentered
    simpa [Consumer.inFlight, hpop] using hentered
  | drain_end hconsumer hlock hempty =>
    refine ⟨processed, blocks, ?_, harchive, fun h => by cases h⟩
    rw [hempty, List.nil_append] at hpop
    rw [hconsumer] at hentered
    simpa only [hpop, Consumer.inFlight] using hentered
  | drain_wait hconsumer hlock hempty =>
    refine ⟨processed, blocks, ?_, harchive, hflushed⟩
    rw [hempty, List.nil_append] at hpop
    simpa only [hpop] using hentered
  | process item rest phase io env event flushed batcher' disk' hconsumer hitem hpush =>
    obtain ⟨new, harchive'⟩ := harchive.exec hpush
    rw [hconsumer] at hentered
    have hbytes : (raw_str item).as_bytes = item :=
      (hinv.entered_line item (by simp [hentered, Consumer.inFlight])).2
    refine ⟨_, _, ?_, harchive', fun h => by cases h⟩
    simpa [Consumer.inFlight, Call.logs, Event.incoming, hbytes] using hentered
  | skip item rest phase hconsumer hitem =>
    -- Only trimmed, non-empty text enters the queue.
    rw [hconsumer] at hentered
    exact absurd hitem (hinv.entered_line item (by simp [hentered, Consumer.inFlight])).1
  | batch_done phase hconsumer =>
    refine ⟨processed, blocks, ?_, harchive, fun h => ?_⟩
    · rw [hconsumer] at hentered
      cases phase <;> exact hentered
    · cases phase <;> cases h
  | shutdown hconsumer | closed hconsumer =>
    refine ⟨processed, blocks, ?_, harchive, fun h => by cases h⟩
    rw [hconsumer] at hentered
    exact hentered
  | close pc pc' queue' hconsumer hclose =>
    refine ⟨processed, blocks, ?_, harchive, fun h => by cases h⟩
    rw [hconsumer] at hentered
    cases pc <;> cases hclose <;> exact hentered
  | final_flush io env flushed batcher' disk' hconsumer hflush =>
    have hexec : Call.Flush.exec H io env s.batcher s.disk = ok (.ok flushed, batcher', disk') := hflush
    obtain ⟨new, harchive'⟩ := harchive.exec hexec
    rw [hconsumer] at hentered
    refine ⟨_, _, ?_, harchive', fun _ => BatchAccumulator.buffer_eq_nil_of_flush hflush⟩
    simpa [Consumer.inFlight, Call.logs] using hentered
  | stats hconsumer | report stats hconsumer =>
    rw [hconsumer] at hentered hflushed
    exact ⟨processed, blocks, hentered, harchive, fun _ => hflushed rfl⟩
  | process_failed | final_flush_failed => exact absurd rfl hok

omit [DecidableEq ι] [Digest H] in
theorem Handoff.start (args : IngestArgs) (batcher : BatchAccumulator) (disk : Disk H) :
    Handoff (Ingest.start args batcher disk : Ingest ι H) := by
  constructor <;> simp [Ingest.start, MemoryQueue.new, Consumer.hasClosed, Consumer.hasDrained]

/-- A whole run keeps the hand-off, and it delivers until a batcher call fails. -/
theorem Reachable.delivers {args : IngestArgs} (hbatch : 1 ≤ args.batch_size) {reader : JsonReader}
    {batcher : BatchAccumulator} {disk : Disk H} {s : Ingest ι H}
    (hnew : BatchAccumulator.new reader args.batcher_config disk = .ok batcher)
    (hreach : Reachable args (Ingest.start args batcher disk) s) :
    Handoff s ∧ (s.consumer ≠ .Failed → ∃ processed blocks,
      Delivers ⟨args.batcher_config, disk.ledger, batcher.in_memory_ledger⟩ s processed blocks) := by
  induction hreach with
  | refl =>
    refine ⟨Handoff.start args batcher disk, fun _ => ⟨[], [], rfl, ?_, fun h => nomatch h⟩⟩
    exact BatchAccumulator.runInvariant_of_new hnew
  | @tail s s' hreach hstep ih =>
    obtain ⟨hinv, hdelivers⟩ := ih
    refine ⟨hinv.step hbatch hstep, fun hok => ?_⟩
    have hrunning : s.consumer ≠ .Failed := by
      intro hfailed
      cases hstep <;> simp_all
    obtain ⟨processed, blocks, hdelivers⟩ := hdelivers hrunning
    exact hdelivers.step hbatch hinv hstep hok

/-- What the archive holds once the final flush has succeeded. -/
theorem Reachable.archived {args : IngestArgs} (hbatch : 1 ≤ args.batch_size) {reader : JsonReader}
    {batcher : BatchAccumulator} {disk : Disk H} {s : Ingest ι H}
    (hnew : BatchAccumulator.new reader args.batcher_config disk = .ok batcher)
    (hreach : Reachable args (Ingest.start args batcher disk) s)
    (hflushed : s.consumer.hasFlushed = true) :
    ∃ blocks : List Block,
      blocks.flatMap (fun block => block.records.map (·.raw_log.as_bytes)) = s.entered ∧
      s.batcher.in_memory_ledger = batcher.in_memory_ledger ++ blocks.map Block.entry ∧
      LedgerExtended H s.disk disk.ledger (blocks.map Block.entry) ∧
      ∀ block ∈ blocks, ∀ path,
        read_parquet_file path (s.disk.storage_dir block.entry.parquet_file) =
          ok (.ok block.records) := by
  obtain ⟨hdrained, hinFlight, hok⟩ := Consumer.settled_of_hasFlushed hflushed
  obtain ⟨hinv, hdelivers⟩ := hreach.delivers hbatch hnew
  obtain ⟨processed, blocks, hentered, ⟨haccounts, -⟩, hbuffer⟩ := hdelivers hok
  have hqueue := (hinv.drained hdrained).1
  refine ⟨blocks, ?_, haccounts.ledger_eq, haccounts.ledger_extended, ?_⟩
  · have hlogs := congrArg (List.map String.as_bytes) haccounts.logs_eq
    rw [hbuffer hflushed, List.map_nil, List.append_nil, List.map_map, List.map_flatMap] at hlogs
    simpa [hqueue, hinFlight, hentered, Function.comp_def] using hlogs
  · intro block hmem
    obtain ⟨j, hj, rfl⟩ := List.mem_iff_getElem.mp hmem
    have harchived := haccounts.archived j hj
    exact harchived.parquet_file_eq ▸ harchived.read_eq

/-- Live ingest archives every accepted line exactly once. However the producers,
    the consumer and the shutdown interleave, when ingest returns, the rows of the
    blocks it wrote, in block and row order, are the lines that entered the queue, in
    the order they entered. The blocks are readable, and the ledger grew by their
    entries. -/
theorem ingest_archives_entered_lines (reader : JsonReader) (args : IngestArgs)
    (hbatch : 1 ≤ args.batch_size) {batcher : BatchAccumulator} {disk : Disk H} {s : Ingest ι H}
    {summary : Summary}
    (hnew : BatchAccumulator.new reader args.batcher_config disk = .ok batcher)
    (hreach : Reachable args (Ingest.start args batcher disk) s)
    (hreturned : s.consumer = .Returned summary) :
    ∃ blocks : List Block,
      blocks.flatMap (fun block => block.records.map (·.raw_log.as_bytes)) = s.entered ∧
      s.batcher.in_memory_ledger = batcher.in_memory_ledger ++ blocks.map Block.entry ∧
      LedgerExtended H s.disk disk.ledger (blocks.map Block.entry) ∧
      ∀ block ∈ blocks, ∀ path,
        read_parquet_file path (s.disk.storage_dir block.entry.parquet_file) =
          ok (.ok block.records) :=
  hreach.archived hbatch hnew (hreturned ▸ rfl)

/-- A producer that meets an open queue with room, and no other thread inside, gets
    its line in. -/
theorem Reachable.push_line {args : IngestArgs} {s₀ s : Ingest ι H} {i : ι} {line : String}
    (hreach : Reachable args s₀ s) (hproducer : s.producers i = .Pushing line .Enter)
    (hpolicy : s.queue.policy = .Block) (hlock : s.queue.lock = none)
    (hopen : s.queue.closed = false) (hroom : s.queue.queue.length < s.queue.capacity) :
    Reachable args s₀ { s with
      queue := { s.queue.push_back line.as_bytes with lock := none }
      producers := Function.update s.producers i (.Pushing line (.Returned .Ok))
      entered := s.entered ++ [line.as_bytes] } := by
  have hentered : Reachable args s₀ { s with
      producers := Function.update s.producers i (.Pushing line .Lock) } :=
    hreach.tail (.push s i line .Enter .Lock s.queue hproducer (by simp [push_step, hopen]))
  have hlocked : Reachable args s₀ { s with
      queue := { s.queue with lock := some i }
      producers := Function.update s.producers i (.Pushing line .LoopTest) } := by
    simpa using hentered.tail (.push _ i line .Lock .LoopTest { s.queue with lock := some i }
      (by simp) (by simp [push_step, hlock, hpolicy]))
  have hfits : Reachable args s₀ { s with
      queue := { s.queue with lock := some i }
      producers := Function.update s.producers i (.Pushing line .RoomClosed) } := by
    simpa using hlocked.tail (.push _ i line .LoopTest .RoomClosed { s.queue with lock := some i }
      (by simp) (by simp [push_step, hroom]))
  have hcommitted : Reachable args s₀ { s with
      queue := { s.queue with lock := some i }
      producers := Function.update s.producers i (.Pushing line .PushBack) } := by
    simpa using hfits.tail (.push _ i line .RoomClosed .PushBack { s.queue with lock := some i }
      (by simp) (by simp [push_step, hopen]))
  have happended : Reachable args s₀ { s with
      queue := { s.queue.push_back line.as_bytes with lock := some i }
      producers := Function.update s.producers i (.Pushing line (.Unlock .Ok))
      entered := s.entered ++ [line.as_bytes] } := by
    simpa using hcommitted.tail (.push _ i line .PushBack (.Unlock .Ok)
      { s.queue.push_back line.as_bytes with lock := some i }
      (by simp) (by simp [push_step, MemoryQueue.push_back]))
  simpa using happended.tail (.push _ i line (.Unlock .Ok) (.Returned .Ok)
    { s.queue.push_back line.as_bytes with lock := none } (by simp) (by simp [push_step]))

/-- The shutdown signal closes the queue. -/
theorem Reachable.close_queue {args : IngestArgs} {s₀ s : Ingest ι H} (hreach : Reachable args s₀ s)
    (hconsumer : s.consumer = .Select) :
    Reachable args s₀ { s with
      queue := { s.queue with
        closed := true
        not_full_notifications := s.queue.not_full_notifications + 1 }
      consumer := .Drain } := by
  let closed : MemoryQueue ι :=
    { s.queue with closed := true, not_full_notifications := s.queue.not_full_notifications + 1 }
  have hsignal : Reachable args s₀ { s with consumer := .Closing .Store } :=
    hreach.tail (.shutdown s hconsumer)
  have hstored : Reachable args s₀ { s with
      queue := { s.queue with closed := true }, consumer := .Closing .NotifyNotFull } :=
    hsignal.tail (.close _ .Store .NotifyNotFull { s.queue with closed := true } rfl rfl)
  have hnotified : Reachable args s₀ { s with
      queue := closed, consumer := .Closing .NotifyNotEmpty } :=
    hstored.tail (.close _ .NotifyNotFull .NotifyNotEmpty closed rfl rfl)
  have hclosed : Reachable args s₀ { s with queue := closed, consumer := .Closing .Returned } :=
    hnotified.tail (.close _ .NotifyNotEmpty .Returned closed rfl rfl)
  exact hclosed.tail (.closed _ rfl)

/-- A grace drain that finds the queue empty and unlocked comes to the report when the
    final flush succeeds. -/
theorem Reachable.finish {args : IngestArgs} {s₀ s : Ingest ι H} {io : Io} {env : Env}
    {flushed : Option (BlockFlushResult H)} {batcher' : BatchAccumulator} {disk' : Disk H}
    (hreach : Reachable args s₀ s) (hconsumer : s.consumer = .Drain)
    (hlock : s.queue.lock = none) (hqueue : s.queue.queue = [])
    (hflush : s.batcher.flush H io env s.disk = ok (.ok flushed, batcher', disk')) :
    Reachable args s₀ { s with
      consumer := .Report s.queue.stats
      batcher := batcher'
      disk := disk'
      total_blocks := s.total_blocks + flushed.toList.length } := by
  have hpop : s.queue.pop_batch args.batch_size = ([], s.queue) := by
    simp [MemoryQueue.pop_batch, hqueue]
  have hdrained : Reachable args s₀ { s with consumer := .FinalFlush } := by
    simpa [hpop] using hreach.tail (.drain_end s hconsumer hlock (by simp [hpop]))
  have hflushed := hdrained.tail (.final_flush _ io env flushed batcher' disk' rfl hflush)
  exact hflushed.tail (.stats _ rfl hlock)

/-- A shutdown that finds the queue empty and unlocked runs to its end when the final
    flush succeeds. -/
theorem Reachable.shutdown {args : IngestArgs} {s₀ s : Ingest ι H} {io : Io} {env : Env}
    {flushed : Option (BlockFlushResult H)} {batcher' : BatchAccumulator} {disk' : Disk H}
    (hreach : Reachable args s₀ s) (hconsumer : s.consumer = .Select)
    (hlock : s.queue.lock = none) (hqueue : s.queue.queue = [])
    (hflush : s.batcher.flush H io env s.disk = ok (.ok flushed, batcher', disk')) :
    ∃ s' summary, Reachable args s₀ s' ∧ s'.consumer = .Returned summary ∧ s'.entered = s.entered := by
  have hreport := (hreach.close_queue hconsumer).finish rfl hlock hqueue hflush
  exact ⟨_, _, hreport.tail (.report _ _ rfl), rfl, rfl⟩

/-- A producer and the consumer that wait for a line, with an empty queue between them. -/
structure Waiting (s : Ingest ι H) (i : ι) : Prop where
  consumer : s.consumer = .Select
  producer : s.producers i = .Idle
  policy : s.queue.policy = .Block
  lock : s.queue.lock = none
  not_closed : s.queue.closed = false
  queue : s.queue.queue = []
  capacity : 0 < s.queue.capacity

/-- A line goes through the queue to the batcher. -/
theorem Reachable.take_line {args : IngestArgs} (hbatch : 1 ≤ args.batch_size) {s₀ s : Ingest ι H}
    {i : ι} (hreach : Reachable args s₀ s) (hwaiting : Waiting s i) {line : String}
    (htrim : String.ofList (str.trim line.toList) = line) (hline : line ≠ "") {io : Io} {env : Env}
    {event : Event} {flushed : Option (BlockFlushResult H)} {batcher' : BatchAccumulator}
    {disk' : Disk H} (hpush : (Call.Push (event.incoming line)).exec H io env s.batcher s.disk =
      ok (.ok flushed, batcher', disk')) :
    ∃ s', Reachable args s₀ s' ∧ Waiting s' i ∧ s'.batcher = batcher' ∧ s'.disk = disk' ∧
      s'.entered = s.entered ++ [line.as_bytes] := by
  have hread := hreach.tail (.read_line s i line hwaiting.producer (by
    intro hblank
    rw [hblank] at htrim
    exact hline htrim.symm))
  rw [htrim] at hread
  have hpushed := hread.push_line (Function.update_self ..) hwaiting.policy hwaiting.lock
    hwaiting.not_closed (by simpa [hwaiting.queue] using hwaiting.capacity)
  have hidle := hpushed.tail (.pushed _ i line (Function.update_self ..))
  have hpopped := hidle.tail (.tick _ hwaiting.consumer rfl)
  have hbatch' : ∀ queue : MemoryQueue ι, queue.queue = [line.as_bytes] →
      (queue.pop_batch args.batch_size).1 = [line.as_bytes] ∧
        (queue.pop_batch args.batch_size).2.queue = [] ∧
        (queue.pop_batch args.batch_size).2.policy = queue.policy ∧
        (queue.pop_batch args.batch_size).2.lock = queue.lock ∧
        (queue.pop_batch args.batch_size).2.closed = queue.closed ∧
        (queue.pop_batch args.batch_size).2.capacity = queue.capacity := by
    intro queue hqueue
    simp [MemoryQueue.pop_batch, hqueue, Nat.min_eq_right hbatch]
  obtain ⟨hfirst, hqueue, hpolicy, hlock, hclosed, hcapacity⟩ :=
    hbatch' { s.queue.push_back line.as_bytes with lock := none }
      (by simp [MemoryQueue.push_back, hwaiting.queue])
  rw [hfirst] at hpopped
  have hprocessed := hpopped.tail (.process _ line.as_bytes [] .Live io env event flushed batcher'
    disk' rfl (by simpa using hline) (by rw [raw_str_as_bytes]; exact hpush))
  refine ⟨_, hprocessed.tail (.batch_done _ .Live rfl), ?_, rfl, rfl, rfl⟩
  exact ⟨rfl, Function.update_self .., hpolicy.trans hwaiting.policy, hlock,
    hclosed.trans hwaiting.not_closed, hqueue, hcapacity.symm ▸ hwaiting.capacity⟩

/-- Flags for a queue with room for one line. -/
def singleArgs : IngestArgs := ⟨"data/parquet", "data/ledger.jsonl", 2, 2000, 1, false⟩

/-- The accumulator of a first start. -/
def freshBatcher : BatchAccumulator := ⟨singleArgs.batcher_config, [], none, 0, []⟩

/-- A producer has read a first line and counted it. -/
def firstLine : Ingest Unit Preimage :=
  { Ingest.start singleArgs freshBatcher (Disk.empty Preimage) with
    producers := Function.update (fun _ => .Idle) () (.Pushing "deny tcp" .Enter)
    total_ingested := 1 }

theorem reachable_firstLine :
    Reachable singleArgs (Ingest.start singleArgs freshBatcher (Disk.empty Preimage)) firstLine := by
  have htrim : String.ofList (str.trim "deny tcp".toList) = "deny tcp" := by decide
  have hstep : Step singleArgs (Ingest.start singleArgs freshBatcher (Disk.empty Preimage)) _ :=
    .read_line _ () "deny tcp" rfl (by decide)
  rw [htrim] at hstep
  exact .single hstep

/-- Two lines through the queue, of which the second fills the batch, and a shutdown. -/
theorem ingest_archives_entered_lines_two :
    ∃ s : Ingest Unit Preimage, ∃ summary, ∃ blocks : List Block,
      Reachable singleArgs (Ingest.start singleArgs freshBatcher (Disk.empty Preimage)) s ∧
      s.consumer = .Returned summary ∧
      s.entered = ["deny tcp".as_bytes, "permit udp".as_bytes] ∧
      blocks.flatMap (fun block => block.records.map (·.raw_log.as_bytes)) = s.entered := by
  let event : Event := ⟨"cisco", 7, "e0", "ocsf"⟩
  let first : BatchAccumulator :=
    { freshBatcher with buffer := [event.incoming "deny tcp"], first_item_time := some 0 }
  have hwaiting : Waiting (Ingest.start singleArgs freshBatcher (Disk.empty Preimage) :
      Ingest Unit Preimage) () := ⟨rfl, rfl, rfl, rfl, rfl, rfl, by decide⟩
  have hpush : (Call.Push (event.incoming "deny tcp")).exec Preimage Io.reliable Env.fixed
      freshBatcher (Disk.empty Preimage) = ok (.ok none, first, Disk.empty Preimage) := rfl
  have hstart : Reachable singleArgs (Ingest.start singleArgs freshBatcher (Disk.empty Preimage) :
      Ingest Unit Preimage) _ := .refl
  obtain ⟨s₁, hreach₁, hwaiting₁, hbatcher₁, hdisk₁, hentered₁⟩ :=
    hstart.take_line (by decide) hwaiting (by decide) (by decide) hpush
  obtain ⟨flushed, batcher', disk', hflush⟩ := BatchAccumulator.flush_ok (H := Preimage)
    { first with buffer := [event.incoming "deny tcp", event.incoming "permit udp"] } Env.fixed
    (Disk.empty Preimage) (by decide)
  have hpush' : (Call.Push (event.incoming "permit udp")).exec Preimage Io.reliable Env.fixed
      s₁.batcher s₁.disk = ok (.ok flushed, batcher', disk') := by
    rw [hbatcher₁, hdisk₁, Call.exec_eq]
    exact hflush
  obtain ⟨s₂, hreach₂, hwaiting₂, hbatcher₂, hdisk₂, hentered₂⟩ :=
    hreach₁.take_line (by decide) hwaiting₁ (by decide) (by decide) hpush'
  have hempty : s₂.batcher.buffer = [] := by
    rw [hbatcher₂]
    exact BatchAccumulator.buffer_eq_nil_of_flush hflush
  obtain ⟨rest, batcher'', disk'', hfinal⟩ := s₂.batcher.flush_ok Env.fixed s₂.disk
    (by rw [hempty]; decide)
  obtain ⟨s, summary, hreach, hreturned, hentered⟩ :=
    hreach₂.shutdown hwaiting₂.consumer hwaiting₂.lock hwaiting₂.queue hfinal
  obtain ⟨blocks, hblocks, -⟩ := ingest_archives_entered_lines LedgerEntry.layoutReader singleArgs
    (by decide) rfl hreach hreturned
  refine ⟨s, summary, blocks, hreach, hreturned, ?_, hblocks⟩
  rw [hentered, hentered₂, hentered₁]
  rfl

end ulpf_cli.ingest
