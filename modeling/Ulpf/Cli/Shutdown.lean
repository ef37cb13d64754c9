import Mathlib.Data.Finset.Card
import Ulpf.Cli.Ingest

open Result
open ulpf_core.ingest ulpf_integrity.batcher ulpf_integrity.merkle ulpf_integrity.storage

namespace ulpf_core.ingest

namespace PushPc

/-- The push has taken its last look at `closed`. -/
def settled : PushPc → Bool
  | DropTest | PushBack | Unlock _ | Returned _ => true
  | _ => false

/-- The item is the producer's still: it is neither queued nor shed, and it was not
    refused. -/
def holding : PushPc → Bool
  | Unlock _ | Returned _ => false
  | _ => true

theorem settled_of_not_holding {pc : PushPc} (h : pc.holding = false) : pc.settled = true := by
  cases pc <;> simp_all [holding, settled]

theorem holding_of_not_settled {pc : PushPc} (h : pc.settled = false) : pc.holding = true := by
  cases pc <;> simp_all [holding, settled]

theorem committed_of_settled {pc : PushPc} (hsettled : pc.settled = true)
    (hholding : pc.holding = true) : pc.committed = true := by
  cases pc <;> simp_all [holding, settled, committed]

end PushPc

/-- What becomes of the item in a step of `push`. A push that looks at the flag after it
    was latched is refused. -/
inductive PushFate {ι : Type} (pc pc' : PushPc) (before after : MemoryQueue ι) : Prop
  | keeps (hpc : pc ≠ .PushBack) (hholding : pc'.holding = pc.holding)
    (hsettled : before.closed = true → pc'.settled = pc.settled)
    (hdropped : after.dropped = before.dropped)
  | queued (hpc : pc = .PushBack) (hholding : pc'.holding = false)
    (hdropped : after.dropped = before.dropped)
  | shed (hpc : pc = .DropTest) (hholding : pc'.holding = false)
    (hdropped : after.dropped = before.dropped + 1)
  | refused (hpc : pc.settled = false) (hclosed : before.closed = true) (hholding : pc'.holding = false)
    (hdropped : after.dropped = before.dropped)

theorem push_step_fate {ι : Type} {me : ι} {b : List UInt8} {pc pc' : PushPc}
    {self self' : MemoryQueue ι} (hstep : push_step me b pc self = some (pc', self')) :
    PushFate pc pc' self self' := by
  cases pc <;> simp only [push_step] at hstep <;> (try split at hstep) <;> (try split at hstep) <;>
    cases hstep
  all_goals first
    | exact .queued rfl rfl rfl
    | exact .shed rfl rfl rfl
    | exact .refused rfl ‹_› rfl rfl
    | exact .keeps PushPc.noConfusion rfl (fun _ => rfl) rfl
    | exact .keeps PushPc.noConfusion rfl (fun h => absurd h ‹_›) rfl

end ulpf_core.ingest

namespace ulpf_cli.ingest

/-- Reject flag combinations that could never make progress. -/
def validate_ingest_args (args : IngestArgs) : Except String Unit :=
  if args.queue_capacity = 0 then
    .error ("--queue-capacity must be greater than 0 (got 0): " ++
      "zero capacity with block-on-full parks producers forever")
  else .ok ()

/-- The last words of the summary. -/
def Summary.tail_note (summary : Summary) : String :=
  if summary.stats.dropped = 0 then "tail batch flushed losslessly."
  else "tail batch flushed; " ++ toString summary.stats.dropped ++ " lines (" ++
    toString summary.stats.dropped_bytes ++ " bytes) were shed upstream under drop-on-full."

namespace Producer

def holds : Producer → Bool
  | Pushing _ pc => pc.holding
  | Idle | Stopped => false

/-- The producer has a counted line and will look at `closed` before it is queued. -/
def unsettled : Producer → Bool
  | Pushing _ pc => !pc.settled
  | Idle | Stopped => false

theorem holds_of_unsettled {producer : Producer} (h : producer.unsettled = true) :
    producer.holds = true := by
  cases producer with
  | Pushing line pc => exact PushPc.holding_of_not_settled (by simpa [unsettled] using h)
  | Idle | Stopped => cases h

end Producer

variable {ι H : Type}

/-- What ingest prints in the state before the report. -/
def Ingest.summary (s : Ingest ι H) (stats : QueueStats) : Summary where
  total_ingested := s.total_ingested
  total_parsed := s.total_parsed
  total_blocks := s.total_blocks
  stats

/-- Every counted line was parsed and is in a readable block of the ledger. -/
structure Ingest.AllArchived [Digest H] (s : Ingest ι H) (summary : Summary) : Prop where
  parsed : summary.total_ingested = summary.total_parsed
  archived : ∃ blocks : List Block,
    blocks.flatMap (fun block => block.records.map (·.raw_log.as_bytes)) = s.entered ∧
    s.entered.length = summary.total_ingested ∧
    ∀ block ∈ blocks, block.entry ∈ s.batcher.in_memory_ledger ∧ ∀ path,
      read_parquet_file path (s.disk.storage_dir block.entry.parquet_file) = ok (.ok block.records)

/-- Where a step latches the flag, no producer has a counted line that will still be
    refused; where it counts a line, the flag is not latched and batches are not empty. -/
def Meets (args : IngestArgs) (s s' : Ingest ι H) : Prop :=
  (s.queue.closed = false → s'.queue.closed = true → ∀ i, (s.producers i).unsettled = false) ∧
  (s.total_ingested < s'.total_ingested → s.queue.closed = false ∧ 1 ≤ args.batch_size)

/-- The lines that were counted are queued at some time, shed, in a producer's hands, or
    lost. -/
def Counted (s : Ingest ι H) (lost : Nat) : Prop :=
  ∃ held : Finset ι, (∀ i, i ∈ held ↔ (s.producers i).holds = true) ∧
    s.total_ingested = s.entered.length + s.queue.dropped + held.card + lost

variable [DecidableEq ι]

theorem exists_held_update {producers : ι → Producer} {held : Finset ι}
    (hheld : ∀ i, i ∈ held ↔ (producers i).holds = true) (i : ι) (producer : Producer) :
    ∃ held' : Finset ι, (∀ j, j ∈ held' ↔ (Function.update producers i producer j).holds = true) ∧
      held'.card + (producers i).holds.toNat = held.card + producer.holds.toNat := by
  have hcard : (held.erase i).card + (producers i).holds.toNat = held.card := by
    cases hi : (producers i).holds with
    | true => exact Finset.card_erase_add_one ((hheld i).mpr hi)
    | false => rw [Finset.erase_eq_of_notMem fun h => by simp [(hheld i).mp h] at hi]; rfl
  cases hproducer : producer.holds with
  | true =>
    refine ⟨insert i (held.erase i), fun j => ?_, ?_⟩
    · by_cases hj : j = i
      · subst hj
        simp [hproducer]
      · simp [hj, hheld j]
    · rw [Finset.card_insert_of_notMem (Finset.notMem_erase i held)]
      rw [Bool.toNat_true]
      omega
  | false =>
    refine ⟨held.erase i, fun j => ?_, hcard⟩
    by_cases hj : j = i
    · subst hj
      simp [hproducer]
    · simp [hj, hheld j]

/-- One producer moves. -/
theorem Counted.update {s s' : Ingest ι H} {lost lost' : Nat} (hcounted : Counted s lost) {i : ι}
    {producer : Producer} (hproducers : s'.producers = Function.update s.producers i producer)
    (hcount : s'.total_ingested + s.entered.length + s.queue.dropped + (s.producers i).holds.toNat +
        lost =
      s.total_ingested + s'.entered.length + s'.queue.dropped + producer.holds.toNat + lost') :
    Counted s' lost' := by
  obtain ⟨held, hheld, htotal⟩ := hcounted
  obtain ⟨held', hheld', hcard⟩ := exists_held_update hheld i producer
  refine ⟨held', fun j => hproducers ▸ hheld' j, ?_⟩
  omega

/-- What a step of any task does to the account of the lines. -/
inductive Effect (s s' : Ingest ι H) : Prop
  | consumed (hproducers : s'.producers = s.producers)
    (hingested : s'.total_ingested = s.total_ingested) (hentered : s'.entered = s.entered)
    (hdropped : s'.queue.dropped = s.queue.dropped)
    (hclosed : s.queue.closed = true → s'.queue.closed = true)
  | read (i : ι) (line : String) (hproducer : s.producers i = .Idle)
    (hproducers : s'.producers = Function.update s.producers i (.Pushing line .Enter))
    (hingested : s'.total_ingested = s.total_ingested + 1) (hentered : s'.entered = s.entered)
    (hqueue : s'.queue = s.queue)
  | pushed (i : ι) (line : String) (pc pc' : PushPc) (hproducer : s.producers i = .Pushing line pc)
    (hproducers : s'.producers = Function.update s.producers i (.Pushing line pc'))
    (hfate : PushFate pc pc' s.queue s'.queue) (hingested : s'.total_ingested = s.total_ingested)
    (hentered : s'.entered.length = s.entered.length + if pc = .PushBack then 1 else 0)
    (hclosed : s'.queue.closed = s.queue.closed)
  | left (i : ι) (producer : Producer) (hbefore : (s.producers i).holds = false)
    (hproducer : producer = .Idle ∨ producer = .Stopped)
    (hproducers : s'.producers = Function.update s.producers i producer)
    (hingested : s'.total_ingested = s.total_ingested) (hentered : s'.entered = s.entered)
    (hqueue : s'.queue = s.queue)

omit [DecidableEq ι] in
theorem pop_batch_frame (queue : MemoryQueue ι) (max_batch_size : Nat) :
    (queue.pop_batch max_batch_size).2.dropped = queue.dropped ∧
      (queue.pop_batch max_batch_size).2.closed = queue.closed := by
  rw [pop_batch_eq]
  split <;> exact ⟨rfl, rfl⟩

variable [Digest H]

theorem Step.effect {args : IngestArgs} {s s' : Ingest ι H} (hstep : Step args s s') :
    Effect s s' := by
  obtain ⟨hdropped, hclosed⟩ := pop_batch_frame s.queue args.batch_size
  cases hstep with
  | read_line i line hproducer hline => exact .read i _ hproducer rfl rfl rfl rfl
  | push i line pc pc' queue' hproducer hpush =>
    refine .pushed i line pc pc' hproducer rfl (push_step_fate hpush) rfl ?_
      (push_step_spec hpush).closed_eq
    dsimp only
    split <;> simp
  | pushed i line hproducer => exact .left i .Idle (by rw [hproducer]; rfl) (.inl rfl) rfl rfl rfl rfl
  | push_failed i line message hproducer =>
    exact .left i .Stopped (by rw [hproducer]; rfl) (.inr rfl) rfl rfl rfl rfl
  | disconnected i hproducer =>
    exact .left i .Stopped (by rw [hproducer]; rfl) (.inr rfl) rfl rfl rfl rfl
  | tick | drain | drain_wait | drain_end =>
    exact .consumed rfl rfl rfl hdropped fun h => hclosed.trans h
  | close pc pc' queue' hconsumer hclose =>
    cases pc <;> cases hclose
    · exact .consumed rfl rfl rfl rfl fun _ => rfl
    · exact .consumed rfl rfl rfl rfl id
    · exact .consumed rfl rfl rfl rfl id
  | _ => exact .consumed rfl rfl rfl rfl id

/-- The states of the runs whose steps all meet the condition. -/
def MetReachable (args : IngestArgs) : Ingest ι H → Ingest ι H → Prop :=
  Relation.ReflTransGen fun s s' => Step args s s' ∧ Meets args s s'

section

variable {ι H : Type}

/-- No line was refused, and since the flag was latched none can be. -/
structure Lossless (s : Ingest ι H) : Prop where
  counted : Counted s 0
  settled : s.queue.closed = true → ∀ i, (s.producers i).unsettled = false

/-- The flag is latched, and a counted line was refused or will be if it is ever pushed. -/
structure Doomed (s : Ingest ι H) : Prop where
  closed : s.queue.closed = true
  lost : ∃ lost, Counted s lost ∧ (1 ≤ lost ∨ ∃ i, (s.producers i).unsettled = true)

theorem Counted.of_consumed {s s' : Ingest ι H} {lost : Nat} (hcounted : Counted s lost)
    (hproducers : s'.producers = s.producers) (hingested : s'.total_ingested = s.total_ingested)
    (hentered : s'.entered = s.entered) (hdropped : s'.queue.dropped = s.queue.dropped) :
    Counted s' lost := by
  unfold Counted
  rw [hproducers, hingested, hentered, hdropped]
  exact hcounted

variable [DecidableEq ι]

theorem Counted.read {s s' : Ingest ι H} {lost : Nat} (hcounted : Counted s lost) {i : ι}
    {line : String} (hproducer : s.producers i = .Idle)
    (hproducers : s'.producers = Function.update s.producers i (.Pushing line .Enter))
    (hingested : s'.total_ingested = s.total_ingested + 1) (hentered : s'.entered = s.entered)
    (hqueue : s'.queue = s.queue) : Counted s' lost := by
  apply hcounted.update hproducers
  rw [hproducer, hentered, hqueue, hingested]
  simp only [Producer.holds, PushPc.holding, Bool.toNat_false, Bool.toNat_true]
  omega

/-- A step inside `push` loses nothing, unless the push is refused. -/
theorem Counted.pushed {s s' : Ingest ι H} {lost : Nat} (hcounted : Counted s lost) {i : ι}
    {line : String} {pc pc' : PushPc} (hproducer : s.producers i = .Pushing line pc)
    (hproducers : s'.producers = Function.update s.producers i (.Pushing line pc'))
    (hfate : PushFate pc pc' s.queue s'.queue) (hingested : s'.total_ingested = s.total_ingested)
    (hentered : s'.entered.length = s.entered.length + if pc = .PushBack then 1 else 0) :
    (Counted s' lost ∧ (s.queue.closed = true → pc'.settled = pc.settled)) ∨
    (pc.settled = false ∧ s.queue.closed = true ∧ Counted s' (lost + 1)) := by
  have hcount : ∀ lost', s.entered.length + s.queue.dropped + pc.holding.toNat + lost =
      s'.entered.length + s'.queue.dropped + pc'.holding.toNat + lost' → Counted s' lost' := by
    intro lost' h
    apply hcounted.update hproducers
    rw [hproducer, hingested]
    simp only [Producer.holds]
    omega
  cases hfate with
  | keeps hne hholding hsettled hdropped =>
    refine .inl ⟨hcount lost ?_, hsettled⟩
    rw [hentered, if_neg hne, hholding, hdropped, Nat.add_zero]
  | queued hpc hholding hdropped =>
    subst hpc
    refine .inl ⟨hcount lost ?_, fun _ => PushPc.settled_of_not_holding hholding⟩
    rw [hentered, if_pos rfl, hholding, hdropped]
    simp only [PushPc.holding, Bool.toNat_false, Bool.toNat_true]
    omega
  | shed hpc hholding hdropped =>
    subst hpc
    refine .inl ⟨hcount lost ?_, fun _ => PushPc.settled_of_not_holding hholding⟩
    rw [hentered, if_neg (by decide), hholding, hdropped]
    simp only [PushPc.holding, Bool.toNat_false, Bool.toNat_true]
    omega
  | refused hpc hclosed hholding hdropped =>
    have hbefore := PushPc.holding_of_not_settled hpc
    have hne : pc ≠ .PushBack := by
      rintro rfl
      cases hpc
    refine .inr ⟨hpc, hclosed, hcount (lost + 1) ?_⟩
    rw [hentered, if_neg hne, hholding, hbefore, hdropped]
    simp only [Bool.toNat_false, Bool.toNat_true]
    omega

theorem Counted.left {s s' : Ingest ι H} {lost : Nat} (hcounted : Counted s lost) {i : ι}
    {producer : Producer} (hbefore : (s.producers i).holds = false)
    (hproducer : producer = .Idle ∨ producer = .Stopped)
    (hproducers : s'.producers = Function.update s.producers i producer)
    (hingested : s'.total_ingested = s.total_ingested) (hentered : s'.entered = s.entered)
    (hqueue : s'.queue = s.queue) : Counted s' lost := by
  have hafter : producer.holds = false := by rcases hproducer with rfl | rfl <;> rfl
  apply hcounted.update hproducers
  rw [hbefore, hafter, hingested, hentered, hqueue]

omit [DecidableEq ι] in
theorem Lossless.settled_pc {s : Ingest ι H} (hlossless : Lossless s) {i : ι} {line : String}
    {pc : PushPc} (hproducer : s.producers i = .Pushing line pc) (hclosed : s.queue.closed = true) :
    pc.settled = true := by
  have hsettled := hlossless.settled hclosed i
  rw [hproducer] at hsettled
  simpa [Producer.unsettled] using hsettled

/-- A step that meets the condition loses nothing. -/
theorem Lossless.step {args : IngestArgs} {s s' : Ingest ι H} (hlossless : Lossless s)
    (heffect : Effect s s') (hmeets : Meets args s s') : Lossless s' := by
  obtain ⟨hcounted, hsettled⟩ := hlossless
  -- the producer that moves is settled if the others are
  have hupdate : ∀ {i : ι} {producer : Producer},
      s'.producers = Function.update s.producers i producer → s.queue.closed = true →
      producer.unsettled = false → ∀ j, (s'.producers j).unsettled = false := by
    intro i producer hproducers hclosed hproducer j
    rw [hproducers]
    by_cases hj : j = i
    · subst hj
      rwa [Function.update_self]
    · rw [Function.update_of_ne hj]
      exact hsettled hclosed j
  cases heffect with
  | consumed hproducers hingested hentered hdropped hclosed =>
    refine ⟨hcounted.of_consumed hproducers hingested hentered hdropped, fun hclosed' i => ?_⟩
    rw [hproducers]
    cases hbefore : s.queue.closed with
    | true => exact hsettled hbefore i
    | false => exact hmeets.1 hbefore hclosed' i
  | read i line hproducer hproducers hingested hentered hqueue =>
    have hopen : s.queue.closed = false := (hmeets.2 (by omega)).1
    refine ⟨hcounted.read hproducer hproducers hingested hentered hqueue, fun hclosed => ?_⟩
    rw [hqueue, hopen] at hclosed
    cases hclosed
  | pushed i line pc pc' hproducer hproducers hfate hingested hentered hclosed =>
    have hpc := Lossless.settled_pc ⟨hcounted, hsettled⟩ hproducer
    rcases hcounted.pushed hproducer hproducers hfate hingested hentered with
      ⟨hcounted', hkept⟩ | ⟨hunsettled, hlatched, -⟩
    · refine ⟨hcounted', fun hlatched => ?_⟩
      rw [hclosed] at hlatched
      exact hupdate hproducers hlatched (by simp [Producer.unsettled, hkept hlatched, hpc hlatched])
    · rw [hpc hlatched] at hunsettled
      cases hunsettled
  | left i producer hbefore hproducer hproducers hingested hentered hqueue =>
    refine ⟨hcounted.left hbefore hproducer hproducers hingested hentered hqueue, fun hlatched => ?_⟩
    exact hupdate hproducers (hqueue ▸ hlatched) (by rcases hproducer with rfl | rfl <;> rfl)

/-- The first step that does not meet the condition seals the fate of a counted line. -/
theorem Lossless.doomed {args : IngestArgs} (hbatch : 1 ≤ args.batch_size) {s s' : Ingest ι H}
    (hlossless : Lossless s) (heffect : Effect s s') (hmeets : ¬ Meets args s s') : Doomed s' := by
  have hcounted := hlossless.counted
  cases heffect with
  | consumed hproducers hingested hentered hdropped hclosed =>
    have hlatch : ¬ (s.queue.closed = false → s'.queue.closed = true →
        ∀ i, (s.producers i).unsettled = false) :=
      fun h => hmeets ⟨h, fun hlt => by omega⟩
    push Not at hlatch
    obtain ⟨-, hclosed', i, hi⟩ := hlatch
    refine ⟨hclosed', 0, hcounted.of_consumed hproducers hingested hentered hdropped, .inr ⟨i, ?_⟩⟩
    rw [hproducers]
    simpa using hi
  | read i line hproducer hproducers hingested hentered hqueue =>
    have hclosed : s.queue.closed = true := by
      by_contra hopen
      rw [Bool.not_eq_true] at hopen
      refine hmeets ⟨fun _ hlatched => ?_, fun _ => ⟨hopen, hbatch⟩⟩
      rw [hqueue, hopen] at hlatched
      cases hlatched
    refine ⟨by rw [hqueue, hclosed], 0,
      hcounted.read hproducer hproducers hingested hentered hqueue, .inr ⟨i, ?_⟩⟩
    rw [hproducers, Function.update_self]
    rfl
  | pushed i line pc pc' hproducer hproducers hfate hingested hentered hclosed =>
    refine absurd ⟨fun hopen hlatched => ?_, fun hlt => by omega⟩ hmeets
    rw [hclosed, hopen] at hlatched
    cases hlatched
  | left i producer hbefore hproducer hproducers hingested hentered hqueue =>
    refine absurd ⟨fun hopen hlatched => ?_, fun hlt => by omega⟩ hmeets
    rw [hqueue, hopen] at hlatched
    cases hlatched

/-- A lost line stays lost, and one that will be refused stays so until it is. -/
theorem Doomed.step {s s' : Ingest ι H} (hdoomed : Doomed s) (heffect : Effect s s') : Doomed s' := by
  obtain ⟨hlatched, lost, hcounted, hlost⟩ := hdoomed
  cases heffect with
  | consumed hproducers hingested hentered hdropped hclosed =>
    refine ⟨hclosed hlatched, lost, hcounted.of_consumed hproducers hingested hentered hdropped, ?_⟩
    rwa [hproducers]
  | read i line hproducer hproducers hingested hentered hqueue =>
    refine ⟨hqueue ▸ hlatched, lost, hcounted.read hproducer hproducers hingested hentered hqueue,
      .inr ⟨i, ?_⟩⟩
    rw [hproducers, Function.update_self]
    rfl
  | pushed i line pc pc' hproducer hproducers hfate hingested hentered hclosed =>
    refine ⟨hclosed.trans hlatched, ?_⟩
    rcases hcounted.pushed hproducer hproducers hfate hingested hentered with
      ⟨hcounted', hkept⟩ | ⟨-, -, hcounted'⟩
    · refine ⟨lost, hcounted', hlost.imp_right ?_⟩
      rintro ⟨j, hj⟩
      refine ⟨j, ?_⟩
      rw [hproducers]
      by_cases hji : j = i
      · subst hji
        rw [hproducer] at hj
        rw [Function.update_self]
        simpa [Producer.unsettled, hkept hlatched] using hj
      · rwa [Function.update_of_ne hji]
    · exact ⟨lost + 1, hcounted', .inl (Nat.le_add_left 1 lost)⟩
  | left i producer hbefore hproducer hproducers hingested hentered hqueue =>
    refine ⟨hqueue ▸ hlatched, lost,
      hcounted.left hbefore hproducer hproducers hingested hentered hqueue, hlost.imp_right ?_⟩
    rintro ⟨j, hj⟩
    have hji : j ≠ i := by
      rintro rfl
      rw [Producer.holds_of_unsettled hj] at hbefore
      cases hbefore
    refine ⟨j, ?_⟩
    rwa [hproducers, Function.update_of_ne hji]

end

omit [DecidableEq ι] [Digest H] in
theorem Lossless.start (args : IngestArgs) (batcher : BatchAccumulator) (disk : Disk H) :
    Lossless (Ingest.start args batcher disk : Ingest ι H) where
  counted := ⟨∅, by simp [Ingest.start, Producer.holds], by simp [Ingest.start, MemoryQueue.new]⟩
  settled _ _ := rfl

theorem MetReachable.lossless {args : IngestArgs} {s₀ s : Ingest ι H} (hstart : Lossless s₀)
    (hmet : MetReachable args s₀ s) : Lossless s := by
  induction hmet with
  | refl => exact hstart
  | tail _ hstep ih => exact ih.step hstep.1.effect hstep.2

theorem Reachable.met_or_doomed {args : IngestArgs} (hbatch : 1 ≤ args.batch_size)
    {s₀ s : Ingest ι H} (hstart : Lossless s₀) (hreach : Reachable args s₀ s) :
    MetReachable args s₀ s ∨ Doomed s := by
  induction hreach with
  | refl => exact .inl .refl
  | @tail s s' _ hstep ih =>
    rcases ih with hmet | hdoomed
    · by_cases hmeets : Meets args s s'
      · exact .inl (hmet.tail ⟨hstep, hmeets⟩)
      · exact .inr ((hmet.lossless hstart).doomed hbatch hstep.effect hmeets)
    · exact .inr (hdoomed.step hstep.effect)

/-- The consumer's side of the account: the lines that entered the queue were parsed, are
    in its hands, or are queued, and the number in its report is that of the lines shed. -/
structure Tally (s : Ingest ι H) : Prop where
  parsed : s.consumer ≠ .Failed →
    s.entered.length = s.total_parsed + s.consumer.inFlight.length + s.queue.queue.length
  snapshot : ∀ stats, s.consumer = .Report stats → stats.dropped = s.queue.dropped

theorem Tally.step {args : IngestArgs} (hbatch : 1 ≤ args.batch_size) {s s' : Ingest ι H}
    (hinv : Handoff s) (hentered : ∀ item ∈ s.consumer.inFlight, raw_str item ≠ "")
    (htally : Tally s) (hstep : Step args s s') : Tally s' := by
  obtain ⟨hparsed, hsnapshot⟩ := htally
  obtain ⟨hpop, -, -⟩ := pop_batch_spec s.queue hbatch
  have hlength := congrArg List.length hpop
  rw [List.length_append] at hlength
  have hat : ∀ {c : Consumer}, s.consumer = c → c ≠ .Failed →
      s.entered.length = s.total_parsed + c.inFlight.length + s.queue.queue.length := by
    rintro c rfl hok
    exact hparsed hok
  cases hstep with
  | read_line | pushed | push_failed | disconnected => exact ⟨hparsed, hsnapshot⟩
  | push i line pc pc' queue' hproducer hpush =>
    constructor
    · intro hok
      have hbefore := hparsed hok
      dsimp only
      rw [(push_step_spec hpush).queue_eq]
      split
      · rw [List.length_append, List.length_append, List.length_singleton]
        omega
      · exact hbefore
    · intro stats hreport
      refine (hsnapshot stats hreport).trans ?_
      cases push_step_fate hpush with
      | keeps _ _ _ hdropped => exact hdropped.symm
      | queued _ _ hdropped => exact hdropped.symm
      | refused _ _ _ hdropped => exact hdropped.symm
      | shed hpc =>
        -- a producer that sheds has passed the flag, so the drain would have seen it
        have huncommitted := (hinv.drained (by rw [hreport]; rfl)).2 i line pc hproducer
        rw [hpc] at huncommitted
        cases huncommitted
  | tick hconsumer | drain hconsumer =>
    refine ⟨fun _ => ?_, fun stats h => by cases h⟩
    have hbefore := hat hconsumer (by simp)
    simp only [Consumer.inFlight, List.length_nil] at hbefore ⊢
    omega
  | drain_wait hconsumer hlock hempty =>
    refine ⟨fun hok => ?_, fun stats h => by rw [hconsumer] at h; cases h⟩
    have hbefore := hparsed hok
    rw [hempty, List.length_nil] at hlength
    dsimp only
    omega
  | drain_end hconsumer hlock hempty =>
    refine ⟨fun _ => ?_, fun stats h => by cases h⟩
    have hbefore := hat hconsumer (by simp)
    rw [hempty, List.length_nil] at hlength
    simp only [Consumer.inFlight, List.length_nil] at hbefore ⊢
    omega
  | process item rest phase io env event flushed batcher' disk' hconsumer hitem hpush =>
    refine ⟨fun _ => ?_, fun stats h => by cases h⟩
    have hbefore := hat hconsumer (by simp)
    simp only [Consumer.inFlight, List.length_cons] at hbefore ⊢
    omega
  | skip item rest phase hconsumer hitem =>
    exact absurd hitem (hentered item (by simp [hconsumer, Consumer.inFlight]))
  | batch_done phase hconsumer =>
    refine ⟨fun _ => ?_, fun stats h => by cases phase <;> cases h⟩
    have hbefore := hat hconsumer (by simp)
    cases phase <;> exact hbefore
  | close pc pc' queue' hconsumer hclose =>
    refine ⟨fun _ => ?_, fun stats h => by cases h⟩
    have hbefore := hat hconsumer (by simp)
    cases pc <;> cases hclose <;> exact hbefore
  | shutdown hconsumer | closed hconsumer | final_flush _ _ _ _ _ hconsumer | report _ hconsumer =>
    have hbefore := hat hconsumer (by simp)
    exact ⟨fun _ => hbefore, fun stats h => by cases h⟩
  | stats hconsumer hlock =>
    have hbefore := hat hconsumer (by simp)
    refine ⟨fun _ => hbefore, fun stats h => ?_⟩
    cases h
    rfl
  | process_failed | final_flush_failed => exact ⟨fun h => absurd rfl h, fun stats h => by cases h⟩

theorem Reachable.tally {args : IngestArgs} (hbatch : 1 ≤ args.batch_size) {reader : JsonReader}
    {batcher : BatchAccumulator} {disk : Disk H} {s : Ingest ι H}
    (hnew : BatchAccumulator.new reader args.batcher_config disk = .ok batcher)
    (hreach : Reachable args (Ingest.start args batcher disk) s) : Tally s := by
  induction hreach with
  | refl => exact ⟨fun _ => rfl, fun stats h => by cases h⟩
  | @tail s s' hreach hstep ih =>
    obtain ⟨hinv, hdelivers⟩ := Reachable.delivers hbatch hnew hreach
    refine ih.step hbatch hinv (fun item hitem => ?_) hstep
    have hok : s.consumer ≠ .Failed := by
      intro hfailed
      rw [hfailed] at hitem
      cases hitem
    obtain ⟨processed, blocks, hentered, -, -⟩ := hdelivers hok
    exact (hinv.entered_line item (by simp [hentered, hitem])).1

/-- At the report all counted lines were parsed or shed exactly if every step of the run
    met the condition. -/
theorem Reachable.total_ingested_eq_iff {args : IngestArgs} (hbatch : 1 ≤ args.batch_size)
    {reader : JsonReader} {batcher : BatchAccumulator} {disk : Disk H} {s : Ingest ι H}
    {stats : QueueStats} (hnew : BatchAccumulator.new reader args.batcher_config disk = .ok batcher)
    (hreach : Reachable args (Ingest.start args batcher disk) s)
    (hreport : s.consumer = .Report stats) :
    s.entered.length = s.total_parsed ∧
    (s.total_ingested = s.total_parsed + stats.dropped ↔
      MetReachable args (Ingest.start args batcher disk) s) := by
  obtain ⟨hinv, -⟩ := hreach.delivers hbatch hnew
  obtain ⟨hqueue, huncommitted⟩ := hinv.drained (by rw [hreport]; rfl)
  obtain ⟨hparsed, hsnapshot⟩ := hreach.tally hbatch hnew
  have hentered : s.entered.length = s.total_parsed := by
    simpa [hreport, Consumer.inFlight, hqueue] using hparsed (by simp [hreport])
  refine ⟨hentered, ?_⟩
  rw [hsnapshot stats hreport, ← hentered]
  constructor
  · intro htotal
    rcases hreach.met_or_doomed hbatch (Lossless.start args batcher disk) with hmet | hdoomed
    · exact hmet
    · obtain ⟨-, lost, ⟨held, hheld, hcount⟩, hlost | ⟨i, hi⟩⟩ := hdoomed
      · omega
      · have hmem : i ∈ held := (hheld i).mpr (Producer.holds_of_unsettled hi)
        have hpos := Finset.card_pos.mpr ⟨i, hmem⟩
        omega
  · intro hmet
    obtain ⟨⟨held, hheld, hcount⟩, hsettled⟩ := hmet.lossless (Lossless.start args batcher disk)
    have hempty : held = ∅ := by
      refine Finset.eq_empty_of_forall_notMem fun i hi => ?_
      have hholds := (hheld i).mp hi
      have hi := hsettled (hinv.closed (by rw [hreport]; rfl)) i
      cases hproducer : s.producers i with
      | Pushing line pc =>
        rw [hproducer] at hholds hi
        have hcommitted := PushPc.committed_of_settled (by simpa [Producer.unsettled] using hi) hholds
        rw [huncommitted i line pc hproducer] at hcommitted
        cases hcommitted
      | Idle => rw [hproducer] at hholds; cases hholds
      | Stopped => rw [hproducer] at hholds; cases hholds
    rw [hempty, Finset.card_empty] at hcount
    omega

/-- With batches of size zero nothing is popped, so nothing is parsed. -/
theorem Reachable.total_parsed_eq_zero {args : IngestArgs} (hbatch : args.batch_size = 0)
    {batcher : BatchAccumulator} {disk : Disk H} {s : Ingest ι H}
    (hreach : Reachable args (Ingest.start args batcher disk) s) :
    s.total_parsed = 0 ∧ s.consumer.inFlight = [] := by
  induction hreach with
  | refl => exact ⟨rfl, rfl⟩
  | @tail s s' _ hstep ih =>
    obtain ⟨hparsed, hinFlight⟩ := ih
    have hpop : (s.queue.pop_batch args.batch_size).1 = [] := by
      rw [pop_batch_eq, hbatch]
      rfl
    cases hstep with
    | process item rest phase io env event flushed batcher' disk' hconsumer =>
      rw [hconsumer] at hinFlight
      cases hinFlight
    | process_failed item rest phase io env event e batcher' disk' hconsumer =>
      rw [hconsumer] at hinFlight
      cases hinFlight
    | skip item rest phase hconsumer =>
      rw [hconsumer] at hinFlight
      cases hinFlight
    | tick | drain => exact ⟨hparsed, hpop⟩
    | batch_done phase => exact ⟨hparsed, by cases phase <;> rfl⟩
    | read_line | push | pushed | push_failed | disconnected | drain_wait => exact ⟨hparsed, hinFlight⟩
    | _ => exact ⟨hparsed, rfl⟩

/-- As long as no line is counted every step meets the condition. -/
theorem Reachable.met_of_total_ingested_eq_zero {args : IngestArgs} {batcher : BatchAccumulator}
    {disk : Disk H} {s : Ingest ι H} (hreach : Reachable args (Ingest.start args batcher disk) s)
    (hzero : s.total_ingested = 0) :
    MetReachable args (Ingest.start args batcher disk) s ∧ s.entered = [] ∧
      ∀ i line pc, s.producers i ≠ .Pushing line pc := by
  induction hreach with
  | refl => exact ⟨.refl, rfl, fun i line pc h => by cases h⟩
  | @tail s s' _ hstep ih =>
    have heffect := hstep.effect
    have hmeets : s.total_ingested = s'.total_ingested →
        (∀ i line pc, s.producers i ≠ .Pushing line pc) → Meets args s s' := by
      intro hingested hidle
      refine ⟨fun _ _ i => ?_, fun hlt => by omega⟩
      cases hproducer : s.producers i with
      | Pushing line pc => exact absurd hproducer (hidle i line pc)
      | Idle | Stopped => rfl
    cases heffect with
    | consumed hproducers hingested hentered hdropped hclosed =>
      obtain ⟨hmet, hnone, hidle⟩ := ih (by omega)
      refine ⟨hmet.tail ⟨hstep, hmeets hingested.symm hidle⟩, hentered.trans hnone, ?_⟩
      rwa [hproducers]
    | read i line hproducer hproducers hingested hentered hqueue => omega
    | pushed i line pc pc' hproducer hproducers hfate hingested hentered hclosed =>
      obtain ⟨-, -, hidle⟩ := ih (by omega)
      exact absurd hproducer (hidle i line pc)
    | left i producer hbefore hproducer hproducers hingested hentered hqueue =>
      obtain ⟨hmet, hnone, hidle⟩ := ih (by omega)
      refine ⟨hmet.tail ⟨hstep, hmeets hingested.symm hidle⟩, hentered.trans hnone, ?_⟩
      intro j line pc hj
      rw [hproducers] at hj
      by_cases hji : j = i
      · subst hji
        rw [Function.update_self] at hj
        rcases hproducer with rfl | rfl <;> cases hj
      · rw [Function.update_of_ne hji] at hj
        exact hidle j line pc hj

theorem MetReachable.total_ingested_eq_zero {args : IngestArgs} (hbatch : args.batch_size = 0)
    {batcher : BatchAccumulator} {disk : Disk H} {s : Ingest ι H}
    (hmet : MetReachable args (Ingest.start args batcher disk) s) : s.total_ingested = 0 := by
  induction hmet with
  | refl => rfl
  | @tail s s' _ hstep ih =>
    obtain ⟨hstep, -, hread⟩ := hstep
    cases hstep.effect with
    | read i line hproducer hproducers hingested =>
      have := (hread (by omega)).2
      omega
    | consumed _ hingested => exact hingested.trans ih
    | pushed _ _ _ _ _ _ _ hingested => exact hingested.trans ih
    | left _ _ _ _ _ hingested => exact hingested.trans ih

/-- The summary that claims a lossless shutdown tells the truth exactly if no line was
    counted after the queue was closed, or with empty batches, and no counted line was
    left to be refused when the queue was closed. -/
theorem lossless_message_honest_iff (reader : JsonReader) (args : IngestArgs)
    {batcher : BatchAccumulator} {disk : Disk H} {s : Ingest ι H} {stats : QueueStats}
    (hnew : BatchAccumulator.new reader args.batcher_config disk = .ok batcher)
    (hreach : Reachable args (Ingest.start args batcher disk) s)
    (hreport : s.consumer = .Report stats) :
    ((s.summary stats).stats.dropped = 0 ∧
        (s.summary stats).tail_note = "tail batch flushed losslessly." →
      s.AllArchived (s.summary stats)) ↔
    (stats.dropped = 0 → MetReachable args (Ingest.start args batcher disk) s) := by
  have hprinted : stats.dropped = 0 → (s.summary stats).stats.dropped = 0 ∧
      (s.summary stats).tail_note = "tail batch flushed losslessly." :=
    fun h => ⟨h, if_pos h⟩
  rcases Nat.eq_zero_or_pos args.batch_size with hbatch | hbatch
  · have hparsed := (hreach.total_parsed_eq_zero hbatch).1
    constructor
    · intro hhonest hdropped
      have hingested : s.total_ingested = s.total_parsed := (hhonest (hprinted hdropped)).parsed
      exact (hreach.met_of_total_ingested_eq_zero (hingested.trans hparsed)).1
    · rintro hmet ⟨hdropped, -⟩
      have hingested := (hmet hdropped).total_ingested_eq_zero hbatch
      obtain ⟨-, hnone, -⟩ := hreach.met_of_total_ingested_eq_zero hingested
      refine ⟨hingested.trans hparsed.symm, [], ?_, ?_, by simp⟩
      · rw [hnone, List.flatMap_nil]
      · rw [hnone]
        exact hingested.symm
  · obtain ⟨hentered, hiff⟩ := hreach.total_ingested_eq_iff hbatch hnew hreport
    constructor
    · intro hhonest hdropped
      have hingested : s.total_ingested = s.total_parsed := (hhonest (hprinted hdropped)).parsed
      exact hiff.mp (by omega)
    · rintro hmet ⟨hdropped, -⟩
      have hdropped : stats.dropped = 0 := hdropped
      have hingested : s.total_ingested = s.total_parsed := by
        have := hiff.mpr (hmet hdropped)
        omega
      obtain ⟨blocks, hrows, hledger, -, hread⟩ :=
        hreach.archived hbatch hnew (by rw [hreport]; rfl)
      refine ⟨hingested, blocks, hrows, hentered.trans hingested.symm, fun block hblock => ?_⟩
      refine ⟨?_, hread block hblock⟩
      rw [hledger]
      exact List.mem_append_right _ (List.mem_map_of_mem hblock)

/-- A producer counts a line, the queue is closed, and the push is refused. -/
theorem exists_refused_run : ∃ s : Ingest Unit Preimage, ∃ stats,
    Reachable singleArgs (Ingest.start singleArgs freshBatcher (Disk.empty Preimage)) s ∧
    s.consumer = .Report stats ∧ stats.dropped = 0 ∧ s.total_ingested = 1 ∧ s.total_parsed = 0 := by
  have hclosed := reachable_firstLine.close_queue rfl
  have hrefused := hclosed.tail (.push _ () "deny tcp" .Enter
    (.Returned (.Err "ingest queue is shut down")) _ rfl rfl)
  have hstopped := hrefused.tail (.push_failed _ () "deny tcp" "ingest queue is shut down" rfl)
  have hflush : freshBatcher.flush Preimage Io.reliable Env.fixed (Disk.empty Preimage) =
      ok (.ok none, freshBatcher, Disk.empty Preimage) := rfl
  exact ⟨_, _, hstopped.finish rfl rfl rfl hflush, rfl, rfl, rfl, rfl⟩

/-- The run in which a push is refused does not meet the condition. -/
theorem lossless_message_honest_iff_refused : ∃ s : Ingest Unit Preimage, ∃ stats,
    Reachable singleArgs (Ingest.start singleArgs freshBatcher (Disk.empty Preimage)) s ∧
    s.consumer = .Report stats ∧
    ¬ MetReachable singleArgs (Ingest.start singleArgs freshBatcher (Disk.empty Preimage)) s := by
  obtain ⟨s, stats, hreach, hreport, hdropped, hingested, hparsed⟩ := exists_refused_run
  refine ⟨s, stats, hreach, hreport, fun hmet => ?_⟩
  have harchived := (lossless_message_honest_iff LedgerEntry.layoutReader singleArgs rfl hreach
    hreport).mpr (fun _ => hmet) ⟨hdropped, if_pos hdropped⟩
  have htotal : s.total_ingested = s.total_parsed := harchived.parsed
  omega

/-- Accepted flags, one counted line that was never parsed, and a summary that says that
    the tail was flushed losslessly. -/
theorem lossless_message_after_refused_line :
    validate_ingest_args singleArgs = .ok () ∧
    BatchAccumulator.new LedgerEntry.layoutReader singleArgs.batcher_config (Disk.empty Preimage) =
      .ok freshBatcher ∧
    ∃ s : Ingest Unit Preimage, ∃ summary,
      Reachable singleArgs (Ingest.start singleArgs freshBatcher (Disk.empty Preimage)) s ∧
      s.consumer = .Returned summary ∧
      summary.stats.dropped = 0 ∧ summary.tail_note = "tail batch flushed losslessly." ∧
      summary.total_ingested = 1 ∧ summary.total_parsed = 0 := by
  obtain ⟨s, stats, hreach, hreport, hdropped, hingested, hparsed⟩ := exists_refused_run
  exact ⟨rfl, rfl, _, s.summary stats, hreach.tail (.report s stats hreport), rfl, hdropped,
    if_pos hdropped, hingested, hparsed⟩

end ulpf_cli.ingest
