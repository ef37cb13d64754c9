import Mathlib.Logic.Relation
import Ulpf.Ai.Pipeline

open Result
open ulpf_core.schema.ocsf
open ulpf_core.parser
open ulpf_core.parser.classifier
open ulpf_core.parser.lru_cache
open ulpf_ai.drain (ClusterResult)
open ulpf_ai.onboarder
open ulpf_integrity.merkle (Digest Hash)

namespace ulpf_ai.pipeline

def ONBOARD_MIN_SAMPLES : Nat := 3

/-- One call of `process`, with the signature of its line. -/
structure ProcessCall where
  raw : List Char
  clock : Clock
  sig_hash : UInt64
  hash_eq : SignatureLruCache.compute_signature_hash raw = ok sig_hash

/-- What an event was produced by. -/
inductive Origin where
  | Native
  | Dynamic
  | Lossless
  deriving DecidableEq, Repr

/-- The places of `dispatch_triage_exemplar`. -/
inductive DispatchPc where
  /-- The mutex of the counts. -/
  | Count
  | AddOpen (closed : Bool)
  | SubOpen
  | Send
  | CountSent
  deriving DecidableEq, Repr

def DispatchPc.closing (closed : Bool) : DispatchPc := if closed then .SubOpen else .Send

/-- What follows a dispatch. -/
inductive AfterDispatch where
  | ParseCached (format : VendorFormat)
  | ParsePinned
  deriving DecidableEq, Repr

/-- The places of `process`. At `CountRemoved` and `CountInserted` the mutex of the routes is
    held. -/
inductive ProcessPc where
  | Start
  | Lookup
  | LoadBudget (format : VendorFormat)
  | Dispatch (template : List Char) (pc : DispatchPc) (after : AfterDispatch)
  | ParseCached (format : VendorFormat)
  | LoadRoutes
  | GetRoute
  | ParseRoute (key : String)
  | RemoveRoute
  | CountRemoved (removed : Bool)
  | Mine
  | CountHit (cluster_res : ClusterResult)
  | ParseNative (format : VendorFormat)
  | Promote (format : VendorFormat) (event : NetworkActivity)
  | ParseAny
  | InsertRoute (key : String) (event : NetworkActivity)
  | CountInserted (inserted : Bool) (event : NetworkActivity)
  | ParseLossless
  | Returned (origin : Origin) (event : NetworkActivity)
  | Panicked

inductive Holder (ι : Type) where
  | Caller (i : ι)
  | Worker

/-- What the threads share. A registry whose mutex is poisoned is as good as none. -/
structure Shared (ι : Type) where
  state : TieredPipeline
  routes_lock : Option (Holder ι)
  registry_poisoned : Bool

/-- The known formats go to their extractor, the others to the registry. -/
def AfterDispatch.pc (raw : List Char) : AfterDispatch → ProcessPc
  | ParseCached format => .ParseCached format
  | ParsePinned =>
    if Classifier.classify raw ≠ .Unknown then .ParseNative (Classifier.classify raw) else .ParseAny

/-- One step of a dispatch; `none` when it has returned. -/
def dispatch_step (call : ProcessCall) (template : List Char) (self : TieredPipeline) :
    DispatchPc → Option DispatchPc × TieredPipeline
  | .Count =>
    let exemplar_key := call.sig_hash.toNat
    let entry := (self.triage_dispatch_counts.lookup exemplar_key).getD 0
    if entry ≥ MAX_EXEMPLARS_PER_CLUSTER then
      (none,
        { self with triage_dispatch_counts := self.triage_dispatch_counts.insert exemplar_key entry })
    else
      let closed := decide (entry + 1 ≥ MAX_EXEMPLARS_PER_CLUSTER)
      (some (if entry = 0 then .AddOpen closed else .closing closed),
        { self with
          triage_dispatch_counts := self.triage_dispatch_counts.insert exemplar_key (entry + 1) })
  | .AddOpen closed =>
    (some (.closing closed), { self with exemplar_budget_open := self.exemplar_budget_open + 1 })
  | .SubOpen => (some .Send, { self with exemplar_budget_open := self.exemplar_budget_open - 1 })
  | .Send =>
    (some .CountSent,
      self.try_send ⟨call.sig_hash.toNat, template, call.raw, call.clock.dispatch_ms⟩)
  | .CountSent => (none, { self with tier3_laya_dispatches := self.tier3_laya_dispatches + 1 })

section

variable {ι : Type}

def Shared.update (self : Shared ι) (state : TieredPipeline) : Shared ι := { self with state }

/-- One step of a call of `process`; `none` where it has to wait or is over. -/
def process_step (H : Type) [Digest H] (crates : Crates) (me : Holder ι) (call : ProcessCall)
    (s : Shared ι) : ProcessPc → Option (ProcessPc × Shared ι)
  | .Start =>
    some (.Lookup, s.update { s.state with total_events := s.state.total_events + 1 })
  | .Lookup =>
    let (cached, cache) := s.state.cache.get call.sig_hash
    let pc :=
      match cached with
      | some format => .LoadBudget format
      | none => .LoadRoutes
    some (pc, s.update { s.state with cache })
  | .LoadBudget format =>
    if s.state.exemplar_budget_open > 0 then
      some (.Dispatch [] .Count (.ParseCached format), s)
    else some (.ParseCached format, s)
  | .Dispatch template pc after =>
    match dispatch_step call template s.state pc with
    | (some pc, state) => some (.Dispatch template pc after, s.update state)
    | (none, state) => some (after.pc call.raw, s.update state)
  | .ParseCached format =>
    match UniversalParser.parse_with_format H crates call.clock.native call.raw format with
    | .ok (.ok event) => some (.Returned .Native event, s)
    | .ok (.error _) => some (.ParseLossless, s)
    | .panic => some (.Panicked, s)
  | .LoadRoutes =>
    if s.state.dynamic_routes_open > 0 then some (.GetRoute, s) else some (.Mine, s)
  | .GetRoute =>
    if s.routes_lock.isNone then
      match s.state.dynamic_routes.lookup call.sig_hash with
      | some key =>
        if Classifier.classify call.raw = .Unknown then some (.ParseRoute key, s)
        else some (.Mine, s)
      | none => some (.Mine, s)
    else none
  | .ParseRoute key =>
    if s.registry_poisoned then some (.RemoveRoute, s)
    else
      match s.state.dynamic_registry.parse_key H crates call.clock.route key call.raw with
      | .ok (some event, dynamic_registry) =>
        some (.Returned .Dynamic event, s.update { s.state with dynamic_registry })
      | .ok (none, dynamic_registry) =>
        some (.RemoveRoute, s.update { s.state with dynamic_registry })
      | .panic => some (.Panicked, s)
  | .RemoveRoute =>
    if s.routes_lock.isNone then
      some (.CountRemoved (s.state.dynamic_routes.lookup call.sig_hash).isSome,
        { s with
          state :=
            { s.state with dynamic_routes := s.state.dynamic_routes.erase call.sig_hash }
          routes_lock := some me })
    else none
  | .CountRemoved removed =>
    some (.Mine,
      { s with
        state :=
          { s.state with
            dynamic_routes_open :=
              if removed then s.state.dynamic_routes_open - 1
              else s.state.dynamic_routes_open }
        routes_lock := none })
  | .Mine =>
    match s.state.mine crates call.raw call.clock.drain_ms with
    | .ok (cluster_res, state) => some (.CountHit cluster_res, s.update state)
    | .panic => some (.Panicked, s)
  | .CountHit cluster_res =>
    some (.Dispatch cluster_res.template .Count .ParsePinned,
      s.update
        (if cluster_res.is_new then s.state
        else { s.state with tier2_drain_hits := s.state.tier2_drain_hits + 1 }))
  | .ParseNative format =>
    match UniversalParser.parse_with_format H crates call.clock.native call.raw format with
    | .ok (.ok event) => some (.Promote format event, s)
    | .ok (.error _) => some (.ParseLossless, s)
    | .panic => some (.Panicked, s)
  | .Promote format event =>
    some (.Returned .Native event,
      s.update { s.state with cache := s.state.cache.insert call.sig_hash format })
  | .ParseAny =>
    if s.registry_poisoned then some (.ParseLossless, s)
    else
      match s.state.dynamic_registry.parse_any_keyed H crates call.clock.dynamic call.raw with
      | .ok (some (key, event), dynamic_registry) =>
        some (.InsertRoute key event, s.update { s.state with dynamic_registry })
      | .ok (none, dynamic_registry) =>
        some (.ParseLossless, s.update { s.state with dynamic_registry })
      | .panic => some (.Panicked, s)
  | .InsertRoute key event =>
    if s.routes_lock.isNone then
      some (.CountInserted (s.state.dynamic_routes.lookup call.sig_hash).isNone event,
        { s with
          state :=
            { s.state with dynamic_routes := s.state.dynamic_routes.insert call.sig_hash key }
          routes_lock := some me })
    else none
  | .CountInserted inserted event =>
    some (.Returned .Dynamic event,
      { s with
        state :=
          { s.state with
            dynamic_routes_open :=
              if inserted then s.state.dynamic_routes_open + 1
              else s.state.dynamic_routes_open }
        routes_lock := none })
  | .ParseLossless =>
    match UniversalParser.parse_lossless H crates call.clock.lossless call.clock.fallback call.raw with
    | .ok event => some (.Returned .Lossless event, s)
    | .panic => some (.Panicked, s)
  | .Returned _ _ => none
  | .Panicked => none

end

/-- The decisions of the worker: the vendor of a sample where it is confident of one, and the
    parser of a vendor, a model and samples where one was synthesized that passed validation. -/
structure Triage where
  classify_vendor : List Char → Option String
  generateParser : String → String → List (List Char) → Option ParserDefinition

/-- The places of the decision worker. -/
inductive WorkerPc where
  | Recv
  | Register (cluster_id : Nat) (parser_def : ParserDefinition)
  | InsertRoute (cluster_id : Nat) (key : String)
  | CountInserted (cluster_id : Nat) (inserted : Bool)
  | Panicked

structure TriageWorker where
  pc : WorkerPc
  buffers : HashMap Nat (List (List Char))

section

variable {ι : Type}

/-- One step of the worker thread. -/
def worker_step (crates : Crates) (triage : Triage) (worker : TriageWorker) (s : Shared ι) :
    Option (TriageWorker × Shared ι) :=
  match worker.pc with
  | .Recv =>
    match s.state.laya_tasks with
    | [] => none
    | task :: laya_tasks =>
      let s := s.update { s.state with laya_tasks }
      match triage.classify_vendor task.sample_log with
      | none => some (worker, s)
      | some label =>
        let buf := (worker.buffers.lookup task.cluster_id).getD []
        let buf := if buf.length < MAX_EXEMPLARS_PER_CLUSTER then buf ++ [task.sample_log] else buf
        let buffers := worker.buffers.insert task.cluster_id buf
        if buf.length < ONBOARD_MIN_SAMPLES then some ({ worker with buffers }, s)
        else
          match triage.generateParser label s!"cluster-{task.cluster_id}" buf with
          | some parser_def => some (⟨.Register task.cluster_id parser_def, buffers⟩, s)
          | none =>
            if buf.length ≥ MAX_EXEMPLARS_PER_CLUSTER then
              some ({ worker with buffers := buffers.erase task.cluster_id }, s)
            else some ({ worker with buffers }, s)
  | .Register cluster_id parser_def =>
    if s.registry_poisoned then some ({ worker with pc := .Panicked }, s)
    else
      let (key, dynamic_registry) := s.state.dynamic_registry.register crates parser_def
      some ({ worker with pc := .InsertRoute cluster_id key },
        s.update { s.state with dynamic_registry })
  | .InsertRoute cluster_id key =>
    if s.routes_lock.isNone then
      let sig_hash := UInt64.ofNat cluster_id
      some
        ({ worker with
          pc := .CountInserted cluster_id (s.state.dynamic_routes.lookup sig_hash).isNone },
        { s with
          state :=
            { s.state with dynamic_routes := s.state.dynamic_routes.insert sig_hash key }
          routes_lock := some .Worker })
    else none
  | .CountInserted cluster_id inserted =>
    some (⟨.Recv, worker.buffers.erase cluster_id⟩,
      { s with
        state :=
          { s.state with
            dynamic_routes_open :=
              if inserted then s.state.dynamic_routes_open + 1
              else s.state.dynamic_routes_open }
        routes_lock := none })
  | .Panicked => none

end

/-- A thread that uses the pipeline. -/
inductive Thread where
  | Idle
  | Running (call : ProcessCall) (pc : ProcessPc)

structure System (ι : Type) where
  shared : Shared ι
  threads : ι → Thread
  worker : TriageWorker

section

variable {ι : Type}

def System.start (capacity : Nat) : System ι where
  shared := ⟨TieredPipeline.with_ring_buffer_capacity capacity, none, false⟩
  threads _ := .Idle
  worker := ⟨.Recv, ∅⟩

/-- One step of one thread. Callers can also reach the registry, put anything there and panic
    with its mutex in hand. -/
inductive Step (H : Type) [Digest H] (crates : Crates) (triage : Triage) [DecidableEq ι] :
    System ι → System ι → Prop where
  | call (s : System ι) (i : ι) (call : ProcessCall) (hidle : s.threads i = .Idle) :
      Step H crates triage s
        { s with threads := Function.update s.threads i (.Running call .Start) }
  | process (s : System ι) (i : ι) (call : ProcessCall) (pc pc' : ProcessPc) (shared' : Shared ι)
      (hthread : s.threads i = .Running call pc)
      (hstep : process_step H crates (.Caller i) call s.shared pc = some (pc', shared')) :
      Step H crates triage s
        { s with
          shared := shared'
          threads := Function.update s.threads i (.Running call pc') }
  | returned (s : System ι) (i : ι) (call : ProcessCall) (origin : Origin) (event : NetworkActivity)
      (hthread : s.threads i = .Running call (.Returned origin event)) :
      Step H crates triage s { s with threads := Function.update s.threads i .Idle }
  | worker (s : System ι) (worker' : TriageWorker) (shared' : Shared ι)
      (hstep : worker_step crates triage s.worker s.shared = some (worker', shared')) :
      Step H crates triage s { s with shared := shared', worker := worker' }
  | registry (s : System ι) (dynamic_registry : DynamicParserRegistry)
      (hpoisoned : s.shared.registry_poisoned = false) :
      Step H crates triage s
        { s with shared := s.shared.update { s.shared.state with dynamic_registry } }
  | poison (s : System ι) :
      Step H crates triage s { s with shared := { s.shared with registry_poisoned := true } }

def Reachable (H : Type) [Digest H] (crates : Crates) (triage : Triage) [DecidableEq ι]
    (s : System ι) : Prop :=
  ∃ capacity, Relation.ReflTransGen (Step H crates triage) (System.start capacity) s

end

section

variable {ι : Type} {crates : Crates} {s s' : Shared ι}

theorem TieredPipeline.try_send_eq (self : TieredPipeline) (task : AsyncTriageTask) :
    (self.try_send task).triage_dispatch_counts = self.triage_dispatch_counts ∧
      (self.try_send task).exemplar_budget_open = self.exemplar_budget_open ∧
      (self.try_send task).dynamic_routes = self.dynamic_routes ∧
      (self.try_send task).dynamic_routes_open = self.dynamic_routes_open := by
  unfold TieredPipeline.try_send
  split <;> exact ⟨rfl, rfl, rfl, rfl⟩

/-- Waiting for a task changes nothing but the channel. -/
theorem worker_step_recv {triage : Triage} {worker worker' : TriageWorker} (hpc : worker.pc = .Recv)
    (hstep : worker_step crates triage worker s = some (worker', s')) :
    (∃ laya_tasks, s' = s.update { s.state with laya_tasks }) ∧
      ∀ cluster_id inserted, worker'.pc ≠ .CountInserted cluster_id inserted := by
  have hrecv : ∀ {pc : WorkerPc}, pc = .Recv → ∀ cluster_id inserted, pc ≠ .CountInserted cluster_id inserted := by
    rintro _ rfl cluster_id inserted heq
    cases heq
  simp only [worker_step, hpc] at hstep
  split at hstep
  · cases hstep
  split at hstep
  · cases hstep
    exact ⟨⟨_, rfl⟩, hrecv hpc⟩
  generalize (if List.length _ < MAX_EXEMPLARS_PER_CLUSTER then _ else _) = buf at hstep
  split at hstep
  · cases hstep
    exact ⟨⟨_, rfl⟩, hrecv rfl⟩
  split at hstep
  · cases hstep
    exact ⟨⟨_, rfl⟩, fun _ _ heq => by cases heq⟩
  · split at hstep <;> cases hstep <;> exact ⟨⟨_, rfl⟩, hrecv rfl⟩
end

section

variable {ι : Type} {H : Type} [Digest H] {crates : Crates} {triage : Triage}

/-- Where a call can be whose line has a known format: nowhere near the dynamic parsers, and an
    event that it has comes from a native extractor or from the lossless fallback. -/
def ProcessPc.OfKnown (H : Type) [Digest H] (crates : Crates) (call : ProcessCall) : ProcessPc → Prop
  | .ParseRoute _ | .RemoveRoute | .CountRemoved _ => False
  | .ParseAny | .InsertRoute _ _ | .CountInserted _ _ | .Returned .Dynamic _ => False
  | .Promote format event =>
    UniversalParser.parse_with_format H crates call.clock.native call.raw format = ok (.ok event)
  | .Returned .Native event => ∃ format,
    UniversalParser.parse_with_format H crates call.clock.native call.raw format = ok (.ok event)
  | .Returned .Lossless event =>
    UniversalParser.parse_lossless H crates call.clock.lossless call.clock.fallback call.raw =
      ok event
  | _ => True

theorem ofKnown_after_dispatch {call : ProcessCall}
    (hknown : Classifier.classify call.raw ≠ .Unknown)
    (after : AfterDispatch) : (after.pc call.raw).OfKnown H crates call := by
  cases after with
  | ParseCached format => trivial
  | ParsePinned =>
    rw [AfterDispatch.pc, if_pos hknown]
    trivial

/-- No step of a call with a known line leads to a dynamic parser, whatever the other threads have
    made of the shared state. -/
theorem ProcessPc.OfKnown.step {me : Holder ι} {call : ProcessCall} {s s' : Shared ι}
    {pc pc' : ProcessPc}
    (hknown : Classifier.classify call.raw ≠ .Unknown) (h : pc.OfKnown H crates call)
    (hstep : process_step H crates me call s pc = some (pc', s')) : pc'.OfKnown H crates call := by
  cases pc with
  | Start =>
    cases hstep
    trivial
  | Lookup =>
    simp only [process_step] at hstep
    cases hstep
    split <;> trivial
  | LoadBudget format =>
    simp only [process_step] at hstep
    split at hstep <;> cases hstep <;> trivial
  | Dispatch template pc after =>
    simp only [process_step] at hstep
    split at hstep <;> cases hstep
    · trivial
    · exact ofKnown_after_dispatch hknown after
  | ParseCached format =>
    simp only [process_step] at hstep
    split at hstep <;> cases hstep
    · exact ⟨format, ‹_›⟩
    · trivial
    · trivial
  | LoadRoutes =>
    simp only [process_step] at hstep
    split at hstep <;> cases hstep <;> trivial
  | GetRoute =>
    simp only [process_step, if_neg hknown] at hstep
    split at hstep
    · split at hstep <;> cases hstep <;> trivial
    · cases hstep
  | Mine =>
    simp only [process_step] at hstep
    split at hstep <;> cases hstep <;> trivial
  | CountHit cluster_res =>
    cases hstep
    trivial
  | ParseNative format =>
    simp only [process_step] at hstep
    split at hstep <;> cases hstep
    · assumption
    · trivial
    · trivial
  | Promote format event =>
    cases hstep
    exact ⟨format, h⟩
  | ParseLossless =>
    simp only [process_step] at hstep
    split at hstep <;> cases hstep
    · assumption
    · trivial
  | ParseRoute | RemoveRoute | CountRemoved | ParseAny | InsertRoute | CountInserted => cases h
  | Returned | Panicked => cases hstep

/-- Every call with a known line is where such a call can be. -/
def NativeOnly (H : Type) [Digest H] (crates : Crates) (threads : ι → Thread) : Prop :=
  ∀ i call pc, threads i = .Running call pc → Classifier.classify call.raw ≠ .Unknown →
    pc.OfKnown H crates call

variable [DecidableEq ι]

theorem NativeOnly.update {threads : ι → Thread} (h : NativeOnly H crates threads) {i : ι}
    {thread : Thread} (hthread : ∀ call pc, thread = .Running call pc →
      Classifier.classify call.raw ≠ .Unknown → pc.OfKnown H crates call) :
    NativeOnly H crates (Function.update threads i thread) := by
  intro j call pc hrunning hknown
  by_cases hij : j = i
  · subst hij
    rw [Function.update_self] at hrunning
    exact hthread call pc hrunning hknown
  · rw [Function.update_of_ne hij] at hrunning
    exact h j call pc hrunning hknown

theorem NativeOnly.step {s s' : System ι} (h : NativeOnly H crates s.threads)
    (hstep : Step H crates triage s s') : NativeOnly H crates s'.threads := by
  cases hstep with
  | call i call hidle =>
    refine h.update fun call' pc hrunning _ => ?_
    cases hrunning
    trivial
  | process i call pc pc' shared' hbefore hprocess =>
    refine h.update fun call' pc₁ hrunning hknown => ?_
    cases hrunning
    exact (h i call pc hbefore hknown).step hknown hprocess
  | returned i call origin event hbefore =>
    refine h.update fun call' pc hrunning _ => ?_
    cases hrunning
  | worker => exact h
  | registry => exact h
  | poison => exact h

theorem Reachable.nativeOnly {s : System ι} (h : Reachable H crates triage s) :
    NativeOnly H crates s.threads := by
  obtain ⟨capacity, hsteps⟩ := h
  induction hsteps with
  | refl =>
    intro i call pc hthread
    cases hthread
  | tail _ hstep ih => exact ih.step hstep

end

section

variable {ι : Type} {H : Type} [Digest H] {crates : Crates} {me : Holder ι} {call : ProcessCall}
  {s : Shared ι}

/-- The steps of a call that no other thread comes between. -/
def Runs (H : Type) [Digest H] (crates : Crates) (me : Holder ι) (call : ProcessCall) :
    ProcessPc × Shared ι → ProcessPc × Shared ι → Prop :=
  Relation.ReflTransGen fun before after =>
    process_step H crates me call before.2 before.1 = some after

/-- The call ends as the function says, with the rest of the shared state unchanged. -/
def EndsAs (H : Type) [Digest H] (crates : Crates) (me : Holder ι) (call : ProcessCall) (pc : ProcessPc)
    (s : Shared ι) : Result (NetworkActivity × TieredPipeline) → Prop
  | .ok (event, after) => ∃ origin, Runs H crates me call (pc, s) (.Returned origin event, s.update after)
  | .panic => ∃ s', Runs H crates me call (pc, s) (.Panicked, s')

theorem EndsAs.head {pc pc' : ProcessPc} (state : TieredPipeline)
    {result : Result (NetworkActivity × TieredPipeline)}
    (hstep : process_step H crates me call s pc = some (pc', s.update state))
    (h : EndsAs H crates me call pc' (s.update state) result) :
    EndsAs H crates me call pc s result := by
  cases result with
  | panic =>
    obtain ⟨s', hruns⟩ := h
    exact ⟨s', .head hstep hruns⟩
  | ok value =>
    obtain ⟨origin, hruns⟩ := h
    exact ⟨origin, .head hstep hruns⟩

theorem EndsAs.trans {pc pc' : ProcessPc} {state : TieredPipeline}
    {result : Result (NetworkActivity × TieredPipeline)}
    (hruns : Runs H crates me call (pc, s) (pc', s.update state))
    (h : EndsAs H crates me call pc' (s.update state) result) :
    EndsAs H crates me call pc s result := by
  cases result with
  | panic =>
    obtain ⟨s', hrest⟩ := h
    exact ⟨s', hruns.trans hrest⟩
  | ok value =>
    obtain ⟨origin, hrest⟩ := h
    exact ⟨origin, hruns.trans hrest⟩

theorem runs_send (template : List Char) (after : AfterDispatch) :
    Runs H crates me call (.Dispatch template .Send after, s)
      (after.pc call.raw, s.update
        { s.state.try_send ⟨call.sig_hash.toNat, template, call.raw, call.clock.dispatch_ms⟩ with
          tier3_laya_dispatches := (s.state.try_send ⟨call.sig_hash.toNat, template, call.raw,
            call.clock.dispatch_ms⟩).tier3_laya_dispatches + 1 }) :=
  .head rfl (.head rfl .refl)

theorem runs_closing (template : List Char) (after : AfterDispatch) (closed : Bool) :
    Runs H crates me call (.Dispatch template (.closing closed) after, s)
      (.Dispatch template .Send after, s.update
        { s.state with
          exemplar_budget_open := s.state.exemplar_budget_open - if closed then 1 else 0 }) := by
  cases closed with
  | true => exact .head rfl .refl
  | false =>
    simp only [Bool.false_eq_true, ↓reduceIte, UInt64.sub_zero]
    exact .refl

theorem runs_opening (template : List Char) (after : AfterDispatch) (first closed : Prop)
    [Decidable first] [Decidable closed] :
    Runs H crates me call
      (.Dispatch template (if first then .AddOpen closed else .closing closed) after, s)
      (after.pc call.raw, s.update
        (let sent := TieredPipeline.try_send
          { s.state with
            exemplar_budget_open := s.state.exemplar_budget_open + (if first then 1 else 0) -
              (if closed then 1 else 0) }
          ⟨call.sig_hash.toNat, template, call.raw, call.clock.dispatch_ms⟩
        { sent with tier3_laya_dispatches := sent.tier3_laya_dispatches + 1 })) := by
  have hrest : ∀ shared : Shared ι, Runs H crates me call
      (.Dispatch template (.closing closed) after, shared)
      (after.pc call.raw, shared.update
        (let sent := TieredPipeline.try_send
          { shared.state with
            exemplar_budget_open := shared.state.exemplar_budget_open - (if closed then 1 else 0) }
          ⟨call.sig_hash.toNat, template, call.raw, call.clock.dispatch_ms⟩
        { sent with tier3_laya_dispatches := sent.tier3_laya_dispatches + 1 })) := by
    intro shared
    have hclosing : Runs H crates me call (.Dispatch template (.closing closed) after, shared) _ :=
      runs_closing template after closed
    simp only [decide_eq_true_eq] at hclosing
    exact hclosing.trans (runs_send template after)
  by_cases hfirst : first
  · rw [if_pos hfirst, if_pos hfirst]
    exact .head rfl (hrest _)
  · rw [if_neg hfirst, if_neg hfirst, UInt64.add_zero]
    exact hrest s

/-- A dispatch that nobody comes between is `dispatch_triage_exemplar`. -/
theorem runs_dispatch (template : List Char) (after : AfterDispatch) :
    Runs H crates me call (.Dispatch template .Count after, s)
      (after.pc call.raw, s.update
        (s.state.dispatch_triage_exemplar call.sig_hash.toNat template call.raw
          call.clock.dispatch_ms)) := by
  unfold TieredPipeline.dispatch_triage_exemplar
  dsimp only
  split
  · rename_i hfull
    refine .head ?_ .refl
    simp only [process_step, dispatch_step, if_pos hfull]
  · rename_i hroom
    refine .head (b := (_, s.update { s.state with
      triage_dispatch_counts := s.state.triage_dispatch_counts.insert call.sig_hash.toNat
        ((s.state.triage_dispatch_counts.lookup call.sig_hash.toNat).getD 0 + 1) })) ?_
      (runs_opening template after _ _)
    simp only [process_step, dispatch_step, if_neg hroom]

theorem endsAs_lossless (state : TieredPipeline) :
    EndsAs H crates me call .ParseLossless (s.update state)
      (UniversalParser.parse_lossless H crates call.clock.lossless call.clock.fallback call.raw >>=
        fun event => ok (event, state)) := by
  cases hparse : UniversalParser.parse_lossless H crates call.clock.lossless call.clock.fallback
    call.raw with
  | ok event => exact ⟨.Lossless, .single (by simp only [process_step, hparse]; rfl)⟩
  | panic => exact ⟨s.update state, .single (by simp only [process_step, hparse])⟩

theorem endsAs_cached (format : VendorFormat) :
    EndsAs H crates me call (.ParseCached format) s
      (TieredPipeline.parse_with_format H crates call.clock call.raw format >>= fun event =>
        ok (event, s.state)) := by
  unfold TieredPipeline.parse_with_format
  rcases hparse : UniversalParser.parse_with_format H crates call.clock.native call.raw format with
    ⟨e | event⟩ | _
  · refine EndsAs.head s.state (by simp only [process_step, hparse]; rfl) ?_
    exact endsAs_lossless s.state
  · exact ⟨.Native, .single (by simp only [process_step, hparse]; rfl)⟩
  · exact ⟨s, .single (by simp only [process_step, hparse])⟩

theorem runs_install_route (hlock : s.routes_lock = none) (key : String) (event : NetworkActivity) :
    Runs H crates me call (.InsertRoute key event, s)
      (.Returned .Dynamic event, s.update (s.state.install_route call.sig_hash key)) := by
  obtain ⟨state, routes_lock, registry_poisoned⟩ := s
  cases hlock
  exact .head rfl (.single rfl)

theorem runs_remove_route (hlock : s.routes_lock = none) :
    Runs H crates me call (.RemoveRoute, s)
      (.Mine, s.update (s.state.remove_route call.sig_hash)) := by
  obtain ⟨state, routes_lock, registry_poisoned⟩ := s
  cases hlock
  exact .head rfl (.single rfl)

theorem endsAs_pinned (hlock : s.routes_lock = none) (hpoisoned : s.registry_poisoned = false) :
    EndsAs H crates me call (AfterDispatch.ParsePinned.pc call.raw) s
      (s.state.parse_pinned H crates call.clock call.raw call.sig_hash) := by
  unfold TieredPipeline.parse_pinned AfterDispatch.pc
  dsimp only
  split
  · rcases hparse : UniversalParser.parse_with_format H crates call.clock.native call.raw
      (Classifier.classify call.raw) with ⟨e | event⟩ | _
    · refine EndsAs.head s.state (by simp only [process_step, hparse]; rfl) ?_
      exact endsAs_lossless s.state
    · exact ⟨.Native, .head (by simp only [process_step, hparse]; rfl) (.single rfl)⟩
    · exact ⟨s, .single (by simp only [process_step, hparse])⟩
  · rcases hparse : s.state.dynamic_registry.parse_any_keyed H crates call.clock.dynamic call.raw
      with ⟨_ | ⟨key, event⟩, dynamic_registry⟩ | _
    · refine EndsAs.head { s.state with dynamic_registry }
        (by simp only [process_step, hpoisoned, hparse]; rfl) ?_
      exact endsAs_lossless _
    · refine EndsAs.head { s.state with dynamic_registry }
        (by simp only [process_step, hpoisoned, hparse]; rfl) ?_
      exact ⟨.Dynamic, runs_install_route (s := s.update { s.state with dynamic_registry }) hlock
        key event⟩
    · exact ⟨s, .single (by simp only [process_step, hpoisoned, hparse]; rfl)⟩

theorem endsAs_mine (hlock : s.routes_lock = none) (hpoisoned : s.registry_poisoned = false) :
    EndsAs H crates me call .Mine s
      (s.state.cluster_and_parse H crates call.clock call.raw call.sig_hash) := by
  unfold TieredPipeline.cluster_and_parse
  rcases hmine : s.state.mine crates call.raw call.clock.drain_ms with ⟨cluster_res, mined⟩ | _
  · refine EndsAs.head mined (by simp only [process_step, hmine]; rfl) ?_
    refine EndsAs.head
      (if cluster_res.is_new then mined
        else { mined with tier2_drain_hits := mined.tier2_drain_hits + 1 }) rfl ?_
    refine EndsAs.trans (runs_dispatch cluster_res.template .ParsePinned) ?_
    exact endsAs_pinned hlock hpoisoned
  · exact ⟨s, .single (by simp only [process_step, hmine])⟩

theorem endsAs_parse_route (hlock : s.routes_lock = none)
    (hpoisoned : s.registry_poisoned = false) (key : String) :
    EndsAs H crates me call (.ParseRoute key) s
      ((do
        let (parsed, dynamic_registry) ←
          s.state.dynamic_registry.parse_key H crates call.clock.route key call.raw
        let self := { s.state with dynamic_registry }
        match parsed with
        | some event => ok (some event, self)
        | none => ok (none, self.remove_route call.sig_hash)) >>= fun (routed, state) =>
        match routed with
        | some event => ok (event, state)
        | none => state.cluster_and_parse H crates call.clock call.raw call.sig_hash) := by
  rcases hparse : s.state.dynamic_registry.parse_key H crates call.clock.route key call.raw
    with ⟨_ | event, dynamic_registry⟩ | _
  · refine EndsAs.head { s.state with dynamic_registry }
      (by simp only [process_step, hpoisoned, hparse]; rfl) ?_
    refine EndsAs.trans (runs_remove_route hlock) ?_
    exact endsAs_mine hlock hpoisoned
  · exact ⟨.Dynamic, .single (by simp only [process_step, hpoisoned, hparse]; rfl)⟩
  · exact ⟨s, .single (by simp only [process_step, hpoisoned, hparse]; rfl)⟩

theorem endsAs_routes (hlock : s.routes_lock = none) (hpoisoned : s.registry_poisoned = false) :
    EndsAs H crates me call .LoadRoutes s
      (s.state.follow_route H crates call.clock call.sig_hash call.raw >>= fun (routed, state) =>
        match routed with
        | some event => ok (event, state)
        | none => state.cluster_and_parse H crates call.clock call.raw call.sig_hash) := by
  have hmine : EndsAs H crates me call .Mine s
      (s.state.cluster_and_parse H crates call.clock call.raw call.sig_hash) :=
    endsAs_mine hlock hpoisoned
  unfold TieredPipeline.follow_route
  by_cases hopen : s.state.dynamic_routes_open > 0
  · refine EndsAs.head s.state (by simp only [process_step, if_pos hopen]; rfl) ?_
    rw [if_pos hopen]
    cases hkey : s.state.dynamic_routes.lookup call.sig_hash with
    | none =>
      exact EndsAs.head s.state
        (by simp only [process_step, Shared.update, hlock, hkey, Option.isNone_none, if_true]) hmine
    | some key =>
      by_cases hunknown : Classifier.classify call.raw = .Unknown
      · dsimp only
        rw [if_pos hunknown]
        refine EndsAs.head s.state (by
          simp only [process_step, Shared.update, hlock, hkey, Option.isNone_none, if_true,
            if_pos hunknown]
          rfl) ?_
        exact endsAs_parse_route hlock hpoisoned key
      · dsimp only
        rw [if_neg hunknown]
        exact EndsAs.head s.state (by
          simp only [process_step, Shared.update, hlock, hkey, Option.isNone_none, if_true,
            if_neg hunknown]) hmine
  · refine EndsAs.head s.state (by simp only [process_step, if_neg hopen]; rfl) ?_
    rw [if_neg hopen]
    exact hmine

theorem endsAs_hit (format : VendorFormat) :
    EndsAs H crates me call (.LoadBudget format) s
      (TieredPipeline.parse_with_format H crates call.clock call.raw format >>= fun event =>
        ok (event,
          if s.state.exemplar_budget_open > 0 then
            s.state.dispatch_triage_exemplar call.sig_hash.toNat [] call.raw call.clock.dispatch_ms
          else s.state)) := by
  by_cases hopen : s.state.exemplar_budget_open > 0
  · rw [if_pos hopen]
    refine EndsAs.head s.state (by simp only [process_step, if_pos hopen]; rfl) ?_
    refine EndsAs.trans (runs_dispatch [] (.ParseCached format)) ?_
    exact endsAs_cached format
  · rw [if_neg hopen]
    refine EndsAs.head s.state (by simp only [process_step, if_neg hopen]; rfl) ?_
    exact endsAs_cached format

/-- A call that no other thread comes between is `process`. -/
theorem endsAs_process (hlock : s.routes_lock = none) (hpoisoned : s.registry_poisoned = false) :
    EndsAs H crates me call .Start s (s.state.process H crates call.clock call.raw) := by
  unfold TieredPipeline.process
  rw [call.hash_eq, bind_ok]
  refine EndsAs.head { s.state with total_events := s.state.total_events + 1 } rfl ?_
  rcases hget : s.state.cache.get call.sig_hash with ⟨cached, cache⟩
  refine EndsAs.head { s.state with total_events := s.state.total_events + 1, cache }
    (by simp only [process_step, Shared.update, hget]; rfl) ?_
  cases cached with
  | some format => exact endsAs_hit (s := s.update _) format
  | none => exact endsAs_routes (s := s.update _) hlock hpoisoned

variable {triage : Triage} [DecidableEq ι]

theorem Runs.steps (triage : Triage) {i : ι} (before : System ι) {pc pc' : ProcessPc}
    {shared' : Shared ι}
    (h : Runs H crates (.Caller i) call (pc, before.shared) (pc', shared'))
    (hthread : before.threads i = .Running call pc) :
    ∃ after, Relation.ReflTransGen (Step H crates triage) before after ∧ after.shared = shared' ∧
      after.threads i = .Running call pc' := by
  -- The configuration of the call, with the system around it, follows the run from its end.
  suffices hsteps : ∀ config, Runs H crates (.Caller i) call (pc, before.shared) config →
      ∃ after, Relation.ReflTransGen (Step H crates triage) before after ∧
        after.shared = config.2 ∧ after.threads i = .Running call config.1 from hsteps _ h
  intro config hruns
  induction hruns with
  | refl => exact ⟨before, .refl, rfl, hthread⟩
  | @tail middle last _ hstep ih =>
    obtain ⟨after, hsteps, hshared, hrunning⟩ := ih
    rw [← hshared] at hstep
    exact ⟨_, hsteps.tail (.process after i call _ _ _ hrunning hstep), rfl, Function.update_self ..⟩

/-- A thread that calls `process` while no other thread moves and nothing is locked gets its
    result. -/
theorem Reachable.process_alone {before : System ι} (hreachable : Reachable H crates triage before)
    {i : ι} (hidle : before.threads i = .Idle) (hlock : before.shared.routes_lock = none)
    (hpoisoned : before.shared.registry_poisoned = false) (call : ProcessCall) {event : NetworkActivity}
    {state : TieredPipeline}
    (hprocess : before.shared.state.process H crates call.clock call.raw = ok (event, state)) :
    ∃ origin after, Reachable H crates triage after ∧ after.shared = before.shared.update state ∧
      after.threads i = .Running call (.Returned origin event) := by
  have hends : EndsAs H crates (.Caller i) call .Start before.shared _ :=
    endsAs_process hlock hpoisoned
  rw [hprocess] at hends
  obtain ⟨origin, hruns⟩ := hends
  let called : System ι :=
    { before with threads := Function.update before.threads i (.Running call .Start) }
  obtain ⟨after, hsteps, hshared, hthread⟩ :=
    Runs.steps triage called hruns (Function.update_self ..)
  obtain ⟨capacity, hbefore⟩ := hreachable
  exact ⟨origin, after, ⟨capacity, (hbefore.tail (.call before i call hidle)).trans hsteps⟩,
    hshared, hthread⟩

end

/-- The line `x devname=` of the Fortinet class, processed by the one thread of a new pipeline. -/
theorem exists_returned_fortinet_line :
    ∃ (s : System Unit) (call : ProcessCall) (origin : Origin) (event : NetworkActivity),
      Reachable Hash default ⟨fun _ => none, fun _ _ _ => none⟩ s ∧
      s.threads () = .Running call (.Returned origin event) ∧
      call.raw = str.lit "x devname=" ∧ Classifier.classify call.raw = .Fortinet := by
  obtain ⟨hclass, hreads⟩ := reads_ascii_space
  obtain ⟨sig_hash, hhash⟩ := ne_panic_iff.mp
    (SignatureLruCache.compute_signature_hash_ne_panic (str.lit "x devname="))
  obtain ⟨⟨event, state⟩, hprocess⟩ := ne_panic_iff.mp <|
    (TieredPipeline.process_ne_panic_iff Hash default default .new hhash).mpr
      (by rwa [TieredPipeline.get_cache_new])
  let call : ProcessCall := ⟨str.lit "x devname=", default, sig_hash, hhash⟩
  have hstart : Reachable Hash default ⟨fun _ => none, fun _ _ _ => none⟩
      (System.start (ι := Unit) 10000) := ⟨10000, .refl⟩
  obtain ⟨origin, s, hreachable, -, hthread⟩ :=
    hstart.process_alone (i := ()) rfl rfl rfl call hprocess
  exact ⟨s, call, origin, event, hreachable, hthread, rfl, hclass⟩

/-- Native formats are never hijacked: in every run of any number of threads with the worker and
    whatever others register, a call whose line has a known format returns the event of a native
    extractor or of the lossless fallback. -/
theorem native_never_hijacked {ι : Type} [DecidableEq ι] {H : Type} [Digest H] {crates : Crates}
    {triage : Triage} {s : System ι} (hreachable : Reachable H crates triage s) {i : ι}
    {call : ProcessCall} {origin : Origin} {event : NetworkActivity}
    (hreturned : s.threads i = .Running call (.Returned origin event))
    (hknown : Classifier.classify call.raw ≠ .Unknown) :
    (origin = .Native ∧ ∃ format, UniversalParser.parse_with_format H crates call.clock.native
      call.raw format = ok (.ok event)) ∨
    (origin = .Lossless ∧ UniversalParser.parse_lossless H crates call.clock.lossless
      call.clock.fallback call.raw = ok event) := by
  have h := hreachable.nativeOnly i call _ hreturned hknown
  cases origin with
  | Native => exact .inl ⟨rfl, h⟩
  | Dynamic => cases h
  | Lossless => exact .inr ⟨rfl, h⟩

/-- The pattern `^`, which matches the empty text in front of a line, and no other. -/
def startMatch : Crates :=
  { (default : Crates) with
    regex_new := fun pattern => pattern = "^"
    captures_iter := fun pattern _ => if pattern = "^" then [⟨[some (0, 0)]⟩] else []
    captures_aligned := by
      intro pattern haystack captures hcaptures range hrange
      split at hcaptures
      · rw [List.mem_singleton] at hcaptures
        rw [hcaptures, List.mem_singleton] at hrange
        cases hrange
        exact ⟨[], bind_eq_ok_iff.mpr ⟨[], str.slice_to_len [] haystack, rfl⟩⟩
      · cases hcaptures
    captures_whole := by
      intro pattern haystack captures hcaptures
      split at hcaptures <;> simp_all [Captures.range]
    captures_ordered := by
      intro pattern haystack
      split <;> simp }

/-- A pipeline at its start, with a registered parser that takes every line. -/
def startRegistered : System Unit :=
  { System.start 10000 with
    shared :=
      ⟨{ TieredPipeline.new with
          dynamic_registry := (DynamicParserRegistry.new.register startMatch ⟨"v", "m", "^", ∅⟩).2 },
        none, false⟩ }

theorem reachable_startRegistered :
    Reachable Hash startMatch ⟨fun _ => none, fun _ _ _ => none⟩ startRegistered :=
  ⟨10000, .single (.registry (System.start 10000) _ rfl)⟩

/-- The line `x devname=` of the Fortinet class, which a registered parser would take. -/
theorem native_never_hijacked_registered :
    ∃ (s : System Unit) (call : ProcessCall) (origin : Origin) (event : NetworkActivity),
      Reachable Hash startMatch ⟨fun _ => none, fun _ _ _ => none⟩ s ∧
      s.threads () = .Running call (.Returned origin event) ∧
      call.raw = str.lit "x devname=" ∧ Classifier.classify call.raw = .Fortinet ∧
      (∃ found registry, s.shared.state.dynamic_registry.parse_any_keyed Hash startMatch
        call.clock.native call.raw = ok (some found, registry)) ∧
      ((origin = .Native ∧ ∃ format, UniversalParser.parse_with_format Hash startMatch
        call.clock.native call.raw format = ok (.ok event)) ∨
      (origin = .Lossless ∧ UniversalParser.parse_lossless Hash startMatch call.clock.lossless
        call.clock.fallback call.raw = ok event)) := by
  obtain ⟨hclass, -⟩ := reads_ascii_space
  obtain ⟨sig_hash, hhash⟩ := ne_panic_iff.mp
    (SignatureLruCache.compute_signature_hash_ne_panic (str.lit "x devname="))
  let call : ProcessCall := ⟨str.lit "x devname=", default, sig_hash, hhash⟩
  have hparsers : (startRegistered.shared.state.process Hash startMatch default
      (str.lit "x devname=") >>= fun returned =>
        returned.2.dynamic_registry.parse_any_keyed Hash startMatch default (str.lit "x devname=") >>=
          fun found => ok found.1.isSome) = ok true := by
    decide +kernel
  obtain ⟨⟨event, state⟩, hprocess, hparsers⟩ := bind_eq_ok_iff.mp hparsers
  obtain ⟨⟨found, registry⟩, hfound, hsome⟩ := bind_eq_ok_iff.mp hparsers
  obtain ⟨found, rfl⟩ := Option.isSome_iff_exists.mp (Result.ok.inj hsome)
  obtain ⟨origin, s, hreachable, hshared, hthread⟩ :=
    reachable_startRegistered.process_alone (i := ()) rfl rfl rfl call hprocess
  refine ⟨s, call, origin, event, hreachable, hthread, rfl, hclass, ⟨found, registry, ?_⟩,
    native_never_hijacked hreachable hthread (by rw [hclass]; decide)⟩
  rw [hshared]
  exact hfound

end ulpf_ai.pipeline
