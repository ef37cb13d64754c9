import Ulpf.Ai.Drain
import Ulpf.Ai.Registry

open Result
open ulpf_core.schema.ocsf
open ulpf_core.parser
open ulpf_core.parser.classifier
open ulpf_core.parser.lru_cache
open ulpf_ai.drain
open ulpf_ai.onboarder
open ulpf_integrity.merkle (Digest Hash)

namespace ulpf_ai.pipeline

/-- Task for the out-of-band decision worker. -/
structure AsyncTriageTask where
  cluster_id : Nat
  template : List Char
  sample_log : List Char
  timestamp_ms : Int

def MAX_EXEMPLARS_PER_CLUSTER : Nat := 8

/-- What the clock and the UUID generator return in the course of one call. -/
structure Clock where
  dispatch_ms : Int
  drain_ms : Int
  native : Reading
  route : Reading
  dynamic : Reading
  lossless : Reading
  fallback : Reading
  deriving Inhabited

/-- The pipeline as its callers see it between two calls. -/
structure TieredPipeline where
  cache : SignatureLruCache
  drain : DrainMiner
  dynamic_registry : DynamicParserRegistry
  ring_capacity : Nat
  laya_tasks : List AsyncTriageTask
  total_events : Nat
  tier2_drain_hits : Nat
  tier3_laya_dispatches : Nat
  triage_dispatch_counts : HashMap Nat Nat
  exemplar_budget_open : UInt64
  dynamic_routes : HashMap UInt64 String
  dynamic_routes_open : UInt64

namespace TieredPipeline

def with_ring_buffer_capacity (capacity : Nat) : TieredPipeline where
  cache := SignatureLruCache.new
  drain := DrainMiner.new DrainConfig.default
  dynamic_registry := DynamicParserRegistry.new
  ring_capacity := capacity
  laya_tasks := []
  total_events := 0
  tier2_drain_hits := 0
  tier3_laya_dispatches := 0
  triage_dispatch_counts := ∅
  exemplar_budget_open := 0
  dynamic_routes := ∅
  dynamic_routes_open := 0

def new : TieredPipeline := with_ring_buffer_capacity 10000

theorem get_cache_new (sig_hash : UInt64) : (new.cache.get sig_hash).1 = none :=
  SignatureLruCache.get_new sig_hash

/-- `try_send` on the bounded channel: a task that finds no room is dropped. -/
def try_send (self : TieredPipeline) (task : AsyncTriageTask) : TieredPipeline :=
  if self.laya_tasks.length < self.ring_capacity then
    { self with laya_tasks := self.laya_tasks ++ [task] }
  else self

/-- Dispatch an exemplar within the budget of its format key. -/
def dispatch_triage_exemplar (self : TieredPipeline) (exemplar_key : Nat) (template raw : List Char)
    (timestamp_ms : Int) : TieredPipeline :=
  let entry := (self.triage_dispatch_counts.lookup exemplar_key).getD 0
  if entry ≥ MAX_EXEMPLARS_PER_CLUSTER then
    { self with triage_dispatch_counts := self.triage_dispatch_counts.insert exemplar_key entry }
  else
    let opened : UInt64 := if entry = 0 then 1 else 0
    let closed : UInt64 := if entry + 1 ≥ MAX_EXEMPLARS_PER_CLUSTER then 1 else 0
    let sent := try_send
      { self with
        triage_dispatch_counts := self.triage_dispatch_counts.insert exemplar_key (entry + 1)
        exemplar_budget_open := self.exemplar_budget_open + opened - closed }
      ⟨exemplar_key, template, raw, timestamp_ms⟩
    { sent with tier3_laya_dispatches := sent.tier3_laya_dispatches + 1 }

/-- Installs a promotion route; the counter follows the number of routes. -/
def install_route (self : TieredPipeline) (sig_hash : UInt64) (key : String) : TieredPipeline :=
  { self with
    dynamic_routes := self.dynamic_routes.insert sig_hash key
    dynamic_routes_open :=
      if (self.dynamic_routes.lookup sig_hash).isNone then self.dynamic_routes_open + 1
      else self.dynamic_routes_open }

def remove_route (self : TieredPipeline) (sig_hash : UInt64) : TieredPipeline :=
  { self with
    dynamic_routes := self.dynamic_routes.erase sig_hash
    dynamic_routes_open :=
      if (self.dynamic_routes.lookup sig_hash).isSome then self.dynamic_routes_open - 1
      else self.dynamic_routes_open }

/-- Tier 2: the line goes to the miner. -/
def mine (crates : Crates) (self : TieredPipeline) (raw : List Char) (now_ms : Int) :
    Result (ClusterResult × TieredPipeline) :=
  self.drain.add_log crates raw now_ms >>= fun (result, drain) => ok (result, { self with drain })

section

variable (H : Type) [Digest H] (crates : Crates) (clock : Clock)

/-- Parse with a format, and losslessly where its extractor errs. -/
def parse_with_format (raw : List Char) (format : VendorFormat) : Result NetworkActivity := do
  let parsed ← UniversalParser.parse_with_format H crates clock.native raw format
  match parsed with
  | .ok activity => ok activity
  | .error _ => UniversalParser.parse_lossless H crates clock.lossless clock.fallback raw

/-- Tier 1b: a promoted route of a shape that the classifier does not know. A route that
    does not parse the line is dropped. -/
def follow_route (self : TieredPipeline) (sig_hash : UInt64) (raw : List Char) :
    Result (Option NetworkActivity × TieredPipeline) :=
  if self.dynamic_routes_open > 0 then
    match self.dynamic_routes.lookup sig_hash with
    | none => ok (none, self)
    | some key =>
      if Classifier.classify raw = .Unknown then do
        let (parsed, registry) ← self.dynamic_registry.parse_key H crates clock.route key raw
        let self := { self with dynamic_registry := registry }
        match parsed with
        | some activity => ok (some activity, self)
        | none => ok (none, self.remove_route sig_hash)
      else ok (none, self)
  else ok (none, self)

/-- Native extractor, then dynamic registry, then lossless. -/
def parse_pinned (self : TieredPipeline) (raw : List Char) (sig_hash : UInt64) :
    Result (NetworkActivity × TieredPipeline) :=
  let format := Classifier.classify raw
  if format ≠ .Unknown then do
    let parsed ← UniversalParser.parse_with_format H crates clock.native raw format
    match parsed with
    | .ok activity => ok (activity, { self with cache := self.cache.insert sig_hash format })
    | .error _ => do
      let activity ← UniversalParser.parse_lossless H crates clock.lossless clock.fallback raw
      ok (activity, self)
  else do
    let (hit, registry) ← self.dynamic_registry.parse_any_keyed H crates clock.dynamic raw
    let self := { self with dynamic_registry := registry }
    match hit with
    | some (key, activity) => ok (activity, self.install_route sig_hash key)
    | none => do
      let activity ← UniversalParser.parse_lossless H crates clock.lossless clock.fallback raw
      ok (activity, self)

/-- Tiers 2 and 3. Lines of known and of new clusters differ in the counter only. -/
def cluster_and_parse (self : TieredPipeline) (raw : List Char) (sig_hash : UInt64) :
    Result (NetworkActivity × TieredPipeline) := do
  let (cluster_res, self) ← self.mine crates raw clock.drain_ms
  let self :=
    if cluster_res.is_new then self
    else { self with tier2_drain_hits := self.tier2_drain_hits + 1 }
  let self :=
    self.dispatch_triage_exemplar sig_hash.toNat cluster_res.template raw clock.dispatch_ms
  self.parse_pinned H crates clock raw sig_hash

/-- Process a raw log line through the tiers. -/
def process (self : TieredPipeline) (raw : List Char) :
    Result (NetworkActivity × TieredPipeline) := do
  let self := { self with total_events := self.total_events + 1 }
  let sig_hash ← SignatureLruCache.compute_signature_hash raw
  let (cached, cache) := self.cache.get sig_hash
  let self := { self with cache }
  match cached with
  | some format =>
    let self :=
      if self.exemplar_budget_open > 0 then
        self.dispatch_triage_exemplar sig_hash.toNat [] raw clock.dispatch_ms
      else self
    let activity ← parse_with_format H crates clock raw format
    ok (activity, self)
  | none =>
    let (routed, self) ← self.follow_route H crates clock sig_hash raw
    match routed with
    | some activity => ok (activity, self)
    | none => self.cluster_and_parse H crates clock raw sig_hash

end

/-- The lines that `process` gets through, given what the cache holds for their
    signature: a cached format is tried first, and the class of the line counts where
    there is none or its extractor rejects the line. -/
def Reads (crates : Crates) (raw : List Char) : Option VendorFormat → Prop
  | some format =>
    UniversalParser.Reads raw format ∧
      (UniversalParser.Rejects crates raw format →
        UniversalParser.Reads raw (Classifier.classify raw))
  | none => UniversalParser.Reads raw (Classifier.classify raw)

/-- Mining changes the miner alone. -/
theorem mine_eq_ok {crates : Crates} {self after : TieredPipeline} {raw : List Char} {now_ms : Int}
    {result : ClusterResult} (h : self.mine crates raw now_ms = ok (result, after)) :
    ∃ drain, after = { self with drain } := by
  obtain ⟨⟨_, drain⟩, -, h⟩ := bind_eq_ok_iff.mp h
  cases h
  exact ⟨drain, rfl⟩

theorem mine_ne_panic (crates : Crates) (self : TieredPipeline) (raw : List Char) (now_ms : Int) :
    self.mine crates raw now_ms ≠ panic := by
  obtain ⟨_, _, hok, -⟩ := DrainMiner.add_log_ok crates self.drain raw now_ms
  rw [mine, hok]
  simp

section

variable (H : Type) [Digest H] (crates : Crates) (clock : Clock)

theorem parse_with_format_ne_panic_iff (raw : List Char) (format : VendorFormat) :
    parse_with_format H crates clock raw format ≠ panic ↔
      Reads crates raw (some format) := by
  have hlossless :=
    UniversalParser.parse_lossless_ne_panic_iff H crates clock.lossless clock.fallback raw
  rw [Reads, ← UniversalParser.extract_ne_panic_iff crates clock.native.now_ms raw format,
    ← hlossless, ← UniversalParser.extract_eq_error_iff crates clock.native.now_ms raw format,
    parse_with_format, UniversalParser.parse_with_format]
  rcases UniversalParser.extract crates clock.native.now_ms raw format with ⟨_ | _⟩ | _ <;> simp

theorem follow_route_ne_panic (self : TieredPipeline) (sig_hash : UInt64) (raw : List Char) :
    self.follow_route H crates clock sig_hash raw ≠ panic := by
  unfold follow_route
  split
  · split
    · simp
    split
    · refine bind_ne_panic (DynamicParserRegistry.parse_key_ne_panic H crates clock.route _ _ raw)
        fun parsed => ?_
      dsimp only
      split <;> simp
    · simp
  · simp

/-- A route is followed for lines of unknown class only, and it stays if it parses the line. -/
theorem follow_route_cases {self after : TieredPipeline} {sig_hash : UInt64} {raw : List Char}
    {routed : Option NetworkActivity}
    (h : self.follow_route H crates clock sig_hash raw = ok (routed, after)) :
    routed = none ∧ after = self ∨
      ∃ key registry, Classifier.classify raw = .Unknown ∧
        self.dynamic_registry.parse_key H crates clock.route key raw = ok (routed, registry) ∧
        after = if routed.isSome then { self with dynamic_registry := registry }
          else { self with dynamic_registry := registry }.remove_route sig_hash := by
  unfold follow_route at h
  split at h
  · split at h
    · cases h
      exact .inl ⟨rfl, rfl⟩
    rename_i key _
    split at h
    · rename_i hunknown
      obtain ⟨⟨parsed, registry⟩, hparsed, h⟩ := bind_eq_ok_iff.mp h
      right
      cases parsed <;> cases h <;> exact ⟨key, registry, hunknown, hparsed, rfl⟩
    · cases h
      exact .inl ⟨rfl, rfl⟩
  · cases h
    exact .inl ⟨rfl, rfl⟩

theorem classify_eq_of_follow_route {self after : TieredPipeline} {sig_hash : UInt64}
    {raw : List Char} {activity : NetworkActivity}
    (h : self.follow_route H crates clock sig_hash raw = ok (some activity, after)) :
    Classifier.classify raw = .Unknown := by
  obtain ⟨hnone, -⟩ | ⟨key, registry, hunknown, -⟩ := follow_route_cases H crates clock h
  · cases hnone
  · exact hunknown

/-- What parsing a line does to the pipeline, tier by tier. -/
theorem parse_pinned_cases {self after : TieredPipeline} {raw : List Char} {sig_hash : UInt64}
    {event : NetworkActivity}
    (h : self.parse_pinned H crates clock raw sig_hash = ok (event, after)) :
    (Classifier.classify raw ≠ .Unknown ∧
      UniversalParser.parse_with_format H crates clock.native raw (Classifier.classify raw) =
        ok (.ok event) ∧
      after = { self with cache := self.cache.insert sig_hash (Classifier.classify raw) }) ∨
    (Classifier.classify raw = .Unknown ∧ ∃ key registry,
      self.dynamic_registry.parse_any_keyed H crates clock.dynamic raw =
        ok (some (key, event), registry) ∧
      after = { self with dynamic_registry := registry }.install_route sig_hash key) ∨
    UniversalParser.parse_lossless H crates clock.lossless clock.fallback raw = ok event ∧
      ∃ registry, after = { self with dynamic_registry := registry } := by
  unfold parse_pinned at h
  dsimp only at h
  split at h
  · rename_i hknown
    obtain ⟨parsed, hparsed, h⟩ := bind_eq_ok_iff.mp h
    cases parsed with
    | ok activity =>
      cases h
      exact .inl ⟨hknown, hparsed, rfl⟩
    | error e =>
      obtain ⟨activity, hlossless, h⟩ := bind_eq_ok_iff.mp h
      cases h
      exact .inr (.inr ⟨hlossless, self.dynamic_registry, rfl⟩)
  · rename_i hunknown
    obtain ⟨⟨hit, registry⟩, hkeyed, h⟩ := bind_eq_ok_iff.mp h
    cases hit with
    | some found =>
      cases h
      exact .inr (.inl ⟨not_not.mp hunknown, found.1, registry, hkeyed, rfl⟩)
    | none =>
      obtain ⟨activity, hlossless, h⟩ := bind_eq_ok_iff.mp h
      cases h
      exact .inr (.inr ⟨hlossless, registry, rfl⟩)

theorem parse_pinned_ne_panic_iff (self : TieredPipeline) (raw : List Char) (sig_hash : UInt64) :
    self.parse_pinned H crates clock raw sig_hash ≠ panic ↔
      UniversalParser.Reads raw (Classifier.classify raw) := by
  have hlossless :=
    UniversalParser.parse_lossless_ne_panic_iff H crates clock.lossless clock.fallback raw
  unfold parse_pinned
  dsimp only
  split
  · have hnative := UniversalParser.parse_with_format_ne_panic_iff H crates clock.native raw
      (Classifier.classify raw)
    rcases hparsed : UniversalParser.parse_with_format H crates clock.native raw
      (Classifier.classify raw) with ⟨err | activity⟩ | _
    · rw [bind_ok, ← hlossless]
      cases UniversalParser.parse_lossless H crates clock.lossless clock.fallback raw <;> simp
    · simpa [hparsed] using hnative
    · simpa [hparsed] using hnative
  · rename_i hunknown
    have hreads : UniversalParser.Reads raw (Classifier.classify raw) := by
      rw [not_not.mp hunknown]
      trivial
    apply iff_of_true _ hreads
    refine bind_ne_panic (DynamicParserRegistry.parse_any_keyed_ne_panic H crates clock.dynamic _
      raw) fun found => ?_
    split
    · simp
    · exact bind_ne_panic (hlossless.mpr hreads) (by simp)

theorem cluster_and_parse_ne_panic_iff (self : TieredPipeline) (raw : List Char)
    (sig_hash : UInt64) :
    self.cluster_and_parse H crates clock raw sig_hash ≠ panic ↔
      UniversalParser.Reads raw (Classifier.classify raw) := by
  obtain ⟨⟨result, mined⟩, hmine⟩ := ne_panic_iff.mp (mine_ne_panic crates self raw clock.drain_ms)
  rw [cluster_and_parse, hmine, bind_ok]
  exact parse_pinned_ne_panic_iff H crates clock _ raw sig_hash

/-- From every state of the pipeline, only an extractor can stop a call. -/
theorem process_ne_panic_iff (self : TieredPipeline) {raw : List Char} {sig_hash : UInt64}
    (hhash : SignatureLruCache.compute_signature_hash raw = ok sig_hash) :
    self.process H crates clock raw ≠ panic ↔
      Reads crates raw (self.cache.get sig_hash).1 := by
  unfold process
  dsimp only
  rw [hhash, bind_ok]
  cases (self.cache.get sig_hash).1 with
  | some format =>
    rw [← parse_with_format_ne_panic_iff H crates clock]
    cases hparsed : parse_with_format H crates clock raw format <;> simp [hparsed]
  | none =>
    dsimp only
    generalize hlooked : { self with total_events := self.total_events + 1,
                                      cache := (self.cache.get sig_hash).2 } = looked
    obtain ⟨⟨routed, after⟩, hroute⟩ := ne_panic_iff.mp
      (follow_route_ne_panic H crates clock looked sig_hash raw)
    rw [hroute, bind_ok, Reads]
    cases routed with
    | none => exact cluster_and_parse_ne_panic_iff H crates clock after raw sig_hash
    | some activity =>
      have hunknown := classify_eq_of_follow_route H crates clock hroute
      apply iff_of_true (by simp)
      rw [hunknown]
      trivial

end

end TieredPipeline

/-- An ASCII space in front of a key is no obstacle. -/
theorem reads_ascii_space :
    Classifier.classify (str.lit "x devname=") = .Fortinet ∧
      UniversalParser.Reads (str.lit "x devname=") (Classifier.classify (str.lit "x devname=")) := by
  have hclass : Classifier.classify (str.lit "x devname=") = .Fortinet := by decide +kernel
  have htoken : extractors.fortigate.readToken (str.trim (str.lit "x devname=")) =
      some (⟨str.lit "x devname", []⟩, []) := by decide +kernel
  refine ⟨hclass, ?_⟩
  rw [hclass]
  apply (extractors.FortigateExtractor.reads_singleton_iff htoken).mpr
  decide +kernel

/-- The three lossless entry points return an event exactly for the lines that the
    extractor they choose gets through. The first looks at the class of the line, the
    other two at what their cache holds for its signature. -/
theorem lossless_parsing_returns_iff (H : Type) [Digest H] (crates : Crates)
    (reading fallback : Reading) (cache : SignatureLruCache) (pipeline : TieredPipeline)
    (clock : Clock) (raw : List Char) :
    ∃ sig_hash, SignatureLruCache.compute_signature_hash raw = ok sig_hash ∧
      ((∃ event, UniversalParser.parse_lossless H crates reading fallback raw = ok event) ↔
        UniversalParser.Reads raw (Classifier.classify raw)) ∧
      ((∃ event, UniversalParser.parse_cached_lossless H crates reading fallback cache raw =
          ok event) ↔
        UniversalParser.Reads raw (UniversalParser.cached_format cache sig_hash raw).1) ∧
      ((∃ event, pipeline.process H crates clock raw = ok event) ↔
        TieredPipeline.Reads crates raw (pipeline.cache.get sig_hash).1) := by
  obtain ⟨sig_hash, hhash⟩ :=
    ne_panic_iff.mp (SignatureLruCache.compute_signature_hash_ne_panic raw)
  refine ⟨sig_hash, hhash, ?_, ?_, ?_⟩
  · rw [← ne_panic_iff, UniversalParser.parse_lossless_ne_panic_iff]
  · rw [← ne_panic_iff, UniversalParser.parse_cached_lossless_ne_panic_iff H _ _ _ _ hhash]
  · rw [← ne_panic_iff, TieredPipeline.process_ne_panic_iff H _ _ _ hhash]

/-- The line `x devname=` is read. -/
theorem lossless_parsing_returns_ascii_space :
    (∃ event, UniversalParser.parse_lossless Hash default default default
      (str.lit "x devname=") = ok event) ∧
    (∃ event, UniversalParser.parse_cached_lossless Hash default default default
      SignatureLruCache.new (str.lit "x devname=") = ok event) ∧
    ∃ event, TieredPipeline.new.process Hash default default (str.lit "x devname=") = ok event := by
  obtain ⟨sig_hash, -, hlossless, hcached, hprocess⟩ := lossless_parsing_returns_iff Hash default
    default default SignatureLruCache.new TieredPipeline.new default (str.lit "x devname=")
  obtain ⟨-, hreads⟩ := reads_ascii_space
  refine ⟨hlossless.mpr hreads, hcached.mpr ?_, hprocess.mpr ?_⟩
  · rwa [UniversalParser.cached_format_new]
  · rwa [TieredPipeline.get_cache_new]

/-- With an ideographic space in front of the key, every entry point panics. -/
theorem lossless_parsing_panics_on_wide_space :
    UniversalParser.parse_lossless Hash default default default (str.lit "x\u3000devname=") =
      panic ∧
    UniversalParser.parse_cached_lossless Hash default default default SignatureLruCache.new
      (str.lit "x\u3000devname=") = panic ∧
    TieredPipeline.new.process Hash default default (str.lit "x\u3000devname=") = panic := by
  have hclass : Classifier.classify (str.lit "x\u3000devname=") = .Fortinet := by decide +kernel
  have htoken : extractors.fortigate.readToken (str.trim (str.lit "x\u3000devname=")) =
      some (⟨str.lit "x\u3000devname", []⟩, []) := by decide +kernel
  have hreads : ¬ UniversalParser.Reads (str.lit "x\u3000devname=")
      (Classifier.classify (str.lit "x\u3000devname=")) := by
    rw [hclass]
    apply (not_congr (extractors.FortigateExtractor.reads_singleton_iff htoken)).mpr
    decide +kernel
  obtain ⟨sig_hash, hhash⟩ := ne_panic_iff.mp
    (SignatureLruCache.compute_signature_hash_ne_panic (str.lit "x\u3000devname="))
  refine ⟨?_, ?_, ?_⟩
  · apply not_ne_iff.mp
    rwa [UniversalParser.parse_lossless_ne_panic_iff]
  · apply not_ne_iff.mp
    rwa [UniversalParser.parse_cached_lossless_ne_panic_iff Hash _ _ _ _ hhash,
      UniversalParser.cached_format_new]
  · apply not_ne_iff.mp
    rwa [TieredPipeline.process_ne_panic_iff Hash _ _ _ hhash, TieredPipeline.get_cache_new]

end ulpf_ai.pipeline
