import Ulpf.Ai.Pipeline

open Result
open ulpf_core.schema.ocsf
open ulpf_core.parser
open ulpf_core.parser.classifier
open ulpf_core.parser.lru_cache
open ulpf_ai.pipeline
open ulpf_integrity.merkle (Digest Hash)

namespace ulpf_core.parser

/-- Every route of the cache is the known class of a line with its signature. -/
def Learned (lines : List (List Char)) (cache : SignatureLruCache) : Prop :=
  ∀ sig_hash format, (cache.get sig_hash).1 = some format →
    ∃ line ∈ lines, SignatureLruCache.compute_signature_hash line = ok sig_hash ∧
      Classifier.classify line = format ∧ format ≠ .Unknown

/-- No line of another known class has the signature of this one. -/
def Agrees (lines : List (List Char)) (raw : List Char) : Prop :=
  ∀ line ∈ lines, Classifier.classify line ≠ .Unknown →
    SignatureLruCache.compute_signature_hash line = SignatureLruCache.compute_signature_hash raw →
    Classifier.classify line = Classifier.classify raw

section

variable {lines : List (List Char)} {cache : SignatureLruCache} {raw : List Char} {sig_hash : UInt64}

theorem learned_new : Learned [] SignatureLruCache.new := by
  intro sig_hash format hget
  rw [SignatureLruCache.get_new] at hget
  cases hget

theorem Learned.congr {lines' : List (List Char)} {cache' : SignatureLruCache}
    (h : Learned lines cache) (hsame : ∀ key, (cache'.get key).1 = (cache.get key).1)
    (hlines : ∀ line ∈ lines, line ∈ lines') : Learned lines' cache' := by
  intro sig_hash format hget
  rw [hsame] at hget
  obtain ⟨line, hline, hlearned⟩ := h sig_hash format hget
  exact ⟨line, hlines line hline, hlearned⟩

theorem Learned.insert (h : Learned lines cache)
    (hhash : SignatureLruCache.compute_signature_hash raw = ok sig_hash)
    (hknown : Classifier.classify raw ≠ .Unknown) :
    Learned (lines ++ [raw]) (cache.insert sig_hash (Classifier.classify raw)) := by
  intro key format hget
  obtain ⟨rfl, rfl⟩ | hold := SignatureLruCache.get_of_get_insert hget
  · exact ⟨raw, by simp, hhash, rfl, hknown⟩
  · obtain ⟨line, hline, hlearned⟩ := h key format hold
    exact ⟨line, List.mem_append_left _ hline, hlearned⟩

/-- Where the lines agree, the cache has no other format for a line than its class. -/
theorem Learned.format_eq (h : Learned lines cache) (hagrees : Agrees lines raw)
    (hhash : SignatureLruCache.compute_signature_hash raw = ok sig_hash) {format : VendorFormat}
    (hget : (cache.get sig_hash).1 = some format) : format = Classifier.classify raw := by
  obtain ⟨line, hline, hline_hash, rfl, hknown⟩ := h sig_hash format hget
  exact hagrees line hline hknown (hline_hash.trans hhash.symm)

end

namespace UniversalParser

/-- The cache of a parser that some lines went through. The class of a line is cached before
    its extractor runs, so also when that panics. -/
inductive Parsed (H : Type) [Digest H] (crates : Crates) :
    List (List Char) → SignatureLruCache → Prop where
  | new : Parsed H crates [] SignatureLruCache.new
  | parse_cached {lines : List (List Char)} {cache : SignatureLruCache}
      (hparsed : Parsed H crates lines cache) (reading : Reading) (raw : List Char)
      (parsed : Except String NetworkActivity) (cache' : SignatureLruCache)
      (hparse : parse_cached H crates reading cache raw = ok (parsed, cache')) :
      Parsed H crates (lines ++ [raw]) cache'
  | parse_cached_panic {lines : List (List Char)} {cache : SignatureLruCache}
      (hparsed : Parsed H crates lines cache) (reading : Reading) (raw : List Char)
      (sig_hash : UInt64) (hhash : SignatureLruCache.compute_signature_hash raw = ok sig_hash)
      (hpanic : parse_cached H crates reading cache raw = panic) :
      Parsed H crates (lines ++ [raw]) (cached_format cache sig_hash raw).2

variable {H : Type} [Digest H] {crates : Crates} {lines : List (List Char)}
  {cache : SignatureLruCache} {raw : List Char} {sig_hash : UInt64}

theorem learned_cached_format (h : Learned lines cache)
    (hhash : SignatureLruCache.compute_signature_hash raw = ok sig_hash) :
    Learned (lines ++ [raw]) (cached_format cache sig_hash raw).2 := by
  have hlooked : Learned lines (cache.get sig_hash).2 :=
    h.congr (cache.get_get sig_hash) fun _ hline => hline
  have hkept : Learned (lines ++ [raw]) (cache.get sig_hash).2 :=
    hlooked.congr (fun _ => rfl) fun _ hline => List.mem_append_left _ hline
  unfold cached_format
  split
  · rename_i hget
    rwa [hget] at hkept
  · rename_i hget
    rw [hget] at hkept hlooked
    dsimp only
    split
    · rename_i hknown
      exact hlooked.insert hhash hknown
    · exact hkept

theorem Parsed.learned (h : Parsed H crates lines cache) : Learned lines cache := by
  induction h with
  | new => exact learned_new
  | parse_cached hparsed reading raw parsed cache' hparse ih =>
    obtain ⟨sig_hash, hhash, hparse⟩ := bind_eq_ok_iff.mp hparse
    obtain ⟨parsed', -, hsame⟩ := bind_eq_ok_iff.mp hparse
    cases hsame
    exact learned_cached_format ih hhash
  | parse_cached_panic hparsed reading raw sig_hash hhash hpanic ih =>
    exact learned_cached_format ih hhash

theorem cached_format_eq (h : Learned lines cache) (hagrees : Agrees lines raw)
    (hhash : SignatureLruCache.compute_signature_hash raw = ok sig_hash) :
    (cached_format cache sig_hash raw).1 = Classifier.classify raw := by
  unfold cached_format
  split
  · rename_i hget
    exact h.format_eq hagrees hhash (by rw [hget])
  · rfl

/-- Caching does not change the outcome of a line that the cached lines agree with. -/
theorem parse_cached_eq (h : Learned lines cache) (hagrees : Agrees lines raw) (reading : Reading) :
    (parse_cached H crates reading cache raw >>= fun returned => ok returned.1) =
      parse H crates reading raw := by
  obtain ⟨sig_hash, hhash⟩ :=
    ne_panic_iff.mp (SignatureLruCache.compute_signature_hash_ne_panic raw)
  rw [parse_cached, hhash, bind_ok]
  dsimp only
  rw [cached_format_eq h hagrees hhash, parse]
  cases parse_with_format H crates reading raw (Classifier.classify raw) <;> rfl

end UniversalParser

end ulpf_core.parser

namespace ulpf_ai.pipeline

/-- The event that a parser without a history has for a line. -/
def fresh_event (H : Type) [Digest H] (crates : Crates) (clock : Clock) (raw : List Char) :
    Result NetworkActivity := do
  let parsed ← UniversalParser.parse H crates clock.native raw
  match parsed with
  | .ok activity => ok activity
  | .error _ => UniversalParser.parse_lossless H crates clock.lossless clock.fallback raw

namespace TieredPipeline

variable {H : Type} [Digest H] {crates : Crates} {clock : Clock} {lines : List (List Char)}
  {raw : List Char} {sig_hash : UInt64} {self after : TieredPipeline} {event : NetworkActivity}

theorem cache_try_send (self : TieredPipeline) (task : AsyncTriageTask) :
    (self.try_send task).cache = self.cache := by
  unfold try_send
  split <;> rfl

@[simp] theorem cache_dispatch_triage_exemplar (self : TieredPipeline) (exemplar_key : Nat)
    (template raw : List Char) (timestamp_ms : Int) :
    (self.dispatch_triage_exemplar exemplar_key template raw timestamp_ms).cache = self.cache := by
  unfold dispatch_triage_exemplar
  dsimp only
  split
  · rfl
  · exact cache_try_send _ _

theorem cache_of_mine {now_ms : Int} {result : drain.ClusterResult}
    (hmine : self.mine crates raw now_ms = ok (result, after)) : after.cache = self.cache := by
  obtain ⟨drain, rfl⟩ := mine_eq_ok hmine
  rfl

theorem cache_of_follow_route {routed : Option NetworkActivity}
    (hroute : self.follow_route H crates clock sig_hash raw = ok (routed, after)) :
    after.cache = self.cache := by
  obtain ⟨-, rfl⟩ | ⟨key, registry, -, -, rfl⟩ := follow_route_cases H crates clock hroute
  · rfl
  · split <;> rfl

/-- Of all that parsing a line does, only the native extractor's success is cached. -/
theorem cache_of_parse_pinned
    (hparse : self.parse_pinned H crates clock raw sig_hash = ok (event, after)) :
    after.cache = self.cache ∨ Classifier.classify raw ≠ .Unknown ∧
      after.cache = self.cache.insert sig_hash (Classifier.classify raw) := by
  obtain ⟨hknown, -, rfl⟩ | ⟨-, key, registry, -, rfl⟩ | ⟨-, registry, rfl⟩ :=
    parse_pinned_cases H crates clock hparse
  · exact .inr ⟨hknown, rfl⟩
  · exact .inl rfl
  · exact .inl rfl

theorem cache_of_process (hhash : SignatureLruCache.compute_signature_hash raw = ok sig_hash)
    (hprocess : self.process H crates clock raw = ok (event, after)) :
    after.cache = (self.cache.get sig_hash).2 ∨ Classifier.classify raw ≠ .Unknown ∧
      after.cache = (self.cache.get sig_hash).2.insert sig_hash (Classifier.classify raw) := by
  unfold process at hprocess
  rw [hhash, bind_ok] at hprocess
  dsimp only at hprocess
  split at hprocess
  · obtain ⟨activity, -, hprocess⟩ := bind_eq_ok_iff.mp hprocess
    cases hprocess
    left
    split <;> simp
  · obtain ⟨⟨routed, followed⟩, hroute, hprocess⟩ := bind_eq_ok_iff.mp hprocess
    have hfollowed := cache_of_follow_route hroute
    cases routed with
    | some activity =>
      cases hprocess
      exact .inl hfollowed
    | none =>
      obtain ⟨⟨cluster_res, mined⟩, hmine, hprocess⟩ := bind_eq_ok_iff.mp hprocess
      have hpinned := cache_of_parse_pinned hprocess
      have hmined := (cache_of_mine hmine).trans hfollowed
      have hcounted : (if cluster_res.is_new = true then mined
          else { mined with tier2_drain_hits := mined.tier2_drain_hits + 1 }).cache = mined.cache := by
        split <;> rfl
      rw [cache_dispatch_triage_exemplar, hcounted, hmined] at hpinned
      exact hpinned

/-- A pipeline that some lines went through, with whatever the decision worker and other
    callers did to the rest of it: none of them touches the cache. An extractor that panics
    leaves it as the lookup did. -/
inductive Processed (H : Type) [Digest H] (crates : Crates) :
    List (List Char) → TieredPipeline → Prop where
  | new (capacity : Nat) : Processed H crates [] (with_ring_buffer_capacity capacity)
  | process {lines : List (List Char)} {self : TieredPipeline}
      (hprocessed : Processed H crates lines self) (clock : Clock) (raw : List Char)
      (event : NetworkActivity) (after : TieredPipeline)
      (hprocess : self.process H crates clock raw = ok (event, after)) :
      Processed H crates (lines ++ [raw]) after
  | process_panic {lines : List (List Char)} {self : TieredPipeline}
      (hprocessed : Processed H crates lines self) (clock : Clock) (raw : List Char)
      (sig_hash : UInt64) (hhash : SignatureLruCache.compute_signature_hash raw = ok sig_hash)
      (hpanic : self.process H crates clock raw = panic) (after : TieredPipeline)
      (hcache : after.cache = (self.cache.get sig_hash).2) :
      Processed H crates (lines ++ [raw]) after
  | outside {lines : List (List Char)} {self : TieredPipeline}
      (hprocessed : Processed H crates lines self) (after : TieredPipeline)
      (hcache : after.cache = self.cache) : Processed H crates lines after

theorem Processed.learned (h : Processed H crates lines self) : Learned lines self.cache := by
  induction h with
  | new capacity => exact learned_new
  | @process lines self hprocessed clock raw event after hprocess ih =>
    obtain ⟨sig_hash, hhash⟩ :=
      ne_panic_iff.mp (SignatureLruCache.compute_signature_hash_ne_panic raw)
    have hlooked : Learned lines (self.cache.get sig_hash).2 :=
      ih.congr (self.cache.get_get sig_hash) fun _ hline => hline
    obtain hcache | ⟨hknown, hcache⟩ := cache_of_process hhash hprocess
    · rw [hcache]
      exact hlooked.congr (fun _ => rfl) fun _ hline => List.mem_append_left _ hline
    · rw [hcache]
      exact hlooked.insert hhash hknown
  | @process_panic lines self hprocessed clock raw sig_hash hhash hpanic after hcache ih =>
    rw [hcache]
    exact ih.congr (self.cache.get_get sig_hash) fun _ hline => List.mem_append_left _ hline
  | outside hprocessed after hcache ih => rwa [hcache]

/-- A known line that is not cached comes to its native extractor. -/
theorem follow_route_of_known (hknown : Classifier.classify raw ≠ .Unknown) (self : TieredPipeline) :
    self.follow_route H crates clock sig_hash raw = ok (none, self) := by
  unfold follow_route
  split
  · split <;> rfl
  · rfl

theorem parse_pinned_of_known (hknown : Classifier.classify raw ≠ .Unknown) (self : TieredPipeline) :
    (self.parse_pinned H crates clock raw sig_hash >>= fun returned => ok returned.1) =
      fresh_event H crates clock raw := by
  unfold parse_pinned fresh_event
  dsimp only
  rw [if_pos hknown, UniversalParser.parse]
  rcases UniversalParser.parse_with_format H crates clock.native raw (Classifier.classify raw) with
    ⟨e | activity⟩ | _
  · rw [bind_ok, bind_ok]
    dsimp only
    cases UniversalParser.parse_lossless H crates clock.lossless clock.fallback raw <;> rfl
  · rfl
  · rfl

/-- Processing a known line that the lines of the cache agree with returns what a parser without
    a history returns. -/
theorem process_eq (h : Learned lines self.cache) (hagrees : Agrees lines raw)
    (hknown : Classifier.classify raw ≠ .Unknown) (clock : Clock) :
    (self.process H crates clock raw >>= fun returned => ok returned.1) =
      fresh_event H crates clock raw := by
  obtain ⟨sig_hash, hhash⟩ :=
    ne_panic_iff.mp (SignatureLruCache.compute_signature_hash_ne_panic raw)
  unfold process
  rw [hhash, bind_ok]
  dsimp only
  split
  · rename_i format hget
    rw [h.format_eq hagrees hhash hget]
    have hfresh : parse_with_format H crates clock raw (Classifier.classify raw) =
        fresh_event H crates clock raw := rfl
    rw [hfresh]
    cases fresh_event H crates clock raw <;> rfl
  · rw [follow_route_of_known hknown, bind_ok]
    dsimp only
    rw [cluster_and_parse]
    obtain ⟨⟨cluster_res, mined⟩, hmine⟩ := ne_panic_iff.mp (mine_ne_panic crates _ raw clock.drain_ms)
    rw [hmine, bind_ok]
    exact parse_pinned_of_known hknown _

end TieredPipeline

/-- Caching does not change results: after lines that agree with a known line, the cached parser
    and the pipeline return for it what a parser without a history returns, whatever the clock
    shows. -/
theorem caching_transparent {H : Type} [Digest H] {crates : Crates} {lines : List (List Char)}
    {cache : SignatureLruCache} {pipeline : TieredPipeline} {raw : List Char}
    (hparsed : UniversalParser.Parsed H crates lines cache)
    (hprocessed : TieredPipeline.Processed H crates lines pipeline)
    (hknown : Classifier.classify raw ≠ .Unknown) (hagrees : Agrees lines raw) :
    (∀ reading, (UniversalParser.parse_cached H crates reading cache raw >>= fun returned =>
      ok returned.1) = UniversalParser.parse H crates reading raw) ∧
    ∀ clock, (pipeline.process H crates clock raw >>= fun returned => ok returned.1) =
      fresh_event H crates clock raw :=
  ⟨UniversalParser.parse_cached_eq hparsed.learned hagrees,
    TieredPipeline.process_eq hprocessed.learned hagrees hknown⟩

def typeTrafficLine : List Char := str.lit "gw fw log type=traffic"

/-- A line of another vendor with the signature of `typeTrafficLine`. -/
def filterlogLine : List Char := str.lit "gw fw log filterlog 1,2,3,4,5,6,7,8,9"

/-- After its first line a parser and a pipeline have a cache. -/
theorem exists_after_typeTrafficLine :
    ∃ cache pipeline,
      UniversalParser.parse_cached Hash default default SignatureLruCache.new typeTrafficLine >>=
        (fun returned => ok returned.2) = ok cache ∧
      TieredPipeline.new.process Hash default default typeTrafficLine >>=
        (fun returned => ok returned.2) = ok pipeline ∧
      UniversalParser.Parsed Hash default [typeTrafficLine] cache ∧
      TieredPipeline.Processed Hash default [typeTrafficLine] pipeline := by
  have hparse : (UniversalParser.parse_cached Hash default default SignatureLruCache.new
      typeTrafficLine >>= fun _ => ok ()) = ok () := by
    decide +kernel
  have hprocess : (TieredPipeline.new.process Hash default default typeTrafficLine >>= fun _ =>
      ok ()) = ok () := by
    decide +kernel
  obtain ⟨⟨parsed, cache⟩, hparse, -⟩ := bind_eq_ok_iff.mp hparse
  obtain ⟨⟨event, pipeline⟩, hprocess, -⟩ := bind_eq_ok_iff.mp hprocess
  refine ⟨cache, pipeline, by rw [hparse]; rfl, by rw [hprocess]; rfl, ?_, ?_⟩
  · exact .parse_cached .new default typeTrafficLine parsed cache hparse
  · exact .process (.new 10000) default typeTrafficLine event pipeline hprocess

/-- The same line twice. -/
theorem caching_transparent_same_line :
    ∃ cache pipeline, UniversalParser.Parsed Hash default [typeTrafficLine] cache ∧
      TieredPipeline.Processed Hash default [typeTrafficLine] pipeline ∧
      Classifier.classify typeTrafficLine ≠ .Unknown ∧ Agrees [typeTrafficLine] typeTrafficLine ∧
      ∀ clock, (pipeline.process Hash default clock typeTrafficLine >>= fun returned =>
        ok returned.1) = fresh_event Hash default clock typeTrafficLine := by
  obtain ⟨cache, pipeline, -, -, hparsed, hprocessed⟩ := exists_after_typeTrafficLine
  have hknown : Classifier.classify typeTrafficLine ≠ .Unknown := by decide +kernel
  have hagrees : Agrees [typeTrafficLine] typeTrafficLine := by
    intro line hline _ _
    rw [List.mem_singleton.mp hline]
  exact ⟨cache, pipeline, hparsed, hprocessed, hknown, hagrees,
    (caching_transparent hparsed hprocessed hknown hagrees).2⟩

/-- A line of one vendor is parsed as a line of another that came before it. -/
theorem cached_format_shadows_class :
    ∃ cache pipeline, UniversalParser.Parsed Hash default [typeTrafficLine] cache ∧
      TieredPipeline.Processed Hash default [typeTrafficLine] pipeline ∧
      Classifier.classify filterlogLine ≠ .Unknown ∧
      (UniversalParser.parse_cached Hash default default cache filterlogLine >>= fun returned =>
        ok (returned.1.toOption.map fun event => event.metadata.product.vendor_name)) =
          ok (some "Fortinet") ∧
      (UniversalParser.parse Hash default default filterlogLine >>= fun parsed =>
        ok (parsed.toOption.map fun event => event.metadata.product.vendor_name)) =
          ok (some "Netgate") ∧
      (pipeline.process Hash default default filterlogLine >>= fun returned =>
        ok returned.1.metadata.product.vendor_name) = ok "Fortinet" ∧
      (fresh_event Hash default default filterlogLine >>= fun event =>
        ok event.metadata.product.vendor_name) = ok "Netgate" := by
  obtain ⟨cache, pipeline, hcache, hpipeline, hparsed, hprocessed⟩ := exists_after_typeTrafficLine
  refine ⟨cache, pipeline, hparsed, hprocessed, by decide +kernel, ?_, by decide +kernel, ?_,
    by decide +kernel⟩
  · have hvendor : (UniversalParser.parse_cached Hash default default SignatureLruCache.new
        typeTrafficLine >>= (fun returned => ok returned.2) >>= fun cache =>
        UniversalParser.parse_cached Hash default default cache filterlogLine >>= fun returned =>
        ok (returned.1.toOption.map fun event => event.metadata.product.vendor_name)) =
          ok (some "Fortinet") := by
      decide +kernel
    rwa [hcache, bind_ok] at hvendor
  · have hvendor : (TieredPipeline.new.process Hash default default typeTrafficLine >>=
        (fun returned => ok returned.2) >>= fun pipeline =>
        pipeline.process Hash default default filterlogLine >>= fun returned =>
        ok returned.1.metadata.product.vendor_name) = ok "Fortinet" := by
      decide +kernel
    rwa [hpipeline, bind_ok] at hvendor

end ulpf_ai.pipeline
