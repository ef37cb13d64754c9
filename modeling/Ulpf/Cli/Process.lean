import Ulpf.Integrity.Batcher.Failure
import Ulpf.Core.Parser.Universal
import Ulpf.Ai.Drain
import Ulpf.Cli.Ingest

open Result
open ulpf_core.parser ulpf_core.parser.extractors ulpf_core.schema.ocsf ulpf_ai.drain
open ulpf_integrity.batcher ulpf_integrity.merkle ulpf_integrity.storage

namespace ulpf_cli.ingest

/-- A line with what processing it takes from its surroundings. -/
structure Line where
  raw_log : String
  reading : Reading
  fallback : Reading
  mined_at : Int
  env : Env

/-- What the closure `process` writes to. -/
structure Worker (H : Type) where
  miner : DrainMiner
  batcher : BatchAccumulator
  disk : Disk H
  total_parsed : Nat
  total_anomalies : Nat
  total_blocks : Nat

/-- The fields of a parsed event that go to the batcher; `to_json` is
    `serde_json::to_string`. -/
def Event.of_activity (to_json : NetworkActivity → String) (activity : NetworkActivity) : Event where
  vendor_name := activity.metadata.product.vendor_name
  time := activity.time
  event_id := activity.metadata.event_id
  ocsf_json := to_json activity

section

variable (H : Type) [Digest H] (crates : Crates) (to_json : NetworkActivity → String)

/-- What the batcher is given for a line. -/
def Line.incoming (line : Line) : Result IncomingLog := do
  let event ← UniversalParser.parse_lossless H crates line.reading line.fallback line.raw_log.toList
  ok ((Event.of_activity to_json event).incoming line.raw_log)

variable {H}

def Worker.mine (self : Worker H) (raw : List Char) (now_ms : Int) :
    Result (ClusterResult × Worker H) :=
  self.miner.add_log crates raw now_ms >>= fun (result, miner) => ok (result, { self with miner })

/-- The closure `process`. -/
def Worker.process (io : Io) (self : Worker H) (line : Line) :
    Result (Except String Unit × Worker H) := do
  let incoming ← line.incoming H crates to_json
  let (cluster_res, self) ← { self with total_parsed := self.total_parsed + 1 }.mine crates
    line.raw_log.toList line.mined_at
  let (pushed, batcher, disk) ← self.batcher.push H io line.env incoming self.disk
  let self := { self with
    batcher, disk, total_anomalies := self.total_anomalies + cluster_res.anomaly.toList.length }
  match pushed with
  | .error e => ok (.error e, self)
  | .ok flushed =>
    ok (.ok (), { self with total_blocks := self.total_blocks + flushed.toList.length })

/-- The lines of the consumer in turn. The first push that fails ends ingest. -/
def Worker.feed (io : Io) : List Line → Worker H → Result (Except String Unit × Worker H)
  | [], self => ok (.ok (), self)
  | line :: rest, self => do
    match ← self.process crates to_json io line with
    | (.error e, self) => ok (.error e, self)
    | (.ok (), self) => feed io rest self

/-- No block that the lines make the batcher flush has more than 128 vendors. -/
def Worker.VendorsFit : List Line → Worker H → Prop
  | [], _ => True
  | line :: rest, self =>
    (∀ log, line.incoming H crates to_json = ok log →
      (Call.Push log).flushes line.env self.batcher = true →
      distinctVendors (((Call.Push log).accept line.env self.batcher).buffer.map (·.vendor)) ≤ 128) ∧
    ∀ self', self.process crates to_json Io.reliable line = ok (.ok (), self') →
      VendorsFit rest self'

end

section

variable {H : Type}

theorem Worker.mine_ok (crates : Crates) (self : Worker H) (raw : List Char) (now_ms : Int) :
    ∃ result self', self.mine crates raw now_ms = ok (result, self') ∧
      self'.batcher = self.batcher ∧ self'.disk = self.disk := by
  obtain ⟨result, miner, hmined, -⟩ := DrainMiner.add_log_ok crates self.miner raw now_ms
  rw [Worker.mine, hmined]
  exact ⟨_, _, rfl, rfl, rfl⟩

variable {crates : Crates} {to_json : NetworkActivity → String} [Digest H]

/-- The miner takes every line, so processing a parsed line is the push of its event. -/
theorem Worker.process_spec (self : Worker H) {line : Line} {log : IncomingLog}
    (hlog : line.incoming H crates to_json = ok log) (io : Io) :
    ∃ pushed batcher' disk' self',
      (Call.Push log).exec H io line.env self.batcher self.disk = ok (pushed, batcher', disk') ∧
      self.process crates to_json io line = ok (pushed.map fun _ => (), self') ∧
      self'.batcher = batcher' ∧ self'.disk = disk' := by
  obtain ⟨cluster_res, mined, hmined, hbatcher, hdisk⟩ := Worker.mine_ok crates
    { self with total_parsed := self.total_parsed + 1 } line.raw_log.toList line.mined_at
  have hreturns : ∃ pushed batcher' disk',
      (Call.Push log).exec H io line.env self.batcher self.disk = ok (pushed, batcher', disk') := by
    rw [Call.exec_eq]
    split
    · obtain ⟨result, batcher', disk', hflush, -⟩ :=
        ((Call.Push log).accept line.env self.batcher).flush_spec io line.env self.disk
      exact ⟨_, _, _, hflush⟩
    · exact ⟨_, _, _, rfl⟩
  obtain ⟨pushed, batcher', disk', hexec⟩ := hreturns
  have hpush : self.batcher.push H io line.env log self.disk = ok (pushed, batcher', disk') := hexec
  refine ⟨pushed, batcher', disk', ?_⟩
  simp only [Worker.process, hlog, bind_ok, hmined, hbatcher, hdisk, hpush]
  cases pushed with
  | error e => exact ⟨_, hexec, rfl, rfl, rfl⟩
  | ok flushed => exact ⟨_, hexec, rfl, rfl, rfl⟩

/-- A line whose parse panics never reaches the batcher. -/
theorem Worker.process_panic (self : Worker H) {line : Line}
    (hpanic : line.incoming H crates to_json = panic) (io : Io) :
    self.process crates to_json io line = panic := by
  rw [Worker.process, hpanic]
  rfl

end

section

variable {H : Type} [Digest H]

/-- When network input cannot stop the archive: without I/O errors no push fails,
    whatever the lines and the batch size, exactly if no block that is flushed has
    more vendors than the dictionary column takes. -/
theorem Worker.feed_never_fails_iff (crates : Crates) (to_json : NetworkActivity → String)
    (lines : List Line) (worker : Worker H) :
    (∀ e worker', worker.feed crates to_json Io.reliable lines ≠ ok (.error e, worker')) ↔
      worker.VendorsFit crates to_json lines := by
  induction lines generalizing worker with
  | nil => simp [Worker.feed, Worker.VendorsFit]
  | cons line rest ih =>
    cases hlog : line.incoming H crates to_json with
    | panic =>
      have hprocess := Worker.process_panic worker hlog Io.reliable
      simp [Worker.feed, Worker.VendorsFit, hprocess, hlog]
    | ok log =>
      obtain ⟨pushed, batcher', disk', worker₁, hexec, hprocess, -⟩ :=
        Worker.process_spec worker hlog Io.reliable
      have hfails := Call.push_error_iff line.env worker.batcher worker.disk log
      rw [hexec] at hfails
      cases pushed with
      | error e =>
        obtain ⟨hflushes, hmany⟩ := hfails.mp ⟨e, _, _, rfl⟩
        refine iff_of_false (fun hnever => ?_) (fun hfit => ?_)
        · exact hnever e worker₁ (by rw [Worker.feed, hprocess]; rfl)
        · have := hfit.1 log hlog hflushes
          omega
      | ok flushed =>
        have hrest : worker.feed crates to_json Io.reliable (line :: rest) =
            worker₁.feed crates to_json Io.reliable rest := by
          rw [Worker.feed, hprocess]
          rfl
        rw [hrest, ih, Worker.VendorsFit, hprocess]
        constructor
        · intro hfit
          refine ⟨fun log' hlog' hflushes => ?_, fun worker' hworker' => ?_⟩
          · rw [hlog] at hlog'
            cases hlog'
            by_contra hmany
            obtain ⟨e, batcher'', disk'', hok⟩ := hfails.mpr ⟨hflushes, by omega⟩
            cases hok
          · cases hworker'
            exact hfit
        · rintro ⟨-, hfit⟩
          exact hfit _ rfl

end

/-- A CEF line whose header names only the vendor. -/
def cefLine (vendor : String) : Line where
  raw_log := String.ofList (str.lit "CEF:0|" ++ (vendor.toList ++ ['|']))
  reading := default
  fallback := default
  mined_at := 0
  env := Env.fixed

/-- The names `0`, `1`, `2` and so on. -/
def numberedVendors (n : Nat) : List String := (List.range n).map fun i => String.ofList (Nat.toDigits 10 i)

section

variable {H : Type} [Digest H]

/-- The vendor that the batcher is given for a CEF line is the sender's choice. -/
theorem incoming_cefLine (crates : Crates) (to_json : NetworkActivity → String) {vendor : String}
    (hvendor : ∀ c ∈ vendor.toList, c.isDigit = true) :
    ∃ log, (cefLine vendor).incoming H crates to_json = ok log ∧ log.vendor = vendor := by
  have hdigit : ∀ c : Char, c.isDigit = true → c ≠ '|' ∧ c ≠ '\\' ∧ c.is_whitespace = false := by
    intro c hc
    have hrange : (48 : Nat) ≤ c.toNat ∧ c.toNat ≤ 57 := by
      simp only [Char.isDigit, Bool.and_eq_true, decide_eq_true_eq] at hc
      exact hc
    refine ⟨?_, ?_, ?_⟩
    · rintro rfl
      cases hc
    · rintro rfl
      cases hc
    · simp [Char.is_whitespace]
      omega
  have htrim : str.trim vendor.toList = vendor.toList := by
    apply str.trim_eq_self
    · exact fun c hc => (hdigit c (hvendor c (List.mem_of_mem_head? hc))).2.2
    · exact fun c hc => (hdigit c (hvendor c (List.mem_of_getLast? hc))).2.2
  obtain ⟨event, hparse, hname⟩ := CefExtractor.parse_vendor crates (default : Reading).now_ms
    (fun c hc => ⟨(hdigit c (hvendor c hc)).1, (hdigit c (hvendor c hc)).2.1⟩) htrim
  have hextract : UniversalParser.extract crates (default : Reading).now_ms
      (str.lit "CEF:0|" ++ (vendor.toList ++ ['|'])) (classifier.Classifier.classify
        (str.lit "CEF:0|" ++ (vendor.toList ++ ['|']))) = ok (.ok event) := by
    rw [show str.lit "CEF:0|" = str.lit "CEF:" ++ str.lit "0|" from rfl, List.append_assoc,
      classifier.Classifier.classify_cef]
    exact hparse
  refine ⟨(Event.of_activity to_json (UniversalParser.stamp H default
    (str.lit "CEF:0|" ++ (vendor.toList ++ ['|'])) event)).incoming (cefLine vendor).raw_log, ?_,
    hname.trans String.ofList_toList⟩
  rw [Line.incoming, cefLine, String.toList_ofList,
    UniversalParser.parse_lossless_of_extract H hextract]
  rfl

theorem Worker.feed_append {first : List Line} {worker worker' : Worker H} {io : Io}
    (hfirst : worker.feed crates to_json io first = ok (.ok (), worker')) (rest : List Line) :
    worker.feed crates to_json io (first ++ rest) = worker'.feed crates to_json io rest := by
  induction first generalizing worker with
  | nil =>
    cases hfirst
    rfl
  | cons line first ih =>
    obtain ⟨⟨result, worker₁⟩, hprocess, hfirst⟩ := bind_eq_ok_iff.mp hfirst
    cases result with
    | error e => cases hfirst
    | ok =>
      rw [List.cons_append, Worker.feed, hprocess]
      exact ih hfirst

/-- While there is room, the vendors of CEF lines pile up in the buffer. -/
theorem Worker.feed_cefLines (crates : Crates) (to_json : NetworkActivity → String)
    {vendors : List String} (hvendors : ∀ vendor ∈ vendors, ∀ c ∈ vendor.toList, c.isDigit = true)
    (worker : Worker H)
    (hduration : 0 < worker.batcher.config.max_batch_duration_ms)
    (hroom : worker.batcher.buffer.length + vendors.length < worker.batcher.config.max_batch_size)
    (io : Io) :
    ∃ worker', worker.feed crates to_json io (vendors.map cefLine) = ok (.ok (), worker') ∧
      worker'.batcher.config = worker.batcher.config ∧
      worker'.batcher.buffer.map (·.vendor) = worker.batcher.buffer.map (·.vendor) ++ vendors := by
  induction vendors generalizing worker with
  | nil => exact ⟨worker, rfl, rfl, by simp⟩
  | cons vendor vendors ih =>
    obtain ⟨hvendor, hrest⟩ := List.forall_mem_cons.mp hvendors
    rw [List.length_cons] at hroom
    obtain ⟨log, hlog, rfl⟩ := incoming_cefLine (H := H) crates to_json hvendor
    obtain ⟨pushed, batcher', disk', worker₁, hexec, hprocess, hbatcher, -⟩ :=
      Worker.process_spec worker hlog io
    have hstays : (Call.Push log).flushes Env.fixed worker.batcher = false := by
      apply BatchAccumulator.should_flush_eq_false
      · simp only [Call.accept, List.length_append, List.length_singleton]
        omega
      · -- the clock of the lines stands still, so no time has passed since the first one
        intro elapsed helapsed
        obtain ⟨since, -, rfl⟩ := Option.map_eq_some_iff.mp helapsed
        simp only [BatchAccumulator.max_batch_duration, Call.accept_config, Env.fixed]
        omega
    rw [Call.exec_eq, cefLine, hstays, if_neg (by decide)] at hexec
    cases hexec
    obtain ⟨worker', hfeed, hconfig, hbuffer⟩ := ih hrest worker₁
      (by rw [hbatcher]; exact hduration)
      (by rw [hbatcher, Call.accept_config]; simp [Call.accept]; omega)
    refine ⟨worker', ?_, ?_, ?_⟩
    · rw [List.map_cons, Worker.feed, hprocess]
      exact hfeed
    · rw [hconfig, hbatcher, Call.accept_config]
    · rw [hbuffer, hbatcher]
      simp [Call.accept]

end

theorem isDigit_of_mem_numberedVendors {n : Nat} {vendor : String} (hvendor : vendor ∈ numberedVendors n)
    {c : Char} (hc : c ∈ vendor.toList) : c.isDigit = true := by
  obtain ⟨i, -, rfl⟩ := List.mem_map.mp hvendor
  rw [String.toList_ofList] at hc
  exact Nat.isDigit_of_mem_toDigits (by decide) (by decide) hc

theorem nodup_numberedVendors (n : Nat) : (numberedVendors n).Nodup := by
  refine List.nodup_range.map fun i j hnames => ?_
  have hdigits := congrArg (fun digits => Nat.ofDigitChars 10 digits 0) (String.ofList_injective hnames)
  simpa using hdigits

/-- The consumer of a first start with batches of 129 logs. -/
def wideBatchWorker : Worker Hash where
  miner := DrainMiner.new DrainConfig.default
  batcher := ⟨⟨129, 2000, "data/parquet", "data/ledger.jsonl"⟩, [], none, 0, []⟩
  disk := Disk.empty Hash
  total_parsed := 0
  total_anomalies := 0
  total_blocks := 0

/-- 129 CEF lines with as many vendors end ingest. -/
theorem Worker.feed_fails_on_129_vendors :
    ∃ e worker', wideBatchWorker.feed default (fun _ => "") Io.reliable
      ((numberedVendors 129).map cefLine) = ok (.error e, worker') := by
  have hsplit : numberedVendors 129 = numberedVendors 128 ++ [String.ofList (Nat.toDigits 10 128)] := by
    simp only [numberedVendors, List.range_succ (n := 128), List.map_append, List.map_cons, List.map_nil]
  have hdigits : ∀ vendor ∈ numberedVendors 129, ∀ c ∈ vendor.toList, c.isDigit = true :=
    fun vendor hvendor c hc => isDigit_of_mem_numberedVendors hvendor hc
  obtain ⟨worker, hfeed, hconfig, hbuffer⟩ := Worker.feed_cefLines default (fun _ => "")
    (fun (vendor : String) (hvendor : vendor ∈ numberedVendors 128) c hc =>
      isDigit_of_mem_numberedVendors hvendor hc) wideBatchWorker (by decide)
    (by simp [wideBatchWorker, numberedVendors]) Io.reliable
  obtain ⟨log, hlog, hvendor⟩ := incoming_cefLine (H := Hash) default (fun _ => "")
    (hdigits (String.ofList (Nat.toDigits 10 128)) (by rw [hsplit]; simp))
  have hvendors : ((Call.Push log).accept Env.fixed worker.batcher).buffer.map (·.vendor) =
      numberedVendors 129 := by
    simp [Call.accept, hbuffer, hvendor, hsplit, wideBatchWorker]
  have hlength : ((Call.Push log).accept Env.fixed worker.batcher).buffer.length = 129 := by
    rw [← List.length_map (·.vendor), hvendors, numberedVendors, List.length_map, List.length_range]
  have hflushes : (Call.Push log).flushes Env.fixed worker.batcher = true := by
    apply BatchAccumulator.should_flush_of_count
    · exact List.ne_nil_of_length_pos (by omega)
    · rw [hlength, Call.accept_config, hconfig]
      exact le_rfl
  obtain ⟨e, batcher', disk', herror⟩ := (Call.push_error_iff Env.fixed worker.batcher worker.disk
    log).mpr ⟨hflushes, by
      rw [hvendors, distinctVendors_of_nodup (nodup_numberedVendors 129)]
      simp [numberedVendors]⟩
  obtain ⟨pushed, _, _, worker', hexec, hprocess, -⟩ :=
    Worker.process_spec worker hlog Io.reliable
  have hpushed := hexec.symm.trans herror
  cases hpushed
  refine ⟨e, worker', ?_⟩
  rw [hsplit, List.map_append, Worker.feed_append hfeed, List.map_singleton, Worker.feed, hprocess]
  rfl

end ulpf_cli.ingest
