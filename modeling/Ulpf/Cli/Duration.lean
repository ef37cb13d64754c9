import Ulpf.Cli.Process

open Result
open ulpf_core.parser ulpf_core.schema.ocsf ulpf_ai.drain
open ulpf_integrity.batcher ulpf_integrity.merkle

namespace ulpf_cli.ingest

/-- An item of a popped batch, with what processing it takes from its surroundings. -/
structure Item where
  bytes : List UInt8
  reading : Reading
  fallback : Reading
  mined_at : Int
  env : Env

/-- The body of the `for` loop passes over items that do not decode, and empty ones. -/
def Item.line (item : Item) : Option Line :=
  if raw_str item.bytes = "" then none
  else some ⟨raw_str item.bytes, item.reading, item.fallback, item.mined_at, item.env⟩

/-- One iteration of the live loop: what the clock shows when its sleep is over, the batch it
    pops and how its I/O calls end. -/
structure Tick where
  start : Nat
  batch : List Item
  io : Io

namespace Tick

def lines (tick : Tick) : List Line := tick.batch.filterMap Item.line

/-- All readings of the monotonic clock in an iteration. -/
def readings (tick : Tick) : List Nat :=
  tick.start :: tick.lines.flatMap fun line => [line.env.instant, line.env.elapsed_at]

end Tick

namespace Worker

/-- The lines whose logs are in the buffer: the last ones that were taken. -/
def buffered {H : Type} (worker : Worker H) (lines : List Line) : List Line :=
  lines.drop (lines.length - worker.batcher.buffer.length)

/-- The buffer is empty, or the oldest log in it arrived less than the batch duration before. -/
def InTime {H : Type} (worker : Worker H) (lines : List Line) (t : Nat) : Prop :=
  ∀ oldest ∈ (worker.buffered lines).head?, t < oldest.env.instant + worker.batcher.max_batch_duration

section

variable {H : Type} [Digest H] (crates : Crates) (to_json : NetworkActivity → String)

/-- The live loop. The first push that fails ends ingest. -/
def live : List Tick → Worker H → Result (Except String Unit × Worker H)
  | [], worker => ok (.ok (), worker)
  | tick :: ticks, worker => do
    match ← worker.feed crates to_json tick.io tick.lines with
    | (.error e, worker) => ok (.error e, worker)
    | (.ok (), worker) => live ticks worker

/-- Every iteration takes a line, or starts before the oldest buffered log is due. -/
def Timely : List Line → List Tick → Worker H → Prop
  | _, [], _ => True
  | lines, tick :: ticks, worker =>
    (tick.lines ≠ [] ∨ worker.InTime lines tick.start) ∧
    ∀ worker', worker.feed crates to_json tick.io tick.lines = ok (.ok (), worker') →
      Timely (lines ++ tick.lines) ticks worker'

end

/-- The accumulator remembers when the oldest log in its buffer arrived. -/
structure Tracks {H : Type} (worker : Worker H) (lines : List Line) : Prop where
  length_le : worker.batcher.buffer.length ≤ lines.length
  first_item_time : worker.batcher.first_item_time =
    (worker.buffered lines).head?.map fun line => line.env.instant

section

variable {H : Type} {lines : List Line} {worker worker' : Worker H}

theorem tracks_of_empty (hbuffer : worker.batcher.buffer = [])
    (hfirst : worker.batcher.first_item_time = none) : worker.Tracks [] := by
  refine ⟨by simp [hbuffer], ?_⟩
  rw [hfirst]
  simp [buffered]

/-- Where the buffer was emptied, none of the lines is buffered. -/
theorem buffered_eq_nil (hbuffer : worker.batcher.buffer = []) (lines : List Line) :
    worker.buffered lines = [] := by
  simp [buffered, hbuffer]

theorem Tracks.length_buffered (h : worker.Tracks lines) :
    (worker.buffered lines).length = worker.batcher.buffer.length := by
  have hle := h.length_le
  simp only [buffered, List.length_drop]
  omega

theorem Tracks.buffered_concat {log : IncomingLog} (h : worker.Tracks lines)
    (hbuffer : worker'.batcher.buffer = worker.batcher.buffer ++ [log]) (line : Line) :
    worker'.buffered (lines ++ [line]) = worker.buffered lines ++ [line] := by
  have hle := h.length_le
  simp only [buffered, hbuffer, List.length_append, List.length_singleton]
  rw [show lines.length + 1 - (worker.batcher.buffer.length + 1) =
    lines.length - worker.batcher.buffer.length by omega, List.drop_append_of_le_length (by omega)]

/-- The line that a push added is the oldest one if the buffer was empty. -/
theorem Tracks.accept {line : Line} {log : IncomingLog} (h : worker.Tracks lines)
    (hbatcher : worker'.batcher = (Call.Push log).accept line.env worker.batcher) :
    worker'.Tracks (lines ++ [line]) := by
  have hbuffer : worker'.batcher.buffer = worker.batcher.buffer ++ [log] := by
    rw [hbatcher]
    rfl
  refine ⟨?_, ?_⟩
  · have hle := h.length_le
    rw [hbuffer, List.length_append, List.length_append]
    exact Nat.add_le_add_right hle 1
  · rw [h.buffered_concat hbuffer line, hbatcher]
    simp only [Call.accept, h.first_item_time]
    have hlength := h.length_buffered
    cases hbuffered : worker.buffered lines with
    | nil =>
      rw [hbuffered] at hlength
      have hempty : worker.batcher.buffer.isEmpty = true := by
        simpa using (List.length_eq_zero_iff.mp hlength.symm)
      simp [hempty]
    | cons oldest rest =>
      rw [hbuffered] at hlength
      have hnonempty : worker.batcher.buffer.isEmpty = false := by
        rw [List.isEmpty_eq_false_iff, ← List.length_pos_iff, ← hlength]
        exact Nat.succ_pos _
      simp [hnonempty]

end

section

variable {H : Type} [Digest H] {crates : Crates} {to_json : NetworkActivity → String} {io : Io}
  {lines : List Line} {worker worker' : Worker H} {line : Line}

/-- A line that was processed empties the buffer or finds its oldest log in time. -/
theorem Tracks.process (h : worker.Tracks lines)
    (hprocess : worker.process crates to_json io line = ok (.ok (), worker')) :
    worker'.Tracks (lines ++ [line]) ∧ worker'.InTime (lines ++ [line]) line.env.elapsed_at := by
  cases hlog : line.incoming H crates to_json with
  | panic =>
    rw [process_panic worker hlog] at hprocess
    cases hprocess
  | ok log =>
    obtain ⟨pushed, batcher', disk', worker₁, hexec, hprocess', hbatcher, -⟩ :=
      process_spec worker hlog io
    rw [hprocess'] at hprocess
    cases pushed with
    | error e => cases hprocess
    | ok value =>
      cases hprocess
      rw [Call.exec_eq] at hexec
      split at hexec
      · have hempty := BatchAccumulator.buffer_eq_nil_of_flush hexec
        rw [← hbatcher] at hempty hexec
        have hnone := buffered_eq_nil hempty (lines ++ [line])
        refine ⟨⟨by simp [hempty], ?_⟩, ?_⟩
        · rw [hnone]
          obtain ⟨hbuffer, -⟩ | ⟨flushed, -, hflushed⟩ := BatchAccumulator.flush_of_ok hexec
          · simp [Call.accept] at hbuffer
          · rw [hflushed.batcher_eq]
            rfl
        · intro oldest holdest
          rw [hnone] at holdest
          cases holdest
      · rename_i hstays
        cases hexec
        have htracks := h.accept hbatcher
        refine ⟨htracks, fun oldest holdest => ?_⟩
        have hfirst := htracks.first_item_time
        rw [Option.mem_def.mp holdest, hbatcher] at hfirst
        have hlt := Call.elapsed_lt_of_not_flushes (Bool.eq_false_iff.mpr hstays) hfirst
        rw [hbatcher]
        exact hlt

/-- The lines of an iteration in turn. The last of them leaves the buffer empty or in time. -/
theorem Tracks.feed {new : List Line} (h : worker.Tracks lines)
    (hfeed : worker.feed crates to_json io new = ok (.ok (), worker')) :
    worker'.Tracks (lines ++ new) ∧
      ∀ last ∈ new.getLast?, worker'.InTime (lines ++ new) last.env.elapsed_at := by
  induction new generalizing worker lines with
  | nil =>
    cases hfeed
    rw [List.append_nil]
    exact ⟨h, by simp⟩
  | cons line new ih =>
    rw [Worker.feed] at hfeed
    obtain ⟨⟨result, worker₁⟩, hprocess, hfeed⟩ := bind_eq_ok_iff.mp hfeed
    cases result with
    | error e => cases hfeed
    | ok =>
      obtain ⟨htracks, hintime⟩ := h.process hprocess
      obtain ⟨htracks', hlast⟩ := ih htracks hfeed
      rw [List.append_assoc, List.singleton_append] at htracks' hlast
      refine ⟨htracks', ?_⟩
      cases new with
      | nil =>
        cases hfeed
        intro last hmem
        cases hmem
        exact hintime
      | cons line' new => exact hlast

/-- An iteration ends in time exactly if it took a line or started in time: nothing else looks
    at the clock. -/
theorem Tracks.tick_iff {tick : Tick} (h : worker.Tracks lines)
    (hclock : tick.readings.Pairwise (· ≤ ·))
    (hfeed : worker.feed crates to_json tick.io tick.lines = ok (.ok (), worker')) :
    worker'.InTime (lines ++ tick.lines) tick.start ↔
      tick.lines ≠ [] ∨ worker.InTime lines tick.start := by
  cases hlines : tick.lines.getLast? with
  | none =>
    rw [List.getLast?_eq_none_iff] at hlines
    rw [hlines] at hfeed ⊢
    cases hfeed
    simp
  | some last =>
    have hmem : last ∈ tick.lines := List.mem_of_getLast? hlines
    have hlast := (h.feed hfeed).2 last hlines
    have hstart : tick.start ≤ last.env.elapsed_at := by
      apply (List.pairwise_cons.mp hclock).1
      rw [List.mem_flatMap]
      exact ⟨last, hmem, by simp⟩
    refine iff_of_true (fun oldest holdest => ?_) (.inl (List.ne_nil_of_mem hmem))
    exact hstart.trans_lt (hlast oldest holdest)

theorem live_cons_eq_ok_iff {tick : Tick} {ticks : List Tick} :
    worker.live crates to_json (tick :: ticks) = ok (.ok (), worker') ↔
      ∃ next, worker.feed crates to_json tick.io tick.lines = ok (.ok (), next) ∧
        next.live crates to_json ticks = ok (.ok (), worker') := by
  rw [live, bind_eq_ok_iff]
  constructor
  · rintro ⟨⟨result, next⟩, hfeed, hlive⟩
    cases result with
    | error e => cases hlive
    | ok => exact ⟨next, hfeed, hlive⟩
  · rintro ⟨next, hfeed, hlive⟩
    exact ⟨(.ok (), next), hfeed, hlive⟩

theorem Tracks.live_iff (crates : Crates) (to_json : NetworkActivity → String)
    {ticks : List Tick} (h : worker.Tracks lines)
    (hclock : (ticks.flatMap Tick.readings).Pairwise (· ≤ ·)) :
    (∀ earlier tick, earlier ++ [tick] <+: ticks → ∀ worker',
      worker.live crates to_json (earlier ++ [tick]) = ok (.ok (), worker') →
      worker'.InTime (lines ++ (earlier ++ [tick]).flatMap Tick.lines) tick.start) ↔
      worker.Timely crates to_json lines ticks := by
  induction ticks generalizing worker lines with
  | nil =>
    refine iff_of_true (fun earlier tick hprefix => ?_) trivial
    simp at hprefix
  | cons tick ticks ih =>
    rw [List.flatMap_cons, List.pairwise_append] at hclock
    have hone : ∀ {worker'}, worker.feed crates to_json tick.io tick.lines = ok (.ok (), worker') →
        worker.live crates to_json [tick] = ok (.ok (), worker') := fun hfeed =>
      live_cons_eq_ok_iff.mpr ⟨_, hfeed, rfl⟩
    have hrest : ∀ {next}, worker.feed crates to_json tick.io tick.lines = ok (.ok (), next) → _ :=
      fun {next} hfeed => ih (h.feed hfeed).1 hclock.2.1
    constructor
    · intro hall
      refine ⟨?_, fun next hfeed => (hrest hfeed).mp ?_⟩
      · by_cases hlines : tick.lines = []
        · have hfeed : worker.feed crates to_json tick.io tick.lines = ok (.ok (), worker) := by
            rw [hlines]
            rfl
          have hend := hall [] tick (by simp) worker (hone hfeed)
          refine (h.tick_iff hclock.1 hfeed).mp ?_
          simpa using hend
        · exact .inl hlines
      · intro earlier last hprefix worker' hlive
        have hend := hall (tick :: earlier) last (by simpa using hprefix) worker'
          (live_cons_eq_ok_iff.mpr ⟨next, hfeed, hlive⟩)
        simpa using hend
    · rintro ⟨htick, htimely⟩ earlier last hprefix worker' hlive
      cases earlier with
      | nil =>
        obtain rfl : last = tick := by simpa using hprefix
        obtain ⟨next, hfeed, hnext⟩ := live_cons_eq_ok_iff.mp hlive
        cases hnext
        have hend := (h.tick_iff hclock.1 hfeed).mpr htick
        simpa using hend
      | cons first earlier =>
        obtain ⟨rfl, htail⟩ := List.cons_prefix_cons.mp hprefix
        obtain ⟨next, hfeed, hnext⟩ := live_cons_eq_ok_iff.mp hlive
        have hend := (hrest hfeed).mpr (htimely next hfeed) earlier last htail worker' hnext
        simpa using hend

end

/-- The duration trigger in the live loop: at the end of every iteration the buffer is empty or its
    oldest log arrived less than the batch duration before the iteration started, exactly if every
    iteration without a line starts while that is so. -/
theorem duration_trigger_iff {H : Type} [Digest H] (crates : Crates)
    (to_json : NetworkActivity → String) {worker : Worker H} (hbuffer : worker.batcher.buffer = [])
    (hfirst : worker.batcher.first_item_time = none) {ticks : List Tick}
    (hclock : (ticks.flatMap Tick.readings).Pairwise (· ≤ ·)) :
    (∀ earlier tick, earlier ++ [tick] <+: ticks → ∀ worker',
      worker.live crates to_json (earlier ++ [tick]) = ok (.ok (), worker') →
      worker'.InTime ((earlier ++ [tick]).flatMap Tick.lines) tick.start) ↔
      worker.Timely crates to_json [] ticks := by
  have htracks := tracks_of_empty hbuffer hfirst
  simpa using htracks.live_iff crates to_json hclock

/-- A line that came in at once. -/
def helloItem : Item := ⟨"hello".as_bytes, default, default, 0, Env.fixed⟩

def helloLine : Line := ⟨"hello", default, default, 0, Env.fixed⟩

theorem lines_helloItem (start : Nat) (io : Io) : Tick.lines ⟨start, [helloItem], io⟩ = [helloLine] := by
  have hline : helloItem.line = some helloLine := by
    rw [Item.line, helloItem, raw_str, from_utf8_as_bytes]
    rfl
  simp [Tick.lines, hline]

/-- The line stays in the buffer. -/
theorem feed_helloLine : ∃ worker',
    wideBatchWorker.feed default (fun _ => "") Io.reliable [helloLine] = ok (.ok (), worker') ∧
      worker'.batcher.max_batch_duration = 2000000000 ∧
      worker'.buffered [helloLine] = [helloLine] := by
  have hfed : (wideBatchWorker.feed default (fun _ => "") Io.reliable [helloLine] >>= fun returned =>
      ok (returned.1.toBool, returned.2.batcher.buffer.length,
        returned.2.batcher.config.max_batch_duration_ms)) = ok (true, 1, 2000) := by
    decide +kernel
  obtain ⟨⟨outcome, worker'⟩, hfeed, hfed⟩ := bind_eq_ok_iff.mp hfed
  obtain ⟨houtcome, hstate⟩ := Prod.mk.inj (Result.ok.inj hfed)
  obtain ⟨hlength, hduration⟩ := Prod.mk.inj hstate
  cases outcome with
  | error e => cases houtcome
  | ok =>
    refine ⟨worker', hfeed, ?_, ?_⟩
    · rw [BatchAccumulator.max_batch_duration, hduration]
    · rw [buffered, hlength]
      rfl

/-- After one line an iteration takes none, while the line is younger than the batch duration. -/
theorem duration_trigger_iff_silence :
    wideBatchWorker.batcher.buffer = [] ∧ wideBatchWorker.batcher.first_item_time = none ∧
    ([⟨0, [helloItem], Io.reliable⟩, ⟨1999999999, [], Io.reliable⟩].flatMap
      Tick.readings).Pairwise (· ≤ ·) ∧
    ∀ earlier tick, earlier ++ [tick] <+:
        [⟨0, [helloItem], Io.reliable⟩, ⟨1999999999, [], Io.reliable⟩] → ∀ worker',
      wideBatchWorker.live default (fun _ => "") (earlier ++ [tick]) = ok (.ok (), worker') →
      worker'.InTime ((earlier ++ [tick]).flatMap Tick.lines) tick.start := by
  have hlines := lines_helloItem 0 Io.reliable
  have hnone : Tick.lines ⟨1999999999, [], Io.reliable⟩ = [] := rfl
  have hclock : ([⟨0, [helloItem], Io.reliable⟩, ⟨1999999999, [], Io.reliable⟩].flatMap
      Tick.readings).Pairwise (· ≤ ·) := by
    simp [Tick.readings, hlines, hnone, helloLine, Env.fixed]
  refine ⟨rfl, rfl, hclock, (duration_trigger_iff default (fun _ => "") rfl rfl hclock).mpr ?_⟩
  refine ⟨.inl (by simp [hlines]), fun worker' hfeed => ⟨.inr ?_, fun _ _ => trivial⟩⟩
  rw [hlines] at hfeed ⊢
  obtain ⟨fed, hfed, hmax, hbuffered⟩ := feed_helloLine
  cases hfed.symm.trans hfeed
  intro oldest holdest
  rw [List.nil_append, hbuffered] at holdest
  cases holdest
  rw [hmax]
  decide

/-- After one line nothing comes for as long as the batch duration, and the iteration that starts
    then leaves the line in the buffer. -/
theorem duration_trigger_misses_silence :
    ∃ worker', wideBatchWorker.live default (fun _ => "")
        [⟨0, [helloItem], Io.reliable⟩, ⟨2000000000, [], Io.reliable⟩] = ok (.ok (), worker') ∧
      ([⟨0, [helloItem], Io.reliable⟩, ⟨2000000000, [], Io.reliable⟩].flatMap
        Tick.readings).Pairwise (· ≤ ·) ∧
      worker'.batcher.max_batch_duration = 2000000000 ∧
      ¬ worker'.InTime ([⟨0, [helloItem], Io.reliable⟩, ⟨2000000000, [], Io.reliable⟩].flatMap
        Tick.lines) 2000000000 := by
  have hlines := lines_helloItem 0 Io.reliable
  have hnone : Tick.lines ⟨2000000000, [], Io.reliable⟩ = [] := rfl
  obtain ⟨worker', hfeed, hmax, hbuffered⟩ := feed_helloLine
  refine ⟨worker', ?_, ?_, hmax, ?_⟩
  · refine live_cons_eq_ok_iff.mpr ⟨worker', ?_, rfl⟩
    rw [hlines]
    exact hfeed
  · simp [Tick.readings, hlines, hnone, helloLine, Env.fixed]
  · intro hintime
    have hlt := hintime helloLine (by simp [hlines, hnone, hbuffered])
    rw [hmax] at hlt
    simp [helloLine, Env.fixed] at hlt

end Worker

end ulpf_cli.ingest
