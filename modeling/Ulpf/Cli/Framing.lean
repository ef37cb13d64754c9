import Ulpf.Core.Ingest.Socket
import Ulpf.Core.Ingest.System

open buf_read
open ulpf_core.ingest

namespace ulpf_core.ingest

variable {ι : Type}

/-- The items that a thread gives to `push` in some events. -/
def begunBy [DecidableEq ι] (i : ι) (events : List (Event ι)) : List (List UInt8) :=
  events.flatMap fun
    | .BeginPush j item => if j = i then [item] else []
    | _ => []

/-- The item of a call of `push` that has not yet been appended. -/
def Thread.pending : Thread → List (List UInt8)
  | Push _ _ (.Unlock _) | Push _ _ (.Returned _) => []
  | Push item _ _ => [item]
  | Idle | Close _ => []

/-- Within a call without a shutdown, the item is pending until it is appended. -/
theorem pending_push_step {me : ι} {item : List UInt8} {pc pc' : PushPc}
    {queue queue' : MemoryQueue ι} (hpush : push_step me item pc queue = some (pc', queue'))
    (hopen : queue.closed = false) (hpc : pc ≠ .DropTest) (late : Bool) :
    (Thread.Push item late pc).pending =
      (if pc = .PushBack then [item] else []) ++ (Thread.Push item late pc').pending := by
  cases pc <;> simp only [push_step, hopen] at hpush <;> (try split at hpush) <;>
    (try split at hpush) <;> cases hpush <;> simp_all [Thread.pending]

namespace System

variable [DecidableEq ι]

/-- The item that the thread appends with an event. -/
def appends (s : System ι) (i : ι) : Event ι → List (List UInt8)
  | .Push j =>
    match s.threads j with
    | .Push item _ .PushBack => if j = i then [item] else []
    | _ => []
  | _ => []

/-- The items that a thread appends to the queue in a run. -/
def enqueuedBy (i : ι) : System ι → List (Event ι) → List (List UInt8)
  | _, [] => []
  | s, event :: events =>
    s.appends i event ++ ((s.step event).map fun s' => enqueuedBy i s' events).getD []

/-- Nothing opens a queue again. -/
theorem closed_of_step {s s' : System ι} {event : Event ι} (hstep : s.step event = some s')
    (hclosed : s.queue.closed = true) : s'.queue.closed = true := by
  cases moves_of_step hstep with
  | Push hthread hpush => exact (push_step_spec hpush).closed_eq.trans hclosed
  | @Close i pc pc' queue' hthread hclose =>
    cases pc <;> cases hclose
    · rfl
    all_goals exact hclosed
  | PopBatch max_batch_size =>
    dsimp only
    rw [pop_batch_eq]
    split <;> exact hclosed
  | _ => exact hclosed

/-- What an event does to the calls of one thread. -/
theorem Valid.pending_step {s s' : System ι} (hvalid : s.Valid) (hpolicy : s.queue.policy = .Block)
    {event : Event ι} (hstep : s.step event = some s') (hopen : s'.queue.closed = false) (i : ι) :
    (s.threads i).pending ++ begunBy i [event] = s.appends i event ++ (s'.threads i).pending := by
  have hbefore : s.queue.closed = false :=
    Bool.eq_false_iff.mpr fun hclosed => by simp [closed_of_step hstep hclosed] at hopen
  cases moves_of_step hstep with
  | @BeginPush j item hthread =>
    by_cases hj : j = i
    · subst hj
      simp [begunBy, appends, hthread, Thread.pending]
    · simp [begunBy, appends, hj, Function.update_of_ne (Ne.symm hj)]
  | @Push j item late pc pc' queue' hthread hpush =>
    have hfits : (Thread.Push item late pc).Fits s.queue := hthread ▸ hvalid.fits j
    have hdrop : pc ≠ .DropTest := by
      rintro rfl
      have := hfits.2.1 (.inr rfl)
      rw [hpolicy] at this
      cases this
    have hpending := pending_push_step hpush hbefore hdrop late
    have happends : s.appends i (.Push j) = if pc = .PushBack ∧ j = i then [item] else [] := by
      simp only [appends, hthread]
      cases pc <;> simp
    by_cases hj : j = i
    · subst hj
      simp [begunBy, happends, hthread, hpending]
    · simp [begunBy, happends, hj, Function.update_of_ne (Ne.symm hj)]
  | @EndPush j item late result hthread | @EndClose j hthread | @BeginClose j hthread
  | @Close j pc pc' queue' hthread hclose =>
    by_cases hj : j = i
    · subst hj
      simp [begunBy, appends, hthread, Thread.pending]
    · simp [begunBy, appends, Function.update_of_ne (Ne.symm hj)]
  | PopBatch | Stats => simp [begunBy, appends]

/-- Under `Block` and without a shutdown, what a thread has given to `push` is appended in order,
    up to the call that it is in. -/
theorem Valid.pending_run {s s' : System ι} {events : List (Event ι)}
    (hrun : s.run events = some s') (hvalid : s.Valid) (hpolicy : s.queue.policy = .Block)
    (hopen : s'.queue.closed = false) (i : ι) :
    s.queue.closed = false ∧
    (s.threads i).pending ++ begunBy i events = s.enqueuedBy i events ++ (s'.threads i).pending := by
  induction events generalizing s with
  | nil =>
    cases hrun
    exact ⟨hopen, by simp [begunBy, enqueuedBy]⟩
  | cons event events ih =>
    obtain ⟨s₁, hstep, hrest⟩ := Option.bind_eq_some_iff.mp hrun
    obtain ⟨hopen₁, hrest⟩ :=
      ih hrest (hvalid.step hstep) ((step_frame hstep).2.trans hpolicy)
    have hone := hvalid.pending_step hpolicy hstep hopen₁ i
    refine ⟨Bool.eq_false_iff.mpr fun h => by simp [closed_of_step hstep h] at hopen₁, ?_⟩
    have hbegun : begunBy i (event :: events) = begunBy i [event] ++ begunBy i events := by
      simp [begunBy]
    rw [hbegun, ← List.append_assoc, hone, List.append_assoc, hrest, enqueuedBy, hstep]
    simp

/-- A listener hands these lines to `push`, one call after the other, and all of them return; the
    other threads do what they like, but nobody closes the queue. -/
structure Delivers (i : ι) (lines : List String) (s : System ι) (events : List (Event ι))
    (s' : System ι) : Prop where
  run_eq : s.run events = some s'
  begins : s.threads i = .Idle
  pushes : begunBy i events = lines.map String.as_bytes
  returns : s'.threads i = .Idle
  opened : s'.queue.closed = false

/-- Then the lines are in the queue and none was shed. -/
theorem Delivers.enqueued {capacity : Nat} {i : ι} {lines : List String} {s s' : System ι}
    {events : List (Event ι)} (h : Delivers i lines s events s')
    (hreach : Reachable (init capacity .Block) s) :
    s.enqueuedBy i events = lines.map String.as_bytes ∧ s'.queue.dropped = s.queue.dropped := by
  obtain ⟨hvalid, -, hpolicy⟩ := hreach.valid
  obtain ⟨hvalid', -, hpolicy'⟩ :=
    Reachable.valid (hreach.trans (Reachable.of_run h.run_eq))
  have hnone : ∀ {s : System ι}, s.Valid → s.queue.policy = .Block → s.queue.dropped = 0 := by
    intro s hvalid hpolicy
    rw [hvalid.accounts.dropped_eq, List.length_eq_zero_iff]
    by_contra hshed
    have hdrop := hvalid.accounts.shed_policy hshed
    rw [hpolicy] at hdrop
    cases hdrop
  obtain ⟨-, hflow⟩ := Valid.pending_run h.run_eq hvalid hpolicy h.opened i
  rw [h.begins, h.returns, h.pushes] at hflow
  refine ⟨?_, (hnone hvalid' hpolicy').trans (hnone hvalid hpolicy).symm⟩
  simpa [Thread.pending] using hflow.symm

/-- A batch of one makes room in the queue and leaves everything else as it was. -/
theorem exists_step_popBatch {s : System ι} {consumer : ι} (hconsumer : s.threads consumer = .Idle)
    (hlock : s.queue.lock = none) (hcapacity : 0 < s.queue.capacity)
    (hbounded : s.queue.queue.length ≤ s.queue.capacity) :
    ∃ s', s.step (.PopBatch consumer 1) = some s' ∧ s'.threads = s.threads ∧
      s'.queue.policy = s.queue.policy ∧ s'.queue.lock = none ∧ s'.queue.closed = s.queue.closed ∧
      s'.queue.queue.length < s'.queue.capacity := by
  obtain ⟨-, hqueue⟩ := pop_batch_fifo s.queue 1
  have hframe : (s.queue.pop_batch 1).2.policy = s.queue.policy ∧
      (s.queue.pop_batch 1).2.lock = none ∧ (s.queue.pop_batch 1).2.closed = s.queue.closed ∧
      (s.queue.pop_batch 1).2.capacity = s.queue.capacity := by
    rw [pop_batch_eq]
    split <;> exact ⟨rfl, hlock, rfl, rfl⟩
  obtain ⟨hpolicy, hlock', hclosed, hcapacity'⟩ := hframe
  have hroom : (s.queue.pop_batch 1).2.queue.length < (s.queue.pop_batch 1).2.capacity := by
    rw [hqueue, List.length_drop, hcapacity']
    omega
  have hstep : s.step (.PopBatch consumer 1) = some { s with
      queue := (s.queue.pop_batch 1).2
      popped := s.popped ++ (s.queue.pop_batch 1).1
      levels := s.levels ++ [(s.queue.pop_batch 1).2.queued_bytes] } := by
    simp [step, hconsumer, hlock]
  exact ⟨_, hstep, rfl, hpolicy, hlock', hclosed, hroom⟩

/-- The calls return as long as the consumer makes room, here with a batch of one before each. -/
theorem exists_delivers {s : System ι} {i consumer : ι} (hidle : s.threads i = .Idle)
    (hconsumer : s.threads consumer = .Idle) (hpolicy : s.queue.policy = .Block)
    (hlock : s.queue.lock = none) (hopen : s.queue.closed = false) (hcapacity : 0 < s.queue.capacity)
    (hbounded : s.queue.queue.length ≤ s.queue.capacity) (lines : List String) :
    ∃ events s', Delivers i lines s events s' := by
  induction lines generalizing s with
  | nil => exact ⟨[], s, rfl, hidle, rfl, hidle, hopen⟩
  | cons line lines ih =>
    obtain ⟨s₁, hpop, hthreads, hpolicy₁, hlock₁, hopen₁, hroom⟩ :=
      exists_step_popBatch hconsumer hlock hcapacity hbounded
    rw [hpolicy] at hpolicy₁
    rw [hopen] at hopen₁
    have hidle₁ : s₁.threads i = .Idle := hthreads ▸ hidle
    have hconsumer₁ : s₁.threads consumer = .Idle := hthreads ▸ hconsumer
    obtain ⟨levels, hcall⟩ := run_pushCall hidle₁ hpolicy₁ hlock₁ hopen₁ hroom line.as_bytes
    obtain ⟨events, s', h⟩ := ih (s := { s₁ with
      queue := s₁.queue.push_back line.as_bytes
      accepted := s₁.accepted ++ [line.as_bytes]
      levels }) hidle₁ hconsumer₁ hpolicy₁ hlock₁ hopen₁ (Nat.zero_lt_of_lt hroom) (by
        simp only [MemoryQueue.push_back, List.length_append, List.length_singleton]
        exact hroom)
    refine ⟨.PopBatch consumer 1 :: (pushCall i line.as_bytes ++ events), s', ?_, hidle, ?_, h.returns,
      h.opened⟩
    · rw [run, hpop, Option.bind_some, run_append, hcall]
      exact h.run_eq
    · have hrest := h.pushes
      simp only [begunBy, pushCall] at hrest ⊢
      simp [hrest, List.replicate]

end System

end ulpf_core.ingest

namespace ulpf_cli.ingest

variable {ι : Type} [DecidableEq ι]

/-- The UDP listener, which reads into `[0u8; 65535]`. -/
def udp_lines (datagram : Datagram) : List String := datagram_lines 65535 datagram

/-- The task of a TCP connection, which reads lines as long as there is no error. -/
def tcp_lines (stream : TcpStream) : List String :=
  (lines_until_error stream.reads).flatMap trimmed_line

/-- What was received is in the queue, or counted by it as dropped. -/
def Keeps (bytes : List UInt8) (i : ι) (s : System ι) (events : List (Event ι)) (s' : System ι) :
    Prop :=
  Accounted bytes (s.enqueuedBy i events) (s'.queue.dropped - s.queue.dropped)

section

variable {capacity : Nat} {i : ι} {s s' : System ι} {events : List (Event ι)}

theorem keeps_iff (hreach : System.Reachable (.init capacity .Block) s) {lines : List String}
    (h : System.Delivers i lines s events s') (bytes : List UInt8) :
    Keeps bytes i s events s' ↔ Accounted bytes (lines.map String.as_bytes) 0 := by
  obtain ⟨henqueued, hdropped⟩ := h.enqueued hreach
  rw [Keeps, henqueued, hdropped, Nat.sub_self]

theorem keeps_udp_lines_iff (hreach : System.Reachable (.init capacity .Block) s)
    {datagram : Datagram} (h : System.Delivers i (udp_lines datagram) s events s') :
    Keeps datagram.payload i s events s' ↔ (from_utf8 datagram.payload).isSome = true :=
  (keeps_iff hreach h _).trans (accounted_datagram_lines_iff (by decide) datagram)

theorem keeps_tcp_lines_iff (hreach : System.Reachable (.init capacity .Block) s)
    {stream : TcpStream} (h : System.Delivers i (tcp_lines stream) s events s') :
    Keeps stream.reads.flatten i s events s' ↔ (from_utf8 stream.reads.flatten).isSome = true :=
  (keeps_iff hreach h _).trans (accounted_lines_until_error_iff stream)

/-- A listener whose calls of `push` return keeps the content of what it receives exactly if it is
    UTF-8: a datagram, and the bytes of a connection in whatever reads they come, with any other
    threads at work. The calls return if the consumer takes from the queue. The listener that sends
    batches has the same condition. -/
theorem framing_keeps_content_iff (hreach : System.Reachable (.init capacity .Block) s) (i : ι) :
    (∀ datagram events s', System.Delivers i (udp_lines datagram) s events s' →
      (Keeps datagram.payload i s events s' ↔ (from_utf8 datagram.payload).isSome = true)) ∧
    (∀ stream events s', System.Delivers i (tcp_lines stream) s events s' →
      (Keeps stream.reads.flatten i s events s' ↔
        (from_utf8 stream.reads.flatten).isSome = true)) ∧
    (∀ consumer, s.threads i = .Idle → s.threads consumer = .Idle → s.queue.lock = none →
      s.queue.closed = false → 0 < capacity → ∀ lines, ∃ events s',
        System.Delivers i lines s events s') ∧
    ∀ (listener : RunRaw) (datagram : Datagram),
      (∃ lines, (listener.step .default (.Received datagram)).lines = listener.lines ++ lines ∧
        Accounted datagram.payload (lines.map String.as_bytes) 0) ↔
      (from_utf8 datagram.payload).isSome = true := by
  refine ⟨fun _ _ _ => keeps_udp_lines_iff hreach, fun _ _ _ => keeps_tcp_lines_iff hreach, ?_, ?_⟩
  · intro consumer hidle hconsumer hlock hopen hcapacity
    obtain ⟨hvalid, rfl, hpolicy⟩ := hreach.valid
    exact System.exists_delivers hidle hconsumer hpolicy hlock hopen hcapacity hvalid.bounded
  · intro listener datagram
    rw [← accounted_datagram_lines_iff (show 65527 ≤ IngestConfig.default.buffer_capacity by decide),
      RunRaw.lines_step]
    constructor
    · rintro ⟨lines, hlines, haccounted⟩
      obtain rfl := List.append_cancel_left hlines
      exact haccounted
    · exact fun haccounted => ⟨_, rfl, haccounted⟩

end

/-- The lines `a`, `b` and `c` in one datagram. -/
def threeLines : Datagram := ⟨[97, 10, 98, 10, 99], by decide⟩

/-- Three lines go through a queue with one slot, while another thread takes from it. -/
theorem framing_keeps_content_iff_one_slot : ∃ events s',
    System.Delivers false (udp_lines threeLines) (.init 1 .Block) events s' ∧
      Keeps threeLines.payload false (.init 1 .Block) events s' := by
  obtain ⟨hudp, -, hreturn, -⟩ := framing_keeps_content_iff (i := false)
    (.refl : System.Reachable (.init 1 .Block) (.init 1 .Block))
  obtain ⟨events, s', h⟩ := hreturn true rfl rfl rfl rfl Nat.one_pos (udp_lines threeLines)
  exact ⟨events, s', h, (hudp _ _ _ h).mpr (by decide)⟩

/-- The lines `deny` and `José` as Latin-1 text in one datagram. -/
def latin1Datagram : Datagram := ⟨[100, 101, 110, 121, 10, 74, 111, 115, 233], by decide⟩

/-- The same lines and a third one, `permit`, over a connection in three reads. -/
def latin1Stream : TcpStream :=
  ⟨[[100, 101], [110, 121, 10, 74, 111, 115], [233, 10, 112, 101, 114, 109, 105, 116]], by decide⟩

/-- The datagram makes no call of `push` at all, and a connection that gets all its calls through
    has lost its second and third line. -/
theorem latin1_lines_are_lost :
    (System.Delivers false (udp_lines latin1Datagram) (.init 10 .Block) [] (.init 10 .Block) ∧
      ¬ Keeps latin1Datagram.payload false (.init 10 .Block) [] (.init 10 .Block)) ∧
    ∃ events s', System.Delivers false (tcp_lines latin1Stream) (.init 10 .Block) events s' ∧
      ¬ Keeps latin1Stream.reads.flatten false (.init 10 .Block) events s' := by
  have hdatagram : from_utf8 latin1Datagram.payload = none := by decide
  have hstream : from_utf8 latin1Stream.reads.flatten = none := by decide
  have hreach : System.Reachable (.init 10 .Block) (.init 10 .Block : System Bool) := .refl
  constructor
  · have hnone : udp_lines latin1Datagram = [] := by
      have htake : latin1Datagram.payload.take 65535 = latin1Datagram.payload := rfl
      rw [udp_lines, datagram_lines, htake, hdatagram]
    have hdelivers : System.Delivers false (udp_lines latin1Datagram) (.init 10 .Block) []
        (.init 10 .Block) := by
      rw [hnone]
      exact ⟨rfl, rfl, rfl, rfl, rfl⟩
    refine ⟨hdelivers, ?_⟩
    rw [keeps_udp_lines_iff hreach hdelivers, hdatagram]
    exact Bool.false_ne_true
  · have hidle : ∀ i : Bool, (System.init 10 .Block).threads i = .Idle := fun _ => rfl
    obtain ⟨events, s', h⟩ := System.exists_delivers (hidle false) (hidle true) rfl rfl rfl (by decide)
      (Nat.zero_le _) (tcp_lines latin1Stream)
    refine ⟨events, s', h, ?_⟩
    rw [keeps_tcp_lines_iff hreach h, hstream]
    exact Bool.false_ne_true

end ulpf_cli.ingest
