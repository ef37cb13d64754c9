import Mathlib.Logic.Relation
import Mathlib.Order.Bounds.Defs
import Ulpf.Core.Ingest.Queue

namespace ulpf_core.ingest

/-- A thread that uses the queue. `late` remembers that a push started when a call of
    `close` had returned; nothing reads it. -/
inductive Thread where
  | Idle
  | Push (item : List UInt8) (late : Bool) (pc : PushPc)
  | Close (pc : ClosePc)
  deriving DecidableEq, Repr

/-- The queue and the threads that use it, with the history of what happened to it:
    the items in order of their acceptance, those popped and those shed, every value
    of `queued_bytes`, and whether a call of `close` has returned. -/
structure System (ι : Type) where
  queue : MemoryQueue ι
  threads : ι → Thread
  accepted : List (List UInt8)
  popped : List (List UInt8)
  shed : List (List UInt8)
  levels : List Nat
  close_returned : Bool

/-- What a thread does next. `pop_batch` and `stats` are one critical section each. -/
inductive Event (ι : Type) where
  | BeginPush (i : ι) (item : List UInt8)
  | Push (i : ι)
  | EndPush (i : ι)
  | BeginClose (i : ι)
  | Close (i : ι)
  | EndClose (i : ι)
  | PopBatch (i : ι) (max_batch_size : Nat)
  | Stats (i : ι)

def Thread.holdsLock : Thread → Bool
  | Push _ _ pc => pc.holdsLock
  | Idle | Close _ => false

namespace System

variable {ι : Type} [DecidableEq ι]

def init (capacity : Nat) (policy : BackpressurePolicy) : System ι where
  queue := MemoryQueue.new capacity policy
  threads _ := .Idle
  accepted := []
  popped := []
  shed := []
  levels := [0]
  close_returned := false

/-- The state after an event, or `none` if the thread cannot take it now. -/
def step (s : System ι) : Event ι → Option (System ι)
  | .BeginPush i item =>
    match s.threads i with
    | .Idle =>
      some { s with threads := Function.update s.threads i (.Push item s.close_returned .Enter) }
    | _ => none
  | .Push i =>
    match s.threads i with
    | .Push item late pc =>
      (push_step i item pc s.queue).map fun (pc', queue') =>
        { s with
          queue := queue'
          threads := Function.update s.threads i (.Push item late pc')
          accepted := if pc = .PushBack then s.accepted ++ [item] else s.accepted
          shed :=
            if pc = .DropTest ∧ s.queue.capacity ≤ s.queue.queue.length then s.shed ++ [item]
            else s.shed
          levels := s.levels ++ [queue'.queued_bytes] }
    | _ => none
  | .EndPush i =>
    match s.threads i with
    | .Push _ _ (.Returned _) => some { s with threads := Function.update s.threads i .Idle }
    | _ => none
  | .BeginClose i =>
    match s.threads i with
    | .Idle => some { s with threads := Function.update s.threads i (.Close .Store) }
    | _ => none
  | .Close i =>
    match s.threads i with
    | .Close pc =>
      (close_step pc s.queue).map fun (pc', queue') =>
        { s with queue := queue', threads := Function.update s.threads i (.Close pc') }
    | _ => none
  | .EndClose i =>
    match s.threads i with
    | .Close .Returned =>
      some { s with threads := Function.update s.threads i .Idle, close_returned := true }
    | _ => none
  | .PopBatch i max_batch_size =>
    if s.threads i = .Idle ∧ s.queue.lock.isNone then
      some { s with
        queue := (s.queue.pop_batch max_batch_size).2
        popped := s.popped ++ (s.queue.pop_batch max_batch_size).1
        levels := s.levels ++ [(s.queue.pop_batch max_batch_size).2.queued_bytes] }
    else none
  | .Stats i => if s.threads i = .Idle ∧ s.queue.lock.isNone then some s else none

def run (s : System ι) : List (Event ι) → Option (System ι)
  | [] => some s
  | event :: events => (s.step event).bind fun s' => s'.run events

/-- The states that threads can bring the system to from another one. -/
def Reachable : System ι → System ι → Prop :=
  Relation.ReflTransGen fun s s' => ∃ event, s.step event = some s'

end System

variable {ι : Type}

/-- What the state of a thread says about the queue. A thread that has found a free
    slot still has it, the points of the `Drop` policy are reached under this policy
    only, and once `closed` is latched a late push does nothing but fail. -/
def Thread.Fits (queue : MemoryQueue ι) : Thread → Prop
  | Idle => True
  | Push _ late pc =>
    (pc = .RoomClosed ∨ pc = .PushBack → queue.queue.length < queue.capacity) ∧
    (pc = .DropClosed ∨ pc = .DropTest → queue.policy = .Drop) ∧
    (late = true → queue.closed = true ∧
      (pc = .Enter ∨ pc = .Returned (.Err "ingest queue is shut down")))
  | Close pc => pc ≠ .Store → queue.closed = true

/-- The exact account of a queue against its history. -/
structure Accounts (queue : MemoryQueue ι) (accepted popped shed : List (List UInt8))
    (levels : List Nat) : Prop where
  fifo : popped ++ queue.queue = accepted
  pushed_eq : queue.pushed = accepted.length
  queued_bytes_eq : queue.queued_bytes = (queue.queue.map List.length).sum
  dropped_eq : queue.dropped = shed.length
  dropped_bytes_eq : queue.dropped_bytes = (shed.map List.length).sum
  shed_policy : shed ≠ [] → queue.policy = .Drop
  level_mem : queue.queued_bytes ∈ levels
  high_water_mem : queue.high_water_bytes ∈ levels
  high_water_max : ∀ level ∈ levels, level ≤ queue.high_water_bytes

/-- The invariant of the system: mutual exclusion, the bound, and the account. -/
structure System.Valid (s : System ι) : Prop where
  lock_iff : ∀ i, s.queue.lock = some i ↔ (s.threads i).holdsLock = true
  fits : ∀ i, (s.threads i).Fits s.queue
  closed : s.close_returned = true → s.queue.closed = true
  bounded : s.queue.queue.length ≤ s.queue.capacity
  accounts : Accounts s.queue s.accepted s.popped s.shed s.levels

/-- What a step of `push` does to the queue: it appends, it sheds, or it moves the
    lock and the counter of blocked producers only. -/
theorem push_step_cases {me : ι} {b : List UInt8} {pc pc' : PushPc} {self self' : MemoryQueue ι}
    (hstep : push_step me b pc self = some (pc', self')) :
    (pc = .PushBack ∧ self' = self.push_back b) ∨
    (pc = .DropTest ∧ self.capacity ≤ self.queue.length ∧ self' = self.shed b) ∨
    (pc ≠ .PushBack ∧ ¬ (pc = .DropTest ∧ self.capacity ≤ self.queue.length) ∧
      ∃ lock blocked, self' = { self with lock, blocked }) := by
  cases pc <;> simp only [push_step] at hstep <;> (try split at hstep) <;> (try split at hstep) <;>
    cases hstep
  all_goals first
    | exact .inl ⟨rfl, rfl⟩
    | exact .inr (.inl ⟨rfl, ‹_›, rfl⟩)
    | exact .inr (.inr ⟨PushPc.noConfusion, fun h => PushPc.noConfusion h.1, _, _, rfl⟩)
    | exact .inr (.inr ⟨PushPc.noConfusion, fun h => absurd h.2 ‹_›, _, _, rfl⟩)

theorem push_step_frame {me : ι} {b : List UInt8} {pc pc' : PushPc} {self self' : MemoryQueue ι}
    (hstep : push_step me b pc self = some (pc', self')) :
    self'.capacity = self.capacity ∧ self'.policy = self.policy ∧
      self'.not_full_notifications = self.not_full_notifications := by
  obtain ⟨-, rfl⟩ | ⟨-, -, rfl⟩ | ⟨-, -, lock, blocked, rfl⟩ := push_step_cases hstep <;>
    exact ⟨rfl, rfl, rfl⟩

/-- Where a step of `push` can get to, and what it has read on the way. -/
structure PushFlow (pc pc' : PushPc) (before : MemoryQueue ι) : Prop where
  room : pc' = .RoomClosed ∨ pc' = .PushBack →
    pc ≠ .PushBack ∧ (pc = .RoomClosed ∨ before.queue.length < before.capacity)
  drop : pc' = .DropClosed ∨ pc' = .DropTest → pc = .DropClosed ∨ before.policy = .Drop
  enter : pc = .Enter → before.closed = true → pc' = .Returned (.Err "ingest queue is shut down")
  returned : ∀ result, pc ≠ .Returned result
  not_enter : pc' ≠ .Enter
  wait : pc' = .Wait → before.closed = false
  parked : ∀ since, pc' = .Parked since → pc = .Wait ∧ since = before.not_full_notifications

theorem push_step_flow {me : ι} {b : List UInt8} {pc pc' : PushPc} {self self' : MemoryQueue ι}
    (hstep : push_step me b pc self = some (pc', self')) : PushFlow pc pc' self := by
  cases pc <;> simp only [push_step] at hstep <;> (try split at hstep) <;> (try split at hstep) <;>
    cases hstep <;> constructor <;> simp_all

theorem Accounts.push_back {queue : MemoryQueue ι} {accepted popped shed : List (List UInt8)}
    {levels : List Nat} (haccounts : Accounts queue accepted popped shed levels) (item : List UInt8) :
    Accounts (queue.push_back item) (accepted ++ [item]) popped shed
      (levels ++ [(queue.push_back item).queued_bytes]) where
  fifo := by simp [MemoryQueue.push_back, ← haccounts.fifo]
  pushed_eq := by simp [MemoryQueue.push_back, haccounts.pushed_eq]
  queued_bytes_eq := by simp [MemoryQueue.push_back, haccounts.queued_bytes_eq]
  dropped_eq := haccounts.dropped_eq
  dropped_bytes_eq := haccounts.dropped_bytes_eq
  shed_policy := haccounts.shed_policy
  level_mem := by simp
  high_water_mem := by
    simp only [MemoryQueue.push_back, List.mem_append, List.mem_singleton]
    rcases Nat.le_total queue.high_water_bytes (queue.queued_bytes + item.length) with hle | hle
    · exact .inr (max_eq_right hle)
    · rw [max_eq_left hle]
      exact .inl haccounts.high_water_mem
  high_water_max level hlevel := by
    rcases List.mem_append.mp hlevel with hold | hnew
    · exact (haccounts.high_water_max level hold).trans (le_max_left _ _)
    · exact (List.mem_singleton.mp hnew).trans_le (le_max_right _ _)

/-- What does not raise the gauge keeps the high-water mark. -/
theorem Accounts.of_level_le {queue queue' : MemoryQueue ι} {accepted popped popped' shed shed' : List (List UInt8)}
    {levels : List Nat} (haccounts : Accounts queue accepted popped shed levels)
    (hfifo : popped' ++ queue'.queue = accepted) (hpushed : queue'.pushed = queue.pushed)
    (hqueued : queue'.queued_bytes = (queue'.queue.map List.length).sum)
    (hdropped : queue'.dropped = shed'.length)
    (hbytes : queue'.dropped_bytes = (shed'.map List.length).sum)
    (hpolicy : shed' ≠ [] → queue'.policy = .Drop)
    (hlevel : queue'.queued_bytes ≤ queue.queued_bytes)
    (hhigh : queue'.high_water_bytes = queue.high_water_bytes) :
    Accounts queue' accepted popped' shed' (levels ++ [queue'.queued_bytes]) where
  fifo := hfifo
  pushed_eq := hpushed.trans haccounts.pushed_eq
  queued_bytes_eq := hqueued
  dropped_eq := hdropped
  dropped_bytes_eq := hbytes
  shed_policy := hpolicy
  level_mem := by simp
  high_water_mem := by simp [hhigh, haccounts.high_water_mem]
  high_water_max level hmem := by
    rw [hhigh]
    rcases List.mem_append.mp hmem with hold | hnew
    · exact haccounts.high_water_max level hold
    · rw [List.mem_singleton.mp hnew]
      exact hlevel.trans (haccounts.high_water_max _ haccounts.level_mem)

theorem Accounts.shed_item {queue : MemoryQueue ι} {accepted popped shed : List (List UInt8)}
    {levels : List Nat} (haccounts : Accounts queue accepted popped shed levels)
    (hpolicy : queue.policy = .Drop) (item : List UInt8) :
    Accounts (queue.shed item) accepted popped (shed ++ [item])
      (levels ++ [(queue.shed item).queued_bytes]) :=
  haccounts.of_level_le haccounts.fifo rfl haccounts.queued_bytes_eq
    (by simp [MemoryQueue.shed, haccounts.dropped_eq])
    (by simp [MemoryQueue.shed, haccounts.dropped_bytes_eq]) (fun _ => hpolicy) le_rfl rfl

theorem Accounts.pop_batch {queue : MemoryQueue ι} {accepted popped shed : List (List UInt8)}
    {levels : List Nat} (haccounts : Accounts queue accepted popped shed levels)
    (max_batch_size : Nat) :
    Accounts (queue.pop_batch max_batch_size).2 accepted (popped ++ (queue.pop_batch max_batch_size).1)
      shed (levels ++ [(queue.pop_batch max_batch_size).2.queued_bytes]) := by
  rw [pop_batch_eq]
  split
  · exact haccounts.of_level_le (by simpa using haccounts.fifo) rfl haccounts.queued_bytes_eq
      haccounts.dropped_eq haccounts.dropped_bytes_eq haccounts.shed_policy le_rfl rfl
  · have hsum : (queue.queue.map List.length).sum =
        ((queue.queue.take max_batch_size).map List.length).sum +
          ((queue.queue.drop max_batch_size).map List.length).sum := by
      rw [← List.sum_append, ← List.map_append, List.take_append_drop]
    refine haccounts.of_level_le ?_ rfl ?_ haccounts.dropped_eq haccounts.dropped_bytes_eq
      haccounts.shed_policy (Nat.sub_le _ _) rfl
    · simp [← haccounts.fifo]
    · simp only [haccounts.queued_bytes_eq, hsum]
      omega

/-- What a thread says stays true when the queue gets no longer while it holds the
    lock, and `closed` stays latched. -/
theorem Thread.Fits.mono {queue queue' : MemoryQueue ι} {thread : Thread} (hfits : thread.Fits queue)
    (hcapacity : queue'.capacity = queue.capacity) (hpolicy : queue'.policy = queue.policy)
    (hclosed : queue.closed = true → queue'.closed = true)
    (hlength : thread.holdsLock = true → queue'.queue.length ≤ queue.queue.length) :
    thread.Fits queue' := by
  cases thread with
  | Idle => trivial
  | Push item late pc =>
    obtain ⟨hroom, hdrop, hlate⟩ := hfits
    refine ⟨fun hpc => ?_, fun hpc => hpolicy ▸ hdrop hpc, fun h => ⟨hclosed (hlate h).1, (hlate h).2⟩⟩
    have hholds : pc.holdsLock = true := by rcases hpc with rfl | rfl <;> rfl
    exact (hlength hholds).trans_lt (hcapacity ▸ hroom hpc)
  | Close pc => exact fun hpc => hclosed (hfits hpc)

namespace System

variable [DecidableEq ι]

omit [DecidableEq ι] in
theorem valid_init (capacity : Nat) (policy : BackpressurePolicy) :
    (init capacity policy : System ι).Valid where
  lock_iff i := by simp [init, MemoryQueue.new, Thread.holdsLock]
  fits i := trivial
  closed := by simp [init]
  bounded := by simp [init, MemoryQueue.new]
  accounts := by constructor <;> simp [init, MemoryQueue.new]

/-- A thread begins or ends a call, which it does without the lock. -/
theorem Valid.update_thread {s : System ι} (hvalid : s.Valid) {i : ι} (thread : Thread)
    (hbefore : (s.threads i).holdsLock = false) (hafter : thread.holdsLock = false)
    (hfits : thread.Fits s.queue) {close_returned : Bool}
    (hclosed : close_returned = true → s.queue.closed = true) :
    Valid { s with threads := Function.update s.threads i thread, close_returned } where
  lock_iff j := by
    by_cases hj : j = i
    · subst hj
      simpa [hafter, hbefore] using hvalid.lock_iff j
    · simpa [Function.update_of_ne hj] using hvalid.lock_iff j
  fits j := by
    by_cases hj : j = i
    · subst hj
      simpa using hfits
    · simpa [Function.update_of_ne hj] using hvalid.fits j
  closed := hclosed
  bounded := hvalid.bounded
  accounts := hvalid.accounts

omit [DecidableEq ι] in
theorem Valid.pop_batch {s : System ι} (hvalid : s.Valid) (max_batch_size : Nat) :
    Valid { s with
      queue := (s.queue.pop_batch max_batch_size).2
      popped := s.popped ++ (s.queue.pop_batch max_batch_size).1
      levels := s.levels ++ [(s.queue.pop_batch max_batch_size).2.queued_bytes] } := by
  have haccounts := hvalid.accounts.pop_batch max_batch_size
  have hqueue : (s.queue.pop_batch max_batch_size).2.lock = s.queue.lock ∧
      (s.queue.pop_batch max_batch_size).2.capacity = s.queue.capacity ∧
      (s.queue.pop_batch max_batch_size).2.policy = s.queue.policy ∧
      (s.queue.pop_batch max_batch_size).2.closed = s.queue.closed ∧
      (s.queue.pop_batch max_batch_size).2.queue.length ≤ s.queue.queue.length := by
    rw [pop_batch_eq]
    split
    · simp
    · exact ⟨rfl, rfl, rfl, rfl, by simp⟩
  obtain ⟨hlock', hcapacity, hpolicy, hclosed, hlength⟩ := hqueue
  refine ⟨fun i => hlock' ▸ hvalid.lock_iff i, fun i => ?_, fun h => hclosed ▸ hvalid.closed h, ?_,
    haccounts⟩
  · exact (hvalid.fits i).mono hcapacity hpolicy (fun h => hclosed ▸ h) fun _ => hlength
  · exact hlength.trans (hcapacity ▸ hvalid.bounded)

/-- A step inside `push` keeps the invariant. -/
theorem Valid.push {s : System ι} (hvalid : s.Valid) {i : ι} {item : List UInt8} {late : Bool}
    {pc pc' : PushPc} {queue' : MemoryQueue ι} (hthread : s.threads i = .Push item late pc)
    (hpush : push_step i item pc s.queue = some (pc', queue')) :
    Valid { s with
      queue := queue'
      threads := Function.update s.threads i (.Push item late pc')
      accepted := if pc = .PushBack then s.accepted ++ [item] else s.accepted
      shed :=
        if pc = .DropTest ∧ s.queue.capacity ≤ s.queue.queue.length then s.shed ++ [item] else s.shed
      levels := s.levels ++ [queue'.queued_bytes] } := by
  have hstep := push_step_spec hpush
  have hflow := push_step_flow hpush
  obtain ⟨hcapacity, hpolicy, -⟩ := push_step_frame hpush
  obtain ⟨hroom, hdrop, hlate⟩ : (Thread.Push item late pc).Fits s.queue := hthread ▸ hvalid.fits i
  refine ⟨?_, fun j => ?_, fun h => hstep.closed_eq.trans (hvalid.closed h), ?_, ?_⟩
  · refine hstep.lock_iff hvalid.lock_iff ?_ ?_ ?_
    · rw [hthread]
      rfl
    · dsimp only
      rw [Function.update_self]
      rfl
    · intro j hj
      dsimp only
      rw [Function.update_of_ne hj]
  · dsimp only
    by_cases hj : j = i
    · subst hj
      rw [Function.update_self]
      refine ⟨fun hpc => ?_, fun hpc => ?_, fun h => ?_⟩
      · obtain ⟨hne, hbefore⟩ := hflow.room hpc
        rw [hstep.queue_eq, if_neg hne, hcapacity]
        exact hbefore.elim (fun h => hroom (.inl h)) id
      · rw [hpolicy]
        exact (hflow.drop hpc).elim (fun h => hdrop (.inl h)) id
      · obtain ⟨hclosed, hpc⟩ := hlate h
        rcases hpc with henter | hreturned
        · exact ⟨hstep.closed_eq.trans hclosed, .inr (hflow.enter henter hclosed)⟩
        · exact absurd hreturned (hflow.returned _)
    · rw [Function.update_of_ne hj]
      refine (hvalid.fits j).mono hcapacity hpolicy (fun h => hstep.closed_eq.trans h) fun hholds => ?_
      -- the other thread holds the lock, so that this one is not at the append
      have hne : pc ≠ .PushBack := by
        rintro rfl
        have hi := (hvalid.lock_iff i).mpr (by rw [hthread]; rfl)
        rw [(hvalid.lock_iff j).mpr hholds] at hi
        exact hj (Option.some_injective _ hi)
      rw [hstep.queue_eq, if_neg hne]
  · dsimp only
    rw [hstep.queue_eq, hcapacity]
    split
    · rename_i hpc
      have := hroom (.inr hpc)
      rw [List.length_append, List.length_singleton]
      omega
    · exact hvalid.bounded
  · obtain ⟨rfl, rfl⟩ | ⟨rfl, hfull, rfl⟩ | ⟨hpc, hdropped, lock, blocked, rfl⟩ := push_step_cases hpush
    · simpa using hvalid.accounts.push_back item
    · simpa [hfull] using hvalid.accounts.shed_item (hdrop (.inr rfl)) item
    · dsimp only
      rw [if_neg hpc, if_neg hdropped]
      have haccounts := hvalid.accounts
      exact haccounts.of_level_le haccounts.fifo rfl haccounts.queued_bytes_eq haccounts.dropped_eq
        haccounts.dropped_bytes_eq haccounts.shed_policy le_rfl rfl

omit [DecidableEq ι] in
/-- Latching `closed` and sending notifications leaves the rest of the queue alone. -/
theorem Valid.signal {s : System ι} (hvalid : s.Valid) {closed : Bool} (not_full_notifications : Nat)
    (hclosed : s.queue.closed = true → closed = true) :
    Valid { s with queue := { s.queue with closed, not_full_notifications } } := by
  obtain ⟨hlock, hfits, hreturned, hbounded, haccounts⟩ := hvalid
  obtain ⟨h₁, h₂, h₃, h₄, h₅, h₆, h₇, h₈, h₉⟩ := haccounts
  exact ⟨hlock, fun i => (hfits i).mono rfl rfl hclosed fun _ => le_rfl, fun h => hclosed (hreturned h),
    hbounded, ⟨h₁, h₂, h₃, h₄, h₅, h₆, h₇, h₈, h₉⟩⟩

/-- A step inside `close` keeps the invariant. -/
theorem Valid.close {s : System ι} (hvalid : s.Valid) {i : ι} {pc pc' : ClosePc}
    {queue' : MemoryQueue ι} (hthread : s.threads i = .Close pc)
    (hclose : close_step pc s.queue = some (pc', queue')) :
    Valid { s with queue := queue', threads := Function.update s.threads i (.Close pc') } := by
  have hfits : (Thread.Close pc).Fits s.queue := hthread ▸ hvalid.fits i
  have hbefore : (s.threads i).holdsLock = false := by rw [hthread]; rfl
  cases pc with
  | Store =>
    cases hclose
    have hsignal := hvalid.signal s.queue.not_full_notifications fun _ => (rfl : true = true)
    exact hsignal.update_thread (.Close .NotifyNotFull) hbefore rfl (fun _ => rfl) hsignal.closed
  | NotifyNotFull =>
    cases hclose
    have hclosed : s.queue.closed = true := hfits (by decide)
    have hsignal := hvalid.signal (s.queue.not_full_notifications + 1) id
    exact hsignal.update_thread (.Close .NotifyNotEmpty) hbefore rfl (fun _ => hclosed) hsignal.closed
  | NotifyNotEmpty =>
    cases hclose
    have hclosed : s.queue.closed = true := hfits (by decide)
    exact hvalid.update_thread (.Close .Returned) hbefore rfl (fun _ => hclosed) hvalid.closed
  | Returned => cases hclose

/-- What an event does, by the point at which its thread stands. -/
inductive Moves (s : System ι) : Event ι → System ι → Prop
  | BeginPush {i : ι} {item : List UInt8} (hthread : s.threads i = .Idle) :
    Moves s (.BeginPush i item)
      { s with threads := Function.update s.threads i (.Push item s.close_returned .Enter) }
  | Push {i : ι} {item : List UInt8} {late : Bool} {pc pc' : PushPc} {queue' : MemoryQueue ι}
    (hthread : s.threads i = .Push item late pc)
    (hpush : push_step i item pc s.queue = some (pc', queue')) :
    Moves s (.Push i)
      { s with
        queue := queue'
        threads := Function.update s.threads i (.Push item late pc')
        accepted := if pc = .PushBack then s.accepted ++ [item] else s.accepted
        shed :=
          if pc = .DropTest ∧ s.queue.capacity ≤ s.queue.queue.length then s.shed ++ [item]
          else s.shed
        levels := s.levels ++ [queue'.queued_bytes] }
  | EndPush {i : ι} {item : List UInt8} {late : Bool} {result : PushResult}
    (hthread : s.threads i = .Push item late (.Returned result)) :
    Moves s (.EndPush i) { s with threads := Function.update s.threads i .Idle }
  | BeginClose {i : ι} (hthread : s.threads i = .Idle) :
    Moves s (.BeginClose i) { s with threads := Function.update s.threads i (.Close .Store) }
  | Close {i : ι} {pc pc' : ClosePc} {queue' : MemoryQueue ι} (hthread : s.threads i = .Close pc)
    (hclose : close_step pc s.queue = some (pc', queue')) :
    Moves s (.Close i)
      { s with queue := queue', threads := Function.update s.threads i (.Close pc') }
  | EndClose {i : ι} (hthread : s.threads i = .Close .Returned) :
    Moves s (.EndClose i)
      { s with threads := Function.update s.threads i .Idle, close_returned := true }
  | PopBatch {i : ι} (max_batch_size : Nat) :
    Moves s (.PopBatch i max_batch_size)
      { s with
        queue := (s.queue.pop_batch max_batch_size).2
        popped := s.popped ++ (s.queue.pop_batch max_batch_size).1
        levels := s.levels ++ [(s.queue.pop_batch max_batch_size).2.queued_bytes] }
  | Stats {i : ι} : Moves s (.Stats i) s

theorem moves_of_step {s s' : System ι} {event : Event ι} (hstep : s.step event = some s') :
    s.Moves event s' := by
  cases event <;> simp only [step] at hstep <;> split at hstep <;> try cases hstep
  · exact .BeginPush ‹_›
  · obtain ⟨⟨pc', queue'⟩, hpush, rfl⟩ := Option.map_eq_some_iff.mp hstep
    exact .Push ‹_› hpush
  · exact .EndPush ‹_›
  · exact .BeginClose ‹_›
  · obtain ⟨⟨pc', queue'⟩, hclose, rfl⟩ := Option.map_eq_some_iff.mp hstep
    exact .Close ‹_› hclose
  · exact .EndClose ‹_›
  · exact .PopBatch _
  · exact .Stats

/-- Every event keeps the invariant. -/
theorem Valid.step {s s' : System ι} (hvalid : s.Valid) {event : Event ι}
    (hstep : s.step event = some s') : s'.Valid := by
  cases moves_of_step hstep with
  | @BeginPush i item hthread =>
    exact hvalid.update_thread (.Push item s.close_returned .Enter) (by rw [hthread]; rfl) rfl
      ⟨by simp, by simp, fun h => ⟨hvalid.closed h, .inl rfl⟩⟩ hvalid.closed
  | Push hthread hpush => exact hvalid.push hthread hpush
  | EndPush hthread =>
    exact hvalid.update_thread .Idle (by rw [hthread]; rfl) rfl trivial hvalid.closed
  | BeginClose hthread =>
    exact hvalid.update_thread (.Close .Store) (by rw [hthread]; rfl) rfl (fun h => absurd rfl h)
      hvalid.closed
  | Close hthread hclose => exact hvalid.close hthread hclose
  | @EndClose i hthread =>
    have hfits : (Thread.Close .Returned).Fits s.queue := hthread ▸ hvalid.fits i
    exact hvalid.update_thread .Idle (by rw [hthread]; rfl) rfl trivial fun _ => hfits (by decide)
  | PopBatch max_batch_size => exact hvalid.pop_batch max_batch_size
  | Stats => exact hvalid

/-- Nothing changes the capacity and the policy that a queue is created with. -/
theorem step_frame {s s' : System ι} {event : Event ι} (hstep : s.step event = some s') :
    s'.queue.capacity = s.queue.capacity ∧ s'.queue.policy = s.queue.policy := by
  cases moves_of_step hstep with
  | Push hthread hpush => exact ⟨(push_step_frame hpush).1, (push_step_frame hpush).2.1⟩
  | @Close i pc pc' queue' hthread hclose => cases pc <;> cases hclose <;> exact ⟨rfl, rfl⟩
  | PopBatch max_batch_size =>
    dsimp only
    rw [pop_batch_eq]
    split <;> exact ⟨rfl, rfl⟩
  | _ => exact ⟨rfl, rfl⟩

theorem Reachable.valid {capacity : Nat} {policy : BackpressurePolicy} {s : System ι}
    (hreach : Reachable (init capacity policy) s) :
    s.Valid ∧ s.queue.capacity = capacity ∧ s.queue.policy = policy := by
  induction hreach with
  | refl => exact ⟨valid_init capacity policy, rfl, rfl⟩
  | tail _ hstep ih =>
    obtain ⟨event, hstep⟩ := hstep
    obtain ⟨hvalid, hcapacity, hpolicy⟩ := ih
    obtain ⟨hcapacity', hpolicy'⟩ := step_frame hstep
    exact ⟨hvalid.step hstep, hcapacity'.trans hcapacity, hpolicy'.trans hpolicy⟩

theorem Reachable.of_run {s s' : System ι} {events : List (Event ι)}
    (hrun : s.run events = some s') : Reachable s s' := by
  induction events generalizing s with
  | nil =>
    cases hrun
    exact .refl
  | cons event events ih =>
    obtain ⟨s₁, hstep, hrest⟩ := Option.bind_eq_some_iff.mp hrun
    exact .head ⟨event, hstep⟩ (ih hrest)

theorem run_append (s : System ι) (first second : List (Event ι)) :
    s.run (first ++ second) = (s.run first).bind fun s' => s'.run second := by
  induction first generalizing s with
  | nil => rfl
  | cons event first ih =>
    simp only [List.cons_append, run, Option.bind_assoc]
    congr
    funext s'
    exact ih s'

/-- A whole call of `push` that finds a free slot. -/
def pushCall (i : ι) (item : List UInt8) : List (Event ι) :=
  .BeginPush i item :: List.replicate 6 (.Push i) ++ [.EndPush i]

/-- The next step of a thread inside `push`, shedding apart. -/
theorem step_inside (s : System ι) {i : ι} {item : List UInt8} {late : Bool} {pc pc' : PushPc}
    {queue queue' : MemoryQueue ι} (hpush : push_step i item pc queue = some (pc', queue'))
    (hpc : pc ≠ .DropTest) (accepted : List (List UInt8)) (levels : List Nat) :
    step { s with
        queue, accepted, levels
        threads := Function.update s.threads i (.Push item late pc) } (.Push i) =
      some { s with
        queue := queue'
        accepted := if pc = .PushBack then accepted ++ [item] else accepted
        levels := levels ++ [queue'.queued_bytes]
        threads := Function.update s.threads i (.Push item late pc') } := by
  simp [step, hpush, hpc]

/-- Under `Block` such a call appends its item and does nothing else. -/
theorem run_pushCall {s : System ι} {i : ι} (hidle : s.threads i = .Idle)
    (hpolicy : s.queue.policy = .Block) (hlock : s.queue.lock = none)
    (hopen : s.queue.closed = false) (hroom : s.queue.queue.length < s.queue.capacity)
    (item : List UInt8) :
    ∃ levels, s.run (pushCall i item) = some { s with
      queue := s.queue.push_back item
      accepted := s.accepted ++ [item]
      levels } := by
  let locked : MemoryQueue ι := { s.queue with lock := some i }
  have henter : push_step i item .Enter s.queue = some (.Lock, s.queue) := by simp [push_step, hopen]
  have hlocked : push_step i item .Lock s.queue = some (.LoopTest, locked) := by
    simp [push_step, hlock, hpolicy, locked]
  have htest : push_step i item .LoopTest locked = some (.RoomClosed, locked) :=
    if_neg (Nat.not_le.mpr hroom)
  have hclosed : push_step i item .RoomClosed locked = some (.PushBack, locked) := by
    simp [push_step, locked, hopen]
  have happend : push_step i item .PushBack locked = some (.Unlock .Ok, locked.push_back item) := rfl
  have hunlock : push_step i item (.Unlock .Ok) (locked.push_back item) =
      some (.Returned .Ok, s.queue.push_back item) := by
    simp [push_step, MemoryQueue.push_back, locked, hlock]
  have hthreads : Function.update s.threads i .Idle = s.threads := by
    rw [← hidle, Function.update_eq_self]
  simp only [pushCall, List.replicate, List.cons_append, List.nil_append, run]
  rw [show s.step (.BeginPush i item) = some { s with
    threads := Function.update s.threads i (.Push item s.close_returned .Enter) } by
      simp [step, hidle], Option.bind_some, step_inside s henter (by decide), Option.bind_some,
    step_inside s hlocked (by decide), Option.bind_some, step_inside s htest (by decide),
    Option.bind_some, step_inside s hclosed (by decide), Option.bind_some,
    step_inside s happend (by decide), Option.bind_some, step_inside s hunlock (by decide),
    Option.bind_some]
  simp [step, hthreads]

/-- A push that began when `close` had returned has one step, which fails and leaves
    the queue and its history alone. -/
theorem Valid.late_push {s : System ι} (hvalid : s.Valid) {i : ι} {item : List UInt8} {pc : PushPc}
    (hthread : s.threads i = .Push item true pc) :
    pc = .Returned (.Err "ingest queue is shut down") ∨
    ∃ s', s.step (.Push i) = some s' ∧
      s'.threads i = .Push item true (.Returned (.Err "ingest queue is shut down")) ∧
      s'.queue = s.queue ∧ s'.accepted = s.accepted ∧ s'.shed = s.shed := by
  have hfits : (Thread.Push item true pc).Fits s.queue := hthread ▸ hvalid.fits i
  obtain ⟨hclosed, rfl | rfl⟩ := hfits.2.2 rfl
  · right
    simp [System.step, hthread, push_step, hclosed]
  · exact .inl rfl

omit [DecidableEq ι] in
theorem pop_batch_fifo (queue : MemoryQueue ι) (max_batch_size : Nat) :
    (queue.pop_batch max_batch_size).1 = queue.queue.take max_batch_size ∧
      (queue.pop_batch max_batch_size).2.queue = queue.queue.drop max_batch_size := by
  rw [pop_batch_eq]
  split
  · rename_i hempty
    refine ⟨hempty.symm, ?_⟩
    have hsplit := List.take_append_drop max_batch_size queue.queue
    rw [hempty, List.nil_append] at hsplit
    exact hsplit.symm
  · exact ⟨rfl, rfl⟩

/-- What the queue promises in a state of the system: a bounded FIFO whose counters
    are exact, and which after `close` refuses pushes and still delivers its tail. -/
structure BoundedFifo (capacity : Nat) (policy : BackpressurePolicy) (s : System ι) : Prop where
  fifo : s.popped ++ s.queue.queue = s.accepted
  bounded : s.queue.stats.current_len ≤ capacity
  pushed_accepted : s.queue.stats.pushed = s.accepted.length
  pushed_popped : s.queue.stats.pushed = s.popped.length + s.queue.stats.current_len
  queued_bytes : s.queue.stats.queued_bytes = (s.queue.queue.map List.length).sum
  dropped : s.queue.stats.dropped = s.shed.length
  dropped_bytes : s.queue.stats.dropped_bytes = (s.shed.map List.length).sum
  shed_policy : s.shed ≠ [] → policy = .Drop
  high_water : IsGreatest {level | level ∈ s.levels} s.queue.stats.high_water_bytes
  late_push : ∀ i item pc, s.threads i = .Push item true pc →
    pc = .Returned (.Err "ingest queue is shut down") ∨
    ∃ s', s.step (.Push i) = some s' ∧
      s'.threads i = .Push item true (.Returned (.Err "ingest queue is shut down")) ∧
      s'.queue = s.queue ∧ s'.accepted = s.accepted ∧ s'.shed = s.shed
  pop : ∀ i max_batch_size, s.threads i = .Idle → s.queue.lock = none →
    ∃ s', s.step (.PopBatch i max_batch_size) = some s' ∧
      s'.popped = s.popped ++ s.queue.queue.take max_batch_size ∧
      s'.queue.queue = s.queue.queue.drop max_batch_size

/-- Whatever any number of threads do with a queue, in whatever order their steps
    fall, it is a bounded FIFO with exact counters. -/
theorem Reachable.bounded_fifo {capacity : Nat} {policy : BackpressurePolicy} {s : System ι}
    (hreach : Reachable (init capacity policy) s) : s.BoundedFifo capacity policy := by
  obtain ⟨hvalid, rfl, rfl⟩ := hreach.valid
  have haccounts := hvalid.accounts
  refine ⟨haccounts.fifo, hvalid.bounded, haccounts.pushed_eq, ?_, haccounts.queued_bytes_eq,
    haccounts.dropped_eq, haccounts.dropped_bytes_eq, haccounts.shed_policy,
    ⟨haccounts.high_water_mem, haccounts.high_water_max⟩,
    fun i item pc hthread => hvalid.late_push hthread, ?_⟩
  · rw [MemoryQueue.stats, haccounts.pushed_eq, ← haccounts.fifo, List.length_append]
  · intro i max_batch_size hidle hlock
    obtain ⟨hbatch, hrest⟩ := pop_batch_fifo s.queue max_batch_size
    simp [step, hidle, hlock, hbatch, hrest]

/-- A queue of one slot under `Drop`: the second item is shed, then one thread closes the
    queue and another begins a push. -/
def lateSchedule : List (Event (Fin 2)) :=
  pushCall 0 [97] ++ .BeginPush 0 [98, 99] :: List.replicate 5 (.Push 0) ++
  .EndPush 0 :: .BeginClose 1 :: List.replicate 3 (.Close 1) ++
  [.EndClose 1, .BeginPush 0 [100]]

theorem bounded_fifo_late_push : ∃ s, (init 1 .Drop).run lateSchedule = some s ∧
    s.queue.stats = ⟨1, 1, 0, 1, 1, 2, 1⟩ ∧ s.threads 0 = .Push [100] true .Enter ∧
    s.BoundedFifo 1 .Drop := by
  have hseen : ((init 1 .Drop).run lateSchedule).map (fun s => (s.queue.stats, s.threads 0)) =
      some (⟨1, 1, 0, 1, 1, 2, 1⟩, .Push [100] true .Enter) := rfl
  obtain ⟨s, hrun, hs⟩ := Option.map_eq_some_iff.mp hseen
  obtain ⟨hstats, hthread⟩ := Prod.mk.inj hs
  exact ⟨s, hrun, hstats, hthread, Reachable.bounded_fifo (Reachable.of_run hrun)⟩

end System

end ulpf_core.ingest
