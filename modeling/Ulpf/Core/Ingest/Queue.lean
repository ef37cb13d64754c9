import Mathlib.Data.List.Basic
import Mathlib.Tactic

namespace ulpf_core.ingest

/-- What a producer should do when the bounded ingest queue is full. -/
inductive BackpressurePolicy where
  | Block
  | Drop
  deriving DecidableEq, Repr

/-- Snapshot of the counters, taken under the queue lock. -/
structure QueueStats where
  pushed : Nat
  dropped : Nat
  blocked : Nat
  current_len : Nat
  queued_bytes : Nat
  dropped_bytes : Nat
  high_water_bytes : Nat
  deriving DecidableEq, Repr

/-- The queue that producers and consumer share. `lock` is the thread inside the
    critical section; `not_full_notifications` counts the wake-ups sent to producers
    that wait for a free slot. -/
structure MemoryQueue (ι : Type) where
  queue : List (List UInt8)
  lock : Option ι
  capacity : Nat
  policy : BackpressurePolicy
  pushed : Nat
  dropped : Nat
  blocked : Nat
  queued_bytes : Nat
  dropped_bytes : Nat
  high_water_bytes : Nat
  closed : Bool
  not_full_notifications : Nat

variable {ι : Type}

namespace MemoryQueue

def new (capacity : Nat) (policy : BackpressurePolicy) : MemoryQueue ι where
  queue := []
  lock := none
  capacity
  policy
  pushed := 0
  dropped := 0
  blocked := 0
  queued_bytes := 0
  dropped_bytes := 0
  high_water_bytes := 0
  closed := false
  not_full_notifications := 0

/-- Appending an item, with the counters that move with it. -/
def push_back (self : MemoryQueue ι) (b : List UInt8) : MemoryQueue ι :=
  let current := self.queued_bytes + b.length
  { self with
    queue := self.queue ++ [b]
    pushed := self.pushed + 1
    queued_bytes := current
    high_water_bytes := max self.high_water_bytes current }

/-- Shedding an item under the `Drop` policy. -/
def shed (self : MemoryQueue ι) (b : List UInt8) : MemoryQueue ι :=
  { self with dropped := self.dropped + 1, dropped_bytes := self.dropped_bytes + b.length }

/-- The critical section of `pop_batch`. It reads nothing that is written without
    the lock, so it is one step, taken while the lock is free. -/
def pop_batch (self : MemoryQueue ι) (max_batch_size : Nat) : List (List UInt8) × MemoryQueue ι :=
  if self.queue.isEmpty then ([], self)
  else
    let batch_size := min max_batch_size self.queue.length
    let batch := self.queue.take batch_size
    let bytes_popped := (batch.map List.length).sum
    let self := { self with queue := self.queue.drop batch_size }
    if !batch.isEmpty then
      (batch, { self with
        queued_bytes :=
          if bytes_popped > 0 then self.queued_bytes - bytes_popped else self.queued_bytes
        not_full_notifications := self.not_full_notifications + 1 })
    else (batch, self)

def stats (self : MemoryQueue ι) : QueueStats where
  pushed := self.pushed
  dropped := self.dropped
  blocked := self.blocked
  current_len := self.queue.length
  queued_bytes := self.queued_bytes
  dropped_bytes := self.dropped_bytes
  high_water_bytes := self.high_water_bytes

end MemoryQueue

inductive PushResult where
  | Ok
  | Err (message : String)
  deriving DecidableEq, Repr

/-- Where a thread stands in `push`. The flag `closed` is written without the lock,
    so every read of it is a step of its own, inside the critical section too. -/
inductive PushPc where
  /-- First read of `closed`, before the lock. -/
  | Enter
  | Lock
  /-- `Block`: the head of the `while` loop. -/
  | LoopTest
  /-- `Block`: the queue was full, read of `closed`. -/
  | LoopClosed
  | Wait
  /-- Waiting on `not_full` since so many notifications; the lock is free. -/
  | Parked (since : Nat)
  | Relock
  /-- `Block`: a slot was free, read of `closed`. -/
  | RoomClosed
  /-- `Drop`: read of `closed` under the lock. -/
  | DropClosed
  | DropTest
  | PushBack
  | Unlock (result : PushResult)
  | Returned (result : PushResult)
  deriving DecidableEq, Repr

/-- The next step of a thread in `push`; `none` while it waits for the lock or has
    returned. A parked thread may wake at any time, as condition variables allow. -/
def push_step (me : ι) (b : List UInt8) (pc : PushPc) (self : MemoryQueue ι) :
    Option (PushPc × MemoryQueue ι) :=
  match pc with
  | .Enter =>
    if self.closed then some (.Returned (.Err "ingest queue is shut down"), self)
    else some (.Lock, self)
  | .Lock =>
    if self.lock.isNone then
      match self.policy with
      | .Block => some (.LoopTest, { self with lock := some me })
      | .Drop => some (.DropClosed, { self with lock := some me })
    else none
  | .LoopTest =>
    if self.queue.length ≥ self.capacity then some (.LoopClosed, self) else some (.RoomClosed, self)
  | .LoopClosed =>
    if self.closed then some (.Unlock (.Err "ingest queue shut down while blocked"), self)
    else some (.Wait, { self with blocked := self.blocked + 1 })
  | .Wait => some (.Parked self.not_full_notifications, { self with lock := none })
  | .Parked _ => some (.Relock, self)
  | .Relock => if self.lock.isNone then some (.LoopTest, { self with lock := some me }) else none
  | .RoomClosed =>
    if self.closed then some (.Unlock (.Err "ingest queue shut down while blocked"), self)
    else some (.PushBack, self)
  | .DropClosed =>
    if self.closed then some (.Unlock (.Err "ingest queue is shut down"), self)
    else some (.DropTest, self)
  | .DropTest =>
    if self.queue.length ≥ self.capacity then some (.Unlock .Ok, self.shed b)
    else some (.PushBack, self)
  | .PushBack => some (.Unlock .Ok, self.push_back b)
  | .Unlock result => some (.Returned result, { self with lock := none })
  | .Returned _ => none

namespace PushPc

/-- The points inside the critical section. -/
def holdsLock : PushPc → Bool
  | LoopTest | LoopClosed | Wait | RoomClosed | DropClosed | DropTest | PushBack | Unlock _ => true
  | Enter | Lock | Parked _ | Relock | Returned _ => false

/-- The points at which a thread has read `closed` as false under the lock and goes
    on to append. -/
def committed : PushPc → Bool
  | DropTest | PushBack => true
  | _ => false

theorem holdsLock_of_committed {pc : PushPc} (h : pc.committed = true) : pc.holdsLock = true := by
  cases pc <;> simp_all [committed, holdsLock]

end PushPc

/-- The steps of `close`, which takes no lock. -/
inductive ClosePc where
  | Store
  | NotifyNotFull
  | NotifyNotEmpty
  | Returned
  deriving DecidableEq, Repr

/-- Nothing waits on `not_empty`, so notifying it has no effect. -/
def close_step (pc : ClosePc) (self : MemoryQueue ι) : Option (ClosePc × MemoryQueue ι) :=
  match pc with
  | .Store => some (.NotifyNotFull, { self with closed := true })
  | .NotifyNotFull =>
    some (.NotifyNotEmpty, { self with not_full_notifications := self.not_full_notifications + 1 })
  | .NotifyNotEmpty => some (.Returned, self)
  | .Returned => none

/-- What a step of `push` can do: the item is appended exactly at `PushBack`, the
    flag is left alone, a thread commits only after it has read the flag as false,
    and the lock follows the critical section. -/
structure PushStep (me : ι) (b : List UInt8) (pc pc' : PushPc) (before after : MemoryQueue ι) :
    Prop where
  queue_eq : after.queue = if pc = .PushBack then before.queue ++ [b] else before.queue
  closed_eq : after.closed = before.closed
  committed : pc'.committed = true → pc.committed = true ∨ before.closed = false
  free : pc.holdsLock = false → pc'.holdsLock = true → before.lock = none
  lock_eq : after.lock = if pc'.holdsLock = pc.holdsLock then before.lock
    else if pc'.holdsLock then some me else none

theorem push_step_spec {me : ι} {b : List UInt8} {pc pc' : PushPc} {self self' : MemoryQueue ι}
    (hstep : push_step me b pc self = some (pc', self')) : PushStep me b pc pc' self self' := by
  cases pc <;> simp only [push_step] at hstep <;> (try split at hstep) <;> (try split at hstep) <;>
    cases hstep <;> constructor <;>
    simp_all [PushPc.committed, PushPc.holdsLock, MemoryQueue.shed, MemoryQueue.push_back]

/-- Mutual exclusion is kept: the lock passes between the thread that makes the step
    and nobody, so not to or from another one. -/
theorem PushStep.lock_iff {me : ι} {b : List UInt8} {pc pc' : PushPc} {before after : MemoryQueue ι}
    (hstep : PushStep me b pc pc' before after) {holds holds' : ι → Prop}
    (hlock : ∀ i, before.lock = some i ↔ holds i) (hme : holds me ↔ pc.holdsLock = true)
    (hme' : holds' me ↔ pc'.holdsLock = true) (hother : ∀ j, j ≠ me → (holds' j ↔ holds j)) (i : ι) :
    after.lock = some i ↔ holds' i := by
  rw [hstep.lock_eq]
  by_cases hi : i = me
  · subst hi
    have hself := (hlock i).trans hme
    rw [hme']
    cases hafter : pc'.holdsLock <;> cases hbefore : pc.holdsLock <;> simp_all
  · rw [hother i hi, ← hlock i]
    have hne : me ≠ i := fun h => hi h.symm
    split
    · rfl
    · cases hbefore : pc.holdsLock with
      | true =>
        have hheld := (hlock me).mpr (hme.mpr hbefore)
        simp_all
      | false =>
        have hafter : pc'.holdsLock = true := by simp_all
        simp [hafter, hstep.free hbefore hafter, hne]

/-- `pop_batch` in one equation: the first items go, and the gauge and the waiting
    producers hear of it if there are any. -/
theorem pop_batch_eq (self : MemoryQueue ι) (max_batch_size : Nat) :
    self.pop_batch max_batch_size =
      if self.queue.take max_batch_size = [] then ([], self)
      else (self.queue.take max_batch_size, { self with
        queue := self.queue.drop max_batch_size
        queued_bytes := self.queued_bytes - ((self.queue.take max_batch_size).map List.length).sum
        not_full_notifications := self.not_full_notifications + 1 }) := by
  have htake : self.queue.take (min max_batch_size self.queue.length) = self.queue.take max_batch_size := by
    simp
  have hdrop : self.queue.drop (min max_batch_size self.queue.length) = self.queue.drop max_batch_size := by
    rcases Nat.le_total max_batch_size self.queue.length with hle | hle
    · rw [min_eq_left hle]
    · rw [min_eq_right hle, List.drop_length, List.drop_eq_nil_of_le hle]
  unfold MemoryQueue.pop_batch
  by_cases hempty : self.queue = []
  · simp [hempty]
  have hnonempty : self.queue.isEmpty = false := by simpa using hempty
  simp only [hnonempty, Bool.false_eq_true, ↓reduceIte, htake, hdrop]
  by_cases hbatch : self.queue.take max_batch_size = []
  · have hzero : max_batch_size = 0 := by simpa [hempty] using hbatch
    simp [hzero]
  · have hsub : ∀ bytes : Nat, (if bytes > 0 then self.queued_bytes - bytes else self.queued_bytes) =
        self.queued_bytes - bytes := by
      intro bytes
      split <;> omega
    simp only [List.isEmpty_eq_false_iff.mpr hbatch, Bool.not_false, ↓reduceIte, hbatch, hsub]

/-- A batch is a front part of the queue, and it is empty only for an empty queue. -/
theorem pop_batch_spec (self : MemoryQueue ι) {max_batch_size : Nat} (hmax : 1 ≤ max_batch_size) :
    (self.pop_batch max_batch_size).1 ++ (self.pop_batch max_batch_size).2.queue = self.queue ∧
    ((self.pop_batch max_batch_size).1 = [] → (self.pop_batch max_batch_size).2.queue = []) ∧
    (self.pop_batch max_batch_size).2.lock = self.lock ∧
    (self.pop_batch max_batch_size).2.closed = self.closed := by
  rw [pop_batch_eq]
  split
  · rename_i hempty
    have hnil : self.queue = [] := by
      rcases List.take_eq_nil_iff.mp hempty with hzero | hnil
      · omega
      · exact hnil
    exact ⟨by simp, fun _ => hnil, rfl, rfl⟩
  · rename_i hne
    exact ⟨List.take_append_drop _ _, fun h => absurd h hne, rfl, rfl⟩

end ulpf_core.ingest
