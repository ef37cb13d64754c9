import Ulpf.Integrity.Batcher.Flush

open Result
open ulpf_integrity.merkle ulpf_integrity.storage ulpf_integrity.tamper

namespace ulpf_integrity.batcher

namespace BatchAccumulator

/-- The number of the first block after those of a ledger. The source adds in `u64`; what is read
    back from a ledger file is stated for numbers below `2 ^ 64`. -/
def next_block_id (in_memory_ledger : List LedgerEntry) : Nat :=
  (in_memory_ledger.getLast?.map (·.block_id + 1)).getD 0

/-- Creates an accumulator that continues the ledger found on disk. -/
def new {H : Type} (reader : JsonReader) (config : BatcherConfig) (disk : Disk H) :
    Except String BatchAccumulator :=
  let loaded :=
    if disk.ledger.isSome then load_ledger_entries reader config.ledger_path disk.ledger
    else .ok []
  loaded.map fun in_memory_ledger =>
    { config
      buffer := []
      first_item_time := none
      current_block_id := next_block_id in_memory_ledger
      in_memory_ledger }

def pending_duration (self : BatchAccumulator) (now : Nat) : Option Nat :=
  self.first_item_time.map (now - ·)

/-- `Duration::from_millis`, in nanoseconds. -/
def max_batch_duration (self : BatchAccumulator) : Nat := self.config.max_batch_duration_ms * 1000000

/-- True if either the count trigger or the duration trigger is met. -/
def should_flush (self : BatchAccumulator) (now : Nat) : Bool :=
  if self.buffer.isEmpty then false
  else
    let count_met := decide (self.buffer.length ≥ self.config.max_batch_size)
    let duration_met :=
      ((self.pending_duration now).map fun d => decide (d ≥ self.max_batch_duration)).getD false
    count_met || duration_met

theorem should_flush_of_count {self : BatchAccumulator} (hne : self.buffer ≠ [])
    (hcount : self.config.max_batch_size ≤ self.buffer.length) (now : Nat) :
    self.should_flush now = true := by
  have hnonempty : self.buffer.isEmpty = false := by simpa using hne
  have hcount_met : decide (self.buffer.length ≥ self.config.max_batch_size) = true :=
    decide_eq_true hcount
  simp only [should_flush, hnonempty, hcount_met, Bool.true_or, Bool.false_eq_true, ↓reduceIte]

theorem should_flush_eq_false {self : BatchAccumulator} {now : Nat}
    (hcount : self.buffer.length < self.config.max_batch_size)
    (hclock : ∀ elapsed ∈ self.pending_duration now, elapsed < self.max_batch_duration) :
    self.should_flush now = false := by
  have hcount_met : decide (self.buffer.length ≥ self.config.max_batch_size) = false :=
    decide_eq_false (Nat.not_le.mpr hcount)
  have hduration_met : ∀ (limit : Nat) (pending : Option Nat), (∀ elapsed ∈ pending, elapsed < limit) →
      (pending.map fun d => decide (d ≥ limit)).getD false = false := by
    intro limit pending hpending
    cases pending with
    | none => rfl
    | some elapsed => exact decide_eq_false (Nat.not_le.mpr (hpending elapsed rfl))
  simp only [should_flush, hcount_met, hduration_met _ _ hclock, Bool.or_self, ite_self]

theorem pending_duration_lt_of_not_should_flush {self : BatchAccumulator} {now : Nat}
    (hne : self.buffer ≠ []) (h : self.should_flush now = false) :
    ∀ elapsed ∈ self.pending_duration now, elapsed < self.max_batch_duration := by
  have hnonempty : self.buffer.isEmpty = false := by simpa using hne
  have hnot_due : ∀ (limit : Nat) (pending : Option Nat),
      (pending.map fun d => decide (d ≥ limit)).getD false = false →
      ∀ elapsed ∈ pending, elapsed < limit := by
    rintro limit _ hdue elapsed rfl
    exact Nat.not_le.mp (of_decide_eq_false hdue)
  simp only [should_flush, hnonempty, Bool.false_eq_true, ↓reduceIte, Bool.or_eq_false_iff] at h
  exact hnot_due _ _ h.2

variable (H : Type) [Digest H]

def push (io : Io) (env : Env) (self : BatchAccumulator) (log : IncomingLog) (disk : Disk H) :
    Result (Except String (Option (BlockFlushResult H)) × BatchAccumulator × Disk H) :=
  let self :=
    if self.buffer.isEmpty then { self with first_item_time := some env.instant } else self
  let self := { self with buffer := self.buffer ++ [log] }
  if self.should_flush env.elapsed_at then self.flush H io env disk else ok (.ok none, self, disk)

def check_timeout (io : Io) (env : Env) (self : BatchAccumulator) (disk : Disk H) :
    Result (Except String (Option (BlockFlushResult H)) × BatchAccumulator × Disk H) :=
  if self.buffer.isEmpty then ok (.ok none, self, disk)
  else
    match self.pending_duration env.elapsed_at with
    | some elapsed =>
      if elapsed ≥ self.max_batch_duration then self.flush H io env disk
      else ok (.ok none, self, disk)
    | none => ok (.ok none, self, disk)

end BatchAccumulator

/-- The calls a driver can make. -/
inductive Call where
  | Push (log : IncomingLog)
  | CheckTimeout
  | Flush
  deriving DecidableEq, Repr

namespace Call

def logs : Call → List IncomingLog
  | Push log => [log]
  | CheckTimeout | Flush => []

/-- The accumulator when a call has taken its log and not decided about a flush. -/
def accept (env : Env) (self : BatchAccumulator) : Call → BatchAccumulator
  | Push log =>
    { self with
      first_item_time := if self.buffer.isEmpty then some env.instant else self.first_item_time
      buffer := self.buffer ++ [log] }
  | CheckTimeout | Flush => self

/-- Whether a call goes on to flush. -/
def flushes (env : Env) (self : BatchAccumulator) (call : Call) : Bool :=
  match call with
  | Push _ => (call.accept env self).should_flush env.elapsed_at
  | CheckTimeout =>
    match self.pending_duration env.elapsed_at with
    | some elapsed => !self.buffer.isEmpty && decide (elapsed ≥ self.max_batch_duration)
    | none => false
  | Flush => true

variable (H : Type) [Digest H]

def exec (io : Io) (env : Env) (self : BatchAccumulator) (disk : Disk H) :
    Call → Result (Except String (Option (BlockFlushResult H)) × BatchAccumulator × Disk H)
  | Push log => self.push H io env log disk
  | CheckTimeout => self.check_timeout H io env disk
  | Flush => self.flush H io env disk

variable {H}

/-- Every call takes its log and then flushes or returns. -/
theorem exec_eq (io : Io) (env : Env) (self : BatchAccumulator) (disk : Disk H) (call : Call) :
    call.exec H io env self disk =
      if call.flushes env self then (call.accept env self).flush H io env disk
      else ok (.ok none, call.accept env self, disk) := by
  cases call with
  | Push log =>
    simp only [exec, BatchAccumulator.push, flushes, accept]
    by_cases hempty : self.buffer.isEmpty = true <;> simp only [hempty, ↓reduceIte]
    simp
  | CheckTimeout =>
    simp only [exec, BatchAccumulator.check_timeout, flushes, accept]
    obtain hpending | ⟨elapsed, hpending⟩ :=
      Option.eq_none_or_eq_some (self.pending_duration env.elapsed_at) <;>
      by_cases hempty : self.buffer.isEmpty = true <;> simp [hempty, hpending]
  | Flush => simp [exec, flushes, accept]

/-- With a batch size of one every push is a flush. -/
theorem exec_push_eq_flush {self : BatchAccumulator} (hsize : self.config.max_batch_size ≤ 1) (io : Io)
    (env : Env) (disk : Disk H) (log : IncomingLog) :
    (Push log).exec H io env self disk = ((Push log).accept env self).flush H io env disk := by
  rw [exec_eq, if_pos]
  refine BatchAccumulator.should_flush_of_count (by simp [accept]) ?_ _
  simp only [accept, List.length_append, List.length_singleton]
  omega

/-- A push that does not flush leaves the buffer below the count trigger. -/
theorem length_lt_of_not_flushes {env : Env} {self : BatchAccumulator} {log : IncomingLog}
    (h : (Push log).flushes env self = false) :
    ((Push log).accept env self).buffer.length < self.config.max_batch_size := by
  simp [flushes, BatchAccumulator.should_flush, accept] at h ⊢
  exact h.1

/-- A call leaves at most as many logs in the buffer as the count trigger allows. -/
theorem length_accept_le (call : Call) (env : Env) {self : BatchAccumulator}
    (hlt : self.buffer.length < max 1 self.config.max_batch_size) :
    (call.accept env self).buffer.length ≤ max 1 self.config.max_batch_size := by
  cases call with
  | Push log =>
    simp only [accept, List.length_append, List.length_singleton]
    omega
  | CheckTimeout | Flush => exact hlt.le

theorem accept_config (env : Env) (self : BatchAccumulator) (call : Call) :
    (call.accept env self).config = self.config := by
  cases call <;> rfl

theorem accept_current_block_id (call : Call) (env : Env) (self : BatchAccumulator) :
    (call.accept env self).current_block_id = self.current_block_id := by
  cases call <;> rfl

theorem accept_in_memory_ledger (call : Call) (env : Env) (self : BatchAccumulator) :
    (call.accept env self).in_memory_ledger = self.in_memory_ledger := by
  cases call <;> rfl

/-- A push that does not flush finds the oldest log younger than the batch duration. -/
theorem elapsed_lt_of_not_flushes {env : Env} {self : BatchAccumulator} {log : IncomingLog}
    (h : (Push log).flushes env self = false) {first : Nat}
    (hfirst : ((Push log).accept env self).first_item_time = some first) :
    env.elapsed_at < first + self.max_batch_duration := by
  have hnonempty : ((Push log).accept env self).buffer ≠ [] := by simp [accept]
  have hduration : ((Push log).accept env self).max_batch_duration = self.max_batch_duration := by
    rw [BatchAccumulator.max_batch_duration, accept_config, BatchAccumulator.max_batch_duration]
  have hlt := BatchAccumulator.pending_duration_lt_of_not_should_flush hnonempty h
    (env.elapsed_at - first) (by rw [BatchAccumulator.pending_duration, hfirst]; rfl)
  rw [hduration] at hlt
  omega

/-- A call that returns without an error leaves the buffer below the count trigger. -/
theorem length_lt_of_exec {io : Io} {env : Env} {self self' : BatchAccumulator} {disk disk' : Disk H}
    {call : Call} {result : Option (BlockFlushResult H)}
    (hlt : self.buffer.length < max 1 self.config.max_batch_size)
    (hexec : call.exec H io env self disk = ok (.ok result, self', disk')) :
    self'.config = self.config ∧ self'.buffer.length < max 1 self.config.max_batch_size := by
  rw [exec_eq] at hexec
  split at hexec
  · have hempty := BatchAccumulator.buffer_eq_nil_of_flush hexec
    obtain ⟨-, -, rfl, -⟩ | ⟨flushed, -, hflushed⟩ := BatchAccumulator.flush_of_ok hexec
    · exact ⟨accept_config env self call, by simp [hempty]⟩
    · rw [hflushed.batcher_eq]
      exact ⟨accept_config env self call, by simp⟩
  · rename_i hstays
    cases hexec
    refine ⟨accept_config env self call, ?_⟩
    cases call with
    | Push log =>
      have := length_lt_of_not_flushes (by simpa using hstays)
      exact lt_max_of_lt_right this
    | CheckTimeout | Flush => exact hlt

end Call

end ulpf_integrity.batcher
