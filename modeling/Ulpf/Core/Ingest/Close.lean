import Mathlib.Data.Fintype.Defs
import Ulpf.Core.Ingest.System

namespace ulpf_core.ingest

variable {ι : Type}

namespace Thread

/-- The thread has read `closed` as false in the loop of a `Block` push and has not yet
    begun to wait. -/
def aboutToWait : Thread → Bool
  | Push _ _ .Wait => true
  | _ => false

/-- The thread waits on `not_full`, and no notification was sent since it began to. -/
def unheard (queue : MemoryQueue ι) : Thread → Bool
  | Push _ _ (.Parked since) => decide (queue.not_full_notifications ≤ since)
  | _ => false

theorem aboutToWait_eq_true_iff (thread : Thread) :
    thread.aboutToWait = true ↔ ∃ item late, thread = .Push item late .Wait := by
  unfold aboutToWait
  split <;> simp_all

theorem unheard_eq_true_iff (queue : MemoryQueue ι) (thread : Thread) :
    thread.unheard queue = true ↔ ∃ item late since,
      thread = .Push item late (.Parked since) ∧ queue.not_full_notifications ≤ since := by
  unfold unheard
  split <;> simp_all

/-- What is known of a thread once a `close` has notified the producers: it will not
    wait before it reads `closed` again, and if it waits it was notified. -/
def Released (queue : MemoryQueue ι) (thread : Thread) : Prop :=
  thread.aboutToWait = false ∧ thread.unheard queue = false

theorem Released.mono {queue queue' : MemoryQueue ι} {thread : Thread}
    (hreleased : thread.Released queue)
    (hle : queue.not_full_notifications ≤ queue'.not_full_notifications) :
    thread.Released queue' := by
  refine ⟨hreleased.1, ?_⟩
  rw [Bool.eq_false_iff, ne_eq, unheard_eq_true_iff]
  rintro ⟨item, late, since, rfl, hsince⟩
  have hheard := hreleased.2
  rw [Bool.eq_false_iff, ne_eq, unheard_eq_true_iff] at hheard
  exact hheard ⟨item, late, since, rfl, hle.trans hsince⟩

end Thread

namespace System

/-- Some call of `close` has sent its notification to the producers. -/
def Notified (s : System ι) : Prop :=
  s.close_returned = true ∨ ∃ i, s.threads i = .Close .NotifyNotEmpty ∨ s.threads i = .Close .Returned

theorem Valid.closed_of_notified {s : System ι} (hvalid : s.Valid) (hnotified : s.Notified) :
    s.queue.closed = true := by
  rcases hnotified with hreturned | ⟨i, hthread | hthread⟩
  · exact hvalid.closed hreturned
  all_goals
    have hfits := hvalid.fits i
    rw [hthread] at hfits
    exact hfits (by decide)

/-- No producer waits since a notification that was not sent, and once a `close` has
    notified the producers every thread is released. -/
structure Hears (s : System ι) : Prop where
  since_le : ∀ i item late since, s.threads i = .Push item late (.Parked since) →
    since ≤ s.queue.not_full_notifications
  released : s.Notified → ∀ i, (s.threads i).Released s.queue

theorem hears_init (capacity : Nat) (policy : BackpressurePolicy) :
    (init capacity policy : System ι).Hears where
  since_le := by simp [init]
  released := by simp [init, Notified]

variable [DecidableEq ι]

/-- A `close` that is about to notify finds no producer between its read of `closed` and
    its wait. -/
def Meets (s : System ι) : Event ι → Prop
  | .Close i => s.threads i = .Close .NotifyNotFull → ∀ j, (s.threads j).aboutToWait = false
  | _ => True

instance decidableMeets [Fintype ι] (s : System ι) : (event : Event ι) → Decidable (s.Meets event)
  | .Close i => inferInstanceAs (Decidable
      (s.threads i = .Close .NotifyNotFull → ∀ j, (s.threads j).aboutToWait = false))
  | .BeginPush _ _ | .Push _ | .EndPush _ | .BeginClose _ | .EndClose _ | .PopBatch _ _ | .Stats _ =>
    isTrue trivial

/-- Every step of the run meets the condition. -/
def MeetsAll (s : System ι) : List (Event ι) → Prop
  | [] => True
  | event :: events => s.Meets event ∧ ∀ s' ∈ s.step event, s'.MeetsAll events

instance decidableMeetsAll [Fintype ι] :
    (events : List (Event ι)) → (s : System ι) → Decidable (s.MeetsAll events)
  | [], _ => isTrue trivial
  | event :: events, s =>
    have := decidableMeetsAll events
    inferInstanceAs (Decidable (s.Meets event ∧ ∀ s' ∈ s.step event, s'.MeetsAll events))

/-- One thread moves and the notifications do not get fewer. -/
theorem Hears.update {s s' : System ι} (hhears : s.Hears) {i : ι} {thread : Thread}
    (hthreads : s'.threads = Function.update s.threads i thread)
    (hle : s.queue.not_full_notifications ≤ s'.queue.not_full_notifications)
    (hsince : ∀ item late since, thread = .Push item late (.Parked since) →
      since ≤ s'.queue.not_full_notifications)
    (hnotified : s'.Notified → s.Notified) (hreleased : s.Notified → thread.Released s'.queue) :
    s'.Hears where
  since_le j item late since hthread := by
    rw [hthreads] at hthread
    by_cases hj : j = i
    · subst hj
      rw [Function.update_self] at hthread
      exact hsince item late since hthread
    · rw [Function.update_of_ne hj] at hthread
      exact (hhears.since_le j item late since hthread).trans hle
  released hs' j := by
    have hs := hnotified hs'
    rw [hthreads]
    by_cases hj : j = i
    · subst hj
      rw [Function.update_self]
      exact hreleased hs
    · rw [Function.update_of_ne hj]
      exact (hhears.released hs j).mono hle

theorem Notified.of_update {s s' : System ι} {i : ι} {thread : Thread}
    (hthreads : s'.threads = Function.update s.threads i thread)
    (hreturned : s'.close_returned = true → s.Notified)
    (hclose : thread = .Close .NotifyNotEmpty ∨ thread = .Close .Returned → s.Notified)
    (hnotified : s'.Notified) : s.Notified := by
  rcases hnotified with h | ⟨j, h⟩
  · exact hreturned h
  · rw [hthreads] at h
    by_cases hj : j = i
    · subst hj
      rw [Function.update_self] at h
      exact hclose h
    · rw [Function.update_of_ne hj] at h
      exact .inr ⟨j, h⟩

/-- A step inside `push`. Once a `close` has notified, `closed` is latched, so no step
    leads to the wait; a wait that is on begins now, so nothing is missed. -/
theorem Hears.push {s s' : System ι} (hvalid : s.Valid) (hhears : s.Hears) {i : ι}
    {item : List UInt8} {late : Bool} {pc pc' : PushPc} (hthread : s.threads i = .Push item late pc)
    (hpush : push_step i item pc s.queue = some (pc', s'.queue))
    (hthreads : s'.threads = Function.update s.threads i (.Push item late pc'))
    (hreturned : s'.close_returned = s.close_returned) : s'.Hears := by
  have hflow := push_step_flow hpush
  obtain ⟨-, -, hnotifications⟩ := push_step_frame hpush
  refine hhears.update hthreads hnotifications.ge ?_ (Notified.of_update hthreads ?_ ?_) ?_
  · rintro item' late' since h
    obtain ⟨-, -, rfl⟩ := Thread.Push.inj h
    obtain ⟨-, rfl⟩ := hflow.parked since rfl
    exact hnotifications.ge
  · exact fun h => .inl (hreturned ▸ h)
  · rintro (h | h) <;> cases h
  · intro hnotified
    have hreleased := (hhears.released hnotified i).1
    rw [hthread] at hreleased
    have hclosed := hvalid.closed_of_notified hnotified
    constructor
    · rw [Bool.eq_false_iff, ne_eq, Thread.aboutToWait_eq_true_iff]
      rintro ⟨item', late', h⟩
      obtain ⟨-, -, hwait⟩ := Thread.Push.inj h
      rw [hflow.wait hwait] at hclosed
      cases hclosed
    · rw [Bool.eq_false_iff, ne_eq, Thread.unheard_eq_true_iff]
      rintro ⟨item', late', since, h, -⟩
      obtain ⟨-, -, hparked⟩ := Thread.Push.inj h
      obtain ⟨rfl, -⟩ := hflow.parked since hparked
      cases hreleased

/-- The notification of `close` reaches every producer that waits; the condition is that
    none is on its way there. -/
theorem Hears.notify {s s' : System ι} (hhears : s.Hears) {i : ι}
    (hmeets : ∀ j, (s.threads j).aboutToWait = false)
    (hthreads : s'.threads = Function.update s.threads i (.Close .NotifyNotEmpty))
    (hsent : s'.queue.not_full_notifications = s.queue.not_full_notifications + 1) : s'.Hears := by
  have hother : ∀ j item late pc, s'.threads j = .Push item late pc →
      s.threads j = .Push item late pc := by
    intro j item late pc hthread
    rw [hthreads] at hthread
    by_cases hj : j = i
    · subst hj
      rw [Function.update_self] at hthread
      cases hthread
    · rwa [Function.update_of_ne hj] at hthread
  constructor
  · intro j item late since hthread
    have hle := hhears.since_le j item late since (hother j item late _ hthread)
    omega
  · intro _ j
    constructor
    · rw [Bool.eq_false_iff, ne_eq, Thread.aboutToWait_eq_true_iff]
      rintro ⟨item, late, hthread⟩
      have hwait := hmeets j
      rw [hother j item late _ hthread] at hwait
      cases hwait
    · rw [Bool.eq_false_iff, ne_eq, Thread.unheard_eq_true_iff]
      rintro ⟨item, late, since, hthread, hsince⟩
      have hle := hhears.since_le j item late since (hother j item late _ hthread)
      omega

/-- One step that meets the condition. -/
theorem Hears.step {s s' : System ι} (hvalid : s.Valid) (hhears : s.Hears) {event : Event ι}
    (hmeets : s.Meets event) (hstep : s.step event = some s') : s'.Hears := by
  cases moves_of_step hstep with
  | BeginPush hthread =>
    exact hhears.update rfl le_rfl (by simp) (Notified.of_update rfl .inl (by simp))
      fun _ => ⟨rfl, rfl⟩
  | Push hthread hpush => exact hhears.push hvalid hthread hpush rfl rfl
  | EndPush hthread =>
    exact hhears.update rfl le_rfl (by simp) (Notified.of_update rfl .inl (by simp))
      fun _ => ⟨rfl, rfl⟩
  | BeginClose hthread =>
    exact hhears.update rfl le_rfl (by simp) (Notified.of_update rfl .inl (by simp))
      fun _ => ⟨rfl, rfl⟩
  | @Close i pc pc' queue' hthread hclose =>
    cases pc with
    | Store =>
      cases hclose
      exact hhears.update rfl le_rfl (by simp) (Notified.of_update rfl .inl (by simp))
        fun _ => ⟨rfl, rfl⟩
    | NotifyNotFull =>
      cases hclose
      exact hhears.notify (hmeets hthread) rfl rfl
    | NotifyNotEmpty =>
      cases hclose
      have hnotified : s.Notified := .inr ⟨i, .inl hthread⟩
      exact hhears.update rfl le_rfl (by simp) (fun _ => hnotified) fun _ => ⟨rfl, rfl⟩
    | Returned => cases hclose
  | @EndClose i hthread =>
    have hnotified : s.Notified := .inr ⟨i, .inr hthread⟩
    exact hhears.update rfl le_rfl (by simp) (fun _ => hnotified) fun _ => ⟨rfl, rfl⟩
  | @PopBatch i max_batch_size =>
    have hle : s.queue.not_full_notifications ≤
        (s.queue.pop_batch max_batch_size).2.not_full_notifications := by
      rw [pop_batch_eq]
      split
      · exact le_rfl
      · exact Nat.le_succ _
    exact ⟨fun j item late since h => (hhears.since_le j item late since h).trans hle,
      fun h j => (hhears.released h j).mono hle⟩
  | Stats => exact hhears

theorem Hears.run {s s' : System ι} (hvalid : s.Valid) (hhears : s.Hears) {events : List (Event ι)}
    (hmeets : s.MeetsAll events) (hrun : s.run events = some s') : s'.Hears := by
  induction events generalizing s with
  | nil =>
    cases hrun
    exact hhears
  | cons event events ih =>
    obtain ⟨s₁, hstep, hrest⟩ := Option.bind_eq_some_iff.mp hrun
    exact ih (hvalid.step hstep) (hhears.step hvalid hmeets.1 hstep) (hmeets.2 s₁ hstep) hrest

/-- In every run in which `close` never notifies while a producer is between its read of
    `closed` and its wait, a `close` that has returned leaves no producer waiting
    unheard. -/
theorem close_releases_producers {capacity : Nat} {policy : BackpressurePolicy}
    {events : List (Event ι)} {s : System ι} (hrun : (init capacity policy).run events = some s)
    (hmeets : (init capacity policy).MeetsAll events) (hreturned : s.close_returned = true) (i : ι) :
    (s.threads i).unheard s.queue = false :=
  ((hears_init capacity policy).run (valid_init capacity policy) hmeets hrun).released
    (.inl hreturned) i |>.2

/-- A producer fills a queue of one slot and pushes again, up to the point at which it
    has read `closed` as false. -/
def fillThenPush (i : ι) : List (Event ι) :=
  pushCall i [97] ++ .BeginPush i [98] :: List.replicate 4 (.Push i)

/-- A whole call of `close`. -/
def closeCall (i : ι) : List (Event ι) :=
  .BeginClose i :: List.replicate 3 (.Close i) ++ [.EndClose i]

/-- The producer begins to wait before `close` is called: it is notified. -/
theorem close_releases_parked_producer :
    ∃ s, (init 1 .Block).run (fillThenPush (0 : Fin 2) ++ .Push 0 :: closeCall 1) = some s ∧
      s.threads 0 = .Push [98] false (.Parked 0) ∧ s.close_returned = true ∧
      (s.threads 0).unheard s.queue = false := by
  have hseen : ((init 1 .Block).run (fillThenPush (0 : Fin 2) ++ .Push 0 :: closeCall 1)).map
      (fun s => (s.threads 0, s.close_returned)) =
      some (.Push [98] false (.Parked 0), true) := rfl
  obtain ⟨s, hrun, hs⟩ := Option.map_eq_some_iff.mp hseen
  obtain ⟨hthread, hreturned⟩ := Prod.mk.inj hs
  exact ⟨s, hrun, hthread, hreturned, close_releases_producers hrun (by decide) hreturned 0⟩

/-- The producer begins to wait after `close` has notified: `close` returns, and the
    producer waits for a notification that nobody has sent since. -/
theorem close_misses_producer :
    ∃ s, (init 1 .Block).run (fillThenPush (0 : Fin 2) ++ closeCall 1 ++ [.Push 0]) = some s ∧
      s.close_returned = true ∧ s.threads 0 = .Push [98] false (.Parked 1) ∧
      (s.threads 0).unheard s.queue = true := by
  have hseen : ((init 1 .Block).run (fillThenPush (0 : Fin 2) ++ closeCall 1 ++ [.Push 0])).map
      (fun s => (s.close_returned, s.threads 0, (s.threads 0).unheard s.queue)) =
      some (true, .Push [98] false (.Parked 1), true) := rfl
  obtain ⟨s, hrun, hs⟩ := Option.map_eq_some_iff.mp hseen
  simp only [Prod.mk.injEq] at hs
  exact ⟨s, hrun, hs⟩

end System

end ulpf_core.ingest
