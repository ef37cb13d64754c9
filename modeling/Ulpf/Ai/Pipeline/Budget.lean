import Mathlib.Data.UInt
import Ulpf.Lib.Pending
import Ulpf.Ai.Pipeline.System

open Result
open ulpf_integrity.merkle (Digest Hash)

namespace ulpf_ai.pipeline

/-- How many exemplars of a key have been counted. -/
def countOf (counts : HashMap Nat Nat) (key : Nat) : Nat := (counts.lookup key).getD 0

/-- The keys whose count is between 1 and 7. -/
def openKeys (counts : HashMap Nat Nat) : Finset Nat :=
  counts.keys.toFinset.filter fun key => 1 ≤ countOf counts key ∧ countOf counts key ≤ 7

theorem countOf_insert (counts : HashMap Nat Nat) (key n other : Nat) :
    countOf (counts.insert key n) other = if other = key then n else countOf counts other := by
  unfold countOf
  split
  · rename_i heq
    rw [heq, AList.lookup_insert, Option.getD_some]
  · rename_i hne
    rw [AList.lookup_insert_ne hne]

theorem mem_openKeys {counts : HashMap Nat Nat} {key : Nat} :
    key ∈ openKeys counts ↔ 1 ≤ countOf counts key ∧ countOf counts key ≤ 7 := by
  rw [openKeys, Finset.mem_filter, List.mem_toFinset, and_iff_right_iff_imp]
  rintro ⟨hpos, -⟩
  rw [← AList.mem_keys, ← AList.lookup_isSome]
  cases hlookup : counts.lookup key with
  | none =>
    rw [countOf, hlookup] at hpos
    cases hpos
  | some n => rfl

theorem openKeys_congr {counts counts' : HashMap Nat Nat}
    (h : ∀ key, countOf counts' key = countOf counts key) : openKeys counts' = openKeys counts := by
  ext key
  rw [mem_openKeys, mem_openKeys, h key]

/-- One more exemplar opens a key at its first and closes it at its eighth. -/
theorem card_openKeys_insert (counts : HashMap Nat Nat) (key : Nat)
    (hroom : countOf counts key ≤ 7) :
    (openKeys (counts.insert key (countOf counts key + 1))).card +
        (if countOf counts key = 7 then 1 else 0) =
      (openKeys counts).card + if countOf counts key = 0 then 1 else 0 := by
  have hsame : (openKeys (counts.insert key (countOf counts key + 1))).erase key =
      (openKeys counts).erase key := by
    ext other
    rw [Finset.mem_erase, Finset.mem_erase, mem_openKeys, mem_openKeys, countOf_insert]
    by_cases hother : other = key
    · simp [hother]
    · rw [if_neg hother]
  have hcard : ∀ keys : Finset Nat, keys.card = (keys.erase key).card + if key ∈ keys then 1 else 0 := by
    intro keys
    split
    · exact (Finset.card_erase_add_one ‹_›).symm
    · rw [Finset.erase_eq_of_notMem ‹_›, add_zero]
  have hself : countOf (counts.insert key (countOf counts key + 1)) key = countOf counts key + 1 := by
    rw [countOf_insert, if_pos rfl]
  rw [hcard (openKeys (counts.insert key (countOf counts key + 1))), hcard (openKeys counts), hsame]
  simp only [mem_openKeys, hself]
  split_ifs <;> omega

/-- What a dispatch at this place still has to add to the number of open budgets. -/
def DispatchPc.owesOpen : DispatchPc → UInt64
  | .AddOpen closed => if closed then 0 else 1
  | .SubOpen => -1
  | .Count | .Send | .CountSent => 0

/-- Whether a dispatch at this place has been counted but not sent. -/
def DispatchPc.owesSend : DispatchPc → Nat
  | .AddOpen _ | .SubOpen | .Send => 1
  | .Count | .CountSent => 0

def ProcessPc.owesOpen : ProcessPc → UInt64
  | .Dispatch _ pc _ => pc.owesOpen
  | _ => 0

def ProcessPc.owesSend : ProcessPc → Nat
  | .Dispatch _ pc _ => pc.owesSend
  | _ => 0

def Thread.owesOpen : Thread → UInt64
  | .Idle => 0
  | .Running _ pc => pc.owesOpen

def Thread.owesSend (key : Nat) : Thread → Nat
  | .Idle => 0
  | .Running call pc => if call.sig_hash.toNat = key then pc.owesSend else 0

theorem DispatchPc.owesSend_closing (closed : Bool) : (DispatchPc.closing closed).owesSend = 1 := by
  cases closed <;> rfl

section

variable {ι : Type} {H : Type} [Digest H] {crates : Crates} {me : Holder ι} {call : ProcessCall}
  {s s' : Shared ι} {pc pc' : ProcessPc}

theorem owes_after_dispatch (raw : List Char) (after : AfterDispatch) :
    (after.pc raw).owesOpen = 0 ∧ (after.pc raw).owesSend = 0 := by
  cases after with
  | ParseCached format => exact ⟨rfl, rfl⟩
  | ParsePinned =>
    rw [AfterDispatch.pc]
    split <;> exact ⟨rfl, rfl⟩

/-- Outside of a dispatch nothing is owed and the budgets stay as they are. -/
theorem process_step_apart (hpc : ∀ template dispatch after, pc ≠ .Dispatch template dispatch after)
    (hstep : process_step H crates me call s pc = some (pc', s')) :
    s'.state.triage_dispatch_counts = s.state.triage_dispatch_counts ∧
      s'.state.exemplar_budget_open = s.state.exemplar_budget_open ∧
      pc'.owesOpen = 0 ∧ pc'.owesSend = 0 := by
  cases pc with
  | Dispatch template dispatch after => exact absurd rfl (hpc template dispatch after)
  | Start | Promote | CountRemoved | CountInserted =>
    cases hstep
    exact ⟨rfl, rfl, rfl, rfl⟩
  | CountHit cluster_res =>
    cases hstep
    dsimp only [Shared.update]
    split <;> exact ⟨rfl, rfl, rfl, rfl⟩
  | Lookup =>
    simp only [process_step] at hstep
    cases hstep
    split <;> exact ⟨rfl, rfl, rfl, rfl⟩
  | Mine =>
    simp only [process_step] at hstep
    split at hstep <;> cases hstep
    · rename_i hmine
      obtain ⟨drain, rfl⟩ := TieredPipeline.mine_eq_ok hmine
      exact ⟨rfl, rfl, rfl, rfl⟩
    · exact ⟨rfl, rfl, rfl, rfl⟩
  | LoadBudget | ParseCached | LoadRoutes | RemoveRoute | ParseNative | InsertRoute | ParseLossless =>
    simp only [process_step] at hstep
    split at hstep <;> cases hstep <;> exact ⟨rfl, rfl, rfl, rfl⟩
  | ParseRoute | ParseAny =>
    simp only [process_step] at hstep
    split at hstep
    · cases hstep
      exact ⟨rfl, rfl, rfl, rfl⟩
    · split at hstep <;> cases hstep <;> exact ⟨rfl, rfl, rfl, rfl⟩
  | GetRoute =>
    simp only [process_step] at hstep
    split at hstep
    · split at hstep
      · split at hstep <;> cases hstep <;> exact ⟨rfl, rfl, rfl, rfl⟩
      · cases hstep
        exact ⟨rfl, rfl, rfl, rfl⟩
    · cases hstep
  | Returned | Panicked => cases hstep

/-- Whether a dispatch at this place sends its exemplar next. -/
def DispatchPc.sends : DispatchPc → Nat
  | .Send => 1
  | .Count | .AddOpen _ | .SubOpen | .CountSent => 0

def ProcessPc.sends : ProcessPc → Nat
  | .Dispatch _ pc _ => pc.sends
  | _ => 0

theorem ProcessPc.sends_eq_zero (h : ∀ template after, pc ≠ .Dispatch template .Send after) :
    pc.sends = 0 := by
  cases pc with
  | Dispatch template dispatch after =>
    cases dispatch with
    | Send => exact absurd rfl (h template after)
    | _ => rfl
  | _ => rfl

/-- What a step of a call leaves behind: the number of open budgets and the number of exemplars
    sent follow the counts, up to what the call still owes. -/
structure Settles (call : ProcessCall) (before after : TieredPipeline) (pc pc' : ProcessPc) : Prop where
  budget_open : after.exemplar_budget_open + pc'.owesOpen +
      UInt64.ofNat (openKeys before.triage_dispatch_counts).card =
    before.exemplar_budget_open + pc.owesOpen +
      UInt64.ofNat (openKeys after.triage_dispatch_counts).card
  sent : ∀ key, (if call.sig_hash.toNat = key then pc'.owesSend + pc.sends else 0) +
      countOf before.triage_dispatch_counts key =
    (if call.sig_hash.toNat = key then pc.owesSend else 0) + countOf after.triage_dispatch_counts key
  within : ∀ key, countOf after.triage_dispatch_counts key ≤ 8

theorem settles_of_counts_eq {before after : TieredPipeline}
    (hwithin : ∀ key, countOf before.triage_dispatch_counts key ≤ 8)
    (hcounts : ∀ key, countOf after.triage_dispatch_counts key =
      countOf before.triage_dispatch_counts key)
    (hopen : after.exemplar_budget_open + pc'.owesOpen = before.exemplar_budget_open + pc.owesOpen)
    (hsent : pc'.owesSend + pc.sends = pc.owesSend) : Settles call before after pc pc' where
  budget_open := by rw [openKeys_congr hcounts, hopen]
  sent key := by rw [hsent, hcounts]
  within key := by
    rw [hcounts]
    exact hwithin key

/-- Where a dispatch within the budget goes on when its key has been counted. -/
def DispatchPc.counted (entry : Nat) : DispatchPc :=
  if entry = 0 then .AddOpen (decide (entry + 1 ≥ MAX_EXEMPLARS_PER_CLUSTER))
  else .closing (decide (entry + 1 ≥ MAX_EXEMPLARS_PER_CLUSTER))

theorem DispatchPc.owes_counted : ∀ entry < 8,
    (counted entry).owesOpen + (if entry = 7 then 1 else 0) = (if entry = 0 then 1 else 0) ∧
      (counted entry).owesSend = 1 := by
  decide

theorem settles_count {before : TieredPipeline} {template : List Char} {after : AfterDispatch}
    (hwithin : ∀ key, countOf before.triage_dispatch_counts key ≤ 8)
    (hroom : countOf before.triage_dispatch_counts call.sig_hash.toNat < 8) :
    Settles call before
      { before with
        triage_dispatch_counts := before.triage_dispatch_counts.insert call.sig_hash.toNat
          (countOf before.triage_dispatch_counts call.sig_hash.toNat + 1) }
      (.Dispatch template .Count after)
      (.Dispatch template
        (.counted (countOf before.triage_dispatch_counts call.sig_hash.toNat)) after) := by
  obtain ⟨howes, hsend⟩ := DispatchPc.owes_counted _ hroom
  have hcard := card_openKeys_insert before.triage_dispatch_counts call.sig_hash.toNat (by omega)
  generalize hentry : countOf before.triage_dispatch_counts call.sig_hash.toNat = entry at *
  refine ⟨?_, fun key => ?_, fun key => ?_⟩
  · have hmachine := congrArg UInt64.ofNat hcard
    rw [UInt64.ofNat_add, UInt64.ofNat_add, apply_ite UInt64.ofNat, apply_ite UInt64.ofNat] at hmachine
    dsimp only [ProcessPc.owesOpen]
    change _ = _ + 0 + _
    grind
  · dsimp only [ProcessPc.owesSend, ProcessPc.sends]
    rw [hsend, countOf_insert]
    by_cases hkey : call.sig_hash.toNat = key
    · subst hkey
      rw [if_pos rfl, if_pos rfl, if_pos rfl, hentry]
      simp only [DispatchPc.sends, DispatchPc.owesSend]
      omega
    · rw [if_neg hkey, if_neg hkey, if_neg (Ne.symm hkey)]
  · rw [countOf_insert]
    split
    · omega
    · exact hwithin key

theorem settles_of_dispatch {template : List Char} {dispatch : DispatchPc} {after : AfterDispatch}
    (hwithin : ∀ key, countOf s.state.triage_dispatch_counts key ≤ 8)
    (hstep : process_step H crates me call s (.Dispatch template dispatch after) = some (pc', s')) :
    Settles call s.state s'.state (.Dispatch template dispatch after) pc' := by
  obtain ⟨hafterOpen, hafterSend⟩ := owes_after_dispatch call.raw after
  cases dispatch with
  | Count =>
    by_cases hroom : countOf s.state.triage_dispatch_counts call.sig_hash.toNat < 8
    · have hfull : ¬ (s.state.triage_dispatch_counts.lookup call.sig_hash.toNat).getD 0 ≥
          MAX_EXEMPLARS_PER_CLUSTER := Nat.not_le.mpr hroom
      simp only [process_step, dispatch_step, if_neg hfull] at hstep
      cases hstep
      exact settles_count hwithin hroom
    · have hfull : (s.state.triage_dispatch_counts.lookup call.sig_hash.toNat).getD 0 ≥
          MAX_EXEMPLARS_PER_CLUSTER := Nat.not_lt.mp hroom
      simp only [process_step, dispatch_step, if_pos hfull] at hstep
      cases hstep
      refine settles_of_counts_eq hwithin (fun key => ?_) ?_ hafterSend
      · refine (countOf_insert ..).trans ?_
        split
        · rename_i hkey
          rw [hkey, countOf]
        · rfl
      · rw [hafterOpen]
        rfl
  | AddOpen closed =>
    cases hstep
    refine settles_of_counts_eq hwithin (fun _ => rfl) ?_ (DispatchPc.owesSend_closing closed)
    cases closed with
    | true =>
      change s.state.exemplar_budget_open + 1 + -1 = s.state.exemplar_budget_open + 0
      grind
    | false =>
      change s.state.exemplar_budget_open + 1 + 0 = s.state.exemplar_budget_open + 1
      grind
  | SubOpen =>
    cases hstep
    refine settles_of_counts_eq hwithin (fun _ => rfl) ?_ rfl
    change s.state.exemplar_budget_open - 1 + 0 = s.state.exemplar_budget_open + -1
    grind
  | Send =>
    cases hstep
    obtain ⟨hcounts, hopen, -, -⟩ := s.state.try_send_eq
      ⟨call.sig_hash.toNat, template, call.raw, call.clock.dispatch_ms⟩
    refine settles_of_counts_eq hwithin (fun key => ?_) ?_ rfl
    · exact congrArg (countOf · key) hcounts
    · exact congrArg (· + 0) hopen
  | CountSent =>
    cases hstep
    refine settles_of_counts_eq hwithin (fun _ => rfl) ?_ hafterSend
    rw [hafterOpen]
    rfl

/-- Whatever a call does, it settles what it owes or owes it still. -/
theorem settles_of_process_step (hwithin : ∀ key, countOf s.state.triage_dispatch_counts key ≤ 8)
    (hstep : process_step H crates me call s pc = some (pc', s')) :
    Settles call s.state s'.state pc pc' := by
  by_cases hdispatch : ∃ template dispatch after, pc = .Dispatch template dispatch after
  · obtain ⟨template, dispatch, after, rfl⟩ := hdispatch
    exact settles_of_dispatch hwithin hstep
  · have hpc : ∀ template dispatch after, pc ≠ .Dispatch template dispatch after :=
      fun template dispatch after heq => hdispatch ⟨template, dispatch, after, heq⟩
    obtain ⟨hcounts, hopen, howesOpen, howesSend⟩ := process_step_apart hpc hstep
    have hnone : pc.owesOpen = 0 ∧ pc.owesSend = 0 ∧ pc.sends = 0 := by
      cases pc with
      | Dispatch template dispatch after => exact absurd rfl (hpc template dispatch after)
      | _ => exact ⟨rfl, rfl, rfl⟩
    refine settles_of_counts_eq hwithin (fun key => by rw [hcounts]) ?_ ?_
    · rw [hopen, howesOpen, hnone.1]
    · rw [howesSend, hnone.2.1, hnone.2.2]

/-- The worker leaves the budgets alone. -/
theorem worker_step_budget {triage : Triage} {worker worker' : TriageWorker}
    (hstep : worker_step crates triage worker s = some (worker', s')) :
    s'.state.triage_dispatch_counts = s.state.triage_dispatch_counts ∧
      s'.state.exemplar_budget_open = s.state.exemplar_budget_open := by
  cases hpc : worker.pc with
  | Recv =>
    obtain ⟨⟨laya_tasks, rfl⟩, -⟩ := worker_step_recv hpc hstep
    exact ⟨rfl, rfl⟩
  | Register | InsertRoute =>
    simp only [worker_step, hpc] at hstep
    split at hstep <;> cases hstep <;> exact ⟨rfl, rfl⟩
  | CountInserted =>
    simp only [worker_step, hpc] at hstep
    cases hstep
    exact ⟨rfl, rfl⟩
  | Panicked =>
    simp only [worker_step, hpc] at hstep
    cases hstep

end

section

variable {ι : Type} [DecidableEq ι] {H : Type} [Digest H] {crates : Crates} {triage : Triage}
  {s s' : System ι} {keys : List Nat}

/-- A run from a new pipeline to a state, with the keys of the exemplars that were dispatched on
    the way, the last one first. -/
inductive Dispatches (H : Type) [Digest H] (crates : Crates) (triage : Triage) :
    System ι → List Nat → Prop where
  | start (capacity : Nat) : Dispatches H crates triage (System.start capacity) []
  | send {s : System ι} {keys : List Nat} (hrun : Dispatches H crates triage s keys) (i : ι)
      (call : ProcessCall) (template : List Char) (after : AfterDispatch) (pc' : ProcessPc)
      (shared' : Shared ι)
      (hthread : s.threads i = .Running call (.Dispatch template .Send after))
      (hstep : process_step H crates (.Caller i) call s.shared (.Dispatch template .Send after) =
        some (pc', shared')) :
      Dispatches H crates triage
        { s with
          shared := shared'
          threads := Function.update s.threads i (.Running call pc') }
        (call.sig_hash.toNat :: keys)
  | other {s s' : System ι} {keys : List Nat} (hrun : Dispatches H crates triage s keys)
      (hstep : Step H crates triage s s')
      (hsend : ∀ i call template after,
        s.threads i = .Running call (.Dispatch template .Send after) → s'.threads i = s.threads i) :
      Dispatches H crates triage s' keys

theorem Dispatches.step (h : Dispatches H crates triage s keys) (hstep : Step H crates triage s s') :
    ∃ keys', Dispatches H crates triage s' keys' := by
  have hidle : ∀ {i : ι} {thread : Thread}, (∀ call template after,
      s.threads i ≠ .Running call (.Dispatch template .Send after)) →
      ∀ j call template after, s.threads j = .Running call (.Dispatch template .Send after) →
        Function.update s.threads i thread j = s.threads j := by
    intro i thread hi j call template after hj
    refine Function.update_of_ne (fun hij => hi call template after ?_) ..
    rw [← hij, hj]
  cases hstep with
  | call i call hthread =>
    refine ⟨keys, h.other (.call s i call hthread) (hidle fun _ _ _ heq => ?_)⟩
    rw [hthread] at heq
    cases heq
  | process i call pc pc' shared' hthread hprocess =>
    by_cases hsend : ∃ template after, pc = .Dispatch template .Send after
    · obtain ⟨template, after, rfl⟩ := hsend
      exact ⟨_, h.send i call template after pc' shared' hthread hprocess⟩
    · refine ⟨keys, h.other (.process s i call pc pc' shared' hthread hprocess)
        (hidle fun _ _ _ heq => ?_)⟩
      rw [hthread] at heq
      cases heq
      exact hsend ⟨_, _, rfl⟩
  | returned i call origin event hthread =>
    refine ⟨keys, h.other (.returned s i call origin event hthread) (hidle fun _ _ _ heq => ?_)⟩
    rw [hthread] at heq
    cases heq
  | worker worker' shared' hworker =>
    exact ⟨keys, h.other (.worker s worker' shared' hworker) fun _ _ _ _ _ => rfl⟩
  | registry dynamic_registry hpoisoned =>
    exact ⟨keys, h.other (.registry s dynamic_registry hpoisoned) fun _ _ _ _ _ => rfl⟩
  | poison => exact ⟨keys, h.other (.poison s) fun _ _ _ _ _ => rfl⟩

/-- Every run has its list of dispatches. -/
theorem Reachable.exists_dispatches (h : Reachable H crates triage s) :
    ∃ keys, Dispatches H crates triage s keys := by
  obtain ⟨capacity, hsteps⟩ := h
  induction hsteps with
  | refl => exact ⟨[], .start capacity⟩
  | tail _ hstep ih =>
    obtain ⟨keys, hkeys⟩ := ih
    exact hkeys.step hstep

end

section

open scoped UInt64.CommRing

variable {ι : Type} [DecidableEq ι] {H : Type} [Digest H] {crates : Crates} {triage : Triage}
  {s s' : System ι} {keys keys' : List Nat}

/-- The counter of open budgets and the dispatches agree with the counts, up to what the threads
    still owe. -/
structure Ledger (s : System ι) (keys : List Nat) : Prop where
  few : pending.FewBusy .Idle s.threads
  budget_open : s.shared.state.exemplar_budget_open + pending.total Thread.owesOpen s.threads =
    UInt64.ofNat (openKeys s.shared.state.triage_dispatch_counts).card
  sent : ∀ key, keys.count key + pending.total (Thread.owesSend key) s.threads =
    countOf s.shared.state.triage_dispatch_counts key
  within : ∀ key, countOf s.shared.state.triage_dispatch_counts key ≤ 8

omit [DecidableEq ι] in
theorem ledger_start (capacity : Nat) : Ledger (System.start (ι := ι) capacity) [] where
  few := pending.fewBusy_idle _
  budget_open := by
    have howes : pending.total Thread.owesOpen (System.start (ι := ι) capacity).threads = 0 :=
      pending.total_eq_zero fun _ => rfl
    rw [howes]
    rfl
  sent key := by
    have howes : pending.total (Thread.owesSend key) (System.start (ι := ι) capacity).threads = 0 :=
      pending.total_eq_zero fun _ => rfl
    rw [howes]
    rfl
  within key := Nat.zero_le 8

/-- A thread that owes what it owed before leaves the ledger as it is. -/
theorem Ledger.update (h : Ledger s keys) (i : ι) {thread : Thread}
    (hopen : thread.owesOpen = (s.threads i).owesOpen)
    (hsend : ∀ key, thread.owesSend key = (s.threads i).owesSend key) :
    Ledger { s with threads := Function.update s.threads i thread } keys where
  few := h.few.update i thread
  budget_open := by
    have htotal := pending.total_update Thread.owesOpen rfl h.few i thread
    rw [hopen] at htotal
    rw [← h.budget_open, add_right_cancel htotal]
  sent key := by
    have htotal := pending.total_update (Thread.owesSend key) rfl h.few i thread
    rw [hsend] at htotal
    rw [← h.sent key, add_right_cancel htotal]
  within := h.within

omit [DecidableEq ι] in
theorem Ledger.shared (h : Ledger s keys) {shared' : Shared ι} {worker' : TriageWorker}
    (hcounts : shared'.state.triage_dispatch_counts = s.shared.state.triage_dispatch_counts)
    (hopen : shared'.state.exemplar_budget_open = s.shared.state.exemplar_budget_open) :
    Ledger { s with shared := shared', worker := worker' } keys where
  few := h.few
  budget_open := by
    rw [hcounts, hopen]
    exact h.budget_open
  sent key := by
    rw [hcounts]
    exact h.sent key
  within key := by
    rw [hcounts]
    exact h.within key

/-- A step of a call keeps the ledger, with its key in the list if it sends. -/
theorem Ledger.process (h : Ledger s keys) {i : ι} {call : ProcessCall} {pc pc' : ProcessPc}
    {shared' : Shared ι} (hthread : s.threads i = .Running call pc)
    (hsettles : Settles call s.shared.state shared'.state pc pc')
    (hkeys : ∀ key, keys'.count key =
      keys.count key + if call.sig_hash.toNat = key then pc.sends else 0) :
    Ledger
      { s with
        shared := shared'
        threads := Function.update s.threads i (.Running call pc') } keys' where
  few := h.few.update i _
  budget_open := by
    have htotal := pending.total_update Thread.owesOpen rfl h.few i (.Running call pc')
    have hopen := h.budget_open
    have hstep := hsettles.budget_open
    rw [hthread] at htotal
    dsimp only [Thread.owesOpen] at htotal hopen ⊢
    linear_combination hopen + htotal + hstep
  sent key := by
    have htotal := pending.total_update (Thread.owesSend key) rfl h.few i
      (.Running call pc')
    have hsent := h.sent key
    have hstep := hsettles.sent key
    rw [hthread] at htotal
    dsimp only [Thread.owesSend] at htotal hsent hstep ⊢
    rw [hkeys key]
    split_ifs at * <;> omega
  within := hsettles.within

theorem Dispatches.ledger (h : Dispatches H crates triage s keys) : Ledger s keys := by
  induction h with
  | start capacity => exact ledger_start capacity
  | send _ i call template after pc' shared' hthread hstep ih =>
    refine ih.process hthread (settles_of_process_step ih.within hstep) fun key => ?_
    rw [List.count_cons]
    simp only [beq_iff_eq]
    rfl
  | @other s s' keys _ hstep hsend ih =>
    cases hstep with
    | call i call hidle =>
      refine ih.update i ?_ fun key => ?_
      · rw [hidle]
        rfl
      · rw [hidle]
        exact ite_self _
    | process i call pc pc' shared' hthread hprocess =>
      refine ih.process hthread (settles_of_process_step ih.within hprocess) fun key => ?_
      have hsends : pc.sends = 0 := by
        refine ProcessPc.sends_eq_zero fun template after hpc => ?_
        -- A step of such a thread moves it, and then it is the other constructor's.
        subst hpc
        have hstays := hsend i call template after hthread
        dsimp only at hstays
        rw [Function.update_self, hthread] at hstays
        cases hprocess
        cases hstays
      rw [hsends, ite_self, Nat.add_zero]
    | returned i call origin event hthread =>
      refine ih.update i ?_ fun key => ?_
      · rw [hthread]
        rfl
      · rw [hthread]
        exact (ite_self _).symm
    | worker worker' shared' hworker =>
      obtain ⟨hcounts, hopen⟩ := worker_step_budget hworker
      exact ih.shared hcounts hopen
    | registry => exact ih.shared rfl rfl
    | poison => exact ih.shared rfl rfl

omit [DecidableEq ι] in
/-- Nothing is owed while no dispatch is in progress. -/
theorem Ledger.budget_open_of_idle (h : Ledger s keys)
    (hidle : ∀ i call template dispatch after,
      s.threads i ≠ .Running call (.Dispatch template dispatch after)) :
    s.shared.state.exemplar_budget_open =
      UInt64.ofNat (openKeys s.shared.state.triage_dispatch_counts).card := by
  have howes : pending.total Thread.owesOpen s.threads = 0 := by
    refine pending.total_eq_zero fun i => ?_
    cases hthread : s.threads i with
    | Idle => rfl
    | Running call pc =>
      cases pc with
      | Dispatch template dispatch after => exact absurd hthread (hidle i call template dispatch after)
      | _ => rfl
  rw [← h.budget_open, howes, add_zero]

end

/-- The budget of exemplars is exact: in every run of any number of threads with the worker, no
    key is dispatched more than 8 times, and while no dispatch is in progress the counter is the
    number of keys with a count between 1 and 7. -/
theorem exemplar_budget_exact {ι : Type} [DecidableEq ι] {H : Type} [Digest H] {crates : Crates}
    {triage : Triage} {s : System ι} {keys : List Nat} (hrun : Dispatches H crates triage s keys) :
    (∀ key, keys.count key ≤ 8) ∧
      ((∀ i call template dispatch after,
        s.threads i ≠ .Running call (.Dispatch template dispatch after)) →
        s.shared.state.exemplar_budget_open =
            UInt64.ofNat (openKeys s.shared.state.triage_dispatch_counts).card ∧
          ((openKeys s.shared.state.triage_dispatch_counts).card < 2 ^ 64 →
            s.shared.state.exemplar_budget_open.toNat =
              (openKeys s.shared.state.triage_dispatch_counts).card)) := by
  have hledger := hrun.ledger
  refine ⟨fun key => ?_, fun hidle => ?_⟩
  · have hsent := hledger.sent key
    have hwithin := hledger.within key
    omega
  · have hopen := hledger.budget_open_of_idle hidle
    refine ⟨hopen, fun hfew => ?_⟩
    rw [hopen, UInt64.toNat_ofNat_of_lt' hfew]

theorem exemplar_budget_exact_fortinet_line :
    ∃ (s : System Unit) (keys : List Nat) (call : ProcessCall) (origin : Origin)
      (event : ulpf_core.schema.ocsf.NetworkActivity),
      Dispatches Hash default ⟨fun _ => none, fun _ _ _ => none⟩ s keys ∧
      s.threads () = .Running call (.Returned origin event) ∧ call.raw = str.lit "x devname=" ∧
      (∀ key, keys.count key ≤ 8) ∧
      s.shared.state.exemplar_budget_open =
        UInt64.ofNat (openKeys s.shared.state.triage_dispatch_counts).card := by
  obtain ⟨s, call, origin, event, hreachable, hthread, hraw, -⟩ := exists_returned_fortinet_line
  obtain ⟨keys, hrun⟩ := hreachable.exists_dispatches
  obtain ⟨hcount, hopen⟩ := exemplar_budget_exact hrun
  refine ⟨s, keys, call, origin, event, hrun, hthread, hraw, hcount, (hopen ?_).1⟩
  intro i call' template dispatch after heq
  rw [hthread] at heq
  cases heq

end ulpf_ai.pipeline
