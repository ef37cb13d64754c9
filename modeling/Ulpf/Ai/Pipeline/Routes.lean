import Ulpf.Ai.Pipeline.System

open Result
open ulpf_ai.onboarder
open ulpf_integrity.merkle (Digest Hash)

namespace ulpf_ai.pipeline

/-- A change of the routes that the counter does not show yet. Its thread holds the mutex. -/
inductive RouteChange where
  | Removed (removed : Bool)
  | Inserted (sig_hash : UInt64) (inserted : Bool)

/-- What has to be added to the counter. -/
def RouteChange.owes : RouteChange → UInt64
  | .Removed removed => if removed then -1 else 0
  | .Inserted _ inserted => if inserted then 1 else 0

def ProcessPc.change (call : ProcessCall) : ProcessPc → Option RouteChange
  | .CountRemoved removed => some (.Removed removed)
  | .CountInserted inserted _ => some (.Inserted call.sig_hash inserted)
  | _ => none

def Thread.change : Thread → Option RouteChange
  | .Idle => none
  | .Running call pc => pc.change call

def WorkerPc.change : WorkerPc → Option RouteChange
  | .CountInserted cluster_id inserted => some (.Inserted (UInt64.ofNat cluster_id) inserted)
  | _ => none

section

variable {ι : Type}

def System.change (s : System ι) : Holder ι → Option RouteChange
  | .Caller i => (s.threads i).change
  | .Worker => s.worker.pc.change

/-- All that a step of one thread can do to the routes, with the change that the thread has in
    hand before and after. -/
inductive RouteMove (me : Holder ι) (s s' : Shared ι) :
    Option RouteChange → Option RouteChange → Prop where
  | quiet {change : Option RouteChange}
      (hroutes : s'.state.dynamic_routes = s.state.dynamic_routes)
      (hopen : s'.state.dynamic_routes_open = s.state.dynamic_routes_open)
      (hlock : s'.routes_lock = s.routes_lock) : RouteMove me s s' change change
  | remove (sig_hash : UInt64) (hfree : s.routes_lock = none) (hlock : s'.routes_lock = some me)
      (hroutes : s'.state.dynamic_routes = s.state.dynamic_routes.erase sig_hash)
      (hopen : s'.state.dynamic_routes_open = s.state.dynamic_routes_open) :
      RouteMove me s s' none (some (.Removed (s.state.dynamic_routes.lookup sig_hash).isSome))
  | insert (sig_hash : UInt64) (key : String) (hfree : s.routes_lock = none)
      (hlock : s'.routes_lock = some me)
      (hroutes : s'.state.dynamic_routes = s.state.dynamic_routes.insert sig_hash key)
      (hopen : s'.state.dynamic_routes_open = s.state.dynamic_routes_open) :
      RouteMove me s s' none
        (some (.Inserted sig_hash (s.state.dynamic_routes.lookup sig_hash).isNone))
  | count (change : RouteChange) (hlock : s'.routes_lock = none)
      (hroutes : s'.state.dynamic_routes = s.state.dynamic_routes)
      (hopen : s'.state.dynamic_routes_open = s.state.dynamic_routes_open + change.owes) :
      RouteMove me s s' (some change) none

variable {H : Type} [Digest H] {crates : Crates} {me : Holder ι} {call : ProcessCall}
  {s s' : Shared ι}

theorem dispatch_step_routes (call : ProcessCall) (template : List Char) (self : TieredPipeline)
    (pc : DispatchPc) :
    (dispatch_step call template self pc).2.dynamic_routes = self.dynamic_routes ∧
      (dispatch_step call template self pc).2.dynamic_routes_open = self.dynamic_routes_open := by
  cases pc with
  | Count =>
    simp only [dispatch_step]
    split <;> exact ⟨rfl, rfl⟩
  | AddOpen | SubOpen | CountSent => exact ⟨rfl, rfl⟩
  | Send =>
    obtain ⟨-, -, hroutes, hopen⟩ := self.try_send_eq
      ⟨call.sig_hash.toNat, template, call.raw, call.clock.dispatch_ms⟩
    exact ⟨hroutes, hopen⟩

theorem change_after_dispatch (call : ProcessCall) (after : AfterDispatch) :
    (after.pc call.raw).change call = none := by
  cases after with
  | ParseCached format => rfl
  | ParsePinned =>
    rw [AfterDispatch.pc]
    split <;> rfl

theorem process_step_routes {pc pc' : ProcessPc}
    (hstep : process_step H crates me call s pc = some (pc', s')) :
    RouteMove me s s' (pc.change call) (pc'.change call) := by
  cases pc with
  | Start | Promote =>
    cases hstep
    exact .quiet rfl rfl rfl
  | Lookup =>
    simp only [process_step] at hstep
    cases hstep
    split <;> exact .quiet rfl rfl rfl
  | CountHit cluster_res =>
    cases hstep
    dsimp only [Shared.update]
    split <;> exact .quiet rfl rfl rfl
  | Dispatch template dispatch after =>
    obtain ⟨hroutes, hopen⟩ := dispatch_step_routes call template s.state dispatch
    simp only [process_step] at hstep
    split at hstep <;> rename_i hdispatch <;> cases hstep <;> rw [hdispatch] at hroutes hopen
    · exact .quiet hroutes hopen rfl
    · rw [change_after_dispatch]
      exact .quiet hroutes hopen rfl
  | Mine =>
    simp only [process_step] at hstep
    split at hstep <;> cases hstep
    · rename_i hmine
      obtain ⟨drain, rfl⟩ := TieredPipeline.mine_eq_ok hmine
      exact .quiet rfl rfl rfl
    · exact .quiet rfl rfl rfl
  | LoadBudget | ParseCached | LoadRoutes | ParseNative | ParseLossless =>
    simp only [process_step] at hstep
    split at hstep <;> cases hstep <;> exact .quiet rfl rfl rfl
  | ParseRoute | ParseAny =>
    simp only [process_step] at hstep
    split at hstep
    · cases hstep
      exact .quiet rfl rfl rfl
    · split at hstep <;> cases hstep <;> exact .quiet rfl rfl rfl
  | GetRoute =>
    simp only [process_step] at hstep
    split at hstep
    · split at hstep
      · split at hstep <;> cases hstep <;> exact .quiet rfl rfl rfl
      · cases hstep
        exact .quiet rfl rfl rfl
    · cases hstep
  | RemoveRoute =>
    simp only [process_step] at hstep
    split at hstep <;> cases hstep
    rename_i hfree
    exact .remove call.sig_hash (Option.isNone_iff_eq_none.mp hfree) rfl rfl rfl
  | InsertRoute key event =>
    simp only [process_step] at hstep
    split at hstep <;> cases hstep
    rename_i hfree
    exact .insert call.sig_hash key (Option.isNone_iff_eq_none.mp hfree) rfl rfl rfl
  | CountRemoved removed =>
    cases hstep
    refine .count (.Removed removed) rfl rfl ?_
    cases removed with
    | true => exact UInt64.sub_eq_add_neg ..
    | false => exact (UInt64.add_zero _).symm
  | CountInserted inserted event =>
    cases hstep
    refine .count (.Inserted call.sig_hash inserted) rfl rfl ?_
    cases inserted with
    | true => rfl
    | false => exact (UInt64.add_zero _).symm
  | Returned | Panicked => cases hstep

theorem worker_step_routes {triage : Triage} {worker worker' : TriageWorker}
    (hstep : worker_step crates triage worker s = some (worker', s')) :
    RouteMove .Worker s s' worker.pc.change worker'.pc.change := by
  cases hpc : worker.pc with
  | Recv =>
    obtain ⟨⟨laya_tasks, rfl⟩, hcount⟩ := worker_step_recv hpc hstep
    have hchange : worker'.pc.change = none := by
      cases hpc' : worker'.pc with
      | CountInserted cluster_id inserted => exact absurd hpc' (hcount cluster_id inserted)
      | _ => rfl
    rw [hchange]
    exact .quiet rfl rfl rfl
  | Register cluster_id parser_def =>
    simp only [worker_step, hpc] at hstep
    split at hstep <;> cases hstep <;> exact .quiet rfl rfl rfl
  | InsertRoute cluster_id key =>
    simp only [worker_step, hpc] at hstep
    split at hstep <;> cases hstep
    rename_i hfree
    exact .insert (UInt64.ofNat cluster_id) key (Option.isNone_iff_eq_none.mp hfree) rfl rfl rfl
  | CountInserted cluster_id inserted =>
    simp only [worker_step, hpc] at hstep
    cases hstep
    refine .count (.Inserted (UInt64.ofNat cluster_id) inserted) rfl rfl ?_
    cases inserted with
    | true => rfl
    | false => exact (UInt64.add_zero _).symm
  | Panicked =>
    simp only [worker_step, hpc] at hstep
    cases hstep

end

section

variable {ι : Type} [DecidableEq ι] {H : Type} [Digest H] {crates : Crates} {triage : Triage}
  {s s' : System ι}

theorem System.change_update (s : System ι) (shared' : Shared ι) (i : ι) (thread : Thread) :
    ∀ me, me ≠ .Caller i →
      System.change { s with shared := shared', threads := Function.update s.threads i thread } me =
        s.change me := by
  intro me hme
  cases me with
  | Caller j =>
    have hne : j ≠ i := fun hij => hme (by rw [hij])
    simp only [System.change, Function.update_of_ne hne]
  | Worker => rfl

/-- Every step is the move of one thread, and the others keep what they have in hand. -/
theorem Step.routes (hstep : Step H crates triage s s') :
    ∃ me, RouteMove me s.shared s'.shared (s.change me) (s'.change me) ∧
      ∀ other, other ≠ me → s'.change other = s.change other := by
  have hself : ∀ (shared' : Shared ι) (i : ι) (thread : Thread),
      System.change { s with shared := shared', threads := Function.update s.threads i thread }
        (.Caller i) = thread.change := by
    intro shared' i thread
    simp only [System.change, Function.update_self]
  cases hstep with
  | call i call hidle =>
    refine ⟨.Caller i, ?_, s.change_update _ i _⟩
    rw [hself, System.change, hidle]
    exact .quiet rfl rfl rfl
  | process i call pc pc' shared' hthread hprocess =>
    refine ⟨.Caller i, ?_, s.change_update _ i _⟩
    rw [hself, System.change, hthread]
    exact process_step_routes hprocess
  | returned i call origin event hthread =>
    refine ⟨.Caller i, ?_, s.change_update _ i _⟩
    rw [hself, System.change, hthread]
    exact .quiet rfl rfl rfl
  | worker worker' shared' hworker =>
    refine ⟨.Worker, worker_step_routes hworker, fun other hother => ?_⟩
    cases other with
    | Caller i => rfl
    | Worker => exact absurd rfl hother
  | registry => exact ⟨.Worker, .quiet rfl rfl rfl, fun other _ => by cases other <;> rfl⟩
  | poison => exact ⟨.Worker, .quiet rfl rfl rfl, fun other _ => by cases other <;> rfl⟩

end

theorem length_keys_erase (routes : HashMap UInt64 String) (sig_hash : UInt64) :
    (routes.erase sig_hash).keys.length + (if (routes.lookup sig_hash).isSome then 1 else 0) =
      routes.keys.length := by
  rw [AList.keys_erase, List.length_erase]
  by_cases hmem : sig_hash ∈ routes
  · have hpos := List.length_pos_of_mem (AList.mem_keys.mp hmem)
    rw [if_pos (AList.mem_keys.mp hmem), if_pos (AList.lookup_isSome.mpr hmem)]
    omega
  · have hnone := mt AList.lookup_isSome.mp hmem
    rw [if_neg fun h => hmem (AList.mem_keys.mpr h), if_neg hnone, Nat.add_zero]

theorem length_keys_insert (routes : HashMap UInt64 String) (sig_hash : UInt64) (key : String) :
    (routes.insert sig_hash key).keys.length =
      routes.keys.length + if (routes.lookup sig_hash).isNone then 1 else 0 := by
  have herase := length_keys_erase routes sig_hash
  rw [AList.keys_erase] at herase
  rw [AList.keys_insert, List.length_cons]
  cases hlookup : routes.lookup sig_hash with
  | none =>
    rw [hlookup] at herase
    simp at herase ⊢
    omega
  | some old =>
    rw [hlookup] at herase
    simp at herase ⊢
    omega

section

variable {ι : Type}

/-- The counter shows the number of routes up to the one change that the holder of the mutex has
    in hand, and no other thread has one. -/
structure RoutesCounted (s : System ι) : Prop where
  locked : ∀ me, (s.change me).isSome ↔ s.shared.routes_lock = some me
  counted : s.shared.state.dynamic_routes_open +
      ((s.shared.routes_lock.bind s.change).map RouteChange.owes).getD 0 =
    UInt64.ofNat s.shared.state.dynamic_routes.keys.length
  present : ∀ me sig_hash inserted, s.change me = some (.Inserted sig_hash inserted) →
    (s.shared.state.dynamic_routes.lookup sig_hash).isSome

theorem routesCounted_start (capacity : Nat) : RoutesCounted (System.start (ι := ι) capacity) where
  locked me := by
    cases me with
    | Caller i => exact ⟨fun h => (by cases h), fun h => (by cases h)⟩
    | Worker => exact ⟨fun h => (by cases h), fun h => (by cases h)⟩
  counted := rfl
  present me sig_hash inserted h := by cases me <;> cases h

variable {s s' : System ι} {me : Holder ι}

theorem RoutesCounted.change_eq_none (h : RoutesCounted s) (hfree : s.shared.routes_lock = none)
    (other : Holder ι) : s.change other = none := by
  rw [← Option.not_isSome_iff_eq_none, h.locked, hfree]
  exact fun heq => by cases heq

/-- A thread that takes the mutex and changes the routes is the only one with a change. -/
theorem RoutesCounted.acquire (h : RoutesCounted s) (hfree : s.shared.routes_lock = none)
    (hlock : s'.shared.routes_lock = some me) {change : RouteChange} (hme : s'.change me = some change)
    (hothers : ∀ other, other ≠ me → s'.change other = s.change other)
    (hopen : s'.shared.state.dynamic_routes_open = s.shared.state.dynamic_routes_open)
    (hsize : UInt64.ofNat s'.shared.state.dynamic_routes.keys.length =
      UInt64.ofNat s.shared.state.dynamic_routes.keys.length + change.owes)
    (hpresent : ∀ sig_hash inserted, change = .Inserted sig_hash inserted →
      (s'.shared.state.dynamic_routes.lookup sig_hash).isSome) : RoutesCounted s' where
  locked other := by
    rw [hlock]
    by_cases hother : other = me
    · simp [hother, hme]
    · rw [hothers other hother, h.change_eq_none hfree]
      simp [Ne.symm hother]
  counted := by
    have hcounted := h.counted
    rw [hfree, Option.bind_none, Option.map_none, Option.getD_none, UInt64.add_zero] at hcounted
    rw [hlock, Option.bind_some, hme, Option.map_some, Option.getD_some, hopen, hcounted, hsize]
  present other sig_hash inserted hchange := by
    by_cases hother : other = me
    · rw [hother, hme] at hchange
      exact hpresent sig_hash inserted (Option.some.inj hchange)
    · rw [hothers other hother, h.change_eq_none hfree] at hchange
      cases hchange

/-- When the holder of the mutex has counted its change, none is left. -/
theorem RoutesCounted.release (h : RoutesCounted s) {change : RouteChange}
    (hbefore : s.change me = some change) (hlock : s'.shared.routes_lock = none)
    (hme : s'.change me = none) (hothers : ∀ other, other ≠ me → s'.change other = s.change other)
    (hroutes : s'.shared.state.dynamic_routes = s.shared.state.dynamic_routes)
    (hopen : s'.shared.state.dynamic_routes_open =
      s.shared.state.dynamic_routes_open + change.owes) : RoutesCounted s' := by
  have hheld : s.shared.routes_lock = some me := (h.locked me).mp (by rw [hbefore]; rfl)
  have hnone : ∀ other, s'.change other = none := by
    intro other
    by_cases hother : other = me
    · rw [hother, hme]
    · rw [hothers other hother, ← Option.not_isSome_iff_eq_none, h.locked, hheld]
      exact fun heq => hother (Option.some.inj heq).symm
  refine ⟨fun other => ?_, ?_, fun other sig_hash inserted hchange => ?_⟩
  · rw [hnone, hlock]
    simp
  · have hcounted := h.counted
    rw [hheld, Option.bind_some, hbefore, Option.map_some, Option.getD_some] at hcounted
    rw [hlock, Option.bind_none, Option.map_none, Option.getD_none, UInt64.add_zero, hopen, hcounted,
      hroutes]
  · rw [hnone] at hchange
    cases hchange

/-- A move of one thread keeps the counter in step with the routes. -/
theorem RoutesCounted.move (h : RoutesCounted s)
    (hmove : RouteMove me s.shared s'.shared (s.change me) (s'.change me))
    (hothers : ∀ other, other ≠ me → s'.change other = s.change other) : RoutesCounted s' := by
  generalize hbefore : s.change me = before at hmove
  generalize hafter : s'.change me = after at hmove
  cases hmove with
  | quiet hroutes hopen hlock =>
    have hsame : s'.change = s.change := by
      funext other
      by_cases hother : other = me
      · rw [hother, hafter, hbefore]
      · exact hothers other hother
    refine ⟨?_, ?_, ?_⟩
    · rw [hsame, hlock]
      exact h.locked
    · rw [hsame, hlock, hopen, hroutes]
      exact h.counted
    · rw [hsame, hroutes]
      exact h.present
  | remove sig_hash hfree hlock hroutes hopen =>
    refine h.acquire hfree hlock hafter hothers hopen ?_ fun _ _ heq => (by cases heq)
    have hsize := length_keys_erase s.shared.state.dynamic_routes sig_hash
    rw [hroutes, ← hsize, UInt64.ofNat_add, apply_ite UInt64.ofNat]
    dsimp only [RouteChange.owes]
    grind
  | insert sig_hash key hfree hlock hroutes hopen =>
    refine h.acquire hfree hlock hafter hothers hopen ?_ fun sig_hash' inserted heq => ?_
    · rw [hroutes, length_keys_insert, UInt64.ofNat_add, apply_ite UInt64.ofNat]
      rfl
    · cases heq
      rw [hroutes, AList.lookup_insert]
      rfl
  | count change hlock hroutes hopen => exact h.release hbefore hlock hafter hothers hroutes hopen

variable [DecidableEq ι] {H : Type} [Digest H] {crates : Crates} {triage : Triage}

theorem Reachable.routesCounted (h : Reachable H crates triage s) : RoutesCounted s := by
  obtain ⟨capacity, hsteps⟩ := h
  induction hsteps with
  | refl => exact routesCounted_start capacity
  | tail _ hstep ih =>
    obtain ⟨me, hmove, hothers⟩ := hstep.routes
    exact ih.move hmove hothers

/-- A run in which the route of a signature is never taken out of the map. -/
def KeepsRoute (H : Type) [Digest H] (crates : Crates) (triage : Triage) (sig_hash : UInt64) :
    System ι → System ι → Prop :=
  Relation.ReflTransGen fun s s' => Step H crates triage s s' ∧
    (s'.shared.state.dynamic_routes.lookup sig_hash).isSome

/-- A route that is there already is not inserted as a new one. -/
theorem Step.not_inserted (hstep : Step H crates triage s s') {sig_hash : UInt64}
    (hroute : (s.shared.state.dynamic_routes.lookup sig_hash).isSome)
    (hnot : ∀ me, s.change me ≠ some (.Inserted sig_hash true)) :
    ∀ me, s'.change me ≠ some (.Inserted sig_hash true) := by
  intro other hother
  obtain ⟨me, hmove, hothers⟩ := hstep.routes
  by_cases hme : other = me
  · subst hme
    generalize hbefore : s.change other = before at hmove
    rw [hother] at hmove
    generalize hafter : some (RouteChange.Inserted sig_hash true) = after at hmove
    cases hmove with
    | quiet => exact hnot other (hbefore.trans hafter.symm)
    | remove => cases hafter
    | insert sig_hash' key =>
      obtain ⟨rfl, hnone⟩ := RouteChange.Inserted.inj (Option.some.inj hafter)
      rw [eq_comm, Option.isNone_iff_eq_none] at hnone
      rw [hnone] at hroute
      cases hroute
    | count => cases hafter
  · rw [hothers other hme] at hother
    exact hnot other hother

omit [DecidableEq ι] in
/-- A route whose insertion has been counted shows in the counter, whatever change another
    thread has in hand. -/
theorem RoutesCounted.exists_open_eq (h : RoutesCounted s) {sig_hash : UInt64}
    (hroute : (s.shared.state.dynamic_routes.lookup sig_hash).isSome)
    (hnot : ∀ me, s.change me ≠ some (.Inserted sig_hash true)) :
    ∃ n, 1 ≤ n ∧ n ≤ s.shared.state.dynamic_routes.keys.length + 1 ∧
      s.shared.state.dynamic_routes_open = UInt64.ofNat n := by
  have hcounted := h.counted
  have hmem : ∀ {key : UInt64}, (s.shared.state.dynamic_routes.lookup key).isSome →
      key ∈ s.shared.state.dynamic_routes.keys := fun hkey =>
    AList.mem_keys.mp (AList.lookup_isSome.mp hkey)
  have hpos := List.length_pos_of_mem (hmem hroute)
  have hsame : s.shared.state.dynamic_routes_open + 0 =
      UInt64.ofNat s.shared.state.dynamic_routes.keys.length →
      ∃ n, 1 ≤ n ∧ n ≤ s.shared.state.dynamic_routes.keys.length + 1 ∧
        s.shared.state.dynamic_routes_open = UInt64.ofNat n := fun heq =>
    ⟨_, hpos, Nat.le_succ _, (UInt64.add_zero _).symm.trans heq⟩
  cases hlock : s.shared.routes_lock with
  | none =>
    rw [hlock] at hcounted
    exact hsame hcounted
  | some me =>
    obtain ⟨change, hchange⟩ := Option.isSome_iff_exists.mp ((h.locked me).mpr hlock)
    rw [hlock, Option.bind_some, hchange, Option.map_some, Option.getD_some] at hcounted
    cases change with
    | Removed removed =>
      cases removed with
      | false => exact hsame hcounted
      | true =>
        refine ⟨s.shared.state.dynamic_routes.keys.length + 1, Nat.succ_pos _, le_rfl, ?_⟩
        rw [UInt64.ofNat_add, ← hcounted]
        simp only [RouteChange.owes]
        grind
    | Inserted inserted_hash inserted =>
      cases inserted with
      | false => exact hsame hcounted
      | true =>
        -- The route in hand and the one looked for are two.
        have hne : inserted_hash ≠ sig_hash := fun heq => hnot me (heq ▸ hchange)
        have htwo : 2 ≤ s.shared.state.dynamic_routes.keys.length := by
          have hsub : [inserted_hash, sig_hash] ⊆ s.shared.state.dynamic_routes.keys := by
            simp [hmem (h.present me _ _ hchange), hmem hroute]
          exact (List.subperm_of_subset (by simp [hne]) hsub).length_le
        obtain ⟨n, hn⟩ : ∃ n, s.shared.state.dynamic_routes.keys.length = n + 1 :=
          ⟨_, (Nat.succ_pred_eq_of_pos hpos).symm⟩
        refine ⟨n, by omega, by omega, ?_⟩
        rw [hn, UInt64.ofNat_add] at hcounted
        simp only [RouteChange.owes] at hcounted
        grind

/-- Where a route stays from a moment at which the mutex is free, the counter is not zero. -/
theorem KeepsRoute.open_pos (hreachable : Reachable H crates triage s)
    (hfree : s.shared.routes_lock = none) {sig_hash : UInt64}
    (hroute : (s.shared.state.dynamic_routes.lookup sig_hash).isSome)
    (hkeeps : KeepsRoute H crates triage sig_hash s s')
    (hsize : s'.shared.state.dynamic_routes.keys.length + 1 < 2 ^ 64) :
    s'.shared.state.dynamic_routes_open > 0 := by
  have hstays : Reachable H crates triage s' ∧
      (s'.shared.state.dynamic_routes.lookup sig_hash).isSome ∧
      ∀ me, s'.change me ≠ some (.Inserted sig_hash true) := by
    clear hsize
    induction hkeeps with
    | refl =>
      refine ⟨hreachable, hroute, fun me heq => ?_⟩
      rw [hreachable.routesCounted.change_eq_none hfree] at heq
      cases heq
    | tail _ hstep ih =>
      obtain ⟨⟨capacity, hsteps⟩, hthere, hnot⟩ := ih
      exact ⟨⟨capacity, hsteps.tail hstep.1⟩, hstep.2, hstep.1.not_inserted hthere hnot⟩
  obtain ⟨hreachable', hroute', hnot⟩ := hstays
  obtain ⟨n, hpos, hle, hopen⟩ := hreachable'.routesCounted.exists_open_eq hroute' hnot
  rw [hopen, gt_iff_lt, UInt64.lt_iff_toNat_lt, UInt64.toNat_ofNat_of_lt' (show n < 2 ^ 64 by omega)]
  exact hpos

end

/-- The counter of the routes is exact: in every run of any number of threads with the worker,
    while the mutex of the routes is free, it is the number of routes. From then on a call whose
    route stays in the map is not led past it by the counter. -/
theorem dynamic_routes_open_exact {ι : Type} [DecidableEq ι] {H : Type} [Digest H] {crates : Crates}
    {triage : Triage} {s : System ι} (hreachable : Reachable H crates triage s)
    (hfree : s.shared.routes_lock = none) :
    s.shared.state.dynamic_routes_open =
        UInt64.ofNat s.shared.state.dynamic_routes.keys.length ∧
      (s.shared.state.dynamic_routes.keys.length < 2 ^ 64 →
        s.shared.state.dynamic_routes_open.toNat = s.shared.state.dynamic_routes.keys.length) ∧
      ∀ s' i call, (s.shared.state.dynamic_routes.lookup call.sig_hash).isSome →
        KeepsRoute H crates triage call.sig_hash s s' →
        s'.shared.state.dynamic_routes.keys.length + 1 < 2 ^ 64 →
        s'.threads i = .Running call .LoadRoutes →
        process_step H crates (.Caller i) call s'.shared .LoadRoutes = some (.GetRoute, s'.shared) := by
  have hcounted := hreachable.routesCounted.counted
  rw [hfree, Option.bind_none, Option.map_none, Option.getD_none, UInt64.add_zero] at hcounted
  refine ⟨hcounted, fun hfew => ?_, fun s' i call hroute hkeeps hsize _ => ?_⟩
  · rw [hcounted, UInt64.toNat_ofNat_of_lt' hfew]
  · exact if_pos (hkeeps.open_pos hreachable hfree hroute hsize)

/-- The line `zz`, which a registered parser takes: its route is installed. -/
theorem dynamic_routes_open_exact_one_route :
    ∃ s : System Unit, Reachable Hash startMatch ⟨fun _ => none, fun _ _ _ => none⟩ s ∧
      s.shared.routes_lock = none ∧ s.shared.state.dynamic_routes.keys.length = 1 ∧
      s.shared.state.dynamic_routes_open = 1 := by
  obtain ⟨sig_hash, hhash⟩ := ne_panic_iff.mp
    (ulpf_core.parser.lru_cache.SignatureLruCache.compute_signature_hash_ne_panic (str.lit "zz"))
  let call : ProcessCall := ⟨str.lit "zz", default, sig_hash, hhash⟩
  have hroutes : (startRegistered.shared.state.process Hash startMatch default (str.lit "zz") >>=
      fun returned => ok returned.2.dynamic_routes.keys.length) = ok 1 := by
    decide +kernel
  obtain ⟨⟨event, state⟩, hprocess, hlength⟩ := bind_eq_ok_iff.mp hroutes
  obtain ⟨origin, s, hreachable, hshared, -⟩ :=
    reachable_startRegistered.process_alone (i := ()) rfl rfl rfl call hprocess
  have hfree : s.shared.routes_lock = none := by rw [hshared]; rfl
  have hone : s.shared.state.dynamic_routes.keys.length = 1 := by
    rw [hshared]
    exact Result.ok.inj hlength
  refine ⟨s, hreachable, hfree, hone, ?_⟩
  rw [(dynamic_routes_open_exact hreachable hfree).1, hone]
  rfl

end ulpf_ai.pipeline
