import Ulpf.Ai.Drain

open Result

namespace ulpf_ai.drain

/-- A line for the miner, with what its clock shows then. -/
structure Input where
  raw : List Char
  now_ms : Int

namespace Input

variable (crates : Crates)

/-- The tokens of a line after masking, which always returns. -/
def tokens (self : Input) : List (List Char) :=
  match LogMasker.mask crates self.raw with
  | .ok masked => DrainMiner.tokenize masked
  | .panic => []

def syslog_tag (self : Input) : Option (List Char) :=
  match syslog_tag_of crates self.raw with
  | .ok tag => tag
  | .panic => none

end Input

/-- A line that a miner has taken, with its answer. -/
structure Taken extends Input where
  result : ClusterResult

namespace DrainMiner

variable (crates : Crates)

/-- The lines of a run in turn. -/
def run : List Input → DrainMiner → Result (List Taken × DrainMiner)
  | [], self => ok ([], self)
  | input :: inputs, self => do
    let (result, self) ← self.add_log crates input.raw input.now_ms
    let (history, self) ← run inputs self
    ok (⟨input, result⟩ :: history, self)

/-- Every line of a run finds the miner in a state that meets a condition on both. -/
def Meets (condition : DrainMiner → Input → Prop) : List Input → DrainMiner → Prop
  | [], _ => True
  | input :: inputs, self =>
    condition self input ∧
    ∀ result self', self.add_log crates input.raw input.now_ms = ok (result, self') →
      Meets condition inputs self'

instance decidableMeets (condition : DrainMiner → Input → Prop)
    [∀ self input, Decidable (condition self input)] :
    (inputs : List Input) → (self : DrainMiner) → Decidable (self.Meets crates condition inputs)
  | [], _ => isTrue trivial
  | input :: inputs, self =>
    have : Decidable (∀ result self', self.add_log crates input.raw input.now_ms = ok (result, self') →
        self'.Meets crates condition inputs) :=
      match self.add_log crates input.raw input.now_ms with
      | .ok (result, self') =>
        have := decidableMeets condition inputs self'
        decidable_of_iff (self'.Meets crates condition inputs)
          ⟨fun h _ _ hadd => (by cases hadd; exact h), fun h => h result self' rfl⟩
      | .panic => isTrue fun _ _ hadd => (by cases hadd)
    inferInstanceAs (Decidable (_ ∧ _))

/-- A condition on the cluster that a line finds. -/
instance decidableForallFound (found : Result (Option Nat × ℚ)) (clusters : HashMap Nat LogCluster)
    (p : LogCluster → Prop) [DecidablePred p] :
    Decidable (∀ c_id sim cluster, found = ok (some c_id, sim) →
      clusters.lookup c_id = some cluster → p cluster) :=
  match found with
  | .ok (some c_id, sim) =>
    decidable_of_iff (∀ cluster ∈ clusters.lookup c_id, p cluster)
      ⟨fun h _ _ cluster hfound hlookup => (by cases hfound; exact h cluster hlookup),
        fun h cluster hlookup => h c_id sim cluster rfl hlookup⟩
  | .ok (none, _) => isTrue fun _ _ _ hfound => (by cases hfound)
  | .panic => isTrue fun _ _ _ hfound => (by cases hfound)

/-- A condition on all places of a list. -/
instance decidableForallPlace {α : Type} (l : List α) (q : Nat → α → Prop)
    [∀ i a, Decidable (q i a)] : Decidable (∀ (i : Nat) a, l[i]? = some a → q i a) :=
  decidable_of_iff (∀ place ∈ l.zipIdx, q place.2 place.1)
    ⟨fun h i a hi => h (a, i) (List.mem_zipIdx_iff_getElem?.mpr hi),
      fun h place hplace => h place.2 place.1 (List.mem_zipIdx_iff_getElem?.mp hplace)⟩

/-- The alert of a line that founds a cluster. -/
def newTemplate (cluster : LogCluster) (now_ms : Int) : AnomalyAlert where
  anomaly_type := .NewTemplate
  cluster_id := cluster.cluster_id
  template := cluster.template
  message := s!"Unseen log structural template #{cluster.cluster_id} detected: " ++
    s!"'{String.ofList cluster.template}'"
  timestamp := now_ms
  count := 1
  severity := .Medium

/-- All that one line can do. -/
inductive Adds (self : DrainMiner) (input : Input) : ClusterResult → DrainMiner → Prop where
  /-- Nothing is left of the line after masking. -/
  | blank (htokens : input.tokens crates = []) :
    Adds self input ⟨0, [], false, 1, none⟩
      { self with total_logs_processed := self.total_logs_processed + 1 }
  | joins (c_id : Nat) (cluster : LogCluster) (sim : ℚ) (anomaly : Option AnomalyAlert)
      (htokens : input.tokens crates ≠ [])
      (hfind : self.find_best_match (input.tokens crates) (input.syslog_tag crates) =
        ok (some c_id, sim))
      (hlookup : self.clusters.lookup c_id = some cluster)
      (hmatches : self.Matches (input.tokens crates) (input.syslog_tag crates) cluster)
      (hanomaly : ∀ alert ∈ anomaly, alert.anomaly_type = .RareClusterSurge ∧
        alert.cluster_id = c_id ∧ cluster.count = self.config.rare_count_threshold) :
    Adds self input
      ⟨c_id, (cluster.update (input.tokens crates) input.now_ms).template, false, sim, anomaly⟩
      { self with
        total_logs_processed := self.total_logs_processed + 1
        clusters := self.clusters.insert c_id (cluster.update (input.tokens crates) input.now_ms) }
  | founds (cluster : LogCluster) (sim : ℚ) (root : Node)
      (htokens : input.tokens crates ≠ [])
      (hfind : self.find_best_match (input.tokens crates) (input.syslog_tag crates) =
        ok (none, sim))
      (hcluster : cluster = LogCluster.new self.next_cluster_id (input.tokens crates) input.now_ms
        (input.syslog_tag crates)) :
    Adds self input
      ⟨self.next_cluster_id, cluster.template, true, sim, some (newTemplate cluster input.now_ms)⟩
      { self with
        total_logs_processed := self.total_logs_processed + 1
        root
        clusters := self.clusters.insert self.next_cluster_id cluster
        next_cluster_id := self.next_cluster_id + 1 }

variable {crates}

/-- Matching does not look at the number of lines. -/
theorem best_candidate_counted (self : DrainMiner) (n : Nat) (tokens : List (List Char))
    (syslog_tag : Option (List Char)) (anchor_vocab : List (List Char)) (best : Option Nat)
    (max_sim : ℚ) (ids : List Nat) :
    best_candidate { self with total_logs_processed := n } tokens syslog_tag anchor_vocab best max_sim
        ids =
      best_candidate self tokens syslog_tag anchor_vocab best max_sim ids := by
  induction ids generalizing best max_sim with
  | nil => rfl
  | cons c_id rest ih => simp only [best_candidate, ih]

theorem find_best_match_counted (self : DrainMiner) (n : Nat) (tokens : List (List Char))
    (syslog_tag : Option (List Char)) :
    find_best_match { self with total_logs_processed := n } tokens syslog_tag =
      self.find_best_match tokens syslog_tag := by
  simp only [find_best_match, best_candidate_counted]

/-- A surge is raised only by the line that takes a cluster over the threshold. -/
theorem surge_alert_eq_some {self : DrainMiner} {c_id prev_count : Nat} {cluster : LogCluster}
    {now_ms : Int} {alert : AnomalyAlert} (hcount : cluster.count = prev_count + 1)
    (halert : surge_alert crates self c_id prev_count cluster now_ms = ok (some alert)) :
    alert.anomaly_type = .RareClusterSurge ∧ alert.cluster_id = c_id ∧
      prev_count = self.config.rare_count_threshold := by
  unfold surge_alert at halert
  dsimp only at halert
  split at halert
  · rename_i hrare
    obtain ⟨rate, -, halert⟩ := bind_eq_ok_iff.mp halert
    split at halert
    · cases halert
      exact ⟨rfl, rfl, by omega⟩
    · cases halert
  · cases halert

theorem find_best_match_matches {self : DrainMiner} {tokens : List (List Char)}
    {syslog_tag : Option (List Char)} {c_id : Nat} {sim : ℚ}
    (hfind : self.find_best_match tokens syslog_tag = ok (some c_id, sim)) :
    ∃ cluster, self.clusters.lookup c_id = some cluster ∧ self.Matches tokens syslog_tag cluster := by
  obtain ⟨picked, sim', hok, hpicked⟩ := self.find_best_match_spec tokens syslog_tag
  rw [hfind] at hok
  cases hok
  exact hpicked c_id rfl

/-- A line is masked, cut into tokens and looked up before the miner changes anything but the
    number of lines. -/
theorem add_log_eq (crates : Crates) (self : DrainMiner) (input : Input) :
    self.add_log crates input.raw input.now_ms =
      let counted := { self with total_logs_processed := self.total_logs_processed + 1 }
      if input.tokens crates = [] then ok (⟨0, [], false, 1, none⟩, counted)
      else
        self.find_best_match (input.tokens crates) (input.syslog_tag crates) >>= fun found =>
          match found.1 with
          | some c_id =>
            counted.join_cluster crates c_id found.2 (input.tokens crates) input.now_ms
          | none =>
            ok (counted.found_cluster found.2 (input.tokens crates) (input.syslog_tag crates)
              input.now_ms) := by
  obtain ⟨masked, hmasked⟩ := ne_panic_iff.mp (LogMasker.mask_ne_panic crates input.raw)
  obtain ⟨tag, htag⟩ := ne_panic_iff.mp (syslog_tag_of_ne_panic crates input.raw)
  have htokens : input.tokens crates = tokenize masked := by rw [Input.tokens, hmasked]
  have hinput : input.syslog_tag crates = tag := by rw [Input.syslog_tag, htag]
  rw [htokens, hinput]
  unfold add_log
  dsimp only
  rw [hmasked, bind_ok]
  by_cases hempty : tokenize masked = []
  · rw [if_pos hempty, if_pos (List.isEmpty_iff.mpr hempty)]
  · rw [if_neg hempty, if_neg fun h => hempty (List.isEmpty_iff.mp h), htag, bind_ok]
    exact congrArg (· >>= _) (find_best_match_counted ..)

theorem adds_of_add_log {self after : DrainMiner} {input : Input} {result : ClusterResult}
    (hadd : self.add_log crates input.raw input.now_ms = ok (result, after)) :
    self.Adds crates input result after := by
  rw [add_log_eq] at hadd
  split at hadd
  · rename_i htokens
    cases hadd
    exact .blank htokens
  rename_i htokens
  obtain ⟨⟨picked, sim⟩, hfind, hadd⟩ := bind_eq_ok_iff.mp hadd
  cases picked with
  | none =>
    cases hadd
    exact .founds _ sim _ htokens hfind rfl
  | some c_id =>
    obtain ⟨cluster, hlookup, hmatches⟩ := find_best_match_matches hfind
    dsimp only at hadd
    unfold join_cluster at hadd
    dsimp only at hadd
    rw [hlookup] at hadd
    obtain ⟨anomaly, halert, hadd⟩ := bind_eq_ok_iff.mp hadd
    cases hadd
    refine .joins c_id cluster sim anomaly htokens hfind hlookup hmatches ?_
    intro alert hmem
    rw [Option.mem_def.mp hmem] at halert
    obtain ⟨htype, hid, hcount⟩ := surge_alert_eq_some rfl halert
    exact ⟨htype, hid, hcount⟩

/-- A line is returned an earlier cluster exactly if that is what it finds. -/
theorem Adds.joined_iff {self after : DrainMiner} {input : Input} {result : ClusterResult}
    (hadds : self.Adds crates input result after) (htokens : input.tokens crates ≠ []) (c_id : Nat) :
    (result.cluster_id = c_id ∧ result.is_new = false) ↔
      ∃ sim, self.find_best_match (input.tokens crates) (input.syslog_tag crates) =
        ok (some c_id, sim) := by
  cases hadds with
  | blank hblank => exact absurd hblank htokens
  | joins c cluster sim anomaly _ hfind =>
    rw [hfind]
    simp
  | founds cluster sim root _ hfind =>
    rw [hfind]
    simp

/-- What is said of the cluster that a line finds. -/
theorem forall_found_iff {self : DrainMiner} {tokens : List (List Char)}
    {syslog_tag : Option (List Char)} {c_id : Nat} {sim : ℚ} {cluster : LogCluster}
    (hfind : self.find_best_match tokens syslog_tag = ok (some c_id, sim))
    (hlookup : self.clusters.lookup c_id = some cluster) {p : LogCluster → Prop} :
    (∀ c_id' sim' cluster', self.find_best_match tokens syslog_tag = ok (some c_id', sim') →
      self.clusters.lookup c_id' = some cluster' → p cluster') ↔ p cluster := by
  constructor
  · intro h
    exact h c_id sim cluster hfind hlookup
  · intro h c_id' sim' cluster' hfind' hlookup'
    rw [hfind] at hfind'
    cases hfind'
    rw [hlookup] at hlookup'
    cases hlookup'
    exact h

theorem run_cons_eq_ok_iff {self after : DrainMiner} {input : Input} {inputs : List Input}
    {history : List Taken} :
    self.run crates (input :: inputs) = ok (history, after) ↔
      ∃ result next rest, self.add_log crates input.raw input.now_ms = ok (result, next) ∧
        next.run crates inputs = ok (rest, after) ∧ history = ⟨input, result⟩ :: rest := by
  rw [run, bind_eq_ok_iff]
  constructor
  · rintro ⟨⟨result, next⟩, hadd, hrun⟩
    obtain ⟨⟨rest, last⟩, hrest, hrun⟩ := bind_eq_ok_iff.mp hrun
    cases hrun
    exact ⟨result, next, rest, hadd, hrest, rfl⟩
  · rintro ⟨result, next, rest, hadd, hrest, rfl⟩
    exact ⟨(result, next), hadd, bind_eq_ok_iff.mpr ⟨(rest, after), hrest, rfl⟩⟩

theorem length_of_run {inputs : List Input} {history : List Taken} {self after : DrainMiner}
    (hrun : self.run crates inputs = ok (history, after)) : history.length = inputs.length := by
  induction inputs generalizing history self with
  | nil =>
    cases hrun
    rfl
  | cons input inputs ih =>
    obtain ⟨result, next, rest, -, hrest, rfl⟩ := run_cons_eq_ok_iff.mp hrun
    rw [List.length_cons, List.length_cons, ih hrest]

/-- The miner takes every sequence of lines. -/
theorem run_ok (crates : Crates) (self : DrainMiner) (inputs : List Input) :
    ∃ history after, self.run crates inputs = ok (history, after) ∧
      history.map Taken.toInput = inputs := by
  induction inputs generalizing self with
  | nil => exact ⟨[], self, rfl, rfl⟩
  | cons input inputs ih =>
    obtain ⟨result, after, hadd, -⟩ := add_log_ok crates self input.raw input.now_ms
    obtain ⟨history, last, hrun, hinputs⟩ := ih after
    refine ⟨⟨input, result⟩ :: history, last, ?_, ?_⟩
    · exact run_cons_eq_ok_iff.mpr ⟨result, after, history, hadd, hrun, rfl⟩
    · rw [List.map_cons, hinputs]

/-- What holds at first and is kept by every line that meets a condition holds in all
    states of a run whose lines meet it. -/
theorem run_invariant {inv : List Taken → DrainMiner → Prop} {condition : DrainMiner → Input → Prop}
    (hkeep : ∀ {prior self input result after}, inv prior self → condition self input →
      self.Adds crates input result after → inv (prior ++ [⟨input, result⟩]) after)
    {inputs : List Input} {prior history : List Taken} {self after : DrainMiner}
    (hinv : inv prior self)
    (hmeets : self.Meets crates condition inputs) (hrun : self.run crates inputs = ok (history, after)) :
    inv (prior ++ history) after := by
  induction inputs generalizing prior history self with
  | nil =>
    cases hrun
    rwa [List.append_nil]
  | cons input inputs ih =>
    obtain ⟨result, next, rest, hadd, hrest, rfl⟩ := run_cons_eq_ok_iff.mp hrun
    have hadds := adds_of_add_log hadd
    have hnext := ih (hkeep hinv hmeets.1 hadds) (hmeets.2 result next hadd) hrest
    rwa [List.append_assoc] at hnext

theorem meets_true (self : DrainMiner) (inputs : List Input) :
    self.Meets crates (fun _ _ => True) inputs := by
  induction inputs generalizing self with
  | nil => trivial
  | cons input inputs ih => exact ⟨trivial, fun _ next _ => ih next⟩

/-- Where one line keeps a property exactly under a condition, all states of a run have the
    property exactly if all of its lines meet the condition. -/
theorem run_states_iff {inv property : List Taken → DrainMiner → Prop}
    {condition : DrainMiner → Input → Prop}
    (hkeep : ∀ {prior self input result after}, inv prior self →
      self.add_log crates input.raw input.now_ms = ok (result, after) →
      inv (prior ++ [⟨input, result⟩]) after)
    (hstep : ∀ {prior self input result after}, inv prior self → property prior self →
      self.add_log crates input.raw input.now_ms = ok (result, after) →
      (property (prior ++ [⟨input, result⟩]) after ↔ condition self input))
    {prior : List Taken} {self : DrainMiner} (hinv : inv prior self)
    (hproperty : property prior self) (inputs : List Input) :
    (∀ seen, seen <+: inputs → ∀ history after, self.run crates seen = ok (history, after) →
      property (prior ++ history) after) ↔ self.Meets crates condition inputs := by
  induction inputs generalizing prior self with
  | nil =>
    refine iff_of_true ?_ trivial
    intro seen hseen history after hrun
    rw [List.prefix_nil.mp hseen] at hrun
    cases hrun
    rwa [List.append_nil]
  | cons input inputs ih =>
    obtain ⟨result, next, hadd, -⟩ := add_log_ok crates self input.raw input.now_ms
    have hih := fun hnext => ih (hkeep hinv hadd) hnext
    constructor
    · intro hall
      have hone : self.run crates [input] = ok ([⟨input, result⟩], next) :=
        run_cons_eq_ok_iff.mpr ⟨result, next, [], hadd, rfl, rfl⟩
      have hnext := hall [input] (by simp) [⟨input, result⟩] next hone
      refine ⟨(hstep hinv hproperty hadd).mp hnext, ?_⟩
      intro result' next' hadd'
      rw [hadd] at hadd'
      cases hadd'
      refine (hih hnext).mp fun seen hseen history after hrun => ?_
      rw [List.append_assoc]
      exact hall (input :: seen) (by simpa using hseen) _ after
        (run_cons_eq_ok_iff.mpr ⟨result, next, history, hadd, hrun, rfl⟩)
    · rintro ⟨hcondition, hmeets⟩ seen hseen history after hrun
      have hnext := (hstep hinv hproperty hadd).mpr hcondition
      cases seen with
      | nil =>
        cases hrun
        rwa [List.append_nil]
      | cons first seen =>
        obtain ⟨rfl, hprefix⟩ := List.cons_prefix_cons.mp hseen
        obtain ⟨result', next', rest, hadd', hrest, rfl⟩ := run_cons_eq_ok_iff.mp hrun
        rw [hadd] at hadd'
        cases hadd'
        have hafter := (hih hnext).mpr (hmeets result next hadd) seen hprefix rest after hrest
        rwa [List.append_assoc] at hafter

end DrainMiner

end ulpf_ai.drain
