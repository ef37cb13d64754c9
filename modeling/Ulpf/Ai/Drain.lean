import Mathlib.Algebra.Order.Ring.Rat
import Ulpf.Ai.Mask

open Result

namespace ulpf_ai.drain

structure DrainConfig where
  depth : Nat
  similarity_threshold : ℚ
  max_children : Nat
  max_clusters : Nat
  rare_count_threshold : Nat
  surge_multiplier : ℚ
  unique_anchor_tokens : List (List Char)
  anchors_enabled : Bool
  /-- Below 2 the length of the prefix, `depth - 2`, overflows. -/
  two_le_depth : 2 ≤ depth

def DrainConfig.default : DrainConfig where
  depth := 4
  similarity_threshold := 1 / 2
  max_children := 100
  max_clusters := 10000
  rare_count_threshold := 5
  surge_multiplier := 3
  unique_anchor_tokens :=
    [str.lit "ALLOW", str.lit "DENY", str.lit "DROP", str.lit "BLOCK", str.lit "PERMIT",
      str.lit "REJECT", str.lit "PASS", str.lit "ACCEPT", str.lit "ALLOWED", str.lit "DENIED",
      str.lit "BLOCKED", str.lit "BUILT", str.lit "TEARDOWN", str.lit "CLOSE", str.lit "CLOSED",
      str.lit "RESET", str.lit "RST", str.lit "TRAFFIC", str.lit "THREAT"]
  anchors_enabled := true
  two_le_depth := by decide

/-- Keys whose values are class discriminators. -/
def CLASS_KEYS : List (List Char) := [str.lit "type"]

inductive AlertSeverity where
  | Medium
  | High
  | Critical
  deriving DecidableEq

inductive AnomalyType where
  | NewTemplate
  | RareClusterSurge
  deriving DecidableEq

structure AnomalyAlert where
  anomaly_type : AnomalyType
  cluster_id : Nat
  template : List Char
  message : String
  timestamp : Int
  count : Nat
  severity : AlertSeverity

/-- Mined log template cluster. -/
structure LogCluster where
  cluster_id : Nat
  template_tokens : List (List Char)
  template : List Char
  count : Nat
  size : Nat
  created_at : Int
  last_seen : Int
  recent_timestamps : List Int
  syslog_tag : Option (List Char)

namespace LogCluster

/-- `tokens.join(" ")`. -/
def join (tokens : List (List Char)) : List Char := List.intercalate [' '] tokens

def new (cluster_id : Nat) (tokens : List (List Char)) (now_ms : Int)
    (syslog_tag : Option (List Char)) : LogCluster where
  cluster_id
  template_tokens := tokens
  template := join tokens
  count := 1
  size := tokens.length
  created_at := now_ms
  last_seen := now_ms
  recent_timestamps := [now_ms]
  syslog_tag

/-- The loop over the two lists; template tokens beyond the incoming ones stay. -/
def merge_tokens : List (List Char) → List (List Char) → List (List Char)
  | tmpl_token :: tmpl_tokens, in_token :: in_tokens =>
    (if tmpl_token ≠ in_token then WILDCARD else tmpl_token) :: merge_tokens tmpl_tokens in_tokens
  | tmpl_tokens, _ => tmpl_tokens

/-- The template text is joined again only where a token changed. -/
def update (self : LogCluster) (incoming_tokens : List (List Char)) (now_ms : Int) : LogCluster :=
  let recent :=
    if self.recent_timestamps.length ≥ 64 then self.recent_timestamps.tail
    else self.recent_timestamps
  let template_tokens := merge_tokens self.template_tokens incoming_tokens
  { self with
    count := self.count + 1
    last_seen := now_ms
    recent_timestamps := recent ++ [now_ms]
    template_tokens
    template := if template_tokens ≠ self.template_tokens then join template_tokens else self.template }

/-- Hits per second in the recent observation window. -/
def recent_rate_per_sec (self : LogCluster) : Result ℚ :=
  if self.recent_timestamps.length < 2 then ok 0
  else
    match self.recent_timestamps.head?, self.recent_timestamps.getLast? with
    | some oldest, some newest =>
      let elapsed_ms := newest - oldest
      if elapsed_ms ≤ 0 then ok self.recent_timestamps.length
      else ok (self.recent_timestamps.length / (elapsed_ms / 1000))
    | _, _ => panic

theorem recent_rate_per_sec_ne_panic (self : LogCluster) : self.recent_rate_per_sec ≠ panic := by
  unfold recent_rate_per_sec
  cases self.recent_timestamps with
  | nil => simp
  | cons oldest rest =>
    rw [List.head?_cons, List.getLast?_cons]
    dsimp only
    split
    · simp
    · split <;> simp

end LogCluster

structure ClusterResult where
  cluster_id : Nat
  template : List Char
  is_new : Bool
  similarity : ℚ
  anomaly : Option AnomalyAlert

/-- Prefix search tree. The children of a node are bindings of keys to nodes. -/
structure Node where
  children : List (List Char × Node)
  cluster_ids : List Nat

namespace Node

def new : Node := ⟨[], []⟩

def child (self : Node) (key : List Char) : Option Node := self.children.lookup key

/-- `entry(key).or_insert_with(..)` followed by a change of that child. -/
def upsert (key : List Char) (f : Node → Node) : List (List Char × Node) → List (List Char × Node)
  | [] => [(key, f new)]
  | (k, node) :: rest => if k = key then (k, f node) :: rest else (k, node) :: upsert key f rest

end Node

structure DrainMiner where
  config : DrainConfig
  root : Node
  clusters : HashMap Nat LogCluster
  next_cluster_id : Nat
  total_logs_processed : Nat

namespace DrainMiner

def new (config : DrainConfig) : DrainMiner := ⟨config, Node.new, ∅, 1, 0⟩

def is_token_quote (c : Char) : Bool := c = ',' || c = ';' || c = '"' || c = '\''

/-- Splits by whitespace, respecting commas in CSV-like logs. -/
def tokenize (input : List Char) : List (List Char) :=
  if input.contains ' ' then
    (((input.splitOnP Char.is_whitespace).filter fun s => !s.isEmpty).map
      (str.trim_matches is_token_quote)).filter fun s => !s.isEmpty
  else if input.contains ',' then
    ((input.splitOnP (· = ',')).map str.trim).filter fun s => !s.isEmpty
  else [input]

def has_digit_or_param (token : List Char) : Bool := token = WILDCARD || token.any Char.isDigit

def is_value_quote (c : Char) : Bool :=
  c = '"' || c = '\'' || c = ',' || c = ';' || c.is_whitespace

/-- `token.get(start..).unwrap_or(token)`. -/
def get_from (token : List Char) (start : Nat) : List Char :=
  match str.split_at_checked token start with
  | some parts => parts.2
  | none => token

/-- Value-form of a token for anchor comparison. -/
def anchor_value (token : List Char) : List Char :=
  let value :=
    match str.find (· = '=') token with
    | some p => get_from token (p + 1)
    | none =>
      match str.find_str (str.lit "\":") token with
      | some p => get_from token (p + 2)
      | none => token
  str.trim_matches is_value_quote value

/-- Key-form of a token; `none` for tokens without a separator. -/
def kv_key (token : List Char) : Result (Option (List Char)) :=
  match (str.find (· = '=') token).or (str.find_str (str.lit "\":") token) with
  | some p => do
    let key ← str.slice_to token p
    ok (some (str.trim_matches is_value_quote key))
  | none => ok none

/-- Whether two values are anchors that must not be merged. -/
def anchor_clash (anchor_tokens : List (List Char)) (v1 v2 : List Char) : Bool :=
  (anchor_tokens.any fun a => str.eq_ignore_ascii_case v1 a || str.eq_ignore_ascii_case v2 a) &&
    !str.eq_ignore_ascii_case v1 v2

/-- Whether two tokens have one class key with different values. -/
def class_clash (k1 k2 : Option (List Char)) (v1 v2 : List Char) : Bool :=
  match k1, k2 with
  | some k1, some k2 =>
    str.eq_ignore_ascii_case k1 k2 && (CLASS_KEYS.any fun c => str.eq_ignore_ascii_case k1 c) &&
      !str.eq_ignore_ascii_case v1 v2
  | _, _ => false

/-- The anchor loop over the paired tokens: whether some pair forces distinct clusters. -/
def forces_distinct (anchor_tokens : List (List Char)) :
    List (List Char × List Char) → Result Bool
  | [] => ok false
  | (t1, t2) :: pairs =>
    if anchor_clash anchor_tokens (anchor_value t1) (anchor_value t2) then ok true
    else do
      let k1 ← kv_key t1
      let k2 ← kv_key t2
      if class_clash k1 k2 (anchor_value t1) (anchor_value t2) then ok true
      else forces_distinct anchor_tokens pairs

/-- Drain similarity of a template and incoming tokens. -/
def compute_similarity (tmpl_tokens in_tokens anchor_tokens : List (List Char)) : Result ℚ :=
  if tmpl_tokens.length ≠ in_tokens.length ∨ tmpl_tokens.isEmpty then ok 0
  else do
    let pairs := tmpl_tokens.zip in_tokens
    let distinct ← if anchor_tokens.isEmpty then ok false else forces_distinct anchor_tokens pairs
    let matched := pairs.countP fun (t1, t2) => t1 = WILDCARD || t1 = t2
    ok (if distinct then 0 else matched / tmpl_tokens.length)

def max_prefix_depth (config : DrainConfig) : Nat := config.depth - 2

def len_key (token_count : Nat) : List Char := Nat.toDigits 10 token_count

/-- The walk down the tree along the leading tokens. -/
def descend : List (List Char) → Node → Option Node
  | [], current => some current
  | token :: tokens, current =>
    let key := if has_digit_or_param token then str.lit "*" else token
    match (current.child key).or (current.child (str.lit "*")) with
    | some child => descend tokens child
    | none => none

/-- The loop over the candidates of a leaf. -/
def best_candidate (self : DrainMiner) (tokens : List (List Char)) (syslog_tag : Option (List Char))
    (anchor_vocab : List (List Char)) : Option Nat → ℚ → List Nat → Result (Option Nat × ℚ)
  | best, max_sim, [] => ok (best, max_sim)
  | best, max_sim, c_id :: rest =>
    match self.clusters.lookup c_id with
    | none => best_candidate self tokens syslog_tag anchor_vocab best max_sim rest
    | some cluster =>
      if cluster.size ≠ tokens.length ∨
          (self.config.anchors_enabled ∧ cluster.syslog_tag ≠ syslog_tag) then
        best_candidate self tokens syslog_tag anchor_vocab best max_sim rest
      else do
        let sim ← compute_similarity cluster.template_tokens tokens anchor_vocab
        if sim > max_sim then
          let best := if sim ≥ self.config.similarity_threshold then some c_id else best
          best_candidate self tokens syslog_tag anchor_vocab best sim rest
        else best_candidate self tokens syslog_tag anchor_vocab best max_sim rest

/-- The candidate cluster of maximal similarity. -/
def find_best_match (self : DrainMiner) (tokens : List (List Char))
    (syslog_tag : Option (List Char)) : Result (Option Nat × ℚ) :=
  let anchor_vocab :=
    if self.config.anchors_enabled then self.config.unique_anchor_tokens else []
  match self.root.child (len_key tokens.length) with
  | none => ok (none, 0)
  | some len_node =>
    match descend (tokens.take (max_prefix_depth self.config)) len_node with
    | none => ok (none, 0)
    | some leaf => best_candidate self tokens syslog_tag anchor_vocab none 0 leaf.cluster_ids

/-- The walk of an insertion, which makes the nodes that are missing. -/
def insert_below (max_children cluster_id : Nat) : List (List Char) → Node → Node
  | [], current => { current with cluster_ids := current.cluster_ids ++ [cluster_id] }
  | token :: tokens, current =>
    let key :=
      if has_digit_or_param token || current.children.length ≥ max_children then str.lit "*"
      else token
    { current with
      children := Node.upsert key (insert_below max_children cluster_id tokens) current.children }

def insert_to_tree (self : DrainMiner) (cluster_id : Nat) (tokens : List (List Char)) :
    DrainMiner :=
  let below := insert_below self.config.max_children cluster_id
    (tokens.take (max_prefix_depth self.config))
  { self with
    root := { self.root with
      children := Node.upsert (len_key tokens.length) below self.root.children } }

/-- The alert of a rare cluster that surges once a baseline is established. -/
def surge_alert (crates : Crates) (self : DrainMiner) (cluster_id prev_count : Nat)
    (cluster : LogCluster) (now_ms : Int) : Result (Option AnomalyAlert) :=
  let rare := self.config.rare_count_threshold
  if self.total_logs_processed > rare * 3 ∧ prev_count ≤ rare ∧ cluster.count > rare then do
    let rate ← cluster.recent_rate_per_sec
    if rate ≥ self.config.surge_multiplier ∨ cluster.count ≥ rare + 2 then
      ok (some
        { anomaly_type := .RareClusterSurge
          cluster_id
          template := cluster.template
          message := s!"Rare cluster #{cluster_id} suddenly surged to {cluster.count} " ++
            s!"events (rate: {crates.format_fixed2 rate} eps)"
          timestamp := now_ms
          count := cluster.count
          severity := .High })
    else ok none
  else ok none

/-- A line that joins a cluster. -/
def join_cluster (crates : Crates) (self : DrainMiner) (c_id : Nat) (max_sim : ℚ)
    (tokens : List (List Char)) (now_ms : Int) : Result (ClusterResult × DrainMiner) :=
  match self.clusters.lookup c_id with
  | none => panic
  | some cluster => do
    let updated := cluster.update tokens now_ms
    let anomaly ← surge_alert crates self c_id cluster.count updated now_ms
    ok (⟨c_id, updated.template, false, max_sim, anomaly⟩,
      { self with clusters := self.clusters.insert c_id updated })

/-- A line that founds a cluster. -/
def found_cluster (self : DrainMiner) (max_sim : ℚ) (tokens : List (List Char))
    (syslog_tag : Option (List Char)) (now_ms : Int) : ClusterResult × DrainMiner :=
  let cluster_id := self.next_cluster_id
  let cluster := LogCluster.new cluster_id tokens now_ms syslog_tag
  let inserted := insert_to_tree { self with next_cluster_id := cluster_id + 1 } cluster_id tokens
  let anomaly : AnomalyAlert :=
    { anomaly_type := .NewTemplate
      cluster_id
      template := cluster.template
      message := s!"Unseen log structural template #{cluster_id} detected: " ++
        s!"'{String.ofList cluster.template}'"
      timestamp := now_ms
      count := 1
      severity := .Medium }
  (⟨cluster_id, cluster.template, true, max_sim, some anomaly⟩,
    { inserted with clusters := inserted.clusters.insert cluster_id cluster })

/-- The vocabulary that a match looks at. -/
def anchor_vocab (self : DrainMiner) : List (List Char) :=
  if self.config.anchors_enabled then self.config.unique_anchor_tokens else []

/-- A cluster that a line may join: it has the size and the tag of the line, and nothing
    forces them apart. -/
structure Matches (miner : DrainMiner) (tokens : List (List Char)) (syslog_tag : Option (List Char))
    (cluster : LogCluster) : Prop where
  size : cluster.size = tokens.length
  tag : miner.config.anchors_enabled = true → cluster.syslog_tag = syslog_tag
  similar : ∃ sim, compute_similarity cluster.template_tokens tokens miner.anchor_vocab = ok sim ∧ 0 < sim

/-- Process a raw log line. -/
def add_log (crates : Crates) (self : DrainMiner) (raw : List Char) (now_ms : Int) :
    Result (ClusterResult × DrainMiner) := do
  let self := { self with total_logs_processed := self.total_logs_processed + 1 }
  let masked ← LogMasker.mask crates raw
  let tokens := tokenize masked
  if tokens.isEmpty then ok (⟨0, [], false, 1, none⟩, self)
  else do
    let syslog_tag ← syslog_tag_of crates raw
    let (matched, max_sim) ← find_best_match self tokens syslog_tag
    match matched with
    | some c_id => join_cluster crates self c_id max_sim tokens now_ms
    | none => ok (found_cluster self max_sim tokens syslog_tag now_ms)

theorem kv_key_ne_panic (token : List Char) : kv_key token ≠ panic := by
  have hslice : ∀ p, (str.find (· = '=') token).or (str.find_str (str.lit "\":") token) = some p →
      ∃ key, str.slice_to token p = ok key := by
    intro p hp
    rcases Option.or_eq_some_iff.mp hp with hfind | ⟨-, hfind⟩
    · obtain ⟨a, c, b, rfl, rfl, -⟩ := str.find_eq_some_iff.mp hfind
      exact ⟨a, str.slice_to_len a (c :: b)⟩
    · obtain ⟨a, b, rfl, rfl⟩ := str.exists_of_find_str hfind
      rw [List.append_assoc]
      exact ⟨a, str.slice_to_len a _⟩
  unfold kv_key
  split
  · rename_i p hp
    obtain ⟨key, hkey⟩ := hslice p hp
    rw [hkey]
    simp
  · simp

theorem forces_distinct_ne_panic (anchor_tokens : List (List Char))
    (pairs : List (List Char × List Char)) : forces_distinct anchor_tokens pairs ≠ panic := by
  induction pairs with
  | nil => simp [forces_distinct]
  | cons pair pairs ih =>
    obtain ⟨t1, t2⟩ := pair
    rw [forces_distinct]
    split
    · simp
    refine bind_ne_panic (kv_key_ne_panic t1) fun k1 => ?_
    refine bind_ne_panic (kv_key_ne_panic t2) fun k2 => ?_
    split
    · simp
    · exact ih

theorem compute_similarity_ne_panic (tmpl_tokens in_tokens anchor_tokens : List (List Char)) :
    compute_similarity tmpl_tokens in_tokens anchor_tokens ≠ panic := by
  unfold compute_similarity
  split
  · simp
  dsimp only
  split
  · simp
  · exact bind_ne_panic (forces_distinct_ne_panic anchor_tokens _) (by simp)

section

variable {self : DrainMiner}

/-- The loop over the candidates returns, and what it picks is a cluster of the map that
    the line may join. -/
theorem best_candidate_spec (tokens : List (List Char)) (syslog_tag : Option (List Char))
    {best : Option Nat}
    (hbest : ∀ c_id ∈ best, ∃ cluster, self.clusters.lookup c_id = some cluster ∧
      self.Matches tokens syslog_tag cluster)
    {max_sim : ℚ} (hmax : 0 ≤ max_sim) (ids : List Nat) :
    ∃ picked sim, best_candidate self tokens syslog_tag self.anchor_vocab best max_sim ids =
        ok (picked, sim) ∧
      ∀ c_id ∈ picked, ∃ cluster, self.clusters.lookup c_id = some cluster ∧
        self.Matches tokens syslog_tag cluster := by
  induction ids generalizing best max_sim with
  | nil => exact ⟨best, max_sim, rfl, hbest⟩
  | cons c_id rest ih =>
    rw [best_candidate]
    cases hlookup : self.clusters.lookup c_id with
    | none => exact ih hbest hmax
    | some cluster =>
      dsimp only
      split
      · exact ih hbest hmax
      rename_i hfits
      obtain ⟨sim, hsim⟩ := ne_panic_iff.mp
        (compute_similarity_ne_panic cluster.template_tokens tokens self.anchor_vocab)
      rw [hsim, bind_ok]
      split
      · rename_i hlt
        have hpos : 0 < sim := hmax.trans_lt hlt
        refine ih ?_ hpos.le
        intro picked hpicked
        split at hpicked
        · cases hpicked
          push Not at hfits
          exact ⟨cluster, hlookup, hfits.1, hfits.2, sim, hsim, hpos⟩
        · exact hbest picked hpicked
      · exact ih hbest hmax

theorem find_best_match_spec (self : DrainMiner) (tokens : List (List Char))
    (syslog_tag : Option (List Char)) :
    ∃ picked sim, self.find_best_match tokens syslog_tag = ok (picked, sim) ∧
      ∀ c_id ∈ picked, ∃ cluster, self.clusters.lookup c_id = some cluster ∧
        self.Matches tokens syslog_tag cluster := by
  unfold find_best_match
  dsimp only
  split
  · exact ⟨none, 0, rfl, by simp⟩
  split
  · exact ⟨none, 0, rfl, by simp⟩
  · exact best_candidate_spec tokens syslog_tag (by simp) le_rfl _

theorem surge_alert_ne_panic (crates : Crates) (cluster_id prev_count : Nat)
    (cluster : LogCluster) (now_ms : Int) :
    surge_alert crates self cluster_id prev_count cluster now_ms ≠ panic := by
  unfold surge_alert
  dsimp only
  split
  · refine bind_ne_panic cluster.recent_rate_per_sec_ne_panic fun rate => ?_
    split <;> simp
  · simp

theorem join_cluster_ok (crates : Crates) {c_id : Nat} {cluster : LogCluster}
    (hcluster : self.clusters.lookup c_id = some cluster) (max_sim : ℚ)
    (tokens : List (List Char)) (now_ms : Int) :
    ∃ result after, self.join_cluster crates c_id max_sim tokens now_ms = ok (result, after) ∧
      after.config = self.config := by
  have halert : surge_alert crates self c_id cluster.count (cluster.update tokens now_ms) now_ms ≠
      panic := surge_alert_ne_panic crates c_id cluster.count (cluster.update tokens now_ms) now_ms
  obtain ⟨anomaly, hanomaly⟩ := ne_panic_iff.mp halert
  unfold join_cluster
  rw [hcluster]
  dsimp only
  rw [hanomaly]
  exact ⟨_, _, rfl, rfl⟩

/-- The miner takes every line, whatever clusters it holds. -/
theorem add_log_ok (crates : Crates) (self : DrainMiner) (raw : List Char) (now_ms : Int) :
    ∃ result after, self.add_log crates raw now_ms = ok (result, after) ∧
      after.config = self.config := by
  obtain ⟨masked, hmasked⟩ := ne_panic_iff.mp (LogMasker.mask_ne_panic crates raw)
  obtain ⟨tag, htag⟩ := ne_panic_iff.mp (syslog_tag_of_ne_panic crates raw)
  unfold add_log
  dsimp only
  rw [hmasked, bind_ok]
  split
  · exact ⟨_, _, rfl, rfl⟩
  rw [htag, bind_ok]
  generalize hcounted : { self with total_logs_processed := self.total_logs_processed + 1 } = counted
  have hconfig : counted.config = self.config := by rw [← hcounted]
  rw [← hconfig]
  obtain ⟨picked, sim, hfind, hpicked⟩ := counted.find_best_match_spec (tokenize masked) tag
  rw [hfind, bind_ok]
  cases picked with
  | none => exact ⟨_, _, rfl, rfl⟩
  | some c_id =>
    obtain ⟨cluster, hcluster, -⟩ := hpicked c_id rfl
    exact join_cluster_ok crates hcluster sim (tokenize masked) now_ms

end

end DrainMiner

end ulpf_ai.drain
