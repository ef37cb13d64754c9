import Ulpf.Ai.Duel
import Ulpf.Ai.Evaluator.GroundTruth
import Ulpf.Ai.Evaluator.Markers
import Ulpf.Ai.Evaluator.Template
import Ulpf.Core.Parser.Universal

open Result ulpf_ai.drain
open ulpf_core.schema.ocsf (NetworkActivity)
open ulpf_core.parser (compute_sha256)
open ulpf_core.parser.lru_cache (SignatureLruCache)
open ulpf_integrity.merkle (Digest)

namespace ulpf_ai.evaluator

mutual

/-- `==` of JSON values. -/
def value_eq : Value → Value → Bool
  | .Null, .Null => true
  | .Bool a, .Bool b => a = b
  | .PosInt a, .PosInt b => a = b
  | .NegInt a, .NegInt b => a = b
  | .Float a, .Float b => a = b
  | .Text a, .Text b => a = b
  | .Array a, .Array b => values_eq a b
  | .Object a, .Object b => fields_eq a b
  | _, _ => false

def values_eq : List Value → List Value → Bool
  | [], [] => true
  | a :: as, b :: bs => value_eq a b && values_eq as bs
  | _, _ => false

def fields_eq : List (String × Value) → List (String × Value) → Bool
  | [], [] => true
  | a :: as, b :: bs => a.1 = b.1 && value_eq a.2 b.2 && fields_eq as bs
  | _, _ => false

end

/-- A single per-record audit failure. -/
structure AuditFailure where
  metric : String
  corpus_index : Nat
  raw : List Char
  expected : List Char
  observed : List Char
  cluster_id : Nat

structure SidecarGroundTruth where
  gt_vendor : List Char
  gt_template_tag : List Char
  gt_fields : Value
  gt_disposition : Option String

structure RobustnessSummary where
  lines_total : Nat := 0
  format_recognized : Nat := 0
  no_panic : Nat := 0
  lossless_ok : Nat := 0
  gt_fields_total : Nat := 0
  gt_fields_correct : Nat := 0
  gt_fields_wrong : Nat := 0
  gt_fields_null : Nat := 0
  gt_wrong_by_key : HashMap String Nat := ∅

/-- The summary with its percentages as exact rationals; `none` is the NaN of an empty corpus. -/
structure AccuracyAuditSummary where
  total_audited : Nat
  vendor_classification_accuracy_pct : Option ℚ
  grouping_accuracy_ga_pct : Option ℚ
  template_accuracy_ta_pct : Option ℚ
  mean_field_accuracy_pct : Option ℚ
  src_ip_accuracy_pct : Option ℚ
  dst_ip_accuracy_pct : Option ℚ
  src_port_accuracy_pct : Option ℚ
  dst_port_accuracy_pct : Option ℚ
  protocol_accuracy_pct : Option ℚ
  disposition_accuracy_pct : Option ℚ
  action_inviolability_pct : ℚ
  lossless_sha256_match_pct : Option ℚ
  valid_uuid_v7_pct : Option ℚ
  oracle_ga_pct : Option ℚ
  unique_clusters : Nat

/-- The counters of the loop over the corpus. -/
structure Correct where
  vendor : Nat := 0
  sha_matches : Nat := 0
  uuid_valid : Nat := 0
  src_ip : Nat := 0
  dst_ip : Nat := 0
  src_port : Nat := 0
  dst_port : Nat := 0
  proto : Nat := 0
  disposition : Nat := 0
  template : Nat := 0

/-- The variables of the loop over the corpus; `env` is what the two closures keep. -/
structure AuditState (σ : Type) where
  env : σ
  rob : RobustnessSummary := {}
  correct : Correct := {}
  failures : List AuditFailure := []
  cluster_to_gt_map : HashMap Nat (HashMap (List Char) Nat) := ∅
  oracle_map : HashMap Nat (HashMap (List Char) Nat) := ∅
  records : List (Nat × Nat × List Char) := []

/-- What the audit is given: the closures, the sidecar, the reader of UUIDs, an order in which the
    hash map of counts of every cluster is iterated, and two readings of the clock. A parse that
    panics is caught. -/
structure Auditor (σ : Type) where
  crates : Crates
  parse_fn : σ → List Char → Result NetworkActivity × σ
  cluster_fn : σ → List Char → Result ((Nat × List Char) × σ)
  gt_overrides : HashMap (List Char) SidecarGroundTruth
  uuid_parse_str : String → Bool
  order : Nat → HashMap (List Char) Nat → List (List Char × Nat)
  order_perm : ∀ cid counts,
    (order cid counts).Perm (counts.entries.map fun entry => (entry.1, entry.2))
  clock : Int × Int

namespace EvaluatorEngine

def KEYS : List String := ["src_ip", "dst_ip", "src_port", "dst_port", "protocol"]

/-- Engine-observed value for one audited field key. -/
def engine_field_value (activity : NetworkActivity) (key : String) : Value :=
  let strv (o : Option String) : Value := (o.map Value.Text).getD .Null
  let numv (o : Option Nat) : Value := (o.map Value.PosInt).getD .Null
  match key with
  | "src_ip" => strv activity.src_endpoint.ip
  | "dst_ip" => strv activity.dst_endpoint.ip
  | "src_port" => numv activity.src_endpoint.port
  | "dst_port" => numv activity.dst_endpoint.port
  | _ => strv activity.connection_info.protocol_name

/-- Strings compare without case, numbers and everything else strictly. -/
def gt_value_matches (expected observed : Value) : Bool :=
  match expected, observed with
  | .Text a, .Text b => str.eq_ignore_ascii_case a.toList b.toList
  | _, _ => value_eq expected observed

/-- One key of `grade_gt_fields`. -/
def grade_gt_field (gt_fields : Value) (activity : Option NetworkActivity) (rob : RobustnessSummary)
    (key : String) : RobustnessSummary :=
  match gt_fields.get key with
  | none | some .Null => { rob with gt_fields_null := rob.gt_fields_null + 1 }
  | some expected =>
    let rob := { rob with gt_fields_total := rob.gt_fields_total + 1 }
    let observed := (activity.map fun a => engine_field_value a key).getD .Null
    if gt_value_matches expected observed then
      { rob with gt_fields_correct := rob.gt_fields_correct + 1 }
    else
      { rob with
        gt_fields_wrong := rob.gt_fields_wrong + 1
        gt_wrong_by_key := rob.gt_wrong_by_key.insert key ((rob.gt_wrong_by_key.lookup key).getD 0 + 1) }

def grade_gt_fields (gt_fields : Value) (activity : Option NetworkActivity) (rob : RobustnessSummary) :
    RobustnessSummary :=
  KEYS.foldl (grade_gt_field gt_fields activity) rob

/-- `grade_gt_fields` where the line has a sidecar. -/
def grade_sidecar {σ : Type} (sidecar : Option SidecarGroundTruth) (activity : Option NetworkActivity)
    (s : AuditState σ) : AuditState σ :=
  match sidecar with
  | some sc => { s with rob := grade_gt_fields sc.gt_fields activity s.rob }
  | none => s

/-- Whether the anchors keep two actions apart. -/
def verify_action_preservation (crates : Crates) (clock : Int × Int) : Result Bool := do
  let log_allow := str.lit "FW_ACTION: traffic ALLOW proto=TCP src=10.0.0.1 dst=10.0.0.2"
  let log_deny := str.lit "FW_ACTION: traffic DENY proto=TCP src=10.0.0.1 dst=10.0.0.2"
  let (res_allow, miner) ← (DrainMiner.new DrainConfig.default).add_log crates log_allow clock.1
  let (res_deny, _) ← miner.add_log crates log_deny clock.2
  ok (decide (res_allow.cluster_id ≠ res_deny.cluster_id))

/-- A line of the corpus as its checks see it. -/
structure Line where
  idx : Nat
  raw : List Char
  cluster_id : Nat

/-- One check of a line: correct, or the texts of the failure. -/
abbrev Verdict := Option (List Char × List Char)

def fails (line : Line) (metric : String) (expected observed : List Char) : AuditFailure :=
  ⟨metric, line.idx, line.raw, expected, observed, line.cluster_id⟩

/-- Count a correct check, or push its failure. -/
def record {σ : Type} (line : Line) (metric : String) (count : Correct → Correct) (verdict : Verdict)
    (s : AuditState σ) : AuditState σ :=
  match verdict with
  | none => { s with correct := count s.correct }
  | some texts => { s with failures := s.failures ++ [fails line metric texts.1 texts.2] }

/-- Vendor classification, by the explicit label map. -/
def vendor_verdict (gt_vendor parsed_vendor : List Char) : Verdict :=
  let expected_vendor := str.to_ascii_lowercase gt_vendor
  if str.contains expected_vendor parsed_vendor || str.contains parsed_vendor expected_vendor then none
  else some (expected_vendor, parsed_vendor)

/-- An address must appear in the line; none is correct only where the line has no marker. -/
def ip_verdict (raw : List Char) (marker : List Char → Result Bool) (ip : Option String) :
    Result Verdict :=
  match ip with
  | some ip =>
    if str.contains ip.toList raw then ok none else ok (some (str.lit "ip embedded in raw", ip.toList))
  | none => do
    if ← marker raw then ok (some (str.lit "ip embedded in raw", str.lit "null")) else ok none

def port_verdict (raw : List Char) (port : Option Nat) : Result Verdict :=
  let expected := str.lit "valid 1-65535 port present in raw"
  match port with
  | some port =>
    if 1 ≤ port && port ≤ 65535 && str.contains (Nat.toDigits 10 port) raw then ok none
    else ok (some (expected, Nat.toDigits 10 port))
  | none => do
    if ← raw_has_port_marker raw then ok (some (expected, str.lit "null")) else ok none

/-- The name of the protocol, or its number, must appear in the line. -/
def protocol_verdict (crates : Crates) (raw : List Char) (activity : NetworkActivity) : Result Verdict :=
  match activity.connection_info.protocol_name with
  | some proto =>
    let proto_upper := str.to_ascii_uppercase proto.toList
    let name_ok := str.contains proto_upper (str.to_ascii_uppercase raw) || proto_upper = str.lit "IP"
    let num_ok := activity.connection_info.protocol_num.any (raw_contains_numeric crates raw)
    if name_ok || num_ok then ok none
    else ok (some (proto_upper, str.lit "no name or numeric match in raw"))
  | none => do
    if ← raw_has_protocol_marker raw then ok (some (str.lit "protocol present", str.lit "null"))
    else ok none

def disposition_verdict (gt_action : Option String) (disposition : String) : Verdict :=
  match gt_action with
  | some expected_act =>
    if disposition = expected_act then none else some (expected_act.toList, disposition.toList)
  | none =>
    if disposition ≠ "" && disposition ≠ "Unknown" then none
    else some (str.lit "non-Unknown disposition", disposition.toList)

section

variable (H : Type) [Digest H] {σ : Type} (auditor : Auditor σ)

/-- The checks of a line that was parsed. -/
def audit_activity (line : Line) (gt_vendor : List Char) (gt_action : Option String)
    (sidecar : Option SidecarGroundTruth) (activity : NetworkActivity) (s : AuditState σ) :
    Result (AuditState σ) := do
  let parsed_vendor := map_audit_vendor
    (str.to_ascii_lowercase activity.metadata.product.vendor_name.toList)
  let recognized := if parsed_vendor ≠ str.lit "unknown" then 1 else 0
  let lossless := if activity.metadata.raw_hash = compute_sha256 H (str.bytes line.raw) then 1 else 0
  let valid := if auditor.uuid_parse_str activity.metadata.event_id then 1 else 0
  let s := { s with
    rob := { s.rob with
      no_panic := s.rob.no_panic + 1
      format_recognized := s.rob.format_recognized + recognized
      lossless_ok := s.rob.lossless_ok + lossless }
    correct := { s.correct with
      sha_matches := s.correct.sha_matches + lossless
      uuid_valid := s.correct.uuid_valid + valid } }
  let s := record line "vendor" (fun c => { c with vendor := c.vendor + 1 })
    (vendor_verdict gt_vendor parsed_vendor) s
  let verdict ← ip_verdict line.raw raw_has_src_ip_marker activity.src_endpoint.ip
  let s := record line "src_ip" (fun c => { c with src_ip := c.src_ip + 1 }) verdict s
  let verdict ← ip_verdict line.raw raw_has_dst_ip_marker activity.dst_endpoint.ip
  let s := record line "dst_ip" (fun c => { c with dst_ip := c.dst_ip + 1 }) verdict s
  let verdict ← port_verdict line.raw activity.src_endpoint.port
  let s := record line "src_port" (fun c => { c with src_port := c.src_port + 1 }) verdict s
  let verdict ← port_verdict line.raw activity.dst_endpoint.port
  let s := record line "dst_port" (fun c => { c with dst_port := c.dst_port + 1 }) verdict s
  let verdict ← protocol_verdict auditor.crates line.raw activity
  let s := record line "protocol" (fun c => { c with proto := c.proto + 1 }) verdict s
  let s := record line "disposition" (fun c => { c with disposition := c.disposition + 1 })
    (disposition_verdict gt_action activity.disposition) s
  ok (grade_sidecar sidecar (some activity) s)

/-- The ground truth of a line: that of its sidecar, or the one in the line. -/
def ground_truth (raw : List Char) : Result (List Char × List Char × Option String) :=
  match auditor.gt_overrides.lookup raw with
  | some sc => ok (sc.gt_vendor, sc.gt_template_tag, sc.gt_disposition)
  | none => extract_ground_truth raw

/-- What is noted of a line before it is parsed. -/
def note_line (line : Line) (gt_template : List Char) (oracle_id : Nat) (env : σ) (s : AuditState σ) :
    AuditState σ :=
  { s with
    env := env
    rob := { s.rob with lines_total := s.rob.lines_total + 1 }
    records := s.records ++ [(line.idx, line.cluster_id, gt_template)]
    cluster_to_gt_map := duel.count_class s.cluster_to_gt_map (gt_template, line.cluster_id)
    oracle_map := duel.count_class s.oracle_map (gt_template, oracle_id) }

/-- One round of the loop over the corpus. -/
def audit_line (s : AuditState σ) (idx : Nat) (raw : List Char) : Result (AuditState σ) := do
  let sidecar := auditor.gt_overrides.lookup raw
  let (gt_vendor, gt_template, gt_action) ← ground_truth auditor raw
  let ((cluster_id, template_str), env) ← auditor.cluster_fn s.env raw
  let line : Line := ⟨idx, raw, cluster_id⟩
  let oracle_id ← SignatureLruCache.compute_signature_hash gt_template
  let s := note_line line gt_template oracle_id.toNat env s
  let valid ← template_is_valid auditor.crates raw template_str gt_template
  let s := record line "template" (fun c => { c with template := c.template + 1 })
    (if valid then none else some (gt_template, template_str)) s
  let (parsed, env) := auditor.parse_fn s.env raw
  let s := { s with env := env }
  match parsed with
  | ok activity => audit_activity H auditor line gt_vendor gt_action sidecar activity s
  | .panic =>
    let s := grade_sidecar sidecar none s
    ok { s with failures := s.failures ++
      [fails line "panic" (str.lit "parse without panic") (str.lit "panicked")] }

/-- The loop over the corpus, from the given index on. -/
def audit_lines (s : AuditState σ) (idx : Nat) : List (List Char) → Result (AuditState σ)
  | [] => ok s
  | raw :: corpus => do
    let s ← audit_line H auditor s idx raw
    audit_lines s (idx + 1) corpus

end

/-- One step of `max_by_key` by the count, which keeps the last of the greatest. -/
def keep_greatest (best : Option (List Char × Nat)) (entry : List Char × Nat) :
    Option (List Char × Nat) :=
  match best with
  | some greatest => if greatest.2 ≤ entry.2 then some entry else some greatest
  | none => some entry

def max_by_count (entries : List (List Char × Nat)) : Option (List Char × Nat) :=
  entries.foldl keep_greatest none

/-- One cluster of the loop that collects the majority classes. -/
def insert_majority (order : Nat → HashMap (List Char) Nat → List (List Char × Nat))
    (majority : HashMap Nat (List Char)) (cid : Nat) (counts : HashMap (List Char) Nat) :
    HashMap Nat (List Char) :=
  match max_by_count (order cid counts) with
  | some best => majority.insert cid best.1
  | none => majority

/-- The majority class of every cluster. -/
def majority_tags (order : Nat → HashMap (List Char) Nat → List (List Char × Nat))
    (cluster_to_gt_map : HashMap Nat (HashMap (List Char) Nat)) : HashMap Nat (List Char) :=
  cluster_to_gt_map.entries.foldl (fun majority entry =>
    insert_majority order majority entry.1 entry.2) ∅

/-- A record whose class is not the one chosen for its cluster. -/
def outside (majority : HashMap Nat (List Char)) (gt_tag : List Char) (cid : Nat) : Bool :=
  (majority.lookup cid).any fun tag => tag ≠ gt_tag

/-- Any record outside the majority class of its cluster. -/
def grouping_failures (corpus : List (List Char)) (majority : HashMap Nat (List Char)) :
    List (Nat × Nat × List Char) → Result (List AuditFailure)
  | [] => ok []
  | (idx, cid, gt_tag) :: records => do
    if outside majority gt_tag cid then
      match corpus[idx]? with
      | none => .panic
      | some raw => do
        let rest ← grouping_failures corpus majority records
        ok (⟨"grouping", idx, raw, gt_tag, str.lit "cluster " ++ Nat.toDigits 10 cid, cid⟩ :: rest)
    else grouping_failures corpus majority records

/-- The sum over the clusters of the count of the majority class. -/
def majority_total (map : HashMap Nat (HashMap (List Char) Nat)) : Nat :=
  (map.entries.map fun entry => duel.majority_count entry.2).sum

/-- A count in per cent; 0 of 0 is not a number. -/
def pct (count total : Nat) : Option ℚ :=
  if total = 0 then none else some (count / total * 100)

/-- Audit of a corpus: the summary, the robustness block and every failure. -/
def audit_accuracy (H : Type) [Digest H] {σ : Type} (auditor : Auditor σ) (env : σ)
    (corpus : List (List Char)) :
    Result (AccuracyAuditSummary × RobustnessSummary × List AuditFailure) := do
  let audit_count := corpus.length
  let s ← audit_lines H auditor { env := env } 0 corpus
  let majority := majority_tags auditor.order s.cluster_to_gt_map
  let grouping ← grouping_failures corpus majority s.records
  let preserved ← verify_action_preservation auditor.crates auditor.clock
  let src_ip_pct := pct s.correct.src_ip audit_count
  let dst_ip_pct := pct s.correct.dst_ip audit_count
  let src_port_pct := pct s.correct.src_port audit_count
  let dst_port_pct := pct s.correct.dst_port audit_count
  let proto_pct := pct s.correct.proto audit_count
  let summary : AccuracyAuditSummary :=
    { total_audited := audit_count
      vendor_classification_accuracy_pct := pct s.correct.vendor audit_count
      grouping_accuracy_ga_pct := pct (majority_total s.cluster_to_gt_map) audit_count
      template_accuracy_ta_pct := pct s.correct.template audit_count
      mean_field_accuracy_pct := do
        return ((← src_ip_pct) + (← dst_ip_pct) + (← src_port_pct) + (← dst_port_pct) +
          (← proto_pct)) / 5
      src_ip_accuracy_pct := src_ip_pct
      dst_ip_accuracy_pct := dst_ip_pct
      src_port_accuracy_pct := src_port_pct
      dst_port_accuracy_pct := dst_port_pct
      protocol_accuracy_pct := proto_pct
      disposition_accuracy_pct := pct s.correct.disposition audit_count
      action_inviolability_pct := if preserved then 100 else 0
      lossless_sha256_match_pct := pct s.correct.sha_matches audit_count
      valid_uuid_v7_pct := pct s.correct.uuid_valid audit_count
      oracle_ga_pct := pct (majority_total s.oracle_map) audit_count
      unique_clusters := s.cluster_to_gt_map.keys.length }
  ok (summary, s.rob, s.failures ++ grouping)

end EvaluatorEngine

end ulpf_ai.evaluator
