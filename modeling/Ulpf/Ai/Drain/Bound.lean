import Ulpf.Ai.Drain.Summary

open Result

namespace ulpf_ai.drain

namespace DrainMiner

def cluster_count (self : DrainMiner) : Nat := self.clusters.entries.length

/-- A line that matches no cluster comes while fewer than `max_clusters` are kept. -/
def HasRoom (crates : Crates) (self : DrainMiner) (input : Input) : Prop :=
  input.tokens crates ≠ [] →
  (∃ sim, self.find_best_match (input.tokens crates) (input.syslog_tag crates) = ok (none, sim)) →
    self.cluster_count < self.config.max_clusters

variable {crates : Crates} {config : DrainConfig} {history : List Taken} {self after : DrainMiner}
  {input : Input} {result : ClusterResult}

/-- A line stays within the bound exactly if there is room for the cluster that it may found:
    nothing else looks at `max_clusters`. -/
theorem Consistent.bounded_iff (h : self.Consistent crates config history)
    (hbound : self.cluster_count ≤ config.max_clusters)
    (hadds : self.Adds crates input result after) :
    after.cluster_count ≤ config.max_clusters ↔ self.HasRoom crates input := by
  have hafter := (h.adds hadds).length_clusters
  have hbefore := h.length_clusters
  have hnext := h.next_pos
  rw [HasRoom, h.config_eq]
  unfold cluster_count at hbound ⊢
  cases hadds with
  | blank htokens => exact iff_of_true hbound fun hne => absurd htokens hne
  | joins c_id cluster sim anomaly htokens hfind hlookup hmatches hanomaly =>
    dsimp only at hafter ⊢
    apply iff_of_true
    · omega
    · rintro - ⟨sim', hnone⟩
      rw [hfind] at hnone
      cases hnone
  | founds cluster sim root htokens hfind hcluster =>
    dsimp only at hafter ⊢
    constructor
    · intro hle _ _
      omega
    · intro hroom
      have hlt := hroom htokens ⟨sim, hfind⟩
      omega

/-- The number of clusters stays within `max_clusters` in all states of a run exactly if no
    line that matches no cluster comes when that number is reached. -/
theorem cluster_count_bounded_iff (crates : Crates) (config : DrainConfig) (inputs : List Input) :
    (∀ seen, seen <+: inputs → ∀ history miner, (new config).run crates seen = ok (history, miner) →
      miner.cluster_count ≤ config.max_clusters) ↔
      (new config).Meets crates (HasRoom crates) inputs := by
  exact run_states_iff (fun hinv hadd => hinv.adds (adds_of_add_log hadd))
    (fun hinv hbound hadd => hinv.bounded_iff hbound (adds_of_add_log hadd))
    (consistent_new crates config) (Nat.zero_le config.max_clusters) inputs

def oneClusterConfig : DrainConfig := { DrainConfig.default with max_clusters := 1 }

/-- A miner for one cluster keeps two of them after lines of one and of two tokens. -/
theorem cluster_count_exceeds_max_clusters :
    ∃ history miner,
      (new oneClusterConfig).run default [⟨str.lit "deny", 0⟩, ⟨str.lit "deny tcp", 1⟩] =
        ok (history, miner) ∧
      oneClusterConfig.max_clusters < miner.cluster_count := by
  refine ⟨_, _, rfl, ?_⟩
  decide

end DrainMiner

end ulpf_ai.drain
