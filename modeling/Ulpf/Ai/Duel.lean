import Ulpf.Lib.Grouping
import Ulpf.Ai.Drain.Anchors

open Result ulpf_ai.drain

namespace ulpf_ai.duel

/-- One engine's pass over a round: the cluster of every line and the template that the miner
    returned for it. -/
def run_miner (crates : Crates) (lines : List Input) (cfg : DrainConfig) :
    Result (List Nat × List (List Char)) := do
  let (history, _) ← (DrainMiner.new cfg).run crates lines
  ok (history.map fun taken => taken.result.cluster_id, history.map fun taken => taken.result.template)

/-- `*map.entry(*cid).or_default().entry(gt.as_str()).or_default() += 1`. -/
def count_class (map : HashMap Nat (HashMap (List Char) Nat)) (row : List Char × Nat) :
    HashMap Nat (HashMap (List Char) Nat) :=
  let counts := (map.lookup row.2).getD ∅
  map.insert row.2 (counts.insert row.1 ((counts.lookup row.1).getD 0 + 1))

/-- `counts.values().copied().max().unwrap_or(0)`. -/
def majority_count (counts : HashMap (List Char) Nat) : Nat :=
  (counts.entries.map fun binding => binding.2).max?.getD 0

/-- The sum over the clusters of the count of the majority class. -/
def correct (gt_class : List (List Char)) (clusters : List Nat) : Nat :=
  (((gt_class.zip clusters).foldl count_class ∅).entries.map fun binding =>
    majority_count binding.2).sum

/-- Grouping accuracy in per cent. -/
def grouping_accuracy (gt_class : List (List Char)) (clusters : List Nat) : ℚ :=
  if gt_class.isEmpty then 0 else correct gt_class clusters / gt_class.length * 100

theorem grouping_accuracy_le_iff (gt_class : List (List Char)) (clusters clusters' : List Nat) :
    grouping_accuracy gt_class clusters ≤ grouping_accuracy gt_class clusters' ↔
      correct gt_class clusters ≤ correct gt_class clusters' := by
  cases gt_class with
  | nil => exact iff_of_true le_rfl le_rfl
  | cons gt gt_class =>
    have hpos : (0 : ℚ) < (gt :: gt_class).length := Nat.cast_pos.mpr (Nat.succ_pos _)
    simp only [grouping_accuracy, List.isEmpty_cons, Bool.false_eq_true, if_false]
    rw [mul_le_mul_iff_left₀ (by decide +kernel), div_le_div_iff_of_pos_right hpos, Nat.cast_le]

/-- The counts of some rows. -/
structure Counts (rows : List (List Char × Nat)) (map : HashMap Nat (HashMap (List Char) Nat)) :
    Prop where
  mem : ∀ cid, cid ∈ map ↔ cid ∈ rows.map Prod.snd
  lookup : ∀ cid gt, (((map.lookup cid).getD ∅).lookup gt).getD 0 =
    rows.countP fun row => row.2 = cid ∧ row.1 = gt

section

variable {rows : List (List Char × Nat)} {map : HashMap Nat (HashMap (List Char) Nat)}

theorem Counts.count_class (h : Counts rows map) (row : List Char × Nat) :
    Counts (rows ++ [row]) (count_class map row) where
  mem cid := by
    rw [duel.count_class, AList.mem_insert, h.mem, List.map_append, List.mem_append, or_comm]
    simp
  lookup cid gt := by
    rw [List.countP_append, ← h.lookup cid gt, duel.count_class]
    by_cases hcid : row.2 = cid
    · subst hcid
      by_cases hgt : row.1 = gt
      · subst hgt
        simp [AList.lookup_insert]
      · simp [AList.lookup_insert, AList.lookup_insert_ne (Ne.symm hgt), hgt]
    · simp [AList.lookup_insert_ne (Ne.symm hcid), hcid]

theorem Counts.foldl (h : Counts rows map) (more : List (List Char × Nat)) :
    Counts (rows ++ more) (more.foldl duel.count_class map) := by
  induction more generalizing rows map with
  | nil => rwa [List.append_nil]
  | cons row more ih =>
    have hnext := ih (h.count_class row)
    rwa [List.append_assoc] at hnext

theorem le_majority_count {counts : HashMap (List Char) Nat} {gt : List Char} {n : Nat}
    (h : counts.lookup gt = some n) : n ≤ majority_count counts := by
  have hmem : n ∈ counts.entries.map fun binding => binding.2 :=
    List.mem_map_of_mem (f := fun binding : (_ : List Char) × Nat => binding.2)
      (AList.mem_lookup_iff.mp h)
  rw [majority_count]
  cases hmax : (counts.entries.map fun binding => binding.2).max? with
  | none =>
    rw [List.max?_eq_none_iff.mp hmax] at hmem
    cases hmem
  | some m => exact (List.max?_eq_some_iff.mp hmax).2 n hmem

theorem majority_count_le {counts : HashMap (List Char) Nat} {bound : Nat}
    (h : ∀ gt n, counts.lookup gt = some n → n ≤ bound) : majority_count counts ≤ bound := by
  rw [majority_count]
  cases hmax : (counts.entries.map fun binding => binding.2).max? with
  | none => exact Nat.zero_le bound
  | some m =>
    obtain ⟨⟨gt, n⟩, hbinding, rfl⟩ := List.mem_map.mp (List.max?_eq_some_iff.mp hmax).1
    exact h gt n (AList.mem_lookup_iff.mpr hbinding)

theorem Counts.majority_count (h : Counts rows map) (cid : Nat) :
    majority_count ((map.lookup cid).getD ∅) = Grouping.majority rows Prod.fst Prod.snd cid := by
  apply le_antisymm
  · refine majority_count_le fun gt n hlookup => ?_
    have hcount := h.lookup cid gt
    rw [hlookup, Option.getD_some] at hcount
    rw [hcount]
    by_cases hgt : gt ∈ (rows.map Prod.fst).toFinset
    · exact Grouping.countP_le_majority rows Prod.fst Prod.snd cid hgt
    · have hzero : rows.countP (fun row => row.2 = cid ∧ row.1 = gt) = 0 := by
        rw [List.countP_eq_zero]
        intro row hrow hmatch
        refine hgt (List.mem_toFinset.mpr ?_)
        rw [← (of_decide_eq_true hmatch).2]
        exact List.mem_map_of_mem hrow
      rw [hzero]
      exact Nat.zero_le _
  · refine Finset.sup_le fun gt _ => ?_
    rw [← h.lookup cid gt]
    cases hlookup : ((map.lookup cid).getD ∅).lookup gt with
    | none => exact Nat.zero_le _
    | some n => exact le_majority_count hlookup

/-- The sum over the clusters counts the rows in the majority class of their cluster. -/
theorem Counts.sum_majority_count (h : Counts rows map) :
    (map.entries.map fun binding => duel.majority_count binding.2).sum =
      Grouping.agreement rows Prod.fst Prod.snd := by
  have hentries : (map.entries.map fun binding => duel.majority_count binding.2) =
      map.keys.map fun cid => duel.majority_count ((map.lookup cid).getD ∅) := by
    rw [AList.keys, List.keys, List.map_map]
    refine List.map_congr_left fun binding hbinding => ?_
    have hlookup : map.lookup binding.1 = some binding.2 := AList.mem_lookup_iff.mpr hbinding
    simp [hlookup]
  have hkeys : map.keys.toFinset = (rows.map Prod.snd).toFinset := by
    ext cid
    rw [List.mem_toFinset, List.mem_toFinset, ← AList.mem_keys, h.mem]
  rw [hentries, ← List.sum_toFinset _ map.keys_nodup, hkeys, Grouping.agreement]
  exact Finset.sum_congr rfl fun cid _ => h.majority_count cid

end

theorem counts_foldl (rows : List (List Char × Nat)) : Counts rows (rows.foldl count_class ∅) := by
  have hempty : Counts [] ∅ := ⟨by simp, by simp⟩
  exact hempty.foldl rows

/-- The code counts, cluster by cluster, the rows in the majority class. -/
theorem correct_eq (gt_class : List (List Char)) (clusters : List Nat) :
    correct gt_class clusters =
      Grouping.agreement (gt_class.zip clusters) Prod.fst Prod.snd :=
  (counts_foldl (gt_class.zip clusters)).sum_majority_count

/-- A class for every cluster id. -/
def classOf (cid : Nat) : List Char := List.replicate cid 'x'

theorem classOf_inj {cid cid' : Nat} : classOf cid = classOf cid' ↔ cid = cid' :=
  ⟨fun h => by simpa [classOf] using congrArg List.length h, fun h => h ▸ rfl⟩

/-- The lines of a round with their classes and their clusters in two groupings. -/
def rounds (gt_class : List (List Char)) (tiered vanilla : List Nat) :
    List (List Char × Nat × Nat) :=
  gt_class.zip (tiered.zip vanilla)

section

variable {gt_class : List (List Char)} {tiered vanilla : List Nat}
  (hlength : tiered.length = vanilla.length)

include hlength

theorem map_rounds_tiered :
    (rounds gt_class tiered vanilla).map (fun row => (row.1, row.2.1)) = gt_class.zip tiered := by
  have hzip : gt_class.zip ((tiered.zip vanilla).map Prod.fst) =
      (gt_class.zip (tiered.zip vanilla)).map (Prod.map id Prod.fst) := List.zip_map_right
  rw [List.map_fst_zip hlength.le] at hzip
  exact hzip.symm

theorem map_rounds_vanilla :
    (rounds gt_class tiered vanilla).map (fun row => (row.1, row.2.2)) = gt_class.zip vanilla := by
  have hzip : gt_class.zip ((tiered.zip vanilla).map Prod.snd) =
      (gt_class.zip (tiered.zip vanilla)).map (Prod.map id Prod.snd) := List.zip_map_right
  rw [List.map_snd_zip hlength.ge] at hzip
  exact hzip.symm

theorem map_rounds_clusters (hgt : gt_class.length = tiered.length) :
    (rounds gt_class tiered vanilla).map (fun row => row.2) = tiered.zip vanilla := by
  refine List.map_snd_zip ?_
  rw [List.length_zip, ← hlength, Nat.min_self, hgt]

/-- One grouping of the lines is at least as accurate as another whatever the classes are exactly
    if it only splits the groups of the other. -/
theorem correct_le_iff :
    (∀ gt_class : List (List Char), gt_class.length = tiered.length →
      correct gt_class vanilla ≤ correct gt_class tiered) ↔
      Grouping.Refines (tiered.zip vanilla) Prod.fst Prod.snd := by
  have hcorrect : ∀ gt_class : List (List Char),
      correct gt_class tiered =
        Grouping.agreement (rounds gt_class tiered vanilla) (fun row => row.1) (fun row => row.2.1) ∧
      correct gt_class vanilla =
        Grouping.agreement (rounds gt_class tiered vanilla) (fun row => row.1) fun row => row.2.2 := by
    intro gt_class
    constructor
    · rw [correct_eq, ← map_rounds_tiered hlength, Grouping.agreement_map]
    · rw [correct_eq, ← map_rounds_vanilla hlength, Grouping.agreement_map]
  constructor
  · intro hle
    -- the clusters of the other grouping are taken as the classes
    have hgt : (vanilla.map classOf).length = tiered.length := by rw [List.length_map, hlength]
    have hclass : ∀ row ∈ rounds (vanilla.map classOf) tiered vanilla, row.1 = classOf row.2.2 := by
      intro row hrow
      have hmem : (row.1, row.2.2) ∈ (vanilla.map classOf).zip vanilla := by
        rw [← map_rounds_vanilla hlength]
        exact List.mem_map_of_mem (f := fun row : List Char × Nat × Nat => (row.1, row.2.2)) hrow
      rw [List.zip_map_left, List.zip_eq_zipWith, List.zipWith_self, List.map_map] at hmem
      obtain ⟨cid, -, hcid⟩ := List.mem_map.mp hmem
      obtain ⟨hfst, hsnd⟩ := Prod.mk.inj hcid
      rw [← hfst, ← hsnd]
      rfl
    have hle := hle (vanilla.map classOf) hgt
    rw [(hcorrect _).1, (hcorrect _).2] at hle
    rw [← map_rounds_clusters hlength hgt, Grouping.refines_map]
    refine Grouping.refines_of_agreement_le (fun a ha b hb => ?_) hle
    rw [hclass a ha, hclass b hb, classOf_inj]
  · intro hrefines gt_class hgt
    rw [(hcorrect gt_class).1, (hcorrect gt_class).2]
    rw [← map_rounds_clusters hlength hgt, Grouping.refines_map] at hrefines
    exact hrefines.agreement_le _

end

/-- A line of a round, with what the clock shows when each engine takes it. -/
structure Line where
  raw : List Char
  tiered_ms : Int
  vanilla_ms : Int

namespace Line

def tiered (self : Line) : Input := ⟨self.raw, self.tiered_ms⟩

def vanilla (self : Line) : Input := ⟨self.raw, self.vanilla_ms⟩

variable (crates : Crates)

def tokens (self : Line) : List (List Char) := self.tiered.tokens crates

def syslog_tag (self : Line) : Option (List Char) := self.tiered.syslog_tag crates

end Line

/-- The clusters that two engines have returned for the lines so far. -/
def clusterPairs (history history' : List Taken) : List (Nat × Nat) :=
  (history.map fun taken => taken.result.cluster_id).zip
    (history'.map fun taken => taken.result.cluster_id)

/-- Where the miner with anchors finds a cluster for a line, the one without finds the cluster
    that holds the lines of that cluster. -/
def FindsTogether (crates : Crates) (tiered vanilla : DrainMiner) (pairs : List (Nat × Nat))
    (line : Line) : Prop :=
  line.tokens crates ≠ [] →
  ∀ c_id sim, tiered.find_best_match (line.tokens crates) (line.syslog_tag crates) =
    ok (some c_id, sim) →
  ∃ c_id' sim', vanilla.find_best_match (line.tokens crates) (line.syslog_tag crates) =
      ok (some c_id', sim') ∧
    ∀ pair ∈ pairs, pair.1 = c_id → pair.2 = c_id'

/-- Every line of a round meets that condition in the states that both miners are in. -/
def FindTogether (crates : Crates) : List Line → DrainMiner → DrainMiner → List (Nat × Nat) → Prop
  | [], _, _, _ => True
  | line :: lines, tiered, vanilla, pairs =>
    FindsTogether crates tiered vanilla pairs line ∧
    ∀ result tiered' result' vanilla',
      tiered.add_log crates line.raw line.tiered_ms = ok (result, tiered') →
      vanilla.add_log crates line.raw line.vanilla_ms = ok (result', vanilla') →
      FindTogether crates lines tiered' vanilla' (pairs ++ [(result.cluster_id, result'.cluster_id)])

section

variable {crates : Crates} {config config' : DrainConfig} {history history' : List Taken}
  {tiered vanilla tiered' vanilla' : DrainMiner} {result result' : ClusterResult} {line : Line}

theorem clusterPairs_append (hlength : history.length = history'.length) (more more' : List Taken) :
    clusterPairs (history ++ more) (history' ++ more') =
      clusterPairs history history' ++ clusterPairs more more' := by
  rw [clusterPairs, List.map_append, List.map_append, List.zip_append (by simpa using hlength)]
  rfl

theorem clusterPairs_concat (hlength : history.length = history'.length) (taken taken' : Taken) :
    clusterPairs (history ++ [taken]) (history' ++ [taken']) =
      clusterPairs history history' ++ [(taken.result.cluster_id, taken'.result.cluster_id)] :=
  clusterPairs_append hlength [taken] [taken']

/-- Two miners that have taken the same lines. -/
structure Abreast (crates : Crates) (config config' : DrainConfig) (history history' : List Taken)
    (tiered vanilla : DrainMiner) : Prop where
  tiered : tiered.Consistent crates config history
  vanilla : vanilla.Consistent crates config' history'
  length_eq : history.length = history'.length
  blank : ∀ pair ∈ clusterPairs history history', pair.1 = 0 ↔ pair.2 = 0

namespace Abreast

theorem start (crates : Crates) (config config' : DrainConfig) :
    Abreast crates config config' [] [] (DrainMiner.new config) (DrainMiner.new config') where
  tiered := DrainMiner.consistent_new crates config
  vanilla := DrainMiner.consistent_new crates config'
  length_eq := rfl
  blank pair hpair := by cases hpair

variable (h : Abreast crates config config' history history' tiered vanilla)

include h

theorem tiered_lt {pair : Nat × Nat} (hpair : pair ∈ clusterPairs history history') :
    pair.1 < tiered.next_cluster_id := by
  obtain ⟨taken, htaken, hid⟩ := List.mem_map.mp (List.of_mem_zip hpair).1
  rw [← hid]
  exact h.tiered.known taken htaken

theorem vanilla_lt {pair : Nat × Nat} (hpair : pair ∈ clusterPairs history history') :
    pair.2 < vanilla.next_cluster_id := by
  obtain ⟨taken, htaken, hid⟩ := List.mem_map.mp (List.of_mem_zip hpair).2
  rw [← hid]
  exact h.vanilla.known taken htaken

/-- Every cluster has a line, and the other miner has put it somewhere. -/
theorem exists_pair {c_id : Nat} {cluster : LogCluster}
    (hlookup : tiered.clusters.lookup c_id = some cluster) :
    ∃ pair ∈ clusterPairs history history', pair.1 = c_id := by
  obtain ⟨founder, hfounder, -, hid⟩ := h.tiered.exists_founder hlookup
  have hmem : c_id ∈ (clusterPairs history history').map Prod.fst := by
    rw [clusterPairs, List.map_fst_zip (by simpa using h.length_eq.le), ← hid]
    exact List.mem_map_of_mem (f := fun taken : Taken => taken.result.cluster_id) hfounder
  exact List.mem_map.mp hmem

variable (hadds : tiered.Adds crates line.tiered result tiered')
  (hadds' : vanilla.Adds crates line.vanilla result' vanilla')

include hadds hadds'

theorem adds : Abreast crates config config' (history ++ [⟨line.tiered, result⟩])
    (history' ++ [⟨line.vanilla, result'⟩]) tiered' vanilla' := by
  have htiered := h.tiered.adds hadds
  have hvanilla := h.vanilla.adds hadds'
  have hblank := htiered.blank ⟨line.tiered, result⟩ (by simp)
  have hblank' := hvanilla.blank ⟨line.vanilla, result'⟩ (by simp)
  refine ⟨htiered, hvanilla, ?_, ?_⟩
  · rw [List.length_append, List.length_append, h.length_eq]
    rfl
  · intro pair hpair
    rw [clusterPairs_concat h.length_eq, List.mem_append, List.mem_singleton] at hpair
    obtain hpair | rfl := hpair
    · exact h.blank pair hpair
    · exact hblank.symm.trans hblank'

/-- A line keeps the groups of the first miner inside those of the second exactly if both find
    their clusters together. -/
theorem refines_iff
    (hrefines : Grouping.Refines (clusterPairs history history') Prod.fst Prod.snd) :
    Grouping.Refines (clusterPairs (history ++ [⟨line.tiered, result⟩])
      (history' ++ [⟨line.vanilla, result'⟩])) Prod.fst Prod.snd ↔
      FindsTogether crates tiered vanilla (clusterPairs history history') line := by
  rw [clusterPairs_concat h.length_eq, Grouping.refines_concat, and_iff_right hrefines]
  dsimp only
  have hjoined := hadds'.joined_iff
  cases hadds with
  | blank htokens =>
    refine iff_of_true (fun pair hpair hid => ?_) fun hne => absurd htokens hne
    have hblank' := (h.vanilla.adds hadds').blank ⟨line.vanilla, result'⟩ (by simp)
    rw [(h.blank pair hpair).mp hid, hblank'.mp htokens]
  | joins c_id cluster sim anomaly htokens hfind hlookup =>
    constructor
    · intro hall _ c_id' sim' hfind'
      have hsame := hfind.symm.trans hfind'
      cases hsame
      obtain ⟨pair, hpair, hid⟩ := h.exists_pair hlookup
      have hpair' := hall pair hpair hid
      have hold : result'.is_new = false := by
        cases hadds' with
        | blank htokens' => exact absurd htokens' htokens
        | joins => rfl
        | founds =>
          have hlt := h.vanilla_lt hpair
          dsimp only at hpair'
          omega
      obtain ⟨sim'', hfound⟩ := (hjoined htokens result'.cluster_id).mp ⟨rfl, hold⟩
      exact ⟨result'.cluster_id, sim'', hfound, hall⟩
    · intro htogether pair hpair hid
      obtain ⟨c_id', sim', hfound, hall⟩ := htogether htokens c_id sim hfind
      obtain ⟨hresult, -⟩ := (hjoined htokens c_id').mpr ⟨sim', hfound⟩
      rw [hresult]
      exact hall pair hpair hid
  | founds cluster sim root htokens hfind hcluster =>
    refine iff_of_true (fun pair hpair hid => ?_) fun _ c_id sim' hfind' => ?_
    · have hlt := h.tiered_lt hpair
      dsimp only at hid
      omega
    · have hsame := hfind.symm.trans hfind'
      cases hsame

end Abreast

/-- Where both miners find their clusters together, the groups of the first lie inside those of
    the second at the end of a round. -/
theorem Abreast.refines_run (h : Abreast crates config config' history history' tiered vanilla)
    (hrefines : Grouping.Refines (clusterPairs history history') Prod.fst Prod.snd)
    {lines : List Line}
    (htogether : FindTogether crates lines tiered vanilla (clusterPairs history history'))
    {more more' : List Taken} {last last' : DrainMiner}
    (hrun : tiered.run crates (lines.map Line.tiered) = ok (more, last))
    (hrun' : vanilla.run crates (lines.map Line.vanilla) = ok (more', last')) :
    Grouping.Refines (clusterPairs (history ++ more) (history' ++ more')) Prod.fst Prod.snd := by
  induction lines generalizing history history' tiered vanilla more more' with
  | nil =>
    cases hrun
    cases hrun'
    rwa [List.append_nil, List.append_nil]
  | cons line lines ih =>
    obtain ⟨result, next, rest, hadd, hrest, rfl⟩ := DrainMiner.run_cons_eq_ok_iff.mp hrun
    obtain ⟨result', next', rest', hadd', hrest', rfl⟩ := DrainMiner.run_cons_eq_ok_iff.mp hrun'
    obtain ⟨hline, hlines⟩ := htogether
    have hadds := DrainMiner.adds_of_add_log hadd
    have hadds' := DrainMiner.adds_of_add_log hadd'
    have hnext := (h.refines_iff hadds hadds' hrefines).mpr hline
    have htail := hlines result next result' next' hadd hadd'
    rw [List.append_cons, List.append_cons history']
    refine ih (h.adds hadds hadds') hnext ?_ hrest hrest'
    rwa [clusterPairs_concat h.length_eq]

/-- Where the groups of the first miner lie inside those of the second at the end of a round, both
    have found their clusters together at every line. -/
theorem Abreast.findTogether (h : Abreast crates config config' history history' tiered vanilla)
    (hrefines : Grouping.Refines (clusterPairs history history') Prod.fst Prod.snd)
    {lines : List Line}
    (hall : ∀ more more' last last', tiered.run crates (lines.map Line.tiered) = ok (more, last) →
      vanilla.run crates (lines.map Line.vanilla) = ok (more', last') →
      Grouping.Refines (clusterPairs (history ++ more) (history' ++ more')) Prod.fst Prod.snd) :
    FindTogether crates lines tiered vanilla (clusterPairs history history') := by
  induction lines generalizing history history' tiered vanilla with
  | nil => trivial
  | cons line lines ih =>
    obtain ⟨result, next, hadd, -⟩ := DrainMiner.add_log_ok crates tiered
      line.tiered.raw line.tiered.now_ms
    obtain ⟨result', next', hadd', -⟩ := DrainMiner.add_log_ok crates vanilla
      line.vanilla.raw line.vanilla.now_ms
    have hadds := DrainMiner.adds_of_add_log hadd
    have hadds' := DrainMiner.adds_of_add_log hadd'
    have hafter : ∀ more more' last last', next.run crates (lines.map Line.tiered) = ok (more, last) →
        next'.run crates (lines.map Line.vanilla) = ok (more', last') →
        Grouping.Refines (clusterPairs (history ++ [⟨line.tiered, result⟩] ++ more)
          (history' ++ [⟨line.vanilla, result'⟩] ++ more')) Prod.fst Prod.snd := by
      intro more more' last last' hrun hrun'
      rw [← List.append_cons, ← List.append_cons]
      exact hall _ _ last last'
        (DrainMiner.run_cons_eq_ok_iff.mpr ⟨result, next, more, hadd, hrun, rfl⟩)
        (DrainMiner.run_cons_eq_ok_iff.mpr ⟨result', next', more', hadd', hrun', rfl⟩)
    -- the pairs up to this line are among those at the end of the round
    have habreast := h.adds hadds hadds'
    obtain ⟨more, last, hrun, -⟩ := DrainMiner.run_ok crates next (lines.map Line.tiered)
    obtain ⟨more', last', hrun', -⟩ := DrainMiner.run_ok crates next' (lines.map Line.vanilla)
    have hnext : Grouping.Refines (clusterPairs (history ++ [⟨line.tiered, result⟩])
        (history' ++ [⟨line.vanilla, result'⟩])) Prod.fst Prod.snd := by
      have hend := hafter more more' last last' hrun hrun'
      rw [clusterPairs_append habreast.length_eq] at hend
      exact hend.subset (List.subset_append_left _ _)
    refine ⟨(h.refines_iff hadds hadds' hrefines).mp hnext, ?_⟩
    intro r n r' n' hr hr'
    have hr := hadd.symm.trans hr
    have hr' := hadd'.symm.trans hr'
    cases hr
    cases hr'
    have htail := ih habreast hnext hafter
    rwa [clusterPairs_concat h.length_eq] at htail

end

theorem run_miner_eq_ok_iff {crates : Crates} {lines : List Input} {cfg : DrainConfig}
    {clusters : List Nat} {templates : List (List Char)} :
    run_miner crates lines cfg = ok (clusters, templates) ↔
      ∃ history miner, (DrainMiner.new cfg).run crates lines = ok (history, miner) ∧
        (history.map fun taken => taken.result.cluster_id) = clusters ∧
        (history.map fun taken => taken.result.template) = templates := by
  rw [run_miner, bind_eq_ok_iff]
  constructor
  · rintro ⟨⟨history, miner⟩, hrun, hok⟩
    obtain ⟨hclusters, htemplates⟩ := Prod.mk.inj (Result.ok.inj hok)
    exact ⟨history, miner, hrun, hclusters, htemplates⟩
  · rintro ⟨history, miner, hrun, rfl, rfl⟩
    exact ⟨(history, miner), hrun, rfl⟩

/-- Anchors do not lower the accuracy, whatever classes the lines have, exactly if at every line
    that the miner with anchors finds a cluster for, the miner without finds the cluster that holds
    the lines of that cluster. -/
theorem anchors_never_lower_iff (crates : Crates) (config : DrainConfig) (lines : List Line) :
    (∀ gt_class : List (List Char), gt_class.length = lines.length →
      ∀ tiered templates vanilla templates',
        run_miner crates (lines.map Line.tiered) { config with anchors_enabled := true } =
          ok (tiered, templates) →
        run_miner crates (lines.map Line.vanilla) { config with anchors_enabled := false } =
          ok (vanilla, templates') →
        correct gt_class vanilla ≤ correct gt_class tiered) ↔
      FindTogether crates lines (DrainMiner.new { config with anchors_enabled := true })
        (DrainMiner.new { config with anchors_enabled := false }) [] := by
  have hstart := Abreast.start crates { config with anchors_enabled := true }
    { config with anchors_enabled := false }
  have hnil : Grouping.Refines (clusterPairs [] []) Prod.fst Prod.snd := by
    intro a ha
    cases ha
  constructor
  · intro hall
    refine hstart.findTogether hnil ?_
    intro history history' last last' hrun hrun'
    have hlength := DrainMiner.length_of_run hrun
    have hlength' := DrainMiner.length_of_run hrun'
    rw [List.length_map] at hlength hlength'
    rw [List.nil_append, List.nil_append]
    have hsame : (history.map fun taken => taken.result.cluster_id).length =
        (history'.map fun taken => taken.result.cluster_id).length := by simp [hlength, hlength']
    refine (correct_le_iff hsame).mp fun gt_class hgt => ?_
    exact hall gt_class (by simpa [hlength] using hgt) _ _ _ _
      (run_miner_eq_ok_iff.mpr ⟨history, last, hrun, rfl, rfl⟩)
      (run_miner_eq_ok_iff.mpr ⟨history', last', hrun', rfl, rfl⟩)
  · intro htogether gt_class hgt tiered templates vanilla templates' hpass hpass'
    obtain ⟨history, last, hrun, rfl, -⟩ := run_miner_eq_ok_iff.mp hpass
    obtain ⟨history', last', hrun', rfl, -⟩ := run_miner_eq_ok_iff.mp hpass'
    have hlength := DrainMiner.length_of_run hrun
    have hlength' := DrainMiner.length_of_run hrun'
    rw [List.length_map] at hlength hlength'
    have hrefines := hstart.refines_run hnil htogether hrun hrun'
    rw [List.nil_append, List.nil_append] at hrefines
    have hsame : (history.map fun taken => taken.result.cluster_id).length =
        (history'.map fun taken => taken.result.cluster_id).length := by simp [hlength, hlength']
    exact (correct_le_iff hsame).mpr hrefines gt_class (by simp [hlength, hgt])

/-- The third line is kept from the cluster of the first by its action and joins the second
    instead, which has half of its words. -/
theorem anchors_lower_accuracy :
    ∃ tiered templates vanilla templates',
      run_miner default [⟨str.lit "fw in tcp from branch deny", 0⟩,
          ⟨str.lit "fw in udp to core allow", 1⟩, ⟨str.lit "fw in tcp from branch allow", 2⟩]
        DrainConfig.default = ok (tiered, templates) ∧
      run_miner default [⟨str.lit "fw in tcp from branch deny", 0⟩,
          ⟨str.lit "fw in udp to core allow", 1⟩, ⟨str.lit "fw in tcp from branch allow", 2⟩]
        { DrainConfig.default with anchors_enabled := false } = ok (vanilla, templates') ∧
      correct [str.lit "branch", str.lit "core", str.lit "branch"] tiered = 2 ∧
      correct [str.lit "branch", str.lit "core", str.lit "branch"] vanilla = 3 := by
  have htiered : (run_miner default [⟨str.lit "fw in tcp from branch deny", 0⟩,
      ⟨str.lit "fw in udp to core allow", 1⟩, ⟨str.lit "fw in tcp from branch allow", 2⟩]
      DrainConfig.default >>= fun pass => ok pass.1) = ok [1, 2, 2] := by
    decide +kernel
  have hvanilla : (run_miner default [⟨str.lit "fw in tcp from branch deny", 0⟩,
      ⟨str.lit "fw in udp to core allow", 1⟩, ⟨str.lit "fw in tcp from branch allow", 2⟩]
      { DrainConfig.default with anchors_enabled := false } >>= fun pass => ok pass.1) =
      ok [1, 2, 1] := by
    decide +kernel
  obtain ⟨⟨tiered, templates⟩, hpass, hids⟩ := bind_eq_ok_iff.mp htiered
  obtain ⟨⟨vanilla, templates'⟩, hpass', hids'⟩ := bind_eq_ok_iff.mp hvanilla
  cases hids
  cases hids'
  refine ⟨[1, 2, 2], templates, [1, 2, 1], templates', hpass, hpass', ?_, ?_⟩
  · decide +kernel
  · decide +kernel

end ulpf_ai.duel
