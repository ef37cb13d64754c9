import Ulpf.Lib.Recency
import Ulpf.Core.Parser.LruCache.Run

open Result recency
open ulpf_core.parser.classifier

namespace ulpf_core.parser.lru_cache.SignatureLruCache

/-- The key that a call uses: one that it finds, or one that it inserts. -/
def usedKey : SignatureLruCache × Call → Option UInt64
  | (cache, .get key) => if (cache.get key).1.isSome then some key else none
  | (_, .insert key _) => some key

/-- The keys that some calls use, in turn. -/
def uses (self : SignatureLruCache) (calls : List Call) : List UInt64 :=
  (self.trace calls).filterMap usedKey

/-- Whatever an insertion removes was used before all other keys of the shard. -/
def EvictsLeastRecent (cache : SignatureLruCache) (calls : List Call) : Prop :=
  ∀ before key format after, calls = before ++ .insert key format :: after →
    ∀ evicted ∈ removed (cache.run before, .insert key format),
      ∀ other ∈ (cache.run before).keys, cache.shard_idx other = cache.shard_idx key →
        other ≠ evicted → Older (cache.uses before) evicted other

/-- Whenever a new key finds its shard full, the key that entered the shard first has not been
    used since the last use of any other key of the shard. -/
def FirstNotUsedAgain (capacity : Nat) (cache : SignatureLruCache) (calls : List Call) : Prop :=
  ∀ before key format after, calls = before ++ .insert key format :: after →
    ((cache.run before).get key).1 = none →
    capacity ≤ ((cache.run before).shard key).order.length →
    ∀ first rest, ((cache.run before).shard key).order = first :: rest →
      ∀ other ∈ rest, Older (cache.uses before) first other

/-- The cache is a queue: it evicts the least recently used key in the runs, and only in those, in
    which the first key of a full shard is not used again. -/
theorem evictsLeastRecent_iff {num_shards capacity : Nat} {cache : SignatureLruCache}
    (hnew : with_capacity num_shards capacity = ok cache) (calls : List Call) :
    EvictsLeastRecent cache calls ↔ FirstNotUsedAgain capacity cache calls := by
  obtain ⟨hvalid, -⟩ := of_with_capacity hnew
  constructor
  · intro hevicts before key format after hcalls hget hfull first rest horder other hother
    have hstate := hvalid.run before
    obtain ⟨hshard, -⟩ := hstate.shard key
    have hnodup := hshard.nodup
    rw [horder, List.nodup_cons] at hnodup
    have hkey : key ∉ ((cache.run before).shard key).order := by
      rw [← hstate.isSome_get_iff, hget]
      decide
    have hfirst : first ∈ removed (cache.run before, .insert key format) := by
      rw [hstate.mem_removed_insert_iff, horder]
      rw [horder] at hkey hfull
      exact ⟨hkey, hfull, rfl⟩
    have hmem : other ∈ ((cache.run before).shard key).order := by
      rw [horder]
      exact List.mem_cons_of_mem first hother
    have hidx : (cache.run before).shard_idx other = (cache.run before).shard_idx key :=
      (hstate.shards _ _ ((cache.run before).getElem?_shard_idx key)).2.2 other hmem
    refine hevicts before key format after hcalls first hfirst other ?_ ?_ ?_
    · rw [hstate.mem_keys_iff, shard_congr hidx]
      exact hmem
    · rwa [shard_idx_run, shard_idx_run] at hidx
    · rintro rfl
      exact hnodup.1 hother
  · intro hfirst before key format after hcalls evicted hevicted other hother hidx hne
    have hstate := hvalid.run before
    obtain ⟨hkey, hfull, hhead⟩ := (hstate.mem_removed_insert_iff key format evicted).mp hevicted
    obtain ⟨rest, horder⟩ : ∃ rest, ((cache.run before).shard key).order = evicted :: rest := by
      cases horder : ((cache.run before).shard key).order with
      | nil =>
        rw [horder] at hhead
        cases hhead
      | cons first rest =>
        rw [horder] at hhead
        cases hhead
        exact ⟨rest, rfl⟩
    have hget : ((cache.run before).get key).1 = none := by
      rw [← Option.not_isSome_iff_eq_none, hstate.isSome_get_iff]
      exact hkey
    have hsame : (cache.run before).shard_idx other = (cache.run before).shard_idx key := by
      rw [shard_idx_run, shard_idx_run, hidx]
    rw [hstate.mem_keys_iff, shard_congr hsame, horder, List.mem_cons] at hother
    exact hfirst before key format after hcalls hget hfull evicted rest horder other
      (hother.resolve_left hne)

/-- Keys that are only inserted leave in the order of their insertion. -/
theorem evictsLeastRecent_iff_three_keys :
    with_capacity 1 2 = ok (oneShard 2) ∧
      (EvictsLeastRecent (oneShard 2)
          [.insert 1 .CiscoAsa, .insert 2 .Fortinet, .insert 3 .PaloAlto] ↔
        FirstNotUsedAgain 2 (oneShard 2)
          [.insert 1 .CiscoAsa, .insert 2 .Fortinet, .insert 3 .PaloAlto]) :=
  ⟨with_capacity_one 2, evictsLeastRecent_iff (with_capacity_one 2) _⟩

/-- A key that has just been read is evicted before one that has not. -/
theorem not_evictsLeastRecent :
    with_capacity 1 2 = ok (oneShard 2) ∧
      ¬ EvictsLeastRecent (oneShard 2)
        [.insert 1 .CiscoAsa, .insert 2 .Fortinet, .get 1, .insert 3 .PaloAlto] := by
  refine ⟨with_capacity_one 2, fun hevicts => ?_⟩
  have holder := hevicts [.insert 1 .CiscoAsa, .insert 2 .Fortinet, .get 1] 3 .PaloAlto [] rfl
    1 (by decide) 2 (by decide) rfl (by decide)
  revert holder
  decide

end ulpf_core.parser.lru_cache.SignatureLruCache
