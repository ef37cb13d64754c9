import Ulpf.Lib.Fifo
import Ulpf.Lib.LastWrite
import Ulpf.Core.Parser.LruCache

open Result last_write
open ulpf_core.parser.classifier

namespace ulpf_core.parser.lru_cache

namespace Shard

theorem get_insert_self (self : Shard) (key : UInt64) (format : VendorFormat) :
    (self.insert key format).1.get key = some format := by
  unfold insert
  split
  · exact AList.lookup_insert _
  · exact AList.lookup_insert _

/-- The queue of a shard has the keys of its map, each once, and no more than there is room for. -/
structure Valid (shard : Shard) : Prop where
  nodup : shard.order.Nodup
  mem_order_iff : ∀ key, key ∈ shard.order ↔ key ∈ shard.entries
  length_le : shard.order.length ≤ max 1 shard.capacity

theorem valid_new (capacity : Nat) : (new capacity).Valid where
  nodup := List.nodup_nil
  mem_order_iff key := by
    have hempty : key ∉ (∅ : HashMap UInt64 VendorFormat) := AList.notMem_empty key
    simp [new, hempty]
  length_le := Nat.zero_le _

section

variable {self : Shard}

theorem Valid.length_eq (hvalid : self.Valid) : self.entries.entries.length = self.order.length := by
  have hperm : self.order.Perm self.entries.keys :=
    (List.perm_ext_iff_of_nodup hvalid.nodup self.entries.nodupKeys).mpr hvalid.mem_order_iff
  rw [hperm.length_eq]
  exact (List.length_map _).symm

theorem Valid.isSome_lookup_iff (hvalid : self.Valid) (key : UInt64) :
    (self.entries.lookup key).isSome = true ↔ key ∈ self.order := by
  rw [AList.lookup_isSome, hvalid.mem_order_iff]

/-- The shard after room has been made for a new key. -/
theorem Valid.evict_eq (hvalid : self.Valid) :
    self.evict = if self.capacity ≤ self.order.length ∧ self.order ≠ [] then
        ({ self with
          entries := self.entries.erase (self.order.headD 0), order := self.order.tail }, true)
      else (self, false) := by
  rw [evict, hvalid.length_eq]
  cases horder : self.order with
  | nil => split <;> simp_all
  | cons oldest order => split <;> simp_all

/-- An insertion, by whether the key is new and whether there is room. -/
theorem Valid.insert_cases (hvalid : self.Valid) (key : UInt64) (format : VendorFormat) :
    (key ∈ self.order ∧
        self.insert key format = ({ self with entries := self.entries.insert key format }, false)) ∨
      (key ∉ self.order ∧ ¬ (self.capacity ≤ self.order.length ∧ self.order ≠ []) ∧
        self.insert key format = ({ self with
          entries := self.entries.insert key format, order := self.order ++ [key] }, false)) ∨
      ∃ oldest order, key ∉ self.order ∧ self.capacity ≤ self.order.length ∧
        self.order = oldest :: order ∧
        self.insert key format = ({ self with
          entries := (self.entries.erase oldest).insert key format
          order := order ++ [key] }, true) := by
  unfold insert
  simp only [hvalid.isSome_lookup_iff, hvalid.evict_eq]
  by_cases hmem : key ∈ self.order
  · left
    simp [hmem]
  right
  by_cases hfull : self.capacity ≤ self.order.length ∧ self.order ≠ []
  · right
    obtain ⟨oldest, order, horder⟩ := List.exists_cons_of_ne_nil hfull.2
    refine ⟨oldest, order, hmem, hfull.1, horder, ?_⟩
    rw [if_neg hmem, if_pos hfull, horder]
    rfl
  · left
    refine ⟨hmem, hfull, ?_⟩
    rw [if_neg hmem, if_neg hfull]

theorem Valid.order_insert (hvalid : self.Valid) (key : UInt64) (format : VendorFormat) :
    (self.insert key format).1.order = fifo.enter self.capacity self.order key := by
  obtain ⟨hmem, heq⟩ | ⟨hmem, hroom, heq⟩ | ⟨oldest, order, hmem, hfull, horder, heq⟩ :=
    hvalid.insert_cases key format
  · rw [heq, fifo.enter_of_mem hmem]
  · rw [heq, fifo.enter_of_notMem hmem]
    by_cases hnil : self.order = []
    · simp [hnil]
    · rw [if_neg fun hfull => hroom ⟨hfull, hnil⟩]
  · rw [heq, fifo.enter_of_notMem hmem, if_pos hfull, horder]
    rfl

theorem Valid.get_eq_none (hvalid : self.Valid) {key : UInt64} (hkey : key ∉ self.order) :
    self.get key = none := by
  rw [get, AList.lookup_eq_none, ← hvalid.mem_order_iff]
  exact hkey

theorem Valid.get_insert_of_mem (hvalid : self.Valid) {key other : UInt64} (hne : other ≠ key)
    (format : VendorFormat) (hin : other ∈ fifo.enter self.capacity self.order key) :
    (self.insert key format).1.get other = self.get other := by
  rw [← hvalid.order_insert key format] at hin
  obtain ⟨-, heq⟩ | ⟨-, -, heq⟩ | ⟨oldest, order, -, -, horder, heq⟩ :=
    hvalid.insert_cases key format
  · rw [heq, get, AList.lookup_insert_ne hne, get]
  · rw [heq, get, AList.lookup_insert_ne hne, get]
  · have hnodup := hvalid.nodup
    rw [horder, List.nodup_cons] at hnodup
    rw [heq] at hin ⊢
    rw [List.mem_append, List.mem_singleton, or_iff_left hne] at hin
    have hold : other ≠ oldest := fun heq => hnodup.1 (heq ▸ hin)
    rw [get, AList.lookup_insert_ne hne, AList.lookup_erase_ne hold, get]

theorem Valid.get_insert_of_notMem (hvalid : self.Valid) {key other : UInt64} (hne : other ≠ key)
    (format : VendorFormat) (hout : other ∉ fifo.enter self.capacity self.order key) :
    (self.insert key format).1.get other = none := by
  rw [← hvalid.order_insert key format] at hout
  obtain ⟨-, heq⟩ | ⟨-, -, heq⟩ | ⟨oldest, order, -, -, horder, heq⟩ :=
    hvalid.insert_cases key format
  · rw [heq] at hout ⊢
    rw [get, AList.lookup_insert_ne hne]
    exact hvalid.get_eq_none hout
  · rw [heq] at hout ⊢
    rw [List.mem_append, List.mem_singleton, not_or] at hout
    rw [get, AList.lookup_insert_ne hne]
    exact hvalid.get_eq_none hout.1
  · rw [heq] at hout ⊢
    rw [List.mem_append, List.mem_singleton, not_or] at hout
    rw [get, AList.lookup_insert_ne hne]
    by_cases hold : other = oldest
    · rw [hold, AList.lookup_erase]
    · rw [AList.lookup_erase_ne hold]
      refine hvalid.get_eq_none ?_
      rw [horder, List.mem_cons, not_or]
      exact ⟨hold, hout.1⟩

/-- An insertion sets the route of its key and loses the routes of the keys that leave. -/
theorem Valid.get_insert (hvalid : self.Valid) (key : UInt64) (format : VendorFormat)
    (other : UInt64) :
    (self.insert key format).1.get other =
      if other = key then some format
      else if other ∈ fifo.enter self.capacity self.order key then self.get other
      else none := by
  split
  · rename_i hsame
    rw [hsame, get_insert_self]
  rename_i hne
  split
  · exact hvalid.get_insert_of_mem hne format ‹_›
  · exact hvalid.get_insert_of_notMem hne format ‹_›

theorem Valid.insert (hvalid : self.Valid) (key : UInt64) (format : VendorFormat) :
    (self.insert key format).1.Valid ∧ (self.insert key format).1.capacity = self.capacity := by
  have hcapacity : (self.insert key format).1.capacity = self.capacity := by
    obtain ⟨-, heq⟩ | ⟨-, -, heq⟩ | ⟨oldest, order, -, -, -, heq⟩ := hvalid.insert_cases key format
    · rw [heq]
    · rw [heq]
    · rw [heq]
  refine ⟨⟨?_, fun other => ?_, ?_⟩, hcapacity⟩
  · rw [hvalid.order_insert]
    exact fifo.nodup_enter _ hvalid.nodup key
  · have hget := hvalid.get_insert key format other
    rw [hvalid.order_insert, ← AList.lookup_isSome, ← Shard.get, hget]
    by_cases hsame : other = key
    · subst hsame
      simp [fifo.mem_enter_self]
    · rw [if_neg hsame]
      by_cases hmem : other ∈ fifo.enter self.capacity self.order key
      · have hold := (fifo.mem_of_mem_enter hmem).resolve_left hsame
        rw [if_pos hmem, Shard.get, hvalid.isSome_lookup_iff]
        exact iff_of_true hmem hold
      · rw [if_neg hmem]
        exact iff_of_false hmem (by simp)
  · rw [hvalid.order_insert, hcapacity]
    exact fifo.length_enter_le hvalid.length_le key

end

end Shard

namespace SignatureLruCache

/-- The calls of a cache. -/
inductive Call where
  | get (key : UInt64)
  | insert (key : UInt64) (format : VendorFormat)
  deriving DecidableEq

/-- The cache after a call. -/
def call (self : SignatureLruCache) : Call → SignatureLruCache
  | .get key => (self.get key).2
  | .insert key format => self.insert key format

def run (self : SignatureLruCache) (calls : List Call) : SignatureLruCache := calls.foldl call self

/-- The calls of a run, each with the cache that it finds. -/
def trace (self : SignatureLruCache) : List Call → List (SignatureLruCache × Call)
  | [] => []
  | c :: calls => (self, c) :: trace (self.call c) calls

/-- The keys that a cache has routes for. -/
def keys (self : SignatureLruCache) : Finset UInt64 :=
  (self.shards.flatMap fun shard => shard.entries.keys).toFinset

/-- What is inserted by some calls. -/
def inserts (calls : List Call) : List (UInt64 × VendorFormat) :=
  calls.filterMap fun c => match c with
    | .get _ => none
    | .insert key format => some (key, format)

def isHit : SignatureLruCache × Call → Bool
  | (cache, .get key) => (cache.get key).1.isSome
  | (_, .insert _ _) => false

def isMiss : SignatureLruCache × Call → Bool
  | (cache, .get key) => (cache.get key).1.isNone
  | (_, .insert _ _) => false

/-- The keys that a call removes. -/
def removed (step : SignatureLruCache × Call) : Finset UInt64 :=
  step.1.keys \ (step.1.call step.2).keys

/-- The key that enters the cache with a call. -/
def newKey : SignatureLruCache × Call → Option UInt64
  | (_, .get _) => none
  | (cache, .insert key _) => if (cache.get key).1.isNone then some key else none

/-- The other keys that have entered the shard of a key in some calls. -/
def othersEntered (self : SignatureLruCache) (key : UInt64) (calls : List Call) : Finset UInt64 :=
  ((((self.trace calls).filterMap newKey).filter fun other =>
    self.shard_idx other = self.shard_idx key).toFinset).erase key

/-- The shard that has the routes of a key. -/
def shard (self : SignatureLruCache) (key : UInt64) : Shard :=
  have := self.shard_idx_lt key
  self.shards[self.shard_idx key]

section

variable {self : SignatureLruCache}

theorem getElem?_shard_idx (self : SignatureLruCache) (key : UInt64) :
    self.shards[self.shard_idx key]? = some (self.shard key) :=
  List.getElem?_eq_getElem (self.shard_idx_lt key)

theorem fst_get_eq (self : SignatureLruCache) (key : UInt64) :
    (self.get key).1 = (self.shard key).get key := by
  rw [fst_get, getElem?_shard_idx, Option.bind_some]

/-- A lookup counts a hit or a miss. -/
theorem get_cases (self : SignatureLruCache) (key : UInt64) :
    self.get key = (none, { self with misses := self.misses + 1 }) ∨
      ∃ format, self.get key = (some format, { self with hits := self.hits + 1 }) := by
  unfold get
  cases hget : (self.shard key).get key with
  | none =>
    left
    dsimp only
    rw [← shard, hget]
  | some format =>
    right
    refine ⟨format, ?_⟩
    dsimp only
    rw [← shard, hget]

theorem shards_get (self : SignatureLruCache) (key : UInt64) :
    (self.get key).2.shards = self.shards ∧ (self.get key).2.shard_mask = self.shard_mask := by
  rcases self.get_cases key with hget | ⟨format, hget⟩
  · rw [hget]
    exact ⟨rfl, rfl⟩
  · rw [hget]
    exact ⟨rfl, rfl⟩

theorem shard_mask_call (self : SignatureLruCache) (c : Call) :
    (self.call c).shard_mask = self.shard_mask := by
  cases c with
  | get key => exact (self.shards_get key).2
  | insert key format => rfl

theorem shard_idx_call (self : SignatureLruCache) (c : Call) (key : UInt64) :
    (self.call c).shard_idx key = self.shard_idx key := by
  rw [shard_idx, shard_mask_call, shard_idx]

/-- A lookup leaves the shards alone. -/
theorem shard_get (self : SignatureLruCache) (key other : UInt64) :
    (self.get key).2.shard other = self.shard other := by
  have hshard := (self.get key).2.getElem?_shard_idx other
  have hidx : (self.get key).2.shard_idx other = self.shard_idx other :=
      self.shard_idx_call (.get key) other
  rw [(self.shards_get key).1, hidx, getElem?_shard_idx] at hshard
  exact (Option.some.inj hshard).symm

/-- An insertion changes the shard of its key only. -/
theorem getElem?_insert (self : SignatureLruCache) (key : UInt64) (format : VendorFormat) (i : Nat) :
    (self.insert key format).shards[i]? =
      if i = self.shard_idx key then some ((self.shard key).insert key format).1
      else self.shards[i]? := by
  have hshards : (self.insert key format).shards =
      self.shards.set (self.shard_idx key) ((self.shard key).insert key format).1 := rfl
  rw [hshards]
  split
  · rename_i hi
    rw [hi, List.getElem?_set_self (self.shard_idx_lt key)]
  · rename_i hi
    rw [List.getElem?_set_ne (Ne.symm hi)]

theorem shard_insert (self : SignatureLruCache) (key : UInt64) (format : VendorFormat)
    (other : UInt64) :
    (self.insert key format).shard other =
      if self.shard_idx other = self.shard_idx key then ((self.shard key).insert key format).1
      else self.shard other := by
  have hshard := (self.insert key format).getElem?_shard_idx other
  have hidx : (self.insert key format).shard_idx other = self.shard_idx other := rfl
  rw [hidx, getElem?_insert, getElem?_shard_idx] at hshard
  split at hshard
  · rename_i hsame
    rw [if_pos hsame]
    exact (Option.some.inj hshard).symm
  · rename_i hother
    rw [if_neg hother]
    exact (Option.some.inj hshard).symm

end

/-- Every shard is valid and has keys of its own only. -/
structure Valid (cache : SignatureLruCache) (capacity : Nat) : Prop where
  shards : ∀ i shard, cache.shards[i]? = some shard →
    shard.Valid ∧ shard.capacity = capacity ∧ ∀ key ∈ shard.order, cache.shard_idx key = i

theorem Valid.shard {cache : SignatureLruCache} {capacity : Nat} (h : cache.Valid capacity)
    (key : UInt64) : (cache.shard key).Valid ∧ (cache.shard key).capacity = capacity :=
  have hshard := h.shards _ _ (cache.getElem?_shard_idx key)
  ⟨hshard.1, hshard.2.1⟩

theorem Valid.call {cache : SignatureLruCache} {capacity : Nat} (h : cache.Valid capacity)
    (c : Call) : (cache.call c).Valid capacity where
  shards i shard hshard := by
    cases c with
    | get key =>
      rw [SignatureLruCache.call, (cache.shards_get key).1] at hshard
      obtain ⟨hvalid, hcapacity, hkeys⟩ := h.shards i shard hshard
      exact ⟨hvalid, hcapacity, fun k hk => by rw [shard_idx_call, hkeys k hk]⟩
    | insert key format =>
      rw [SignatureLruCache.call, getElem?_insert] at hshard
      split at hshard
      · rename_i hi
        cases hshard
        obtain ⟨hvalid, hcapacity, hkeys⟩ := h.shards _ _ (cache.getElem?_shard_idx key)
        obtain ⟨hnext, hsame⟩ := hvalid.insert key format
        refine ⟨hnext, hsame.trans hcapacity, fun k hk => ?_⟩
        rw [hvalid.order_insert] at hk
        rw [shard_idx_call, hi]
        rcases fifo.mem_of_mem_enter hk with rfl | hk
        · rfl
        · exact hkeys k hk
      · exact h.shards i shard hshard

/-- A cache has routes for the keys that stand in the queues of their shards. -/
theorem Valid.mem_keys_iff {cache : SignatureLruCache} {capacity : Nat} (h : cache.Valid capacity)
    (key : UInt64) : key ∈ cache.keys ↔ key ∈ (cache.shard key).order := by
  rw [keys, List.mem_toFinset, List.mem_flatMap]
  constructor
  · rintro ⟨shard, hshard, hkey⟩
    obtain ⟨i, hi⟩ := List.mem_iff_getElem?.mp hshard
    obtain ⟨hvalid, -, hkeys⟩ := h.shards i shard hi
    have hmem := (hvalid.mem_order_iff key).mpr hkey
    rw [← hkeys key hmem, getElem?_shard_idx] at hi
    cases hi
    exact hmem
  · intro hmem
    refine ⟨cache.shard key, List.mem_of_getElem? (cache.getElem?_shard_idx key), ?_⟩
    exact ((h.shard key).1.mem_order_iff key).mp hmem

theorem Valid.isSome_get_iff {cache : SignatureLruCache} {capacity : Nat} (h : cache.Valid capacity)
    (key : UInt64) : (cache.get key).1.isSome = true ↔ key ∈ (cache.shard key).order := by
  rw [fst_get_eq, Shard.get, (h.shard key).1.isSome_lookup_iff]

theorem run_cons (self : SignatureLruCache) (c : Call) (calls : List Call) :
    self.run (c :: calls) = (self.call c).run calls := rfl

theorem run_concat (self : SignatureLruCache) (calls : List Call) (c : Call) :
    self.run (calls ++ [c]) = (self.run calls).call c := by
  simp [run]

theorem Valid.run {cache : SignatureLruCache} {capacity : Nat} (h : cache.Valid capacity)
    (calls : List Call) : (cache.run calls).Valid capacity := by
  induction calls using List.reverseRecOn with
  | nil => exact h
  | append_singleton calls c ih =>
    rw [run_concat]
    exact ih.call c

theorem shard_idx_run (self : SignatureLruCache) (calls : List Call) (key : UInt64) :
    (self.run calls).shard_idx key = self.shard_idx key := by
  induction calls using List.reverseRecOn with
  | nil => rfl
  | append_singleton calls c ih => rw [run_concat, shard_idx_call, ih]

theorem inserts_concat_get (calls : List Call) (key : UInt64) :
    inserts (calls ++ [.get key]) = inserts calls := by
  simp [inserts]

theorem inserts_concat_insert (calls : List Call) (key : UInt64) (format : VendorFormat) :
    inserts (calls ++ [.insert key format]) = inserts calls ++ [(key, format)] := by
  simp [inserts]

/-- A route is the one that was inserted last for its key. -/
theorem latest_of_get {self : SignatureLruCache} (hempty : ∀ key, (self.get key).1 = none)
    (calls : List Call) {key : UInt64} {format : VendorFormat}
    (hget : ((self.run calls).get key).1 = some format) :
    latest Prod.fst (inserts calls) key = some (key, format) := by
  induction calls using List.reverseRecOn generalizing format with
  | nil =>
    rw [run, List.foldl_nil, hempty] at hget
    cases hget
  | append_singleton calls c ih =>
    rw [run_concat] at hget
    cases c with
    | get other =>
      rw [inserts_concat_get]
      exact ih (get_get (self.run calls) other key ▸ hget)
    | insert other format' =>
      rw [inserts_concat_insert, latest_concat]
      split
      · rename_i hsame
        have hsame : other = key := hsame
        subst hsame
        rw [call, fst_get_eq, shard_insert, if_pos rfl, Shard.get_insert_self] at hget
        rw [Option.some.inj hget]
      · rename_i hother
        obtain ⟨rfl, -⟩ | hold := get_of_get_insert hget
        · exact absurd rfl hother
        · exact ih hold

theorem hits_run (self : SignatureLruCache) (calls : List Call) :
    (self.run calls).hits = self.hits + (self.trace calls).countP isHit ∧
      (self.run calls).misses = self.misses + (self.trace calls).countP isMiss := by
  induction calls generalizing self with
  | nil => exact ⟨rfl, rfl⟩
  | cons c calls ih =>
    have hcall : (self.call c).hits = self.hits + (if isHit (self, c) then 1 else 0) ∧
        (self.call c).misses = self.misses + (if isMiss (self, c) then 1 else 0) := by
      cases c with
      | get key =>
        rcases self.get_cases key with hget | ⟨format, hget⟩
        · simp [call, isHit, isMiss, hget]
        · simp [call, isHit, isMiss, hget]
      | insert key format => exact ⟨rfl, rfl⟩
    obtain ⟨hhits, hmisses⟩ := ih (self.call c)
    rw [run_cons, hhits, hmisses, hcall.1, hcall.2, trace, List.countP_cons, List.countP_cons]
    omega

theorem shard_congr {self : SignatureLruCache} {key other : UInt64}
    (hidx : self.shard_idx key = self.shard_idx other) : self.shard key = self.shard other := by
  have hshard := self.getElem?_shard_idx key
  rw [hidx, getElem?_shard_idx] at hshard
  exact (Option.some.inj hshard).symm

theorem Valid.order_call_insert {cache : SignatureLruCache} {capacity : Nat}
    (h : cache.Valid capacity) (key : UInt64) (format : VendorFormat) (other : UInt64) :
    ((cache.insert key format).shard other).order =
      if cache.shard_idx other = cache.shard_idx key then
        fifo.enter capacity (cache.shard other).order key
      else (cache.shard other).order := by
  obtain ⟨hvalid, hcapacity⟩ := h.shard key
  rw [shard_insert]
  split
  · rename_i hsame
    rw [hvalid.order_insert, hcapacity, shard_congr hsame]
  · rfl

/-- An insertion removes the key that entered the shard first, if the key is new and the shard is
    full. -/
theorem Valid.mem_removed_insert_iff {cache : SignatureLruCache} {capacity : Nat}
    (h : cache.Valid capacity) (key : UInt64) (format : VendorFormat) (other : UInt64) :
    other ∈ removed (cache, .insert key format) ↔
      key ∉ (cache.shard key).order ∧ capacity ≤ (cache.shard key).order.length ∧
        (cache.shard key).order.head? = some other := by
  have hnext : (cache.insert key format).Valid capacity := h.call (.insert key format)
  obtain ⟨hvalid, -⟩ := h.shard key
  rw [← fifo.leaves_iff hvalid.nodup key other, removed, Finset.mem_sdiff, h.mem_keys_iff]
  dsimp only [SignatureLruCache.call]
  rw [hnext.mem_keys_iff, h.order_call_insert]
  by_cases hsame : cache.shard_idx other = cache.shard_idx key
  · rw [if_pos hsame, shard_congr hsame]
  · rw [if_neg hsame]
    refine iff_of_false (fun hmem => hmem.2 hmem.1) fun hmem => hsame ?_
    exact (h.shards _ _ (cache.getElem?_shard_idx key)).2.2 other hmem.1

theorem removed_get (cache : SignatureLruCache) (key : UInt64) :
    removed (cache, .get key) = ∅ := by
  have hkeys : (cache.get key).2.keys = cache.keys := by rw [keys, (cache.shards_get key).1, keys]
  rw [removed]
  dsimp only [SignatureLruCache.call]
  rw [hkeys, Finset.sdiff_self]

/-- What an insertion removes is what its shard says it has evicted. -/
theorem Valid.card_removed_insert {cache : SignatureLruCache} {capacity : Nat}
    (h : cache.Valid capacity) (key : UInt64) (format : VendorFormat) :
    (removed (cache, .insert key format)).card =
      if ((cache.shard key).insert key format).2 then 1 else 0 := by
  obtain ⟨hvalid, hcapacity⟩ := h.shard key
  have hremoved := h.mem_removed_insert_iff key format
  obtain ⟨hmem, heq⟩ | ⟨hmem, hroom, heq⟩ | ⟨oldest, order, hmem, hfull, horder, heq⟩ :=
    hvalid.insert_cases key format
  · have hnone : removed (cache, .insert key format) = ∅ := by
      rw [Finset.eq_empty_iff_forall_notMem]
      intro other hother
      exact ((hremoved other).mp hother).1 hmem
    rw [heq, hnone]
    rfl
  · have hnone : removed (cache, .insert key format) = ∅ := by
      rw [Finset.eq_empty_iff_forall_notMem]
      intro other hother
      obtain ⟨-, hfull, hhead⟩ := (hremoved other).mp hother
      refine hroom ⟨hcapacity ▸ hfull, ?_⟩
      rintro hnil
      rw [hnil] at hhead
      cases hhead
    rw [heq, hnone]
    rfl
  · have hone : removed (cache, .insert key format) = {oldest} := by
      ext other
      rw [hremoved, Finset.mem_singleton, horder, List.head?_cons, Option.some.injEq]
      rw [horder] at hmem hfull
      rw [hcapacity] at hfull
      simp only [hmem, not_false_eq_true, hfull, true_and]
      exact eq_comm
    rw [heq, hone]
    rfl

theorem Valid.evictions_call {cache : SignatureLruCache} {capacity : Nat} (h : cache.Valid capacity)
    (c : Call) : (cache.call c).evictions = cache.evictions + (removed (cache, c)).card := by
  cases c with
  | get key =>
    rw [removed_get, Finset.card_empty, Nat.add_zero]
    rcases cache.get_cases key with hget | ⟨format, hget⟩
    · rw [SignatureLruCache.call, hget]
    · rw [SignatureLruCache.call, hget]
  | insert key format =>
    have hevictions : (cache.insert key format).evictions =
        if ((cache.shard key).insert key format).2 then cache.evictions + 1
        else cache.evictions := rfl
    rw [SignatureLruCache.call, hevictions, h.card_removed_insert]
    split <;> rfl

theorem Valid.evictions_run {cache : SignatureLruCache} {capacity : Nat} (h : cache.Valid capacity)
    (calls : List Call) :
    (cache.run calls).evictions =
      cache.evictions + ((cache.trace calls).map fun step => (removed step).card).sum := by
  induction calls generalizing cache with
  | nil => rfl
  | cons c calls ih =>
    rw [run_cons, ih (h.call c), h.evictions_call c, trace, List.map_cons, List.sum_cons]
    omega

/-- The keys that some calls insert into the shard of a key. -/
def insertedBeside (self : SignatureLruCache) (key : UInt64) (calls : List Call) : List UInt64 :=
  ((inserts calls).map Prod.fst).filter fun other => self.shard_idx other = self.shard_idx key

theorem insertedBeside_insert (self : SignatureLruCache) (key other : UInt64) (format : VendorFormat)
    (calls : List Call) :
    self.insertedBeside key (.insert other format :: calls) =
      if self.shard_idx other = self.shard_idx key then other :: self.insertedBeside key calls
      else self.insertedBeside key calls := by
  simp only [insertedBeside, inserts, List.filterMap_cons, List.map_cons, List.filter_cons,
    decide_eq_true_eq]

/-- The keys that are new when they are inserted are those that are not in the queue. -/
theorem Valid.filterMap_newKey_insert {cache : SignatureLruCache} {capacity : Nat}
    (h : cache.Valid capacity) (key : UInt64) (format : VendorFormat) (calls : List Call) :
    (cache.trace (.insert key format :: calls)).filterMap newKey =
      (if key ∈ (cache.shard key).order then [] else [key]) ++
        ((cache.insert key format).trace calls).filterMap newKey := by
  have hnew : newKey (cache, .insert key format) =
      if key ∈ (cache.shard key).order then none else some key := by
    have hsome := h.isSome_get_iff key
    rw [newKey, ← Option.not_isSome]
    simp only [Bool.not_eq_true', ← Bool.not_eq_true, hsome, ite_not]
  rw [trace, List.filterMap_cons, hnew]
  split_ifs <;> rfl

/-- The queue of a shard is that of the keys inserted into it, and the new ones among them are
    those that enter. -/
theorem Valid.order_run {cache : SignatureLruCache} {capacity : Nat} (h : cache.Valid capacity)
    (key : UInt64) (calls : List Call) :
    ((cache.run calls).shard key).order =
        (cache.insertedBeside key calls).foldl (fifo.enter capacity) (cache.shard key).order ∧
      (((cache.trace calls).filterMap newKey).filter fun other =>
          cache.shard_idx other = cache.shard_idx key) =
        fifo.entered capacity (cache.shard key).order (cache.insertedBeside key calls) := by
  induction calls generalizing cache with
  | nil => exact ⟨rfl, rfl⟩
  | cons c calls ih =>
    obtain ⟨horder, hentered⟩ := ih (h.call c)
    have hbeside : (cache.call c).insertedBeside key calls = cache.insertedBeside key calls := by
      simp only [insertedBeside, shard_idx_call]
    simp only [shard_idx_call] at hentered
    rw [hbeside] at horder hentered
    rw [run_cons, horder]
    cases c with
    | get other =>
      have hsame : cache.insertedBeside key (.get other :: calls) =
          cache.insertedBeside key calls := rfl
      rw [hsame]
      dsimp only [SignatureLruCache.call] at hentered ⊢
      rw [shard_get] at hentered ⊢
      refine ⟨rfl, ?_⟩
      rw [← hentered]
      rfl
    | insert other format =>
      dsimp only [SignatureLruCache.call] at hentered ⊢
      rw [h.order_call_insert] at hentered ⊢
      rw [h.filterMap_newKey_insert, List.filter_append, insertedBeside_insert]
      by_cases hsame : cache.shard_idx other = cache.shard_idx key
      · rw [if_pos hsame.symm] at hentered ⊢
        rw [if_pos hsame, List.foldl_cons, fifo.entered, ← hentered, shard_congr hsame]
        refine ⟨rfl, ?_⟩
        split_ifs <;> simp [hsame]
      · rw [if_neg (Ne.symm hsame)] at hentered ⊢
        rw [if_neg hsame, ← hentered]
        refine ⟨rfl, ?_⟩
        split_ifs <;> simp [hsame]

/-- A new cache is empty, and its mask selects a shard by the low bits of a key. -/
theorem of_with_capacity {num_shards capacity : Nat} {cache : SignatureLruCache}
    (hnew : with_capacity num_shards capacity = ok cache) :
    cache.Valid capacity ∧ (∀ key, cache.shard_idx key = key.toNat % num_shards) ∧
      (∀ key, (cache.get key).1 = none) ∧
      cache.hits = 0 ∧ cache.misses = 0 ∧ cache.evictions = 0 := by
  unfold with_capacity at hnew
  split at hnew
  · rename_i hpow
    obtain ⟨hshards, hmask⟩ : cache.shards = List.replicate num_shards (Shard.new capacity) ∧
        cache.shard_mask = num_shards - 1 := by
      cases hnew
      exact ⟨rfl, rfl⟩
    have hshard : ∀ {i : Nat} {shard : Shard}, cache.shards[i]? = some shard →
        shard = Shard.new capacity := by
      intro i shard hi
      rw [hshards] at hi
      exact List.eq_of_mem_replicate (List.mem_of_getElem? hi)
    refine ⟨⟨?_⟩, ?_, ?_, ?_⟩
    · intro i shard hi
      obtain rfl := hshard hi
      exact ⟨Shard.valid_new capacity, rfl, by simp [Shard.new]⟩
    · intro key
      obtain ⟨k, rfl⟩ := hpow
      rw [shard_idx, hmask]
      exact Nat.and_two_pow_sub_one_eq_mod key.toNat k
    · intro key
      rw [fst_get_eq, hshard (cache.getElem?_shard_idx key)]
      rfl
    · cases hnew
      exact ⟨rfl, rfl, rfl⟩
  · cases hnew

/-- What a cache promises after some calls. -/
structure Faithful (num_shards capacity : Nat) (cache : SignatureLruCache) (calls : List Call) :
    Prop where
  /-- The queue of a shard lists the keys of its map, each once. -/
  order : ∀ shard ∈ (cache.run calls).shards,
    shard.order.Nodup ∧ ∀ key, key ∈ shard.order ↔ key ∈ shard.entries
  bounded : ∀ shard ∈ (cache.run calls).shards, shard.entries.keys.length ≤ max 1 capacity
  /-- A key lives in the shard of its low bits only. -/
  low_bits : ∀ i shard key, (cache.run calls).shards[i]? = some shard → key ∈ shard.entries →
    i = key.toNat % num_shards
  /-- A route is that of the last insertion of the key. -/
  fresh : ∀ key, ((cache.run calls).get key).1 = none ∨
    ((cache.run calls).get key).1 = (latest Prod.fst (inserts calls) key).map Prod.snd
  /-- A key stays as long as fewer other keys have entered its shard than there is room for. -/
  kept : ∀ before key format after, calls = before ++ .insert key format :: after →
    ((cache.run before).get key).1 = none →
    ((cache.run (before ++ [.insert key format])).othersEntered key after).card < max 1 capacity →
    ∃ last, latest Prod.fst (inserts calls) key = some (key, last) ∧
      ((cache.run calls).get key).1 = some last
  hits : (cache.run calls).hits = (cache.trace calls).countP isHit
  misses : (cache.run calls).misses = (cache.trace calls).countP isMiss
  evictions : (cache.run calls).evictions =
    ((cache.trace calls).map fun step => (removed step).card).sum

/-- A key that has entered is found while fewer others enter than there is room for. -/
theorem Valid.isSome_get_of_entered {cache : SignatureLruCache} {capacity : Nat}
    (h : cache.Valid capacity) {key : UInt64} (hnew : (cache.get key).1 = none)
    (format : VendorFormat) (after : List Call)
    (hfew : ((cache.insert key format).othersEntered key after).card < max 1 capacity) :
    (((cache.insert key format).run after).get key).1.isSome = true := by
  have hnext : (cache.insert key format).Valid capacity := h.call (.insert key format)
  have hnotMem : key ∉ (cache.shard key).order := by
    rw [← h.isSome_get_iff, hnew]
    decide
  -- the key has just entered, so that it is the last of the queue
  have horder := h.order_call_insert key format key
  rw [if_pos rfl, fifo.enter_of_notMem hnotMem] at horder
  obtain ⟨hrun, hentered⟩ := hnext.order_run key after
  have hnodup := (hnext.shard key).1.nodup
  rw [(hnext.run after).isSome_get_iff, hrun, horder]
  rw [horder] at hnodup
  rcases fifo.mem_or_le_card_entered capacity
    ((cache.insert key format).insertedBeside key after) hnodup with hmem | hle
  · exact hmem
  · rw [othersEntered, hentered, horder] at hfew
    exact absurd hfew (Nat.not_lt.mpr hle)

/-- A cache never returns a stale or foreign route. -/
theorem run_faithful {num_shards capacity : Nat} {cache : SignatureLruCache}
    (hnew : with_capacity num_shards capacity = ok cache) (calls : List Call) :
    Faithful num_shards capacity cache calls := by
  obtain ⟨hvalid, hidx, hempty, hhits, hmisses, hevictions⟩ := of_with_capacity hnew
  have hrun := hvalid.run calls
  have hshard : ∀ shard ∈ (cache.run calls).shards, shard.Valid ∧ shard.capacity = capacity := by
    intro shard hmem
    obtain ⟨i, hi⟩ := List.mem_iff_getElem?.mp hmem
    obtain ⟨hshard, hcapacity, -⟩ := hrun.shards i shard hi
    exact ⟨hshard, hcapacity⟩
  constructor
  case order =>
    intro shard hmem
    obtain ⟨h, -⟩ := hshard shard hmem
    exact ⟨h.nodup, h.mem_order_iff⟩
  case bounded =>
    intro shard hmem
    obtain ⟨h, rfl⟩ := hshard shard hmem
    have hlength : shard.entries.keys.length = shard.entries.entries.length := List.length_map _
    rw [hlength, h.length_eq]
    exact h.length_le
  case low_bits =>
    intro i shard key hi hkey
    obtain ⟨h, -, hown⟩ := hrun.shards i shard hi
    rw [← hown key ((h.mem_order_iff key).mpr hkey), shard_idx_run, hidx]
  case fresh =>
    intro key
    cases hget : ((cache.run calls).get key).1 with
    | none => exact .inl rfl
    | some format =>
      right
      rw [latest_of_get hempty calls hget, Option.map_some]
  case kept =>
    rintro before key format after rfl hentered hfew
    rw [run_concat] at hfew
    have hsome := (hvalid.run before).isSome_get_of_entered hentered format after hfew
    obtain ⟨last, hlast⟩ := Option.isSome_iff_exists.mp hsome
    have hsplit : cache.run (before ++ .insert key format :: after) =
        ((cache.run before).insert key format).run after := by
      rw [run, List.foldl_append]
      rfl
    rw [← hsplit] at hlast
    exact ⟨last, latest_of_get hempty _ hlast, hlast⟩
  case hits => rw [(cache.hits_run calls).1, hhits, Nat.zero_add]
  case misses => rw [(cache.hits_run calls).2, hmisses, Nat.zero_add]
  case evictions => rw [hvalid.evictions_run calls, hevictions, Nat.zero_add]

/-- A cache of one shard. -/
def oneShard (capacity : Nat) : SignatureLruCache where
  shards := [Shard.new capacity]
  shard_mask := 0
  hits := 0
  misses := 0
  evictions := 0
  shards_length := rfl

theorem with_capacity_one (capacity : Nat) : with_capacity 1 capacity = ok (oneShard capacity) := by
  have hpow : Nat.isPowerOfTwo 1 := ⟨0, rfl⟩
  rw [with_capacity, dif_pos hpow]
  rfl

/-- A shard without room for a key has the last one all the same. -/
theorem run_faithful_no_room :
    with_capacity 1 0 = ok (oneShard 0) ∧
      Faithful 1 0 (oneShard 0) [.insert 7 .CiscoAsa, .insert 8 .Fortinet, .get 8] :=
  ⟨with_capacity_one 0, run_faithful (with_capacity_one 0) _⟩

end SignatureLruCache

end ulpf_core.parser.lru_cache
