import Ulpf.Lib.Crates
import Ulpf.Core.Parser.Classifier

open Result
open ulpf_core.parser.classifier

namespace ulpf_core.parser.lru_cache

namespace FxHasher64

/-- One byte of the hash. -/
def step (hash : UInt64) (byte : UInt8) : UInt64 :=
  let rotated := (hash <<< 5) ||| (hash >>> 59)
  (rotated ^^^ byte.toUInt64) * 0x517cc1b727220a95

def write (hash : UInt64) (bytes : List UInt8) : UInt64 := bytes.foldl step hash

end FxHasher64

/-- One shard: its bindings, and the keys in the order they entered. -/
structure Shard where
  capacity : Nat
  entries : HashMap UInt64 VendorFormat
  order : List UInt64

namespace Shard

def new (capacity : Nat) : Shard := ⟨capacity, ∅, []⟩

def get (self : Shard) (key : UInt64) : Option VendorFormat := self.entries.lookup key

/-- Makes room for a new key by dropping the one that entered first. -/
def evict (self : Shard) : Shard × Bool :=
  if self.entries.entries.length ≥ self.capacity then
    match self.order with
    | oldest :: order => ({ self with entries := self.entries.erase oldest, order }, true)
    | [] => (self, false)
  else (self, false)

/-- Inserts a route and says whether another one was evicted. -/
def insert (self : Shard) (key : UInt64) (format : VendorFormat) : Shard × Bool :=
  if (self.entries.lookup key).isSome then
    ({ self with entries := self.entries.insert key format }, false)
  else
    let (self, evicted) := self.evict
    ({ self with entries := self.entries.insert key format, order := self.order ++ [key] }, evicted)

theorem get_of_get_evict {self : Shard} {key : UInt64} {format : VendorFormat}
    (h : self.evict.1.get key = some format) : self.get key = some format := by
  unfold evict at h
  split at h
  · split at h
    · rename_i oldest order horder
      by_cases hold : key = oldest
      · rw [get, hold, AList.lookup_erase] at h
        cases h
      · rwa [get, AList.lookup_erase_ne hold] at h
    · exact h
  · exact h

/-- An insertion adds one route and may drop others. -/
theorem get_of_get_insert {self : Shard} {key key' : UInt64} {format format' : VendorFormat}
    (h : (self.insert key format).1.get key' = some format') :
    (key' = key ∧ format' = format) ∨ self.get key' = some format' := by
  unfold insert at h
  by_cases hkey : key' = key
  · subst hkey
    left
    split at h <;> simpa [get, eq_comm] using h
  · right
    split at h
    · rwa [get, AList.lookup_insert_ne hkey] at h
    · apply get_of_get_evict
      rwa [get, AList.lookup_insert_ne hkey] at h

end Shard

/-- Sharded cache from signature hashes to parser routes. The mask selects one of
    the shards. -/
structure SignatureLruCache where
  shards : List Shard
  shard_mask : Nat
  hits : Nat
  misses : Nat
  evictions : Nat
  shards_length : shards.length = shard_mask + 1

namespace SignatureLruCache

/-- `num_shards` is asserted to be a power of two, so it is not 0. -/
def with_capacity (num_shards capacity_per_shard : Nat) : Result SignatureLruCache :=
  if h : num_shards.isPowerOfTwo then
    ok { shards := List.replicate num_shards (Shard.new capacity_per_shard)
         shard_mask := num_shards - 1
         hits := 0
         misses := 0
         evictions := 0
         shards_length := by
           have := Nat.pos_of_isPowerOfTwo h
           simp
           omega }
  else panic

def new : SignatureLruCache where
  shards := List.replicate 16 (Shard.new 512)
  shard_mask := 15
  hits := 0
  misses := 0
  evictions := 0
  shards_length := by decide

def shard_idx (self : SignatureLruCache) (signature_hash : UInt64) : Nat :=
  signature_hash.toNat &&& self.shard_mask

theorem shard_idx_lt (self : SignatureLruCache) (signature_hash : UInt64) :
    self.shard_idx signature_hash < self.shards.length := by
  have hle : signature_hash.toNat &&& self.shard_mask ≤ self.shard_mask := Nat.and_le_right
  rw [self.shards_length, shard_idx]
  omega

/-- The tokens of the structural fingerprint: pieces between separators, without
    empty ones and pure numbers. -/
def fingerprint_tokens (window : List Char) : List (List Char) :=
  (window.splitOnP fun c => c.is_whitespace || c = ',' || c = ':').filter fun token =>
    !(token.isEmpty || token.all Char.isDigit)

/-- The part of the line that a signature looks at: at most 96 bytes. -/
def window (raw : List Char) : Result (List Char) :=
  str.slice_to raw (str.floor_char_boundary raw (min (str.len raw) 96))

/-- The bytes that are hashed for a window. -/
def signature (window : List Char) : Result (List UInt8) :=
  let contains (pat : String) : Bool := str.contains (str.lit pat) window
  if contains "CEF:" then ok (str.bytes (str.lit "cef_format"))
  else
    match str.find_str (str.lit "%ASA-") window with
    | some pos => do
      let stop := str.floor_char_boundary window (min (str.len window) (pos + 16))
      let tag_slice ← str.slice window pos stop
      ok (str.bytes tag_slice)
    | none =>
      if contains "devname=" || contains "type=\"traffic\"" || contains "logid=" then
        ok (str.bytes (str.lit "fortigate_traffic"))
      else if contains "filterlog[" || contains "filterlog:" then
        ok (str.bytes (str.lit "pfsense_filterlog"))
      else if window.head? = some '\x7b' || contains "\"event_type\"" then
        ok (str.bytes (str.lit "suricata_eve_json"))
      else if contains ",TRAFFIC," || contains ",THREAT," then
        ok (str.bytes (str.lit "paloalto_panos_csv"))
      else ok (((fingerprint_tokens window).take 3).flatMap str.bytes)

/-- Structural signature and its 64-bit hash. -/
def compute_signature_hash (raw : List Char) : Result UInt64 :=
  if str.len raw = 0 then ok 0
  else do
    let window ← window raw
    let signature ← signature window
    ok (FxHasher64.write 0 signature)

/-- Cache lookup, which counts a hit or a miss. -/
def get (self : SignatureLruCache) (signature_hash : UInt64) :
    Option VendorFormat × SignatureLruCache :=
  have := self.shard_idx_lt signature_hash
  match (self.shards[self.shard_idx signature_hash]).get signature_hash with
  | some format => (some format, { self with hits := self.hits + 1 })
  | none => (none, { self with misses := self.misses + 1 })

/-- Insert a newly classified route. -/
def insert (self : SignatureLruCache) (signature_hash : UInt64) (format : VendorFormat) :
    SignatureLruCache :=
  have := self.shard_idx_lt signature_hash
  let (shard, evicted) :=
    (self.shards[self.shard_idx signature_hash]).insert signature_hash format
  { self with
    shards := self.shards.set (self.shard_idx signature_hash) shard
    evictions := if evicted then self.evictions + 1 else self.evictions
    shards_length := by simp [self.shards_length] }

/-- A new cache has no routes. -/
theorem get_new (signature_hash : UInt64) : (new.get signature_hash).1 = none := by
  have hlt := new.shard_idx_lt signature_hash
  have hshard : new.shards[new.shard_idx signature_hash] = Shard.new 512 :=
    List.getElem_replicate _
  simp only [get, hshard]
  rfl

theorem fst_get (self : SignatureLruCache) (signature_hash : UInt64) :
    (self.get signature_hash).1 =
      self.shards[self.shard_idx signature_hash]?.bind fun shard => shard.get signature_hash := by
  have hlt := self.shard_idx_lt signature_hash
  rw [List.getElem?_eq_getElem hlt, Option.bind_some, get]
  split
  · rename_i hget
    exact hget.symm
  · rename_i hget
    exact hget.symm

/-- A lookup changes the counters only. -/
theorem get_get (self : SignatureLruCache) (signature_hash other : UInt64) :
    ((self.get signature_hash).2.get other).1 = (self.get other).1 := by
  rw [fst_get, fst_get, get]
  split <;> rfl

theorem get_of_get_insert {self : SignatureLruCache} {key key' : UInt64}
    {format format' : VendorFormat} (h : ((self.insert key format).get key').1 = some format') :
    (key' = key ∧ format' = format) ∨ (self.get key').1 = some format' := by
  rw [fst_get] at h ⊢
  have hlt := self.shard_idx_lt key
  have hidx : (self.insert key format).shard_idx key' = self.shard_idx key' := rfl
  have hshards : (self.insert key format).shards = self.shards.set (self.shard_idx key)
      (self.shards[self.shard_idx key].insert key format).1 := rfl
  rw [hidx, hshards] at h
  by_cases hsame : self.shard_idx key = self.shard_idx key'
  · rw [← hsame, List.getElem?_set_self hlt, Option.bind_some] at h
    rw [← hsame, List.getElem?_eq_getElem hlt, Option.bind_some]
    exact Shard.get_of_get_insert h
  · rw [List.getElem?_set_ne hsame] at h
    exact .inr h

theorem window_ne_panic (raw : List Char) : window raw ≠ panic := by
  obtain ⟨a, b, rfl, hlen⟩ := str.exists_of_floor_char_boundary raw (min (str.len raw) 96)
  rw [window, ← hlen, str.slice_to_len]
  simp

/-- The cut behind an ASA tag is floored to a boundary that is not in front of it. -/
theorem signature_ne_panic (window : List Char) : signature window ≠ panic := by
  unfold signature
  dsimp only
  by_cases hcef : str.contains (str.lit "CEF:") window = true
  · rw [if_pos hcef]
    simp
  rw [if_neg hcef]
  cases hpos : str.find_str (str.lit "%ASA-") window with
  | none =>
    dsimp only
    repeat' split
    all_goals simp
  | some pos =>
    obtain ⟨a, b, hwindow, rfl⟩ := str.exists_of_find_str hpos
    rw [List.append_assoc] at hwindow
    obtain ⟨n, hn⟩ : ∃ n, min (str.len window) (str.len a + 16) = str.len a + n := by
      apply Nat.exists_eq_add_of_le
      rw [hwindow, str.len_append]
      omega
    obtain ⟨c, d, hcd, hlen⟩ := str.exists_of_floor_char_boundary (str.lit "%ASA-" ++ b) n
    have hstop : str.floor_char_boundary window (str.len a + n) = str.len (a ++ c) := by
      rw [hwindow, str.floor_char_boundary_append, ← hlen, str.len_append]
    have hslice : str.slice window (str.len a) (str.len (a ++ c)) = ok c := by
      rw [hwindow, hcd, ← List.append_assoc, str.slice_len]
    dsimp only
    rw [hn, hstop, hslice]
    simp

theorem compute_signature_hash_ne_panic (raw : List Char) : compute_signature_hash raw ≠ panic := by
  unfold compute_signature_hash
  split
  · simp
  · apply bind_ne_panic (window_ne_panic raw)
    intro window
    apply bind_ne_panic (signature_ne_panic window)
    simp

end SignatureLruCache

end ulpf_core.parser.lru_cache
