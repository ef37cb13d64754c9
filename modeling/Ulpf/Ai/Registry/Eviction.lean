import Ulpf.Lib.Recency
import Ulpf.Ai.Registry

open Result recency
open ulpf_core.parser (Reading)
open ulpf_integrity.merkle (Digest)

namespace ulpf_ai.onboarder

namespace DynamicParserRegistry

/-- The calls of a registry. -/
inductive Call where
  | register (parser : ParserDefinition)
  | parse_key (reading : Reading) (key : String) (raw : List Char)
  | parse (reading : Reading) (vendor : String) (raw : List Char)
  | parse_any_keyed (reading : Reading) (raw : List Char)

section

variable (H : Type) [Digest H] (crates : Crates)

/-- The registry after a call. -/
def call (self : DynamicParserRegistry) : Call → Result DynamicParserRegistry
  | .register parser => ok (self.register crates parser).2
  | .parse_key reading key raw => do
    let (_, next) ← self.parse_key H crates reading key raw
    ok next
  | .parse reading vendor raw => do
    let (_, next) ← self.parse H crates reading vendor raw
    ok next
  | .parse_any_keyed reading raw => do
    let (_, next) ← self.parse_any_keyed H crates reading raw
    ok next

/-- The key that a call touches: the registered one, the one that is parsed with if there is an
    entry for it, or the winning one. -/
def touched (self : DynamicParserRegistry) : Call → Result (Option String)
  | .register parser => ok (some (self.register crates parser).1)
  | .parse_key _ key _ => ok (if self.parsers.contains key then some key else none)
  | .parse _ vendor _ => ok (self.find_key (String.ofList (crates.to_lowercase vendor.toList)))
  | .parse_any_keyed reading raw => do
    let (won, _) ← self.parse_any_keyed H crates reading raw
    ok (won.map Prod.fst)

/-- Some calls in turn; `touches` are the keys that have been touched. -/
def run : List Call → DynamicParserRegistry → List String →
    Result (DynamicParserRegistry × List String)
  | [], self, touches => ok (self, touches)
  | c :: calls, self, touches => do
    let key ← self.touched H crates c
    let next ← self.call H crates c
    run calls next (touches ++ key.toList)

end

/-- The entry that is left of two by the search for the oldest. -/
def pickOlder (best : Option (String × Nat)) (entry : String × RegistryEntry) :
    Option (String × Nat) :=
  match best with
  | some (key, last_use) =>
    if entry.2.last_use < last_use then some (entry.1, entry.2.last_use) else some (key, last_use)
  | none => some (entry.1, entry.2.last_use)

theorem evict_key_eq (parsers : List (String × RegistryEntry)) :
    evict_key parsers = (parsers.foldl pickOlder none).map Prod.fst := rfl

theorem foldl_pickOlder (best : String × Nat) (parsers : List (String × RegistryEntry)) :
    ∃ picked, parsers.foldl pickOlder (some best) = some picked ∧
      (picked = best ∨ ∃ entry, (picked.1, entry) ∈ parsers ∧ entry.last_use = picked.2) ∧
      picked.2 ≤ best.2 ∧ ∀ binding ∈ parsers, picked.2 ≤ binding.2.last_use := by
  induction parsers generalizing best with
  | nil => exact ⟨best, rfl, .inl rfl, le_rfl, by simp⟩
  | cons binding parsers ih =>
    obtain ⟨next, hnext, hfrom, hbest, hbinding⟩ : ∃ next, pickOlder (some best) binding = some next ∧
        (next = best ∨ next = (binding.1, binding.2.last_use)) ∧ next.2 ≤ best.2 ∧
        next.2 ≤ binding.2.last_use := by
      unfold pickOlder
      dsimp only
      split
      · rename_i hlt
        exact ⟨_, rfl, .inr rfl, hlt.le, le_rfl⟩
      · rename_i hle
        exact ⟨_, rfl, .inl rfl, le_rfl, Nat.le_of_not_lt hle⟩
    obtain ⟨picked, hpicked, hsource, hle, hall⟩ := ih next
    refine ⟨picked, by rw [List.foldl_cons, hnext, hpicked], ?_, hle.trans hbest, ?_⟩
    · rcases hsource with rfl | ⟨entry, hentry, hstamp⟩
      · rcases hfrom with rfl | rfl
        · exact .inl rfl
        · exact .inr ⟨binding.2, List.mem_cons_self, rfl⟩
      · exact .inr ⟨entry, List.mem_cons_of_mem binding hentry, hstamp⟩
    · rw [List.forall_mem_cons]
      exact ⟨hle.trans hbinding, hall⟩

/-- The evicted entry is one with the smallest stamp. -/
theorem evict_key_spec {parsers : List (String × RegistryEntry)} (hne : parsers ≠ []) :
    ∃ key entry, evict_key parsers = some key ∧ (key, entry) ∈ parsers ∧
      ∀ binding ∈ parsers, entry.last_use ≤ binding.2.last_use := by
  obtain ⟨first, rest, rfl⟩ := List.exists_cons_of_ne_nil hne
  obtain ⟨picked, hpicked, hsource, hfirst, hrest⟩ :=
    foldl_pickOlder (first.1, first.2.last_use) rest
  have hkey : evict_key (first :: rest) = some picked.1 := by
    rw [evict_key_eq, List.foldl_cons]
    exact congrArg (Option.map Prod.fst) hpicked
  rcases hsource with rfl | ⟨entry, hentry, hstamp⟩
  · exact ⟨_, first.2, hkey, List.mem_cons_self, List.forall_mem_cons.mpr ⟨le_rfl, hrest⟩⟩
  · refine ⟨_, entry, hkey, List.mem_cons_of_mem first hentry, ?_⟩
    rw [hstamp, List.forall_mem_cons]
    exact ⟨hfirst, hrest⟩

/-- What a call can do: nothing but let time pass, use an entry, or register a definition, which
    takes the place of the oldest entry where a new key finds the registry full. -/
inductive Step (crates : Crates) (self : DynamicParserRegistry) :
    Call → Option String → DynamicParserRegistry → Prop where
  | idle {c : Call} (hc : ∀ parser, c ≠ .register parser) {clock : Nat}
      (hclock : self.clock ≤ clock) : Step crates self c none { self with clock }
  | used {c : Call} (hc : ∀ parser, c ≠ .register parser) {key : String} {entry : RegistryEntry}
      (hentry : self.parsers[key]? = some entry) :
      Step crates self c (some key) { self with
        parsers := self.parsers.insert key { entry with last_use := self.clock + 1 }
        clock := self.clock + 1 }
  | added {parser : ParserDefinition}
      (hroom : self.parsers.contains (parser.registry_key crates) = true ∨
        self.parsers.size < self.capacity) :
      Step crates self (.register parser) (some (parser.registry_key crates)) { self with
        parsers := self.parsers.insert (parser.registry_key crates)
          (parser.registry_entry crates (self.clock + 1))
        clock := self.clock + 1 }
  | replaced {parser : ParserDefinition}
      (hnew : self.parsers.contains (parser.registry_key crates) = false)
      (hfull : self.capacity ≤ self.parsers.size) {oldest : String} {entry : RegistryEntry}
      (hentry : self.parsers[oldest]? = some entry)
      (hmin : ∀ (key : String) (other : RegistryEntry), self.parsers[key]? = some other →
        entry.last_use ≤ other.last_use) :
      Step crates self (.register parser) (some (parser.registry_key crates)) { self with
        parsers := (self.parsers.erase oldest).insert (parser.registry_key crates)
          (parser.registry_entry crates (self.clock + 1))
        clock := self.clock + 1 }

section

variable {crates : Crates}

theorem withRoomFor_of_full {self : DynamicParserRegistry} (hcapacity : 0 < self.capacity)
    {key : String} (hnew : self.parsers.contains key = false)
    (hfull : self.capacity ≤ self.parsers.size) :
    ∃ oldest entry, self.withRoomFor key = self.parsers.erase oldest ∧
      self.parsers[oldest]? = some entry ∧
      ∀ (key : String) (other : RegistryEntry), self.parsers[key]? = some other →
        entry.last_use ≤ other.last_use := by
  have hne : self.parsers.toList ≠ [] := by
    rw [← List.length_pos_iff, Std.TreeMap.length_toList]
    omega
  obtain ⟨oldest, entry, hevict, hentry, hmin⟩ := evict_key_spec hne
  refine ⟨oldest, entry, ?_, Std.TreeMap.mem_toList_iff_getElem?_eq_some.mp hentry, ?_⟩
  · rw [withRoomFor, if_pos (by simp [hnew, hfull]), hevict]
  · intro key other hother
    exact hmin (key, other) (Std.TreeMap.mem_toList_iff_getElem?_eq_some.mpr hother)

theorem step_register (self : DynamicParserRegistry) (hcapacity : 0 < self.capacity)
    (parser : ParserDefinition) :
    Step crates self (.register parser) (some (self.register crates parser).1)
      (self.register crates parser).2 := by
  rw [register_eq]
  dsimp only
  by_cases hroom : self.parsers.contains (parser.registry_key crates) = true ∨
      self.parsers.size < self.capacity
  · rw [withRoomFor_of_room hroom]
    exact .added hroom
  · obtain ⟨hnew, hfull⟩ := not_or.mp hroom
    rw [Bool.not_eq_true] at hnew
    have hfull := Nat.le_of_not_lt hfull
    obtain ⟨oldest, entry, herase, hentry, hmin⟩ := withRoomFor_of_full hcapacity hnew hfull
    rw [herase]
    exact .replaced hnew hfull hentry hmin

section

variable {H : Type} [Digest H]

/-- Parsing with a key uses its entry, if there is one, whether or not the line matches. -/
theorem step_parse_key (self : DynamicParserRegistry) (reading : Reading) (key : String)
    (raw : List Char) {c : Call} (hc : ∀ parser, c ≠ .register parser) :
    ∃ activity next, self.parse_key H crates reading key raw = ok (activity, next) ∧
      Step crates self c (if self.parsers.contains key then some key else none) next := by
  obtain ⟨⟨activity, next⟩, hparse⟩ :=
    ne_panic_iff.mp (parse_key_ne_panic H crates reading self key raw)
  refine ⟨activity, next, hparse, ?_⟩
  unfold parse_key at hparse
  dsimp only at hparse
  rw [Std.TreeMap.contains_eq_isSome_getElem?]
  cases hentry : self.parsers[key]? with
  | none =>
    rw [hentry] at hparse
    cases hparse
    exact .idle hc (Nat.le_succ _)
  | some entry =>
    rw [hentry] at hparse
    dsimp only at hparse
    have hnext : next = { self with
        parsers := self.parsers.insert key { entry with last_use := self.clock + 1 }
        clock := self.clock + 1 } := by
      cases hregex : entry.regex with
      | none =>
        rw [hregex] at hparse
        cases hparse
        rfl
      | some re =>
        rw [hregex] at hparse
        obtain ⟨parsed, -, hparse⟩ := bind_eq_ok_iff.mp hparse
        cases hparse
        rfl
    rw [hnext]
    exact .used hc hentry

theorem contains_of_find_key {self : DynamicParserRegistry} {vendor_key key : String}
    (hfind : self.find_key vendor_key = some key) : self.parsers.contains key = true := by
  unfold find_key at hfind
  split at hfind
  · rename_i hcontains
    cases hfind
    exact hcontains
  · exact Std.TreeMap.mem_keys.mp (List.mem_of_find?_eq_some hfind)

/-- Parsing for a vendor uses the entry that is found for it, if there is one. -/
theorem step_parse (self : DynamicParserRegistry) (reading : Reading) (vendor : String)
    (raw : List Char) :
    ∃ key next, self.touched H crates (.parse reading vendor raw) = ok key ∧
      self.call H crates (.parse reading vendor raw) = ok next ∧
      Step crates self (.parse reading vendor raw) key next := by
  cases hfind : self.find_key (String.ofList (crates.to_lowercase vendor.toList)) with
  | none =>
    refine ⟨none, self, congrArg ok hfind, ?_, .idle (by simp) le_rfl⟩
    rw [call, parse, hfind]
    rfl
  | some key =>
    obtain ⟨activity, next, hparse, hstep⟩ := step_parse_key (H := H) self reading key raw
      (c := .parse reading vendor raw) (by simp)
    rw [if_pos (contains_of_find_key hfind)] at hstep
    refine ⟨some key, next, congrArg ok hfind, ?_, hstep⟩
    rw [call, parse, hfind]
    dsimp only
    rw [hparse, bind_ok]
    cases activity <;> rfl

/-- Trying all parsers uses the entry that wins, if one does. -/
theorem step_parse_any_keyed (self : DynamicParserRegistry) (reading : Reading) (raw : List Char) :
    ∃ key next, self.touched H crates (.parse_any_keyed reading raw) = ok key ∧
      self.call H crates (.parse_any_keyed reading raw) = ok next ∧
      Step crates self (.parse_any_keyed reading raw) key next := by
  obtain ⟨found, hfound⟩ :=
    ne_panic_iff.mp (first_match_ne_panic H crates reading raw self.parsers.toList)
  cases found with
  | none =>
    have hparse : self.parse_any_keyed H crates reading raw =
        ok (none, { self with clock := self.clock + 1 }) := by
      rw [parse_any_keyed, hfound]
      rfl
    refine ⟨none, _, ?_, ?_, .idle (by simp) (Nat.le_succ self.clock)⟩
    · rw [touched, hparse]
      rfl
    · rw [call, hparse]
      rfl
  | some won =>
    obtain ⟨key, entry, activity⟩ := won
    have hentry := Std.TreeMap.mem_toList_iff_getElem?_eq_some.mp (of_first_match hfound).1
    have hparse : self.parse_any_keyed H crates reading raw =
        ok (some (key, activity), { self with
          parsers := self.parsers.insert key { entry with last_use := self.clock + 1 }
          clock := self.clock + 1 }) := by
      rw [parse_any_keyed, hfound]
      rfl
    refine ⟨some key, _, ?_, ?_, .used (by simp) hentry⟩
    · rw [touched, hparse]
      rfl
    · rw [call, hparse]
      rfl

/-- Every call returns and does one of these things. -/
theorem step_call (self : DynamicParserRegistry) (hcapacity : 0 < self.capacity) (c : Call) :
    ∃ key next, self.touched H crates c = ok key ∧ self.call H crates c = ok next ∧
      Step crates self c key next := by
  cases c with
  | register parser => exact ⟨_, _, rfl, rfl, step_register self hcapacity parser⟩
  | parse_key reading key raw =>
    obtain ⟨activity, next, hparse, hstep⟩ := step_parse_key (H := H) self reading key raw
      (c := .parse_key reading key raw) (by simp)
    exact ⟨_, next, rfl, by rw [call, hparse, bind_ok], hstep⟩
  | parse reading vendor raw => exact self.step_parse reading vendor raw
  | parse_any_keyed reading raw => exact self.step_parse_any_keyed reading raw

end

/-- The stamp of the entry of a key. -/
def stamp (self : DynamicParserRegistry) (key : String) : Option Nat :=
  (self.parsers[key]?).map RegistryEntry.last_use

/-- The registry is bounded, and its stamps tell in which order its keys were touched last. -/
structure Lru (registry : DynamicParserRegistry) (touches : List String) : Prop where
  capacity_eq : registry.capacity = REGISTRY_CAPACITY
  size_le : registry.parsers.size ≤ registry.capacity
  stamps : Stamps registry.stamp registry.clock touches

theorem lru_new : Lru new [] where
  capacity_eq := rfl
  size_le := Nat.zero_le _
  stamps := Stamps.empty (fun key => by simp [stamp, new]) 0

theorem stamp_insert {self next : DynamicParserRegistry} {key : String} {entry : RegistryEntry}
    {left : Std.TreeMap String RegistryEntry}
    (hleft : ∀ (k : String) (e : RegistryEntry), left[k]? = some e → self.parsers[k]? = some e)
    (hnext : next.parsers = left.insert key entry) (hstamp : entry.last_use = self.clock + 1)
    {k : String} {n : Nat} (hk : next.stamp k = some n) :
    (k = key ∧ n = self.clock + 1) ∨ (k ≠ key ∧ self.stamp k = some n) := by
  rw [stamp, hnext, Std.TreeMap.getElem?_insert] at hk
  simp only [Std.compare_eq_iff_eq] at hk
  split at hk
  · rename_i hkey
    left
    rw [Option.map_some, Option.some.injEq, hstamp] at hk
    exact ⟨hkey.symm, hk.symm⟩
  · rename_i hkey
    right
    obtain ⟨e, he, hn⟩ := Option.map_eq_some_iff.mp hk
    exact ⟨Ne.symm hkey, Option.map_eq_some_iff.mpr ⟨e, hleft k e he, hn⟩⟩

theorem contains_of_getElem? {parsers : Std.TreeMap String RegistryEntry} {key : String}
    {entry : RegistryEntry} (h : parsers[key]? = some entry) : parsers.contains key = true := by
  rw [Std.TreeMap.contains_eq_isSome_getElem?, h]
  rfl

theorem getElem?_of_getElem?_erase {parsers : Std.TreeMap String RegistryEntry} {oldest k : String}
    {e : RegistryEntry} (h : (parsers.erase oldest)[k]? = some e) : parsers[k]? = some e := by
  rw [Std.TreeMap.getElem?_erase] at h
  split at h
  · cases h
  · exact h

/-- One call keeps the bound and the order of the stamps. -/
theorem Step.lru {self next : DynamicParserRegistry} {touches : List String} {c : Call}
    {key : Option String} (hstep : Step crates self c key next) (h : Lru self touches) :
    Lru next (touches ++ key.toList) := by
  have hkept : ∀ (k : String) (e : RegistryEntry), self.parsers[k]? = some e →
      self.parsers[k]? = some e := fun _ _ => id
  cases hstep with
  | idle hc hclock =>
    refine ⟨h.capacity_eq, h.size_le, ?_⟩
    rw [Option.toList_none, List.append_nil]
    exact h.stamps.mono hclock id
  | used hc hentry =>
    refine ⟨h.capacity_eq, ?_, h.stamps.touch _ (stamp_insert hkept rfl rfl)⟩
    dsimp only
    rw [Std.TreeMap.size_insert, if_pos]
    · exact h.size_le
    · exact contains_of_getElem? hentry
  | added hroom =>
    refine ⟨h.capacity_eq, ?_, h.stamps.touch _ (stamp_insert hkept rfl rfl)⟩
    dsimp only
    rw [Std.TreeMap.size_insert]
    split
    · exact h.size_le
    · rename_i hnew
      rcases hroom with hcontains | hsize
      · exact absurd hcontains hnew
      · exact hsize
  | @replaced parser hnew hfull oldest entry hentry hmin =>
    refine ⟨h.capacity_eq, ?_,
      h.stamps.touch _ (stamp_insert (fun _ _ => getElem?_of_getElem?_erase) rfl rfl)⟩
    have hpos : 0 < self.capacity := h.capacity_eq ▸ (by decide)
    have hle := h.size_le
    dsimp only
    rw [Std.TreeMap.size_insert, Std.TreeMap.size_erase, if_pos (contains_of_getElem? hentry)]
    split <;> omega

/-- What a call does to a registry whose keys were touched in the given order. -/
structure LruCall (crates : Crates) (touches : List String) (registry : DynamicParserRegistry)
    (c : Call) (next : DynamicParserRegistry) : Prop where
  /-- Registering an existing key evicts nothing. -/
  existing : ∀ parser, c = .register parser →
    registry.parsers.contains (registry.register crates parser).1 = true →
    ∀ key, registry.parsers.contains key = true → next.parsers.contains key = true
  /-- A new key that finds the registry full evicts the key that was touched least recently. -/
  full : ∀ parser, c = .register parser →
    registry.parsers.contains (registry.register crates parser).1 = false →
    registry.parsers.size = REGISTRY_CAPACITY →
    ∃ oldest, registry.parsers.contains oldest = true ∧
      (∀ key, registry.parsers.contains key = true → key ≠ oldest → Older touches oldest key) ∧
      ∀ key, registry.parsers.contains key = true →
        (next.parsers.contains key = false ↔ key = oldest)
  /-- Nothing else evicts a key. -/
  otherwise : (∀ parser, c = .register parser →
      registry.parsers.contains (registry.register crates parser).1 = false →
      registry.parsers.size < REGISTRY_CAPACITY) →
    ∀ key, registry.parsers.contains key = true → next.parsers.contains key = true
  /-- An entry that is not registered anew keeps its definition. -/
  unchanged : ∀ key entry entry', registry.parsers[key]? = some entry →
    next.parsers[key]? = some entry' →
    (∀ parser, c = .register parser → (registry.register crates parser).1 ≠ key) →
    entry'.parser = entry.parser ∧ entry'.regex = entry.regex
  /-- A registered key has the definition it was registered with. -/
  registered : ∀ parser, c = .register parser →
    ∃ entry, next.parsers[(registry.register crates parser).1]? = some entry ∧ entry.parser = parser

theorem contains_insert_of_contains {parsers : Std.TreeMap String RegistryEntry} {key : String}
    (hkey : parsers.contains key = true) (added : String) (entry : RegistryEntry) :
    (parsers.insert added entry).contains key = true := by
  rw [Std.TreeMap.contains_insert, hkey, Bool.or_true]

/-- A key is lost only to a new key that finds the registry full. -/
theorem Step.contains {self next : DynamicParserRegistry} {c : Call} {touch : Option String}
    (hstep : Step crates self c touch next)
    (hroom : ∀ parser, c = .register parser →
      self.parsers.contains (parser.registry_key crates) = false →
      self.parsers.size < self.capacity)
    {key : String} (hkey : self.parsers.contains key = true) : next.parsers.contains key = true := by
  cases hstep with
  | idle hc hclock => exact hkey
  | used hc hentry => exact contains_insert_of_contains hkey _ _
  | added _ => exact contains_insert_of_contains hkey _ _
  | replaced hnew hfull hentry hmin => exact absurd (hroom _ rfl hnew) (Nat.not_lt.mpr hfull)

/-- What is lost has the smallest stamp. -/
theorem Step.evicted {self next : DynamicParserRegistry} {parser : ParserDefinition}
    {touch : Option String} (hstep : Step crates self (.register parser) touch next)
    (hnew : self.parsers.contains (parser.registry_key crates) = false)
    (hfull : self.capacity ≤ self.parsers.size) :
    ∃ oldest entry, self.parsers[oldest]? = some entry ∧
      (∀ (key : String) (other : RegistryEntry), self.parsers[key]? = some other →
        entry.last_use ≤ other.last_use) ∧
      ∀ key, self.parsers.contains key = true →
        (next.parsers.contains key = false ↔ key = oldest) := by
  cases hstep with
  | idle hc hclock => exact absurd rfl (hc parser)
  | used hc hentry => exact absurd rfl (hc parser)
  | added hroom =>
    rcases hroom with hcontains | hsize
    · rw [hnew] at hcontains
      cases hcontains
    · omega
  | @replaced _ _ _ oldest entry hentry hmin =>
    refine ⟨oldest, entry, hentry, hmin, fun key hkey => ?_⟩
    have hne : parser.registry_key crates ≠ key := by
      rintro rfl
      rw [hnew] at hkey
      cases hkey
    have hcompare : (compare (parser.registry_key crates) key == .eq) = false := by simp [hne]
    rw [Std.TreeMap.contains_insert, Std.TreeMap.contains_erase, hkey, hcompare, Bool.false_or,
      Bool.and_true, bne_eq_false_iff_eq, Std.compare_eq_iff_eq]
    exact eq_comm

theorem Step.unchanged {self next : DynamicParserRegistry} {c : Call} {touch : Option String}
    (hstep : Step crates self c touch next) {key : String} {entry entry' : RegistryEntry}
    (hentry : self.parsers[key]? = some entry) (hentry' : next.parsers[key]? = some entry')
    (hother : ∀ parser, c = .register parser → parser.registry_key crates ≠ key) :
    entry'.parser = entry.parser ∧ entry'.regex = entry.regex := by
  cases hstep with
  | idle hc hclock =>
    rw [hentry] at hentry'
    cases hentry'
    exact ⟨rfl, rfl⟩
  | used hc hused =>
    rw [Std.TreeMap.getElem?_insert] at hentry'
    split at hentry'
    · rename_i hkey
      rw [Std.compare_eq_iff_eq] at hkey
      subst hkey
      rw [hused] at hentry
      cases hentry
      cases hentry'
      exact ⟨rfl, rfl⟩
    · rw [hentry] at hentry'
      cases hentry'
      exact ⟨rfl, rfl⟩
  | added hroom =>
    rw [Std.TreeMap.getElem?_insert, if_neg (by simpa using hother _ rfl), hentry] at hentry'
    cases hentry'
    exact ⟨rfl, rfl⟩
  | replaced hnew hfull hold hmin =>
    rw [Std.TreeMap.getElem?_insert, if_neg (by simpa using hother _ rfl)] at hentry'
    rw [getElem?_of_getElem?_erase hentry'] at hentry
    cases hentry
    exact ⟨rfl, rfl⟩

theorem Step.registered {self next : DynamicParserRegistry} {parser : ParserDefinition}
    {touch : Option String} (hstep : Step crates self (.register parser) touch next) :
    ∃ entry, next.parsers[parser.registry_key crates]? = some entry ∧ entry.parser = parser := by
  cases hstep with
  | idle hc hclock => exact absurd rfl (hc parser)
  | used hc hentry => exact absurd rfl (hc parser)
  | added hroom => exact ⟨_, Std.TreeMap.getElem?_insert_self, rfl⟩
  | replaced hnew hfull hold hmin => exact ⟨_, Std.TreeMap.getElem?_insert_self, rfl⟩

/-- The smallest stamp is that of the key touched least recently. -/
theorem Lru.older {self : DynamicParserRegistry} {touches : List String} (h : Lru self touches)
    {oldest key : String} {entry : RegistryEntry} (hentry : self.parsers[oldest]? = some entry)
    (hmin : ∀ (key : String) (other : RegistryEntry), self.parsers[key]? = some other →
      entry.last_use ≤ other.last_use)
    (hkey : self.parsers.contains key = true) (hne : key ≠ oldest) : Older touches oldest key := by
  rw [Std.TreeMap.contains_eq_isSome_getElem?] at hkey
  obtain ⟨other, hother⟩ := Option.isSome_iff_exists.mp hkey
  have hold : self.stamp oldest = some entry.last_use := by rw [stamp, hentry, Option.map_some]
  have hstamp : self.stamp key = some other.last_use := by rw [stamp, hother, Option.map_some]
  rw [← h.stamps.lt_iff hold hstamp]
  refine lt_of_le_of_ne (hmin key other hother) fun heq => hne ?_
  exact h.stamps.injective hstamp (heq ▸ hold)

theorem Step.lruCall {self next : DynamicParserRegistry} {touches : List String} {c : Call}
    {touch : Option String} (hstep : Step crates self c touch next) (h : Lru self touches) :
    LruCall crates touches self c next where
  existing := by
    rintro parser rfl hexists key hkey
    refine hstep.contains ?_ hkey
    rintro _ ⟨⟩ hnew
    rw [register_eq] at hexists
    rw [hnew] at hexists
    cases hexists
  full := by
    rintro parser rfl hnew hsize
    obtain ⟨oldest, entry, hentry, hmin, hlost⟩ :=
      hstep.evicted hnew (by rw [h.capacity_eq, hsize])
    exact ⟨oldest, contains_of_getElem? hentry,
      fun key hkey hne => h.older hentry hmin hkey hne, hlost⟩
  otherwise hroom key hkey := by
    refine hstep.contains (fun parser hc hnew => ?_) hkey
    rw [h.capacity_eq]
    exact hroom parser hc hnew
  unchanged _ _ _ hentry hentry' hother := hstep.unchanged hentry hentry' hother
  registered := by
    rintro parser rfl
    exact hstep.registered

section

variable (H : Type) [Digest H]

variable (crates) in
theorem run_ok (calls : List Call) {self : DynamicParserRegistry} {touches : List String}
    (h : Lru self touches) :
    ∃ last history, run H crates calls self touches = ok (last, history) ∧ Lru last history := by
  induction calls generalizing self touches with
  | nil => exact ⟨self, touches, rfl, h⟩
  | cons c calls ih =>
    obtain ⟨key, next, htouched, hcall, hstep⟩ :=
      step_call (H := H) self (h.capacity_eq ▸ (by decide)) c
    obtain ⟨last, history, hrun, hlast⟩ := ih (hstep.lru h)
    exact ⟨last, history, by rw [run, htouched, bind_ok, hcall, bind_ok, hrun], hlast⟩

/-- After any calls the registry is a bounded map whose entries have distinct stamps up to the
    clock, and every further call evicts by the order in which the keys were touched last. -/
theorem run_lru (calls : List Call) :
    ∃ self touches, run H crates calls new [] = ok (self, touches) ∧
      self.parsers.size ≤ REGISTRY_CAPACITY ∧
      (∀ (key : String) (entry : RegistryEntry), self.parsers[key]? = some entry →
        entry.last_use ≤ self.clock) ∧
      (∀ (key key' : String) (entry entry' : RegistryEntry), self.parsers[key]? = some entry →
        self.parsers[key']? = some entry' → entry.last_use = entry'.last_use → key = key') ∧
      ∀ c, ∃ next, self.call H crates c = ok next ∧ LruCall crates touches self c next := by
  obtain ⟨self, touches, hrun, h⟩ := run_ok crates H calls lru_new
  have hstamp : ∀ {key : String} {entry : RegistryEntry}, self.parsers[key]? = some entry →
      self.stamp key = some entry.last_use := by
    intro key entry hentry
    rw [stamp, hentry, Option.map_some]
  refine ⟨self, touches, hrun, h.capacity_eq ▸ h.size_le, ?_, ?_, ?_⟩
  · intro key entry hentry
    exact h.stamps.le_clock (hstamp hentry)
  · intro key key' entry entry' hentry hentry' heq
    exact h.stamps.injective (hstamp hentry) (heq ▸ hstamp hentry')
  · intro c
    obtain ⟨_, next, -, hcall, hstep⟩ := step_call (H := H) self (h.capacity_eq ▸ (by decide)) c
    exact ⟨next, hcall, hstep.lruCall h⟩

end

end

end DynamicParserRegistry

end ulpf_ai.onboarder
