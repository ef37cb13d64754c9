import Mathlib.Data.Finset.Card
import Ulpf.Lib.LastWrite
import Ulpf.Ai.Onboarder

open last_write

namespace ulpf_ai.onboarder

/-- The key of the registry. -/
def Contents.key (crates : Crates) (self : Contents) : String :=
  String.ofList (crates.to_lowercase self.vendor.toList) ++ ":" ++ self.device_model

namespace DynamicParserRegistry

def register_all (crates : Crates) (parsers : List ParserDefinition) : DynamicParserRegistry :=
  parsers.foldl (fun registry parser => (registry.register crates parser).2) new

/-- What the registry answers for a key. -/
def answer (self : DynamicParserRegistry) (key : String) : Option Contents :=
  (self.parsers[key]?).map fun entry => entry.parser.contents

section

variable {crates : Crates}

/-- With room for a new key, nothing is evicted. -/
theorem parsers_register {self : DynamicParserRegistry} {parser : ParserDefinition}
    (hroom : self.parsers.contains (parser.contents.key crates) = true ∨
      self.parsers.size < self.capacity) :
    ∃ entry : RegistryEntry, entry.parser = parser ∧
      (self.register crates parser).2.parsers =
        self.parsers.insert (parser.contents.key crates) entry := by
  refine ⟨parser.registry_entry crates (self.clock + 1), rfl, ?_⟩
  rw [register_eq]
  exact congrArg (fun parsers : Std.TreeMap String RegistryEntry => parsers.insert _ _)
    (withRoomFor_of_room hroom)

theorem register_all_concat (parsers : List ParserDefinition) (parser : ParserDefinition) :
    register_all crates (parsers ++ [parser]) =
      ((register_all crates parsers).register crates parser).2 := by
  simp [register_all]

theorem capacity_register_all (parsers : List ParserDefinition) :
    (register_all crates parsers).capacity = REGISTRY_CAPACITY := by
  induction parsers using List.reverseRecOn with
  | nil => rfl
  | append_singleton parsers parser ih =>
    rw [register_all_concat]
    exact ih

/-- The keys of a list of definitions. -/
def keys (crates : Crates) (parsers : List ParserDefinition) : Finset String :=
  (parsers.map fun parser => parser.contents.key crates).toFinset

theorem keys_concat (parsers : List ParserDefinition) (parser : ParserDefinition) :
    keys crates (parsers ++ [parser]) = insert (parser.contents.key crates) (keys crates parsers) := by
  ext key
  simp [keys]

/-- The registry has the last definition of each key. -/
structure LastOf (crates : Crates) (parsers : List ParserDefinition)
    (registry : DynamicParserRegistry) : Prop where
  size : registry.parsers.size = (keys crates parsers).card
  answer : ∀ key, registry.answer key =
    latest (Contents.key crates) (parsers.map ParserDefinition.contents) key

theorem LastOf.contains_iff {parsers : List ParserDefinition} {self : DynamicParserRegistry}
    (h : LastOf crates parsers self) (key : String) :
    self.parsers.contains key = true ↔ key ∈ keys crates parsers := by
  have hanswer : self.parsers.contains key = (self.answer key).isSome := by
    rw [Std.TreeMap.contains_eq_isSome_getElem?, DynamicParserRegistry.answer, Option.isSome_map]
  rw [hanswer, h.answer, Option.isSome_iff_ne_none, Ne, latest_eq_none_iff]
  simp [keys]

theorem LastOf.register {parsers : List ParserDefinition} {self : DynamicParserRegistry}
    (h : LastOf crates parsers self) (parser : ParserDefinition)
    (hroom : (keys crates (parsers ++ [parser])).card ≤ self.capacity) :
    LastOf crates (parsers ++ [parser]) (self.register crates parser).2 := by
  have hcontains := h.contains_iff (parser.contents.key crates)
  rw [keys_concat, Finset.card_insert_eq_ite] at hroom
  obtain ⟨entry, hentry, hparsers⟩ : ∃ entry : RegistryEntry, entry.parser = parser ∧
      (self.register crates parser).2.parsers =
        self.parsers.insert (parser.contents.key crates) entry := by
    refine parsers_register ?_
    rw [hcontains, h.size]
    by_cases hmem : parser.contents.key crates ∈ keys crates parsers
    · exact .inl hmem
    · rw [if_neg hmem] at hroom
      exact .inr hroom
  constructor
  · rw [hparsers, Std.TreeMap.size_insert, keys_concat, Finset.card_insert_eq_ite, h.size]
    simp only [hcontains]
  · intro key
    rw [DynamicParserRegistry.answer, hparsers, Std.TreeMap.getElem?_insert, List.map_append,
      List.map_singleton, latest_concat, ← h.answer, DynamicParserRegistry.answer]
    simp only [Std.compare_eq_iff_eq]
    split
    · rw [Option.map_some, hentry]
    · rfl

/-- As long as there are no more keys than the capacity, nothing is evicted. -/
theorem lastOf_register_all {parsers : List ParserDefinition}
    (hkeys : (keys crates parsers).card ≤ REGISTRY_CAPACITY) :
    LastOf crates parsers (register_all crates parsers) := by
  induction parsers using List.reverseRecOn with
  | nil => exact ⟨rfl, fun key => by simp [register_all, answer, new]⟩
  | append_singleton parsers parser ih =>
    have hfewer : (keys crates parsers).card ≤ (keys crates (parsers ++ [parser])).card := by
      rw [keys_concat]
      exact Finset.card_le_card (Finset.subset_insert _ _)
    rw [register_all_concat]
    refine (ih (hfewer.trans hkeys)).register parser ?_
    rwa [capacity_register_all]

end

end DynamicParserRegistry

end ulpf_ai.onboarder
