import Mathlib.Data.List.AList
import Mathlib.Data.Rat.Defs
import Ulpf.Lib.Slice

open Result

/-- A hash map, as the association list of its bindings. -/
abbrev HashMap (κ β : Type) := AList fun _ : κ => β

/-- The JSON values of `serde_json`. -/
inductive Value where
  | Null
  | Bool (b : Bool)
  | PosInt (n : Nat)
  | NegInt (n : Nat)
  /-- A number with a fraction or an exponent, as its text. -/
  | Float (text : String)
  | Text (s : String)
  | Array (values : List Value)
  | Object (fields : List (String × Value))

namespace Value

/-- `Value::get`; the reader keeps one field of a name. -/
def get (key : String) : Value → Option Value
  | Object fields => fields.lookup key
  | _ => none

def as_str : Value → Option (List Char)
  | Text s => some s.toList
  | _ => none

def as_u64 : Value → Option Nat
  | PosInt n => some n
  | _ => none

/-- `Value::as_object`, which keeps the fields readable through `get`. -/
def as_object : Value → Option Value
  | Object fields => some (Object fields)
  | _ => none

end Value

/-- The byte ranges that a regular expression matched: the whole match and then
    its groups. -/
structure Captures where
  groups : List (Option (Nat × Nat))

namespace Captures

def range (self : Captures) (i : Nat) : Option (Nat × Nat) := (self.groups[i]?).join

/-- `captures.get(i).map(|m| m.as_str())`: a slice of the haystack. -/
def get (self : Captures) (haystack : List Char) (i : Nat) : Result (Option (List Char)) :=
  match self.range i with
  | some range => do
    let text ← str.slice haystack range.1 range.2
    ok (some text)
  | none => ok none

/-- Every range lies inside the haystack and on character boundaries. -/
def Aligned (self : Captures) (haystack : List Char) : Prop :=
  ∀ range, some range ∈ self.groups → ∃ text, str.slice haystack range.1 range.2 = ok text

theorem mem_groups_of_range {self : Captures} {i : Nat} {range : Nat × Nat}
    (h : self.range i = some range) : some range ∈ self.groups := by
  rw [Captures.range, Option.join_eq_some_iff] at h
  exact List.mem_of_getElem? h

theorem Aligned.get_ne_panic {self : Captures} {haystack : List Char} (h : self.Aligned haystack)
    (i : Nat) : self.get haystack i ≠ panic := by
  rw [get]
  split
  · rename_i range hrange
    obtain ⟨text, htext⟩ := h range (mem_groups_of_range hrange)
    rw [htext, bind_ok]
    simp
  · simp

end Captures

/-- What the program takes from other crates: Unicode tables, the `regex` engine,
    `serde_json` and `chrono`. Patterns stand for the regular expressions compiled
    from them. -/
structure Crates where
  is_alphanumeric : Char → Bool
  to_lowercase : List Char → List Char
  /-- A number with two digits behind the point. -/
  format_fixed2 : ℚ → String
  regex_new : String → Bool
  /-- The successive matches of a pattern, leftmost first. -/
  captures_iter : String → List Char → List Captures
  captures_aligned : ∀ pattern haystack, ∀ captures ∈ captures_iter pattern haystack,
    captures.Aligned haystack
  captures_whole : ∀ pattern haystack, ∀ captures ∈ captures_iter pattern haystack,
    (captures.range 0).isSome
  /-- Successive matches do not overlap. -/
  captures_ordered : ∀ pattern haystack, (captures_iter pattern haystack).Pairwise fun a b =>
    ∀ range ∈ a.range 0, ∀ later ∈ b.range 0, range.2 ≤ later.1
  capture_names : String → List (Option String)
  from_str : List Char → Except String Value
  to_string : Value → String
  /-- `NaiveDateTime::parse_from_str`, as milliseconds of UTC. -/
  parse_from_str : List Char → String → Option Int
  parse_from_rfc3339 : List Char → Option Int

/-- `Regex::replace_all` behind the offset `last`; the replacement is told how many
    matches came before. -/
def Captures.replace (haystack : List Char) (replacement : Captures → Nat → Result (List Char)) :
    Nat → Nat → List Captures → Result (List Char)
  | last, _, [] => str.slice_from haystack last
  | last, i, captures :: rest =>
    match captures.range 0 with
    | none => panic
    | some range => do
      let gap ← str.slice haystack last range.1
      let new ← replacement captures i
      let tail ← Captures.replace haystack replacement range.2 (i + 1) rest
      ok (gap ++ new ++ tail)

/-- Replacing successive matches takes slices between boundaries only. -/
theorem Captures.replace_ne_panic {haystack : List Char}
    {replacement : Captures → Nat → Result (List Char)} {matched : List Captures}
    (haligned : ∀ captures ∈ matched, captures.Aligned haystack)
    (hwhole : ∀ captures ∈ matched, (captures.range 0).isSome)
    (hordered : matched.Pairwise fun a b =>
      ∀ range ∈ a.range 0, ∀ later ∈ b.range 0, range.2 ≤ later.1)
    (hreplacement : ∀ captures ∈ matched, ∀ i, replacement captures i ≠ panic)
    {front back : List Char} (hfront : haystack = front ++ back)
    (hbefore : ∀ captures ∈ matched, ∀ range ∈ captures.range 0, str.len front ≤ range.1) (i : Nat) :
    Captures.replace haystack replacement (str.len front) i matched ≠ panic := by
  induction matched generalizing front back i with
  | nil =>
    rw [Captures.replace, hfront, str.slice_from_len]
    simp
  | cons captures rest ih =>
    obtain ⟨range, hrange⟩ := Option.isSome_iff_exists.mp (hwhole captures List.mem_cons_self)
    obtain ⟨text, htext⟩ :=
      haligned captures List.mem_cons_self range (mem_groups_of_range hrange)
    obtain ⟨a, b, hab, hstart, hstop⟩ := str.slice_eq_ok_iff.mp htext
    have hle := hbefore captures List.mem_cons_self range hrange
    have hgap : ∃ gap, str.slice haystack (str.len front) range.1 = ok gap := by
      rw [← hstart]
      apply str.exists_slice_of_le hfront (hab.trans (List.append_assoc a text b))
      rwa [hstart]
    obtain ⟨gap, hgap⟩ := hgap
    rw [Captures.replace, hrange]
    dsimp only
    rw [hgap, bind_ok]
    apply bind_ne_panic (hreplacement captures List.mem_cons_self i)
    intro new
    rw [List.pairwise_cons] at hordered
    rw [← hstop]
    refine bind_ne_panic (ih (fun c hc => haligned c (List.mem_cons_of_mem _ hc))
      (fun c hc => hwhole c (List.mem_cons_of_mem _ hc)) hordered.2
      (fun c hc => hreplacement c (List.mem_cons_of_mem _ hc)) hab ?_ (i + 1)) (by simp)
    intro later hlater next hnext
    rw [hstop]
    exact hordered.1 later hlater range hrange next hnext

/-- Libraries that recognise nothing. -/
instance : Inhabited Crates where
  default :=
    { is_alphanumeric := Char.isAlphanum
      to_lowercase := id
      format_fixed2 := fun _ => ""
      regex_new := fun _ => false
      captures_iter := fun _ _ => []
      captures_aligned := by simp
      captures_whole := by simp
      captures_ordered := by simp
      capture_names := fun _ => []
      from_str := fun _ => .error ""
      to_string := fun _ => ""
      parse_from_str := fun _ _ => none
      parse_from_rfc3339 := fun _ => none }

namespace Crates

def captures (crates : Crates) (pattern : String) (haystack : List Char) : Option Captures :=
  (crates.captures_iter pattern haystack).head?

theorem aligned_of_captures {crates : Crates} {pattern : String} {haystack : List Char}
    {captures : Captures} (h : crates.captures pattern haystack = some captures) :
    captures.Aligned haystack :=
  crates.captures_aligned pattern haystack captures (List.mem_of_mem_head? h)

/-- `Regex::replace_all` with a closure. -/
def replace_all (crates : Crates) (pattern : String) (haystack : List Char)
    (replacement : Captures → Nat → Result (List Char)) : Result (List Char) :=
  Captures.replace haystack replacement 0 0 (crates.captures_iter pattern haystack)

theorem replace_all_ne_panic (crates : Crates) (pattern : String) (haystack : List Char)
    {replacement : Captures → Nat → Result (List Char)}
    (hreplacement : ∀ captures, captures.Aligned haystack → ∀ i, replacement captures i ≠ panic) :
    crates.replace_all pattern haystack replacement ≠ panic := by
  have haligned := crates.captures_aligned pattern haystack
  exact Captures.replace_ne_panic haligned (crates.captures_whole pattern haystack)
    (crates.captures_ordered pattern haystack) (fun c hc => hreplacement c (haligned c hc))
    (List.nil_append haystack).symm (by simp) 0

end Crates
