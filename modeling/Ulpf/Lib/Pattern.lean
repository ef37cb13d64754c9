import Mathlib.Data.List.Basic
import Mathlib.Data.List.Forall2

namespace regex

/-- The names of the groups of a pattern, from left to right. A backslash takes the character behind
    it as it is, and there are no groups inside a class. -/
def groupNames : (inClass : Bool) → List Char → List String
  | inClass, '\\' :: _ :: rest => groupNames inClass rest
  | true, ']' :: rest => groupNames false rest
  | false, '[' :: rest => groupNames true rest
  | false, '(' :: '?' :: 'P' :: '<' :: rest =>
    String.ofList (rest.takeWhile (· ≠ '>')) :: groupNames false rest
  | false, '(' :: '?' :: '<' :: rest =>
    String.ofList (rest.takeWhile (· ≠ '>')) :: groupNames false rest
  | inClass, _ :: rest => groupNames inClass rest
  | _, [] => []

/-- A character that stands for itself outside a class. -/
def Plain (c : Char) : Prop := c ≠ '\\' ∧ c ≠ '[' ∧ c ≠ '('

instance (c : Char) : Decidable (Plain c) :=
  inferInstanceAs (Decidable (c ≠ '\\' ∧ c ≠ '[' ∧ c ≠ '('))

theorem groupNames_escaped (c : Char) (rest : List Char) :
    groupNames false ('\\' :: c :: rest) = groupNames false rest := by
  rw [groupNames]

theorem groupNames_plain {c : Char} (hc : Plain c) (rest : List Char) :
    groupNames false (c :: rest) = groupNames false rest := by
  obtain ⟨hbackslash, hbracket, hparen⟩ := hc
  rw [groupNames]
  all_goals simp_all

theorem groupNames_group (rest : List Char) :
    groupNames false ('(' :: '?' :: 'P' :: '<' :: rest) =
      String.ofList (rest.takeWhile (· ≠ '>')) :: groupNames false rest := by
  rw [groupNames]

/-- A part of a pattern names these groups, and leaves the rest of the pattern to be read as if it
    stood alone. -/
def Names (part : List Char) (names : List String) : Prop :=
  ∀ rest, groupNames false (part ++ rest) = names ++ groupNames false rest

theorem Names.eq {part : List Char} {names : List String} (h : Names part names) :
    groupNames false part = names := by
  have hpart := h []
  rw [List.append_nil] at hpart
  rw [hpart, groupNames, List.append_nil]

theorem Names.nil : Names [] [] := fun _ => rfl

theorem Names.append {first second : List Char} {names names' : List String}
    (hfirst : Names first names) (hsecond : Names second names') :
    Names (first ++ second) (names ++ names') := by
  intro rest
  rw [List.append_assoc, hfirst, hsecond, List.append_assoc]

theorem names_singleton {c : Char} (hc : Plain c) : Names [c] [] := fun rest =>
  groupNames_plain hc rest

theorem names_escaped (c : Char) : Names ['\\', c] [] := fun rest => groupNames_escaped c rest

theorem names_plain {text : List Char} (htext : ∀ c ∈ text, Plain c) : Names text [] := by
  induction text with
  | nil => exact .nil
  | cons c text ih =>
    have hc : Names [c] [] := names_singleton (htext c List.mem_cons_self)
    exact hc.append (ih fun d hd => htext d (List.mem_cons_of_mem c hd))

theorem names_flatMap {text : List Char} {f : Char → List Char} (h : ∀ c ∈ text, Names (f c) []) :
    Names (text.flatMap f) [] := by
  induction text with
  | nil => exact .nil
  | cons c text ih =>
    rw [List.flatMap_cons]
    exact (h c List.mem_cons_self).append (ih fun d hd => h d (List.mem_cons_of_mem c hd))

/-- A group adds its name in front of those inside. -/
theorem names_group {name : String} {inner : List Char} {names : List String}
    (hname : ∀ c ∈ name.toList, Plain c ∧ c ≠ '>') (hinner : Names inner names) :
    Names ('(' :: '?' :: 'P' :: '<' :: (name.toList ++ '>' :: (inner ++ [')']))) (name :: names) := by
  intro rest
  have htake : (name.toList ++ '>' :: (inner ++ [')'] ++ rest)).takeWhile (· ≠ '>') =
      name.toList := by
    rw [List.takeWhile_append_of_pos fun c hc => decide_eq_true (hname c hc).2,
      List.takeWhile_cons_of_neg (by simp), List.append_nil]
  have hreads : Names (name.toList ++ (['>'] ++ (inner ++ [')']))) names := by
    have hclose := hinner.append (names_singleton (c := ')') (by decide))
    have hopen := (names_singleton (c := '>') (by decide)).append hclose
    simpa using (names_plain fun c hc => (hname c hc).1).append hopen
  have hrest := hreads rest
  simp only [List.cons_append, List.nil_append, List.append_assoc] at hrest htake ⊢
  rw [groupNames_group, htake, String.ofList_toList, hrest]

/-- Joining parts with a text that names no group. -/
theorem names_intercalate {sep : List Char} (hsep : Names sep []) {parts : List (List Char)}
    {names : List (List String)} (h : List.Forall₂ Names parts names) :
    Names (sep.intercalate parts) names.flatten := by
  induction h with
  | nil => exact .nil
  | @cons part names₁ parts names hpart hparts ih =>
    cases hparts with
    | nil => simpa using hpart
    | cons hnext hrest =>
      rw [List.intercalate_cons_cons, List.flatten_cons]
      simpa using (hpart.append hsep).append ih

end regex
