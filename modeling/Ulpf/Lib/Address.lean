import Ulpf.Lib.Hex
import Ulpf.Lib.Quote

namespace Address

/-- Four decimal numbers of a byte each. -/
structure Ipv4 where
  octets : List (List Char)
  length_eq : octets.length = 4
  octet : ∀ octet ∈ octets, octet ≠ [] ∧ octet.length ≤ 3 ∧ octet.all Char.isDigit = true ∧
    Nat.ofDigitChars 10 octet 0 ≤ 255

def Ipv4.text (self : Ipv4) : List Char := ['.'].intercalate self.octets

/-- Groups of up to four hexadecimal digits. `back` are those behind the `::` that stands for a run
    of zeros, and the last 32 bits may be written as in an IPv4 address. -/
structure Ipv6 where
  front : List (List Char)
  back : Option (List (List Char))
  tail : Option Ipv4
  group : ∀ group ∈ front ++ back.getD [], group ≠ [] ∧ group.length ≤ 4 ∧
    group.all hex.isDigit = true
  count : if back.isSome then front.length + (back.getD []).length + 2 * tail.toList.length ≤ 7
    else front.length + 2 * tail.toList.length = 8

def Ipv6.text (self : Ipv6) : List Char :=
  match self.back with
  | none => [':'].intercalate (self.front ++ self.tail.toList.map Ipv4.text)
  | some back =>
    [':'].intercalate self.front ++ [':', ':'] ++
      [':'].intercalate (back ++ self.tail.toList.map Ipv4.text)

end Address

/-- An address in one of its textual forms. -/
inductive Address where
  | v4 (ip : Address.Ipv4)
  | v6 (ip : Address.Ipv6)

namespace Address

def text : Address → List Char
  | v4 ip => ip.text
  | v6 ip => ip.text

def isV4 : Address → Bool
  | v4 _ => true
  | v6 _ => false

/-- The characters of addresses. -/
def IsAddressChar (c : Char) : Prop := hex.isDigit c = true ∨ c = '.' ∨ c = ':'

theorem mem_or_of_mem_intercalate {sep : List Char} {parts : List (List Char)} {c : Char}
    (h : c ∈ sep.intercalate parts) : c ∈ sep ∨ ∃ part ∈ parts, c ∈ part := by
  by_cases hsep : c ∈ sep
  · exact .inl hsep
  · exact .inr ((str.mem_intercalate_iff hsep parts).mp h)

theorem mem_intercalate_of_two {c : Char} (first second : List Char) (rest : List (List Char)) :
    c ∈ [c].intercalate (first :: second :: rest) := by
  rw [List.intercalate_cons_cons]
  simp

theorem Ipv4.isDigit_or_dot (self : Ipv4) {c : Char} (hc : c ∈ self.text) :
    c.isDigit = true ∨ c = '.' := by
  rcases mem_or_of_mem_intercalate hc with hdot | ⟨octet, hoctet, hc⟩
  · exact .inr (List.mem_singleton.mp hdot)
  · exact .inl (List.all_eq_true.mp (self.octet octet hoctet).2.2.1 c hc)

theorem hexDigit_of_isDigit {c : Char} (hc : c.isDigit = true) : hex.isDigit c = true := by
  simp only [Char.isDigit, Bool.and_eq_true, decide_eq_true_eq] at hc
  exact hex.isDigit_iff.mpr (.inl hc)

theorem Ipv4.isAddressChar (self : Ipv4) {c : Char} (hc : c ∈ self.text) : IsAddressChar c := by
  rcases self.isDigit_or_dot hc with hdigit | hdot
  · exact .inl (hexDigit_of_isDigit hdigit)
  · exact .inr (.inl hdot)

theorem Ipv4.colon_notMem (self : Ipv4) : ':' ∉ self.text := by
  intro hcolon
  rcases self.isDigit_or_dot hcolon with h | h
  · exact absurd h (by decide)
  · exact absurd h (by decide)

/-- The part of an address between two double colons, or all of it. -/
theorem isAddressChar_of_groups (tail : Option Ipv4) {groups : List (List Char)}
    (hgroups : ∀ group ∈ groups, group.all hex.isDigit = true) {c : Char}
    (hc : c ∈ [':'].intercalate (groups ++ tail.toList.map Ipv4.text)) : IsAddressChar c := by
  rcases mem_or_of_mem_intercalate hc with hcolon | ⟨part, hpart, hc⟩
  · exact .inr (.inr (List.mem_singleton.mp hcolon))
  rcases List.mem_append.mp hpart with hgroup | htail
  · exact .inl (List.all_eq_true.mp (hgroups part hgroup) c hc)
  · obtain ⟨ip, -, rfl⟩ := List.mem_map.mp htail
    exact ip.isAddressChar hc

theorem Ipv6.isAddressChar (self : Ipv6) {c : Char} (hc : c ∈ self.text) : IsAddressChar c := by
  have hgroup : ∀ group ∈ self.front ++ self.back.getD [], group.all hex.isDigit = true :=
    fun group hgroup => (self.group group hgroup).2.2
  unfold text at hc
  split at hc
  · exact isAddressChar_of_groups self.tail (fun g hg => hgroup g (List.mem_append_left _ hg)) hc
  · rename_i back hback
    rw [hback, Option.getD_some] at hgroup
    rcases List.mem_append.mp hc with hc | hc
    · rcases List.mem_append.mp hc with hc | hc
      · rw [← List.append_nil self.front] at hc
        exact isAddressChar_of_groups none (fun g hg => hgroup g (List.mem_append_left _ hg)) hc
      · exact .inr (.inr (by simpa using hc))
    · exact isAddressChar_of_groups self.tail (fun g hg => hgroup g (List.mem_append_right _ hg)) hc

theorem Ipv6.colon_mem (self : Ipv6) : ':' ∈ self.text := by
  have hcount := self.count
  unfold text
  split
  · rename_i hback
    rw [hback] at hcount
    simp only [Option.isSome_none, Bool.false_eq_true, if_false] at hcount
    have htail : self.tail.toList.length ≤ 1 := by cases self.tail <;> simp
    match hfront : self.front with
    | first :: second :: rest => exact mem_intercalate_of_two first second _
    | [_] => rw [hfront] at hcount; simp at hcount; omega
    | [] => rw [hfront] at hcount; simp at hcount; omega
  · simp

theorem isAddressChar (self : Address) {c : Char} (hc : c ∈ self.text) : IsAddressChar c := by
  cases self with
  | v4 ip => exact ip.isAddressChar hc
  | v6 ip => exact ip.isAddressChar hc

/-- Only the addresses of version 6 have colons. -/
theorem colon_mem_iff (self : Address) : ':' ∈ self.text ↔ self.isV4 = false := by
  cases self with
  | v4 ip => exact iff_of_false ip.colon_notMem (by simp [isV4])
  | v6 ip => exact iff_of_true ip.colon_mem rfl

end Address
