import Ulpf.Lib.Ascii
import Ulpf.Lib.Address
import Mathlib.Data.Set.Card

open Result

namespace ulpf_ai.evaluator.EvaluatorEngine

/-- `while j < b.len() && b[j].is_ascii_digit() && j - start < limit`, with what is left of the
    limit. -/
def skip_digits (b : List UInt8) : Nat → Nat → Nat
  | 0, j => j
  | limit + 1, j => if (b[j]?).any u8.is_ascii_digit then skip_digits b limit (j + 1) else j

/-- The loop over the groups of `ipv4_len_at`, with the number of groups that are left. -/
def ipv4_groups (s : List Char) : Nat → Nat → Result (Option Nat)
  | 0, j => ok (some j)
  | left + 1, gs => do
    let b := str.bytes s
    let j := skip_digits b 3 gs
    if j = gs ∨ (b[j]?).any u8.is_ascii_digit then ok none
    else
      let text ← str.slice s gs j
      match str.parse_uint 16 text with
      | none => ok none
      | some v =>
        if 255 < v then ok none
        else if left = 0 then ipv4_groups s left j
        else if (b[j]?).any (· = 46) then ipv4_groups s left (j + 1)
        else ok none

/-- `b[j].is_ascii_alphanumeric() || b[j] == b'.'`. -/
def borders (b : UInt8) : Bool := u8.is_ascii_alphanumeric b || b = 46

def ipv4_len_at (s : List Char) (i : Nat) : Result (Option Nat) := do
  let b := str.bytes s
  if (b[i]?).any u8.is_ascii_digit = false then ok none
  else if 0 < i ∧ (b[i - 1]?).any borders then ok none
  else
    match ← ipv4_groups s 4 i with
    | none => ok none
    | some j => if (b[j]?).any borders then ok none else ok (some (j - i))

/-- The loop of `distinct_ipv4_count` with the addresses found. Each round moves on, so one unit of
    fuel for each byte is enough. -/
def count_from (raw : List Char) : Nat → Nat → List (List Char) → Result Nat
  | 0, _, found => ok found.length
  | fuel + 1, i, found =>
    if i < (str.bytes raw).length then do
      match ← ipv4_len_at raw i with
      | some len =>
        let cand ← str.slice raw i (i + len)
        if found.contains cand then count_from raw fuel (i + len) found
        else if found.length + 1 = 2 then ok 2
        else count_from raw fuel (i + len) (found ++ [cand])
      | none => count_from raw fuel (i + 1) found
    else ok found.length

def distinct_ipv4_count (raw : List Char) : Result Nat :=
  count_from raw (str.bytes raw).length 0 []

/-- One to three digits with a value of at most 255. -/
def IsOctet (group : List Char) : Prop :=
  group ≠ [] ∧ group.length ≤ 3 ∧ group.all Char.isDigit = true ∧ Nat.ofDigitChars 10 group 0 ≤ 255

instance (group : List Char) : Decidable (IsOctet group) :=
  inferInstanceAs (Decidable (_ ∧ _ ∧ _ ∧ _))

/-- An ASCII letter or digit, or a dot. -/
def Borders (c : Char) : Bool := c.isAlphanum || c = '.'

/-- The text of an address stands at a byte offset, with neither an ASCII letter or digit nor a dot
    before or behind it. -/
def AddressAt (s : List Char) (i : Nat) (text : List Char) : Prop :=
  ∃ front back, s = front ++ text ++ back ∧ str.len front = i ∧ (∃ ip : Address.Ipv4, ip.text = text) ∧
    front.getLast?.any Borders = false ∧ back.head?.any Borders = false

theorem borders_test : AsciiTest borders Borders :=
  AsciiTest.alphanumeric.or (AsciiTest.equal (by decide) (by decide))

theorem dot_test : AsciiTest (fun b => b = 46) (fun c => c = '.') :=
  AsciiTest.equal (by decide) (by decide)

section

variable {front rest : List Char}

theorem len_of_digits {group : List Char} (hgroup : group.all Char.isDigit = true) :
    str.len group = group.length := by
  induction group with
  | nil => rfl
  | cons c group ih =>
    rw [List.all_cons, Bool.and_eq_true] at hgroup
    rw [str.len_cons, ih hgroup.2, AsciiTest.digit.utf8Size_eq_one hgroup.1, List.length_cons]
    omega

theorem skip_digits_eq (limit : Nat) (front rest : List Char) :
    skip_digits (str.bytes (front ++ rest)) limit (str.len front) =
      str.len front + ((rest.take limit).takeWhile Char.isDigit).length := by
  induction limit generalizing front rest with
  | zero => rfl
  | succ limit ih =>
    rw [skip_digits, str.any_getElem?_bytes AsciiTest.digit]
    cases rest with
    | nil => rfl
    | cons c rest =>
      rw [List.head?_cons, Option.any_some, List.take_succ_cons, List.takeWhile_cons]
      cases hc : c.isDigit with
      | false => rfl
      | true =>
        have hnext := ih (front ++ [c]) rest
        have hlen : str.len (front ++ [c]) = str.len front + 1 := by
          simp [AsciiTest.digit.utf8Size_eq_one hc]
        rw [hlen, List.append_assoc, List.singleton_append] at hnext
        rw [if_pos rfl, if_pos rfl, hnext, List.length_cons]
        omega

/-- The digits in front of a text. -/
theorem exists_digits (rest : List Char) : ∃ run back, rest = run ++ back ∧
    run.all Char.isDigit = true ∧ back.head?.any Char.isDigit = false := by
  refine ⟨rest.takeWhile Char.isDigit, rest.dropWhile Char.isDigit,
    List.takeWhile_append_dropWhile.symm, List.all_takeWhile, ?_⟩
  have hnot := List.head?_dropWhile_not Char.isDigit rest
  cases hback : (rest.dropWhile Char.isDigit).head? with
  | none => rfl
  | some c => rwa [hback] at hnot

/-- A text starts with one run of digits. -/
theorem digits_unique {run run' back back' : List Char} (h : run ++ back = run' ++ back')
    (hrun : run.all Char.isDigit = true) (hback : back.head?.any Char.isDigit = false)
    (hrun' : run'.all Char.isDigit = true) (hback' : back'.head?.any Char.isDigit = false) :
    run = run' ∧ back = back' := by
  obtain ⟨mid, rfl, rfl⟩ | ⟨mid, rfl, rfl⟩ := List.append_eq_append_iff.mp h
  all_goals
    cases mid with
    | nil => simp
    | cons c mid => simp_all

/-- What `parse::<u16>` makes of digits. -/
theorem parse_octet {run : List Char} (hrun : run.all Char.isDigit = true) (hne : run ≠ []) :
    str.parse_uint 16 run =
      if Nat.ofDigitChars 10 run 0 < 2 ^ 16 then some (Nat.ofDigitChars 10 run 0) else none := by
  obtain ⟨c, rest, rfl⟩ := List.exists_cons_of_ne_nil hne
  have hplus : c ≠ '+' := by
    rintro rfl
    cases hrun
  unfold str.parse_uint
  split
  · rename_i hcons
    cases hcons
    exact absurd rfl hplus
  · simp only [hrun, ne_eq, reduceCtorEq, not_false_eq_true, true_and]

/-- A group is read where the digits that follow make up one. -/
theorem ipv4_groups_succ (left : Nat) (front : List Char) {run back : List Char}
    (hrun : run.all Char.isDigit = true) (hback : back.head?.any Char.isDigit = false) :
    ipv4_groups (front ++ (run ++ back)) (left + 1) (str.len front) =
      if IsOctet run then
        if left = 0 then ok (some (str.len (front ++ run)))
        else if back.head?.any (· = '.') then
          ipv4_groups (front ++ (run ++ back)) left (str.len (front ++ run) + 1)
        else ok none
      else ok none := by
  rw [ipv4_groups, skip_digits_eq]
  by_cases hlong : 3 < run.length
  · have htaken : ((run ++ back).take 3).takeWhile Char.isDigit = run.take 3 := by
      rw [List.take_append_of_le_length hlong.le, List.takeWhile_eq_self_iff]
      exact fun c hc => List.all_eq_true.mp hrun c (List.mem_of_mem_take hc)
    have hlen : str.len front + (run.take 3).length = str.len (front ++ run.take 3) := by
      rw [str.len_append, len_of_digits (List.all_eq_true.mpr fun c hc =>
        List.all_eq_true.mp hrun c (List.mem_of_mem_take hc))]
    have hsplit : front ++ (run ++ back) = front ++ run.take 3 ++ (run.drop 3 ++ back) := by
      rw [List.append_assoc, ← List.append_assoc (run.take 3), List.take_append_drop]
    have hnext : (run.drop 3 ++ back).head?.any Char.isDigit = true := by
      obtain ⟨c, rest, hdrop⟩ := List.exists_cons_of_length_pos
        (show 0 < (run.drop 3).length by rw [List.length_drop]; omega)
      rw [hdrop, List.cons_append, List.head?_cons, Option.any_some]
      exact List.all_eq_true.mp hrun c (List.mem_of_mem_drop (hdrop ▸ List.mem_cons_self))
    rw [htaken, hlen, if_pos, if_neg fun hoctet => absurd hoctet.2.1 (by omega)]
    right
    rw [hsplit, str.any_getElem?_bytes AsciiTest.digit, hnext]
  · have htaken : ((run ++ back).take 3).takeWhile Char.isDigit = run := by
      rw [List.take_append, List.take_of_length_le (by omega),
        List.takeWhile_append_of_pos (List.all_eq_true.mp hrun), List.append_right_eq_self]
      cases back with
      | nil => rw [List.take_nil, List.takeWhile_nil]
      | cons c back =>
        rw [List.head?_cons, Option.any_some] at hback
        cases 3 - run.length with
        | zero => rfl
        | succ n => rw [List.take_succ_cons, List.takeWhile_cons_of_neg (by simp [hback])]
    have hlen : str.len front + run.length = str.len (front ++ run) := by
      rw [str.len_append, len_of_digits hrun]
    have hslice : str.slice (front ++ (run ++ back)) (str.len front) (str.len (front ++ run)) =
        ok run := by
      rw [← List.append_assoc, str.slice_len]
    rw [htaken, hlen, hslice, ← List.append_assoc, str.any_getElem?_bytes AsciiTest.digit, hback,
      str.any_getElem?_bytes dot_test]
    by_cases hempty : run = []
    · rw [if_pos (.inl (by rw [hempty, List.append_nil])), if_neg fun hoctet => hoctet.1 hempty]
    · have hpos := List.length_pos_iff.mpr hempty
      have hmoved : ¬ (str.len (front ++ run) = str.len front ∨ false = true) := by
        rw [← hlen]
        simp only [Bool.false_eq_true, or_false]
        omega
      rw [if_neg hmoved, bind_ok, parse_octet hrun hempty]
      by_cases hvalue : Nat.ofDigitChars 10 run 0 ≤ 255
      · rw [if_pos (show IsOctet run from ⟨hempty, by omega, hrun, hvalue⟩),
          if_pos (show Nat.ofDigitChars 10 run 0 < 2 ^ 16 by omega)]
        dsimp only
        rw [if_neg (show ¬ 255 < Nat.ofDigitChars 10 run 0 by omega)]
        by_cases hleft : left = 0
        · rw [if_pos hleft, if_pos hleft, hleft, ipv4_groups]
        · rw [if_neg hleft, if_neg hleft]
      · rw [if_neg (show ¬ IsOctet run from fun hoctet => hvalue hoctet.2.2.2)]
        by_cases hfits : Nat.ofDigitChars 10 run 0 < 2 ^ 16
        · rw [if_pos hfits]
          dsimp only
          rw [if_pos (show 255 < Nat.ofDigitChars 10 run 0 by omega)]
        · rw [if_neg hfits]

/-- The first of several groups is the run of digits in front. -/
theorem eq_cons_of_groups {n : Nat} {groups : List (List Char)} {run back back' : List Char}
    (hlength : groups.length = n + 2) (hoctets : ∀ group ∈ groups, IsOctet group)
    (h : run ++ back = ['.'].intercalate groups ++ back') (hrun : run.all Char.isDigit = true)
    (hback : back.head?.any Char.isDigit = false) :
    ∃ groups', groups = run :: groups' ∧ groups'.length = n + 1 ∧
      back = '.' :: (['.'].intercalate groups' ++ back') := by
  match groups with
  | [] => cases hlength
  | [_] => cases hlength
  | group :: second :: groups =>
    rw [List.intercalate_cons_cons, List.append_assoc, List.append_assoc, List.singleton_append] at h
    obtain ⟨rfl, rfl⟩ := digits_unique h hrun hback (hoctets group List.mem_cons_self).2.2.1 rfl
    exact ⟨second :: groups, rfl, by simpa using hlength, rfl⟩

/-- The groups that are read are those that the text starts with. -/
theorem ipv4_groups_spec (left : Nat) (front rest : List Char) :
    ∃ r, ipv4_groups (front ++ rest) (left + 1) (str.len front) = ok r ∧ ∀ j, r = some j ↔
      ∃ groups back, groups.length = left + 1 ∧ (∀ group ∈ groups, IsOctet group) ∧
        rest = ['.'].intercalate groups ++ back ∧ back.head?.any Char.isDigit = false ∧
        j = str.len (front ++ ['.'].intercalate groups) := by
  induction left generalizing front rest with
  | zero =>
    obtain ⟨run, back, rfl, hrun, hback⟩ := exists_digits rest
    rw [ipv4_groups_succ 0 front hrun hback]
    refine ⟨if IsOctet run then some (str.len (front ++ run)) else none, ?_, fun j => ?_⟩
    · by_cases hoctet : IsOctet run
      · rw [if_pos hoctet, if_pos hoctet, if_pos rfl]
      · rw [if_neg hoctet, if_neg hoctet]
    · constructor
      · intro h
        by_cases hoctet : IsOctet run
        · rw [if_pos hoctet] at h
          cases h
          exact ⟨[run], back, rfl, fun g hg => List.mem_singleton.mp hg ▸ hoctet, by simp, hback, by simp⟩
        · rw [if_neg hoctet] at h
          cases h
      · rintro ⟨groups, back', hlength, hoctets, hrest, hback', rfl⟩
        obtain ⟨group, rfl⟩ := List.length_eq_one_iff.mp hlength
        have hoctet := hoctets group List.mem_cons_self
        rw [List.intercalate_singleton] at hrest ⊢
        obtain ⟨rfl, rfl⟩ := digits_unique hrest hrun hback hoctet.2.2.1 hback'
        rw [if_pos hoctet]
  | succ left ih =>
    obtain ⟨run, back, rfl, hrun, hback⟩ := exists_digits rest
    rw [ipv4_groups_succ (left + 1) front hrun hback, if_neg (Nat.succ_ne_zero left)]
    by_cases hoctet : IsOctet run
    · rw [if_pos hoctet]
      by_cases hdot : back.head?.any (· = '.') = true
      · obtain ⟨tail, rfl⟩ : ∃ tail, back = '.' :: tail := by
          cases back with
          | nil => cases hdot
          | cons c tail => exact ⟨tail, by rw [of_decide_eq_true hdot]⟩
        obtain ⟨r, hr, hiff⟩ := ih (front ++ run ++ ['.']) tail
        have hlen : str.len (front ++ run ++ ['.']) = str.len (front ++ run) + 1 := by
          rw [str.len_append _ ['.']]
          rfl
        rw [hlen, List.append_assoc, List.append_assoc, List.singleton_append] at hr
        refine ⟨r, by rw [if_pos hdot, hr], fun j => (hiff j).trans ⟨?_, ?_⟩⟩
        · rintro ⟨groups, back', hlength, hoctets, rfl, hback', rfl⟩
          obtain ⟨second, groups, rfl⟩ := List.exists_cons_of_length_eq_add_one hlength
          refine ⟨run :: second :: groups, back', by rw [List.length_cons, hlength],
            List.forall_mem_cons.mpr ⟨hoctet, hoctets⟩, ?_, hback', ?_⟩
          · rw [List.intercalate_cons_cons, List.append_assoc, List.append_assoc, List.singleton_append]
          · rw [List.intercalate_cons_cons, List.append_assoc, List.append_assoc, List.append_assoc]
        · rintro ⟨groups, back', hlength, hoctets, hrest, hback', rfl⟩
          obtain ⟨groups, rfl, hlength', htail⟩ := eq_cons_of_groups hlength hoctets hrest hrun hback
          obtain ⟨second, groups, rfl⟩ := List.exists_cons_of_length_eq_add_one hlength'
          cases htail
          refine ⟨second :: groups, back', hlength', fun g hg => hoctets g (List.mem_cons_of_mem _ hg),
            rfl, hback', ?_⟩
          rw [List.intercalate_cons_cons, List.append_assoc, List.append_assoc, List.append_assoc]
      · refine ⟨none, if_neg hdot, fun j => iff_of_false (fun h => by cases h) ?_⟩
        rintro ⟨groups, back', hlength, hoctets, hrest, -, -⟩
        obtain ⟨_, _, _, rfl⟩ := eq_cons_of_groups hlength hoctets hrest hrun hback
        exact hdot rfl
    · refine ⟨none, if_neg hoctet, fun j => iff_of_false (fun h => by cases h) ?_⟩
      rintro ⟨groups, back', hlength, hoctets, hrest, -, -⟩
      obtain ⟨_, rfl, _, _⟩ := eq_cons_of_groups hlength hoctets hrest hrun hback
      exact hoctet (hoctets run List.mem_cons_self)

theorem exists_digit_cons (ip : Address.Ipv4) : ∃ c text, ip.text = c :: text ∧ c.isDigit = true := by
  obtain ⟨octet, second, octets, hoctets⟩ :
      ∃ octet second octets, ip.octets = octet :: second :: octets := by
    match hoctets : ip.octets, ip.length_eq with
    | octet :: second :: octets, _ => exact ⟨octet, second, octets, rfl⟩
  obtain ⟨hne, -, hdigits, -⟩ := ip.octet octet (hoctets ▸ List.mem_cons_self)
  obtain ⟨c, octet, rfl⟩ := List.exists_cons_of_ne_nil hne
  refine ⟨c, octet ++ ['.'] ++ ['.'].intercalate (second :: octets), ?_, ?_⟩
  · rw [Address.Ipv4.text, hoctets, List.intercalate_cons_cons, List.cons_append, List.cons_append]
  · exact List.all_eq_true.mp hdigits c List.mem_cons_self

/-- The byte before an offset, where there is one. -/
theorem borders_before (front rest : List Char) :
    (0 < str.len front ∧ ((str.bytes (front ++ rest))[str.len front - 1]?).any borders = true) ↔
      front.getLast?.any Borders = true := by
  by_cases hempty : front = []
  · subst hempty
    simp
  · have hpos : 0 < str.len front := by
      obtain ⟨c, front, rfl⟩ := List.exists_cons_of_ne_nil hempty
      have := c.utf8Size_pos
      rw [str.len_cons]
      omega
    rw [str.any_getElem?_bytes_pred borders_test front rest hempty]
    exact and_iff_right hpos

theorem addressAt_iff {text : List Char} :
    AddressAt (front ++ rest) (str.len front) text ↔
      front.getLast?.any Borders = false ∧ ∃ back, rest = text ++ back ∧
        (∃ ip : Address.Ipv4, ip.text = text) ∧ back.head?.any Borders = false := by
  constructor
  · rintro ⟨front', back, hs, hlen, hip, hfront, hback⟩
    rw [List.append_assoc] at hs
    obtain ⟨rfl, rfl⟩ := str.append_inj_of_len hs hlen.symm
    exact ⟨hfront, back, rfl, hip, hback⟩
  · rintro ⟨hfront, back, rfl, hip, hback⟩
    exact ⟨front, back, by rw [List.append_assoc], rfl, hip, hfront, hback⟩

theorem not_isDigit_of_not_borders {back : List Char} (h : back.head?.any Borders = false) :
    back.head?.any Char.isDigit = false := by
  cases back with
  | nil => rfl
  | cons c back =>
    simp only [List.head?_cons, Option.any_some, Borders, Char.isAlphanum, Bool.or_eq_false_iff] at h ⊢
    exact h.1.2

/-- An address in front of the rest is what the loop over the groups reads. -/
theorem ipv4_groups_eq_of_address {ip : Address.Ipv4} {back : List Char}
    (hrest : rest = ip.text ++ back) (hback : back.head?.any Borders = false) :
    ipv4_groups (front ++ rest) 4 (str.len front) = ok (some (str.len (front ++ ip.text))) := by
  obtain ⟨r, hr, hiff⟩ := ipv4_groups_spec 3 front rest
  have hread := (hiff (str.len (front ++ ip.text))).mpr ⟨ip.octets, back, ip.length_eq, ip.octet, hrest,
    not_isDigit_of_not_borders hback, rfl⟩
  rw [hr, hread]

/-- The scan at an offset finds the address there, if there is one, and never panics. -/
theorem ipv4_len_at_spec (s : List Char) (i : Nat) :
    ∃ r, ipv4_len_at s i = ok r ∧ ∀ n, r = some n ↔ ∃ text, AddressAt s i text ∧ str.len text = n := by
  by_cases hdigit : ((str.bytes s)[i]?).any u8.is_ascii_digit = true
  · obtain ⟨front, c, back, rfl, rfl, hc⟩ := str.exists_of_any_getElem?_bytes AsciiTest.digit hdigit
    generalize c :: back = rest at hdigit ⊢
    rw [ipv4_len_at, if_neg (Bool.not_eq_false _ ▸ hdigit)]
    simp only [addressAt_iff, borders_before]
    by_cases hbefore : front.getLast?.any Borders = true
    · refine ⟨none, if_pos hbefore, fun n => iff_of_false (fun h => by cases h) ?_⟩
      rintro ⟨text, ⟨hfront, -⟩, -⟩
      rw [hfront] at hbefore
      cases hbefore
    · rw [if_neg hbefore]
      obtain ⟨r, hr, hiff⟩ := ipv4_groups_spec 3 front rest
      cases r with
      | none =>
        refine ⟨none, by rw [hr, bind_ok], fun n => iff_of_false (fun h => by cases h) ?_⟩
        rintro ⟨text, ⟨-, back, hrest, ⟨ip, rfl⟩, hback⟩, -⟩
        rw [ipv4_groups_eq_of_address hrest hback] at hr
        cases hr
      | some j =>
        obtain ⟨groups, back, hlength, hoctets, rfl, -, rfl⟩ := (hiff j).mp rfl
        let ip : Address.Ipv4 := ⟨groups, hlength, hoctets⟩
        -- The loop reads one text only, so no other address starts here.
        have hsame : ∀ (ip' : Address.Ipv4) (back' : List Char), ip.text ++ back = ip'.text ++ back' →
            back'.head?.any Borders = false → ip.text = ip'.text ∧ back = back' := by
          intro ip' back' hrest hback'
          have hr' : ipv4_groups (front ++ (ip.text ++ back)) 4 (str.len front) =
              ok (some (str.len (front ++ ip'.text))) := ipv4_groups_eq_of_address hrest hback'
          rw [show ip.text ++ back = ['.'].intercalate groups ++ back from rfl, hr, ok.injEq,
            Option.some_inj, str.len_append, str.len_append] at hr'
          exact str.append_inj_of_len hrest (Nat.add_left_cancel hr')
        rw [hr, bind_ok, ← List.append_assoc]
        dsimp only
        rw [str.any_getElem?_bytes borders_test, str.len_append, Nat.add_sub_cancel_left]
        by_cases hafter : back.head?.any Borders = true
        · refine ⟨none, if_pos hafter, fun n => iff_of_false (fun h => by cases h) ?_⟩
          rintro ⟨text, ⟨-, back', hrest, ⟨ip', rfl⟩, hback'⟩, -⟩
          obtain ⟨-, rfl⟩ := hsame ip' back' hrest hback'
          rw [hback'] at hafter
          cases hafter
        · refine ⟨some (str.len ip.text), if_neg hafter, fun n => ⟨?_, ?_⟩⟩
          · rintro ⟨⟩
            exact ⟨ip.text, ⟨Bool.eq_false_iff.mpr hbefore, back, rfl, ⟨ip, rfl⟩,
              Bool.eq_false_iff.mpr hafter⟩, rfl⟩
          · rintro ⟨text, ⟨-, back', hrest, ⟨ip', rfl⟩, hback'⟩, rfl⟩
            rw [(hsame ip' back' hrest hback').1]
  · refine ⟨none, by rw [ipv4_len_at, if_pos (Bool.eq_false_iff.mpr hdigit)], fun n => ?_⟩
    refine iff_of_false (fun h => by cases h) ?_
    rintro ⟨text, ⟨front, back, rfl, rfl, ⟨ip, rfl⟩, -, -⟩, -⟩
    obtain ⟨c, text, htext, hc⟩ := exists_digit_cons ip
    rw [List.append_assoc, str.any_getElem?_bytes AsciiTest.digit, htext, List.cons_append,
      List.head?_cons, Option.any_some] at hdigit
    exact hdigit hc

end

section

variable {s text text' : List Char} {i k : Nat}

theorem AddressAt.slice (h : AddressAt s i text) : str.slice s i (i + str.len text) = ok text := by
  obtain ⟨front, back, rfl, rfl, -, -, -⟩ := h
  rw [← str.len_append, str.slice_len]

theorem AddressAt.unique (h : AddressAt s i text) (h' : AddressAt s i text') : text = text' := by
  obtain ⟨r, -, hiff⟩ := ipv4_len_at_spec s i
  have hlen := (hiff _).mpr ⟨text, h, rfl⟩
  rw [(hiff _).mpr ⟨text', h', rfl⟩, Option.some_inj] at hlen
  have hslice := h'.slice
  rw [hlen, h.slice] at hslice
  exact ok.inj hslice

theorem AddressAt.len_pos (h : AddressAt s i text) : 0 < str.len text := by
  obtain ⟨-, -, -, -, ⟨ip, rfl⟩, -, -⟩ := h
  obtain ⟨c, text, htext, -⟩ := exists_digit_cons ip
  have := c.utf8Size_pos
  rw [htext, str.len_cons]
  omega

theorem AddressAt.le_len (h : AddressAt s i text) : i + str.len text ≤ str.len s := by
  obtain ⟨front, back, rfl, rfl, -, -, -⟩ := h
  rw [str.len_append, str.len_append]
  omega

/-- No address starts inside another: the character before it would be a digit or a dot. -/
theorem AddressAt.not_inside (h : AddressAt s i text) (h' : AddressAt s k text') (hik : i < k) :
    i + str.len text ≤ k := by
  by_contra hinside
  obtain ⟨front, back, rfl, rfl, ⟨ip, rfl⟩, -, -⟩ := h
  obtain ⟨front', back', hs, rfl, -, hfront, -⟩ := h'
  rw [List.append_assoc, List.append_assoc] at hs
  obtain ⟨mid, rfl, hmid⟩ | ⟨mid, rfl, -⟩ := List.append_eq_append_iff.mp hs
  · rw [str.len_append] at hik hinside
    obtain ⟨start, c, rfl⟩ : ∃ start c, mid = start ++ [c] :=
      (List.eq_nil_or_concat' mid).resolve_left (by rintro rfl; exact lt_irrefl _ hik)
    obtain ⟨tail, htext, -⟩ | ⟨tail, hmid', -⟩ := List.append_eq_append_iff.mp hmid
    · rw [htext, str.len_append] at hinside
      omega
    · rw [← List.append_assoc, List.getLast?_concat, Option.any_some] at hfront
      have hc : c ∈ ip.text := hmid' ▸ List.mem_append_left _ (List.mem_append_right _ List.mem_cons_self)
      rcases ip.isDigit_or_dot hc with hc | rfl
      · simp [Borders, Char.isAlphanum, hc] at hfront
      · cases hfront
  · rw [str.len_append] at hik
    omega

end

/-- The texts of the addresses in a line. -/
def addresses (s : List Char) : Set (List Char) := {text | ∃ i, AddressAt s i text}

/-- What the loop has found in front of an offset. -/
structure Scanned (raw : List Char) (i : Nat) (found : List (List Char)) : Prop where
  nodup : found.Nodup
  mem_iff : ∀ text, text ∈ found ↔ ∃ j < i, AddressAt raw j text

section

variable {raw cand : List Char} {i : Nat} {found : List (List Char)}

theorem Scanned.skip (h : Scanned raw i found) (hnone : ∀ text, ¬ AddressAt raw i text) :
    Scanned raw (i + 1) found := by
  refine ⟨h.nodup, fun text => (h.mem_iff text).trans ⟨?_, ?_⟩⟩
  · rintro ⟨j, hj, hat⟩
    exact ⟨j, Nat.lt_succ_of_lt hj, hat⟩
  · rintro ⟨j, hj, hat⟩
    obtain hj | rfl := Nat.lt_succ_iff_lt_or_eq.mp hj
    · exact ⟨j, hj, hat⟩
    · exact absurd hat (hnone text)

/-- Behind an address there is one more than in front of it. -/
theorem Scanned.mem_iff_of_address (h : Scanned raw i found) (hcand : AddressAt raw i cand)
    (text : List Char) :
    (∃ j < i + str.len cand, AddressAt raw j text) ↔ text ∈ found ∨ text = cand := by
  have hpos := hcand.len_pos
  rw [h.mem_iff text]
  constructor
  · rintro ⟨j, hj, hat⟩
    obtain hlt | rfl | hgt := lt_trichotomy j i
    · exact .inl ⟨j, hlt, hat⟩
    · exact .inr (hat.unique hcand)
    · exact absurd (hcand.not_inside hat hgt) (by omega)
  · rintro (⟨j, hj, hat⟩ | rfl)
    · exact ⟨j, by omega, hat⟩
    · exact ⟨i, by omega, hcand⟩

theorem Scanned.again (h : Scanned raw i found) (hcand : AddressAt raw i cand) (hmem : cand ∈ found) :
    Scanned raw (i + str.len cand) found := by
  refine ⟨h.nodup, fun text => ?_⟩
  rw [h.mem_iff_of_address hcand]
  exact ⟨.inl, fun hor => hor.elim id fun heq => heq ▸ hmem⟩

theorem Scanned.concat (h : Scanned raw i found) (hcand : AddressAt raw i cand) (hnew : cand ∉ found) :
    Scanned raw (i + str.len cand) (found ++ [cand]) := by
  refine ⟨List.concat_eq_append ▸ h.nodup.concat hnew, fun text => ?_⟩
  rw [h.mem_iff_of_address hcand, List.mem_append, List.mem_singleton]

theorem Scanned.subset (h : Scanned raw i found) : (found.toFinset : Set (List Char)) ⊆ addresses raw := by
  intro text htext
  obtain ⟨j, -, hat⟩ := (h.mem_iff text).mp (List.mem_toFinset.mp htext)
  exact ⟨j, hat⟩

/-- At the end all addresses are found. -/
theorem Scanned.length_eq (h : Scanned raw i found) (hend : str.len raw ≤ i) :
    found.length = (addresses raw).ncard := by
  have hall : addresses raw = ↑found.toFinset := by
    refine Set.Subset.antisymm ?_ h.subset
    rintro text ⟨j, hat⟩
    have := hat.le_len
    have := hat.len_pos
    exact List.mem_toFinset.mpr ((h.mem_iff text).mpr ⟨j, by omega, hat⟩)
  rw [hall, Set.ncard_coe_finset, List.toFinset_card_of_nodup h.nodup]

theorem finite_addresses (raw : List Char) : (addresses raw).Finite := by
  refine (List.finite_toSet raw.sublists).subset ?_
  rintro text ⟨i, front, back, rfl, -, -, -, -⟩
  refine List.mem_sublists.mpr ?_
  exact ((List.sublist_append_right front text).trans (List.sublist_append_left _ back))

theorem Scanned.length_le (h : Scanned raw i found) : found.length ≤ (addresses raw).ncard := by
  rw [← List.toFinset_card_of_nodup h.nodup, ← Set.ncard_coe_finset]
  exact Set.ncard_le_ncard h.subset (finite_addresses raw)

/-- The loop counts up to two, whatever it has found so far. -/
theorem count_from_eq {fuel : Nat} (h : Scanned raw i found) (hfuel : str.len raw ≤ i + fuel)
    (hfew : found.length < 2) : count_from raw fuel i found = ok (min 2 (addresses raw).ncard) := by
  induction fuel generalizing i found with
  | zero =>
    rw [count_from, ← h.length_eq hfuel, Nat.min_eq_right hfew.le]
  | succ fuel ih =>
    rw [count_from, str.length_bytes]
    by_cases hi : i < str.len raw
    · rw [if_pos hi]
      obtain ⟨r, hr, hiff⟩ := ipv4_len_at_spec raw i
      rw [hr, bind_ok]
      cases r with
      | none =>
        have hnone : ∀ text, ¬ AddressAt raw i text := fun text hat => by
          cases (hiff _).mpr ⟨text, hat, rfl⟩
        exact ih (h.skip hnone) (by omega) hfew
      | some n =>
        obtain ⟨cand, hcand, rfl⟩ := (hiff n).mp rfl
        have hpos := hcand.len_pos
        dsimp only
        rw [hcand.slice, bind_ok]
        by_cases hmem : cand ∈ found
        · rw [if_pos (List.contains_iff_mem.mpr hmem)]
          exact ih (h.again hcand hmem) (by omega) hfew
        · rw [if_neg fun hcontains => hmem (List.contains_iff_mem.mp hcontains)]
          have hlength : (found ++ [cand]).length = found.length + 1 := List.length_append
          have hle := (h.concat hcand hmem).length_le
          by_cases htwo : found.length + 1 = 2
          · rw [if_pos htwo, Nat.min_eq_left (by omega)]
          · rw [if_neg htwo]
            exact ih (h.concat hcand hmem) (by omega) (by omega)
    · rw [if_neg hi, ← h.length_eq (by omega), Nat.min_eq_right hfew.le]

end

theorem distinct_ipv4_count_eq (raw : List Char) :
    distinct_ipv4_count raw = ok (min 2 (addresses raw).ncard) := by
  refine count_from_eq ⟨List.nodup_nil, fun text => ?_⟩ ?_ Nat.zero_lt_two
  · exact iff_of_false List.not_mem_nil (by rintro ⟨j, hj, -⟩; omega)
  · rw [str.length_bytes]
    omega

/-- The count of the distinct addresses of a line is exact up to two. -/
theorem distinct_ipv4_count_exact (raw : List Char) :
    (addresses raw).Finite ∧ distinct_ipv4_count raw = ok (min 2 (addresses raw).ncard) :=
  ⟨finite_addresses raw, distinct_ipv4_count_eq raw⟩

example : distinct_ipv4_count (str.lit "v1.2.3.4 10.0.0.1:80 10.0.0.1é") = ok 1 := by decide +kernel

end ulpf_ai.evaluator.EvaluatorEngine
