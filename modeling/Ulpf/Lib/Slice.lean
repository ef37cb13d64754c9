import Ulpf.Lib.Result
import Ulpf.Lib.Text

open Result

namespace str

/-- The characters of a literal. -/
def lit (s : String) : List Char := s.toList

/-- The length in bytes. -/
def len (s : List Char) : Nat := (s.map Char.utf8Size).sum

def bytes (s : List Char) : List UInt8 := s.flatMap String.utf8EncodeChar

/-- The two parts of a text at a byte offset, unless it is beyond the end or inside
    a character. -/
def split_at_checked : List Char → Nat → Option (List Char × List Char)
  | s, 0 => some ([], s)
  | [], _ + 1 => none
  | c :: s, n + 1 =>
    if c.utf8Size ≤ n + 1 then
      (split_at_checked s (n + 1 - c.utf8Size)).map fun parts => (c :: parts.1, parts.2)
    else none

/-- `str::split_at`, which panics off a character boundary. -/
def split_at (s : List Char) (mid : Nat) : Result (List Char × List Char) :=
  match split_at_checked s mid with
  | some parts => ok parts
  | none => panic

/-- `&s[..stop]`. -/
def slice_to (s : List Char) (stop : Nat) : Result (List Char) := do
  let parts ← split_at s stop
  ok parts.1

/-- `&s[start..]`. -/
def slice_from (s : List Char) (start : Nat) : Result (List Char) := do
  let parts ← split_at s start
  ok parts.2

/-- `&s[start..stop]`. -/
def slice (s : List Char) (start stop : Nat) : Result (List Char) := do
  let front ← slice_to s stop
  slice_from front start

/-- The byte offset of the first character that satisfies the test. -/
def find (p : Char → Bool) : List Char → Option Nat
  | [] => none
  | c :: s => if p c then some 0 else (find p s).map (· + c.utf8Size)

/-- The byte offset of the last character that satisfies the test. -/
def rfind (p : Char → Bool) : List Char → Option Nat
  | [] => none
  | c :: s =>
    match rfind p s with
    | some n => some (n + c.utf8Size)
    | none => if p c then some 0 else none

/-- The byte offset of the first occurrence of a pattern. -/
def find_str (pat : List Char) : List Char → Option Nat
  | [] => if pat.isPrefixOf [] then some 0 else none
  | c :: s => if pat.isPrefixOf (c :: s) then some 0 else (find_str pat s).map (· + c.utf8Size)

def contains (pat s : List Char) : Bool := (find_str pat s).isSome

/-- The largest character boundary that is not beyond the index. -/
def floor_char_boundary : List Char → Nat → Nat
  | [], _ => 0
  | c :: s, index =>
    if c.utf8Size ≤ index then c.utf8Size + floor_char_boundary s (index - c.utf8Size) else 0

def trim_start_matches (p : Char → Bool) (s : List Char) : List Char := s.dropWhile p

def trim_matches (p : Char → Bool) (s : List Char) : List Char := (s.dropWhile p).rdropWhile p

def trim_end_matches (p : Char → Bool) (s : List Char) : List Char := s.rdropWhile p

/-- `str::char_indices` from an offset on. -/
def char_indicesFrom : Nat → List Char → List (Nat × Char)
  | _, [] => []
  | i, c :: s => (i, c) :: char_indicesFrom (i + c.utf8Size) s

def char_indices (s : List Char) : List (Nat × Char) := char_indicesFrom 0 s

def to_ascii_uppercase (s : List Char) : List Char := s.map Char.toUpper

def to_ascii_lowercase (s : List Char) : List Char := s.map Char.toLower

def eq_ignore_ascii_case (s t : List Char) : Bool := to_ascii_lowercase s = to_ascii_lowercase t

/-- `str::replace` for a pattern that is not empty; `skip` characters of the last
    match are still to be passed over. -/
def replaceFrom (pat new : List Char) : Nat → List Char → List Char
  | _, [] => []
  | skip + 1, _ :: s => replaceFrom pat new skip s
  | 0, c :: s =>
    if pat.isPrefixOf (c :: s) then new ++ replaceFrom pat new (pat.length - 1) s
    else c :: replaceFrom pat new 0 s

def replace (pat new s : List Char) : List Char := replaceFrom pat new 0 s

@[simp] theorem len_nil : len [] = 0 := rfl

@[simp] theorem len_cons (c : Char) (s : List Char) : len (c :: s) = c.utf8Size + len s := by
  simp [len]

@[simp] theorem len_append (s t : List Char) : len (s ++ t) = len s + len t := by
  simp [len]

theorem len_concat (s : List Char) (c : Char) : len (s ++ [c]) = len s + c.utf8Size := by
  simp

theorem char_indicesFrom_append (i : Nat) (s t : List Char) :
    char_indicesFrom i (s ++ t) = char_indicesFrom i s ++ char_indicesFrom (i + len s) t := by
  induction s generalizing i with
  | nil => rfl
  | cons c s ih =>
    rw [List.cons_append, char_indicesFrom, char_indicesFrom, ih, len_cons, Nat.add_assoc,
      List.cons_append]

theorem char_indices_concat (s : List Char) (c : Char) :
    char_indices (s ++ [c]) = char_indices s ++ [(len s, c)] := by
  rw [char_indices, char_indicesFrom_append, Nat.zero_add]
  rfl

@[simp] theorem bytes_nil : bytes [] = [] := rfl

@[simp] theorem bytes_cons (c : Char) (s : List Char) :
    bytes (c :: s) = String.utf8EncodeChar c ++ bytes s := by
  simp [bytes]

/-- An offset splits a text in at most one way. -/
theorem split_at_checked_eq_some_iff {s a b : List Char} {n : Nat} :
    split_at_checked s n = some (a, b) ↔ s = a ++ b ∧ len a = n := by
  induction s generalizing n a with
  | nil =>
    cases n with
    | zero =>
      cases a with
      | nil => simp [split_at_checked, eq_comm]
      | cons c a => simp [split_at_checked]
    | succ n =>
      simp only [split_at_checked, List.nil_eq_append_iff]
      constructor
      · intro h
        cases h
      · rintro ⟨⟨rfl, rfl⟩, h⟩
        cases h
  | cons c s ih =>
    have hpos := c.utf8Size_pos
    cases n with
    | zero =>
      cases a with
      | nil => simp [split_at_checked, eq_comm]
      | cons d a =>
        have hd := d.utf8Size_pos
        simp only [split_at_checked, len_cons]
        constructor
        · intro h
          cases h
        · rintro ⟨-, h⟩
          omega
    | succ n =>
      cases a with
      | nil => simp [split_at_checked]
      | cons d a =>
        simp only [split_at_checked, List.cons_append, List.cons.injEq, len_cons]
        split
        · rename_i hle
          simp only [Option.map_eq_some_iff, Prod.exists, Prod.mk.injEq, List.cons.injEq]
          constructor
          · rintro ⟨a', b', hsplit, ⟨rfl, rfl⟩, rfl⟩
            obtain ⟨rfl, hlen⟩ := ih.mp hsplit
            exact ⟨⟨rfl, rfl⟩, by omega⟩
          · rintro ⟨⟨rfl, rfl⟩, hlen⟩
            exact ⟨a, b, ih.mpr ⟨rfl, by omega⟩, ⟨rfl, rfl⟩, rfl⟩
        · rename_i hlt
          constructor
          · intro h
            cases h
          · rintro ⟨⟨rfl, rfl⟩, hlen⟩
            omega

@[simp] theorem split_at_len (a b : List Char) : split_at (a ++ b) (len a) = ok (a, b) := by
  rw [split_at, split_at_checked_eq_some_iff.mpr ⟨rfl, rfl⟩]

@[simp] theorem slice_to_len (a b : List Char) : slice_to (a ++ b) (len a) = ok a := by
  simp [slice_to]

@[simp] theorem slice_from_len (a b : List Char) : slice_from (a ++ b) (len a) = ok b := by
  simp [slice_from]

theorem slice_len (a b c : List Char) :
    slice (a ++ b ++ c) (len a) (len (a ++ b)) = ok b := by
  rw [slice, slice_to_len, bind_ok, slice_from_len]

theorem split_at_eq_ok_iff {s a b : List Char} {n : Nat} :
    split_at s n = ok (a, b) ↔ s = a ++ b ∧ len a = n := by
  rw [← split_at_checked_eq_some_iff, split_at]
  cases split_at_checked s n <;> simp

theorem slice_eq_ok_iff {s text : List Char} {i j : Nat} :
    slice s i j = ok text ↔
      ∃ a b, s = a ++ text ++ b ∧ len a = i ∧ len (a ++ text) = j := by
  constructor
  · intro h
    obtain ⟨front, hto, hfrom⟩ := bind_eq_ok_iff.mp h
    obtain ⟨⟨_, b⟩, hsplit, hfront⟩ := bind_eq_ok_iff.mp hto
    obtain ⟨⟨a, _⟩, hinner, htext⟩ := bind_eq_ok_iff.mp hfrom
    cases hfront
    cases htext
    obtain ⟨rfl, hj⟩ := split_at_eq_ok_iff.mp hsplit
    obtain ⟨hf, hi⟩ := split_at_eq_ok_iff.mp hinner
    dsimp only at hf hj
    rw [hf] at hj ⊢
    exact ⟨a, b, rfl, hi, hj⟩
  · rintro ⟨a, b, rfl, rfl, rfl⟩
    exact slice_len a text b

/-- Two boundaries in order have a slice between them. -/
theorem exists_slice_of_le {s a b c d : List Char} (hab : s = a ++ b) (hcd : s = c ++ d)
    (hle : len a ≤ len c) : ∃ text, slice s (len a) (len c) = ok text := by
  rcases List.append_eq_append_iff.mp (hab.symm.trans hcd) with ⟨m, rfl, -⟩ | ⟨m, rfl, hd⟩
  · exact ⟨m, slice_eq_ok_iff.mpr ⟨a, d, hcd, rfl, rfl⟩⟩
  · have hm : len m = 0 := by
      rw [len_append] at hle
      omega
    refine ⟨[], slice_eq_ok_iff.mpr ⟨c ++ m, b, by simpa using hab, rfl, ?_⟩⟩
    simp [hm]

/-- One byte behind a character is a boundary exactly if that is an ASCII character. -/
theorem slice_from_succ (a b : List Char) (c : Char) :
    slice_from (a ++ c :: b) (len a + 1) = if c.utf8Size = 1 then ok b else panic := by
  have hpos := c.utf8Size_pos
  split
  · rename_i hsize
    have hsplit : a ++ c :: b = (a ++ [c]) ++ b := by simp
    have hlen : len a + 1 = len (a ++ [c]) := by simp [hsize]
    rw [hsplit, hlen, slice_from_len]
  · rename_i hsize
    have hnone : split_at_checked (a ++ c :: b) (len a + 1) = none := by
      rw [Option.eq_none_iff_forall_ne_some]
      rintro ⟨front, back⟩ hsome
      obtain ⟨happend, hlen⟩ := split_at_checked_eq_some_iff.mp hsome
      rcases List.append_eq_append_iff.mp happend with ⟨mid, rfl, hback⟩ | ⟨mid, rfl, -⟩
      · cases mid with
        | nil => simp at hlen
        | cons d mid =>
          rw [List.cons_append, List.cons.injEq] at hback
          obtain ⟨rfl, -⟩ := hback
          simp only [len_append, len_cons] at hlen
          omega
      · simp only [len_append] at hlen
        omega
    simp [slice_from, split_at, hnone]

theorem slice_from_succ_of_ascii (a b : List Char) {c : Char} (hc : c.utf8Size = 1) :
    slice_from (a ++ c :: b) (len a + 1) = ok b := by
  rw [slice_from_succ, if_pos hc]

/-- What `find` finds. -/
theorem find_eq_some_iff {p : Char → Bool} {s : List Char} {n : Nat} :
    find p s = some n ↔
      ∃ a c b, s = a ++ c :: b ∧ len a = n ∧ p c = true ∧ ∀ x ∈ a, p x = false := by
  induction s generalizing n with
  | nil => simp [find]
  | cons d s ih =>
    rw [find]
    split
    · rename_i hd
      constructor
      · rintro ⟨⟩
        exact ⟨[], d, s, rfl, rfl, hd, by simp⟩
      · rintro ⟨a, c, b, happend, rfl, hc, hbefore⟩
        cases a with
        | nil => rfl
        | cons x a =>
          obtain ⟨rfl, -⟩ := List.cons.inj happend
          rw [hbefore _ List.mem_cons_self] at hd
          cases hd
    · rename_i hd
      rw [Option.map_eq_some_iff]
      constructor
      · rintro ⟨m, hm, rfl⟩
        obtain ⟨a, c, b, rfl, rfl, hc, hbefore⟩ := ih.mp hm
        exact ⟨d :: a, c, b, rfl, by simp [Nat.add_comm], hc,
          List.forall_mem_cons.mpr ⟨by simpa using hd, hbefore⟩⟩
      · rintro ⟨a, c, b, happend, rfl, hc, hbefore⟩
        cases a with
        | nil =>
          obtain ⟨rfl, -⟩ := List.cons.inj happend
          exact absurd hc hd
        | cons x a =>
          obtain ⟨rfl, rfl⟩ := List.cons.inj happend
          refine ⟨len a, ih.mpr ⟨a, c, b, rfl, rfl, hc, ?_⟩, by simp [Nat.add_comm]⟩
          exact fun y hy => hbefore y (List.mem_cons_of_mem _ hy)

theorem find_eq_none_iff {p : Char → Bool} {s : List Char} :
    find p s = none ↔ ∀ x ∈ s, p x = false := by
  induction s with
  | nil => simp [find]
  | cons c s ih =>
    rw [find]
    split <;> simp_all

theorem rfind_eq_none_iff {p : Char → Bool} {s : List Char} :
    rfind p s = none ↔ ∀ x ∈ s, p x = false := by
  induction s with
  | nil => simp [rfind]
  | cons c s ih =>
    rw [rfind]
    split
    · simp_all
    · split <;> simp_all

/-- What `rfind` finds. -/
theorem rfind_append_cons {p : Char → Bool} {a b : List Char} {c : Char} (hc : p c = true)
    (hafter : ∀ x ∈ b, p x = false) : rfind p (a ++ c :: b) = some (len a) := by
  induction a with
  | nil => simp [rfind, rfind_eq_none_iff.mpr hafter, hc]
  | cons d a ih => simp [rfind, ih, Nat.add_comm]

/-- Where `find_str` finds a pattern the text has it. -/
theorem exists_of_find_str {pat s : List Char} {n : Nat} (h : find_str pat s = some n) :
    ∃ a b, s = a ++ pat ++ b ∧ len a = n := by
  induction s generalizing n with
  | nil =>
    rw [find_str] at h
    split at h
    · rename_i hpat
      cases h
      obtain ⟨b, hb⟩ := List.isPrefixOf_iff_prefix.mp hpat
      exact ⟨[], b, hb.symm, rfl⟩
    · cases h
  | cons c s ih =>
    rw [find_str] at h
    split at h
    · rename_i hpat
      cases h
      obtain ⟨b, hb⟩ := List.isPrefixOf_iff_prefix.mp hpat
      exact ⟨[], b, hb.symm, rfl⟩
    · obtain ⟨m, hm, rfl⟩ := Option.map_eq_some_iff.mp h
      obtain ⟨a, b, rfl, rfl⟩ := ih hm
      exact ⟨c :: a, b, rfl, by simp [Nat.add_comm]⟩

theorem contains_eq_true_iff {pat s : List Char} : contains pat s = true ↔ pat <:+: s := by
  rw [contains, Option.isSome_iff_exists]
  constructor
  · rintro ⟨n, h⟩
    obtain ⟨a, b, rfl, -⟩ := exists_of_find_str h
    exact ⟨a, b, rfl⟩
  · intro h
    induction s with
    | nil =>
      obtain rfl : pat = [] := List.infix_nil.mp h
      exact ⟨0, rfl⟩
    | cons c s ih =>
      rw [find_str]
      split
      · exact ⟨0, rfl⟩
      · rename_i hpat
        obtain h | h := List.infix_cons_iff.mp h
        · exact absurd (List.isPrefixOf_iff_prefix.mpr h) hpat
        · obtain ⟨n, hn⟩ := ih h
          exact ⟨_, by rw [hn, Option.map_some]⟩

theorem contains_of_infix {pat s t : List Char} (hst : s <:+: t) (h : contains pat s = true) :
    contains pat t = true :=
  contains_eq_true_iff.mpr ((contains_eq_true_iff.mp h).trans hst)

/-- A word that lacks a character ends in front of it. -/
theorem prefix_of_notMem {word s rest : List Char} {c : Char} (hc : c ∉ word)
    (h : word <+: s ++ c :: rest) : word <+: s := by
  by_cases hlength : word.length ≤ s.length
  · exact List.prefix_of_prefix_length_le h (List.prefix_append s (c :: rest)) hlength
  · have hcut : s ++ [c] <+: s ++ c :: rest := by simp
    have hmem : s ++ [c] <+: word :=
      List.prefix_of_prefix_length_le hcut h (by simp; omega)
    exact absurd (hmem.subset (by simp)) hc

theorem infix_append_cons_iff {word : List Char} {c : Char} (hc : c ∉ word) (s rest : List Char) :
    word <:+: s ++ c :: rest ↔ word <:+: s ∨ word <:+: rest := by
  constructor
  · intro h
    induction s with
    | nil =>
      obtain h | h := List.infix_cons_iff.mp h
      · have hnil : word <+: [] := prefix_of_notMem hc h
        exact .inl hnil.isInfix
      · exact .inr h
    | cons x s ih =>
      obtain h | h := List.infix_cons_iff.mp h
      · have hprefix : word <+: x :: s := prefix_of_notMem hc h
        exact .inl hprefix.isInfix
      · exact (ih h).imp_left List.infix_cons
  · rintro (h | h)
    · exact h.trans (List.prefix_append s (c :: rest)).isInfix
    · exact h.trans ((List.suffix_cons c rest).trans (List.suffix_append s (c :: rest))).isInfix

/-- A word without the separator lies in a joined text where it lies in one of the parts. -/
theorem infix_intercalate_iff {word : List Char} {c : Char} (hc : c ∉ word) (hne : word ≠ [])
    (parts : List (List Char)) :
    word <:+: List.intercalate [c] parts ↔ ∃ part ∈ parts, word <:+: part := by
  induction parts with
  | nil => simp [hne]
  | cons part parts ih =>
    cases parts with
    | nil => simp
    | cons next parts =>
      rw [List.intercalate_cons_cons, List.append_assoc, List.singleton_append,
        infix_append_cons_iff hc, ih]
      simp only [List.exists_mem_cons_iff]

/-- The first place where a word follows a character that it lacks. -/
theorem find_str_cons {word a : List Char} {c : Char} (hc : c ∉ word) (ha : ¬ word <:+: a)
    (b : List Char) : find_str (c :: word) (a ++ c :: (word ++ b)) = some (len a) := by
  induction a with
  | nil => simp [find_str]
  | cons d a ih =>
    have hnext : ¬ (c :: word).isPrefixOf (d :: (a ++ c :: (word ++ b))) = true := by
      intro hpat
      obtain ⟨-, hword⟩ := List.cons_prefix_cons.mp (List.isPrefixOf_iff_prefix.mp hpat)
      exact ha ((prefix_of_notMem hc hword).isInfix.trans (List.infix_cons List.infix_rfl))
    rw [List.cons_append, find_str, if_neg hnext, ih fun h => ha (List.infix_cons h), len_cons,
      Option.map_some, Nat.add_comm]

/-- Cutting a text where a pattern is found gives its first tail that starts with the
    pattern. -/
theorem find_str_spec (pat s : List Char) :
    (find_str pat s = none ∧ s.tails.find? pat.isPrefixOf = none) ∨
      ∃ n tail, find_str pat s = some n ∧ slice_from s n = ok tail ∧
        s.tails.find? pat.isPrefixOf = some tail := by
  induction s with
  | nil =>
    rw [find_str]
    split
    · rename_i hpat
      exact .inr ⟨0, [], rfl, rfl, by simp [hpat]⟩
    · rename_i hpat
      exact .inl ⟨rfl, by simp [hpat]⟩
  | cons c s ih =>
    rw [find_str]
    split
    · rename_i hpat
      exact .inr ⟨0, c :: s, rfl, rfl, by simp [hpat]⟩
    · rename_i hpat
      obtain ⟨hnone, htails⟩ | ⟨n, tail, hsome, hslice, htails⟩ := ih
      · exact .inl ⟨by simp [hnone], by simp [hpat, htails]⟩
      · refine .inr ⟨n + c.utf8Size, tail, by simp [hsome], ?_, by simp [hpat, htails]⟩
        obtain ⟨a, b, rfl, rfl⟩ := exists_of_find_str hsome
        rw [List.append_assoc, slice_from_len] at hslice
        have hlen : len a + c.utf8Size = len (c :: a) := by simp [Nat.add_comm]
        rw [hlen, List.append_assoc, ← List.cons_append, slice_from_len, hslice]

/-- The floor of an index is a boundary of the text. -/
theorem exists_of_floor_char_boundary (s : List Char) (index : Nat) :
    ∃ a b, s = a ++ b ∧ len a = floor_char_boundary s index := by
  induction s generalizing index with
  | nil => exact ⟨[], [], rfl, rfl⟩
  | cons c s ih =>
    rw [floor_char_boundary]
    split
    · obtain ⟨a, b, rfl, hlen⟩ := ih (index - c.utf8Size)
      exact ⟨c :: a, b, rfl, by simp [hlen]⟩
    · exact ⟨[], c :: s, rfl, rfl⟩

/-- A boundary in front of the index stays in front of the floor. -/
theorem floor_char_boundary_append (a b : List Char) (n : Nat) :
    floor_char_boundary (a ++ b) (len a + n) = len a + floor_char_boundary b n := by
  induction a with
  | nil => simp
  | cons c a ih =>
    have hle : c.utf8Size ≤ c.utf8Size + len a + n := by omega
    have hsub : c.utf8Size + len a + n - c.utf8Size = len a + n := by omega
    rw [List.cons_append, len_cons, floor_char_boundary, if_pos hle, hsub, ih]
    omega

theorem utf8Size_eq_one_iff {c : Char} : c.utf8Size = 1 ↔ c.toNat < 128 := by
  rw [Char.utf8Size_eq_one_iff, UInt32.le_iff_toNat_le]
  have : c.val.toNat = c.toNat := rfl
  simp [this]
  omega

/-- A text without characters of a kind, or one cut at the last of them. -/
theorem forall_or_exists_last (p : Char → Bool) (s : List Char) :
    (∀ x ∈ s, p x = false) ∨
      ∃ a c b, s = a ++ c :: b ∧ p c = true ∧ ∀ x ∈ b, p x = false := by
  induction s with
  | nil => simp
  | cons d s ih =>
    obtain hnone | ⟨a, c, b, rfl, hc, hb⟩ := ih
    · cases hd : p d with
      | false => exact .inl (List.forall_mem_cons.mpr ⟨hd, hnone⟩)
      | true => exact .inr ⟨[], d, s, rfl, hd, hnone⟩
    · exact .inr ⟨d :: a, c, b, rfl, hc, hb⟩

theorem exists_encode_cons (c : Char) : ∃ b bs, String.utf8EncodeChar c = b :: bs :=
  List.exists_cons_of_length_pos (String.length_utf8EncodeChar c ▸ c.utf8Size_pos)

/-- A character is one byte with its own code, or a run of bytes that no ASCII
    character has. -/
theorem utf8EncodeChar_cases (c : Char) :
    (∃ b, String.utf8EncodeChar c = [b] ∧ b.toNat = c.toNat ∧ c.utf8Size = 1) ∨
      (128 ≤ c.toNat ∧ ∀ b ∈ String.utf8EncodeChar c, 128 ≤ b.toNat) := by
  by_cases hc : c.toNat < 128
  · left
    have hsize := utf8Size_eq_one_iff.mpr hc
    obtain ⟨b, hb⟩ := List.length_eq_one_iff.mp ((String.length_utf8EncodeChar c).trans hsize)
    refine ⟨b, hb, ?_, hsize⟩
    rw [String.utf8EncodeChar_eq_singleton hsize, List.singleton_inj] at hb
    have hval : c.val.toNat = c.toNat := rfl
    rw [← hb, UInt32.toNat_toUInt8, hval]
    omega
  · right
    refine ⟨by omega, fun b hb => ?_⟩
    by_contra hlt
    have := String.toNat_eq_of_mem_utf8EncodeChar hb (by omega)
    omega

/-- Comparing a byte with that of an ASCII character is comparing characters. -/
theorem byte_eq_iff {b k : UInt8} {c d : Char} (hcode : b.toNat = c.toNat)
    (hk : k.toNat = d.toNat) : b = k ↔ c = d := by
  rw [← UInt8.toNat_inj, ← Char.toNat_inj, hcode, hk]

theorem byte_ne {b k : UInt8} (hb : 128 ≤ b.toNat) (hk : k.toNat < 128) : b ≠ k := by
  rintro rfl
  omega

theorem char_ne {c d : Char} (hc : 128 ≤ c.toNat) (hd : d.toNat < 128) : c ≠ d := by
  rintro rfl
  omega

/-- A loop over the bytes that passes over every byte beyond ASCII passes over a character of such
    bytes. The first of them takes back the flag that was raised for it. -/
theorem bytes_cons_skip {β : Type} (loop : List UInt8 → Bool → Nat → β)
    (hloop : ∀ b rest flag i, 128 ≤ b.toNat → loop (b :: rest) flag i = loop rest false (i + 1))
    {c : Char} (hbytes : ∀ b ∈ String.utf8EncodeChar c, 128 ≤ b.toNat) (s : List Char) (flag : Bool)
    (i : Nat) : loop (bytes (c :: s)) flag i = loop (bytes s) false (i + c.utf8Size) := by
  have hskip : ∀ bs : List UInt8, (∀ b ∈ bs, 128 ≤ b.toNat) → ∀ i,
      loop (bs ++ bytes s) false i = loop (bytes s) false (i + bs.length) := by
    intro bs hbs
    induction bs with
    | nil => exact fun i => rfl
    | cons b bs ih =>
      intro i
      obtain ⟨hb, hbs⟩ := List.forall_mem_cons.mp hbs
      rw [List.cons_append, hloop b _ _ _ hb, ih hbs, List.length_cons, Nat.add_assoc,
        Nat.add_comm 1]
  have hlength := String.length_utf8EncodeChar c
  obtain ⟨b, bs, hbs⟩ := exists_encode_cons c
  rw [hbs] at hbytes hlength
  obtain ⟨hb, hrest⟩ := List.forall_mem_cons.mp hbytes
  rw [bytes_cons, hbs, List.cons_append, hloop b _ _ _ hb, hskip bs hrest, ← hlength,
    List.length_cons, Nat.add_assoc, Nat.add_comm 1]

theorem head?_bytes_eq_some_iff {s : List Char} {k : UInt8} {d : Char} (hk : k.toNat = d.toNat)
    (hascii : k.toNat < 128) : (bytes s).head? = some k ↔ s.head? = some d := by
  cases s with
  | nil => simp
  | cons c s =>
    obtain ⟨b, hb, hcode, -⟩ | ⟨hcode, hbytes⟩ := utf8EncodeChar_cases c
    · simp [hb, byte_eq_iff hcode hk]
    · obtain ⟨b, bs, hbs⟩ := exists_encode_cons c
      have hne : b ≠ k := byte_ne (hbytes b (by simp [hbs])) hascii
      have hchar : c ≠ d := by
        rintro rfl
        omega
      simp [hbs, hne, hchar]

/-- Only itself has a character as its lower case that is no small letter. -/
theorem eq_of_toLower_eq {c d : Char} (hd : d.isLower = false) (h : c.toLower = d) : c = d := by
  subst h
  unfold Char.toLower at hd ⊢
  split
  · rename_i hupper
    rw [dif_pos hupper] at hd
    delta Char.isLower at hd
    simp [UInt32.le_iff_toNat_le] at hd hupper
    omega
  · rfl

theorem eq_of_to_ascii_lowercase_eq {s t : List Char} (ht : ∀ c ∈ t, c.isLower = false)
    (h : to_ascii_lowercase s = t) : s = t := by
  subst h
  unfold to_ascii_lowercase at ht ⊢
  refine (List.map_id s).symm.trans (List.map_congr_left fun c hc => ?_)
  exact eq_of_toLower_eq (ht _ (List.mem_map_of_mem hc)) rfl

theorem eq_ignore_ascii_case_iff {s t : List Char} :
    eq_ignore_ascii_case s t = true ↔ to_ascii_lowercase s = to_ascii_lowercase t := by
  simp [eq_ignore_ascii_case]

end str
