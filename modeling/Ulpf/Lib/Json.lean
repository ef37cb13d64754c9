import Ulpf.Lib.Slice

namespace json

/-- The letter of a two-character escape. -/
def shortEscape (c : Char) : Option Char :=
  if c = '"' ∨ c = '\\' then some c
  else if c = '\x08' then some 'b'
  else if c = '\x0c' then some 'f'
  else if c = '\n' then some 'n'
  else if c = '\r' then some 'r'
  else if c = '\t' then some 't'
  else none

/-- How a compact serializer writes one character of a string. -/
def escape (c : Char) : List Char :=
  match shortEscape c with
  | some d => ['\\', d]
  | none =>
    if c.toNat < 0x20 then
      ['\\', 'u', '0', '0', hex.digit (c.toNat / 16), hex.digit (c.toNat % 16)]
    else [c]

def string (s : String) : List Char := '"' :: (s.toList.flatMap escape ++ ['"'])

/-- The key of an object's member, after the brace or comma in front of it. -/
def key (punctuation : Char) (name : String) : List Char := punctuation :: (string name ++ [':'])

def nat (n : Nat) : List Char := Nat.toDigits 10 n

def int : Int → List Char
  | .ofNat n => nat n
  | .negSucc n => '-' :: nat (n + 1)

/-- The range of `i64`. -/
def I64 (n : Int) : Prop := -2 ^ 63 ≤ n ∧ n < 2 ^ 63

instance : DecidablePred I64 := fun _ => inferInstanceAs (Decidable (_ ∧ _))

/-- The character that a one-letter escape stands for. -/
def unescape (c : Char) : Option Char :=
  if c = '"' ∨ c = '\\' then some c
  else if c = 'b' then some '\x08'
  else if c = 'f' then some '\x0c'
  else if c = 'n' then some '\n'
  else if c = 'r' then some '\r'
  else if c = 't' then some '\t'
  else none

/-- The characters up to the closing quote, and the text behind it. -/
def readChars : List Char → Option (List Char × List Char)
  | [] => none
  | '"' :: rest => some ([], rest)
  | '\\' :: 'u' :: '0' :: '0' :: hi :: lo :: rest => do
    let h ← hex.value hi
    let l ← hex.value lo
    let (cs, rest) ← readChars rest
    return (Char.ofNat (16 * h + l) :: cs, rest)
  | '\\' :: c :: rest => do
    let c ← unescape c
    let (cs, rest) ← readChars rest
    return (c :: cs, rest)
  | c :: rest => do
    let (cs, rest) ← readChars rest
    return (c :: cs, rest)

def readString : List Char → Option (String × List Char)
  | '"' :: rest => do
    let (cs, rest) ← readChars rest
    return (String.ofList cs, rest)
  | _ => none

def readNat (s : List Char) : Option (Nat × List Char) :=
  let digits := s.takeWhile Char.isDigit
  if digits = [] then none else some (Nat.ofDigitChars 10 digits 0, s.dropWhile Char.isDigit)

def readInt : List Char → Option (Int × List Char)
  | '-' :: rest => do
    let (n, rest) ← readNat rest
    return (-n, rest)
  | s => do
    let (n, rest) ← readNat s
    return (n, rest)

theorem unescape_of_shortEscape {c d : Char} (h : shortEscape c = some d) :
    unescape d = some c ∧ d ≠ 'u' ∧ 0x20 ≤ d.toNat := by
  unfold shortEscape at h
  split_ifs at h with h1
  · cases h
    rcases h1 with rfl | rfl <;> decide
  all_goals
    cases h
    subst c
    decide

theorem not_quote_of_shortEscape_eq_none {c : Char} (h : shortEscape c = none) :
    c ≠ '"' ∧ c ≠ '\\' := by
  unfold shortEscape at h
  split_ifs at h with h1
  exact not_or.mp h1

/-- No control character is left in a string literal. -/
theorem toNat_of_mem_escape {c d : Char} (hd : d ∈ escape c) : 0x20 ≤ d.toNat := by
  unfold escape at hd
  split at hd
  · rename_i letter hletter
    rcases List.mem_pair.mp hd with rfl | rfl
    · decide
    · exact (unescape_of_shortEscape hletter).2.2
  · have hdigit : ∀ n < 16, 0x20 ≤ (hex.digit n).toNat := by decide
    split at hd
    · simp only [List.mem_cons, List.not_mem_nil, or_false, or_self_left] at hd
      rcases hd with rfl | rfl | rfl | rfl | rfl
      · decide
      · decide
      · decide
      · exact hdigit _ (by omega)
      · exact hdigit _ (by omega)
    · obtain rfl := List.mem_singleton.mp hd
      omega

theorem toNat_of_mem_string {s : String} {c : Char} (hc : c ∈ string s) : 0x20 ≤ c.toNat := by
  simp only [string, List.mem_cons, List.mem_append, List.mem_flatMap, List.not_mem_nil,
    or_false] at hc
  rcases hc with rfl | ⟨d, -, hc⟩ | rfl
  · decide
  · exact toNat_of_mem_escape hc
  · decide

theorem toNat_of_mem_key {punctuation : Char} {name : String} {c : Char}
    (hpunctuation : 0x20 ≤ punctuation.toNat) (hc : c ∈ key punctuation name) : 0x20 ≤ c.toNat := by
  simp only [key, List.mem_cons, List.mem_append, List.not_mem_nil, or_false] at hc
  rcases hc with rfl | hc | rfl
  · exact hpunctuation
  · exact toNat_of_mem_string hc
  · decide

@[simp] theorem head?_key_append (punctuation : Char) (name : String) (s : List Char) :
    (key punctuation name ++ s).head? = some punctuation := rfl

/-- A number in front of another key ends at its comma. -/
theorem not_isDigit_of_mem_head?_key (name : String) (s : List Char) :
    ∀ c ∈ (key ',' name ++ s).head?, c.isDigit = false := by
  intro c hc
  rw [head?_key_append, Option.mem_some_iff] at hc
  subst hc
  decide

theorem toNat_of_mem_nat {n : Nat} {c : Char} (hc : c ∈ nat n) : 0x20 ≤ c.toNat := by
  have hdigit := Nat.isDigit_of_mem_toDigits (by decide) (by decide) hc
  simp only [Char.isDigit, Bool.and_eq_true, decide_eq_true_eq] at hdigit
  have hlo : (48 : Nat) ≤ c.toNat := hdigit.1
  omega

theorem toNat_of_mem_int {i : Int} {c : Char} (hc : c ∈ int i) : 0x20 ≤ c.toNat := by
  cases i with
  | ofNat n => exact toNat_of_mem_nat hc
  | negSucc n =>
    rcases List.mem_cons.mp hc with rfl | hc
    · decide
    · exact toNat_of_mem_nat hc

/-- A character other than an opening brace is written without one, and never starts
    with a quote. -/
theorem escape_cases (c : Char) :
    (c = '\x7b' ∧ escape c = ['\x7b']) ∨
    ('\x7b' ∉ escape c ∧ ∃ d s, escape c = d :: s ∧ d ≠ '"') := by
  unfold escape
  cases hshort : shortEscape c with
  | some d =>
    right
    have hd : d ≠ '\x7b' := by
      rintro rfl
      exact absurd (unescape_of_shortEscape hshort).1 (by simp [unescape])
    exact ⟨by simp [Ne.symm hd], _, _, rfl, by decide⟩
  | none =>
    have hdigit : ∀ n < 16, '\x7b' ≠ hex.digit n := by decide
    dsimp only
    split
    · refine .inr ⟨?_, _, _, rfl, by decide⟩
      simp [hdigit (c.toNat / 16) (by omega), hdigit (c.toNat % 16) (by omega)]
    · by_cases hc : c = '\x7b'
      · exact .inl ⟨hc, by rw [hc]⟩
      · exact .inr ⟨by simpa using Ne.symm hc, c, [], rfl,
          (not_quote_of_shortEscape_eq_none hshort).1⟩

theorem brace_not_mem_nat (n : Nat) : '\x7b' ∉ nat n := fun h =>
  absurd (Nat.isDigit_of_mem_toDigits (by decide) (by decide) h) (by decide)

theorem brace_not_mem_int (i : Int) : '\x7b' ∉ int i := by
  cases i with
  | ofNat n => exact brace_not_mem_nat n
  | negSucc n => simpa [int] using brace_not_mem_nat (n + 1)

theorem graphic_of_mem_nat {n : Nat} {c : Char} (hc : c ∈ nat n) : c.is_ascii_graphic = true :=
  Char.graphic_of_isDigit (Nat.isDigit_of_mem_toDigits (by decide) (by decide) hc)

theorem graphic_of_mem_int {i : Int} {c : Char} (hc : c ∈ int i) : c.is_ascii_graphic = true := by
  cases i with
  | ofNat n => exact graphic_of_mem_nat hc
  | negSucc n =>
    rcases List.mem_cons.mp hc with rfl | hc
    · decide
    · exact graphic_of_mem_nat hc

theorem graphic_of_mem_escape {c d : Char} (hc : c.is_ascii_graphic = true) (hd : d ∈ escape c) :
    d.is_ascii_graphic = true := by
  obtain ⟨hlo, -⟩ := Char.toNat_of_graphic hc
  unfold escape at hd
  split at hd
  · rename_i letter hletter
    rcases List.mem_pair.mp hd with rfl | rfl
    · decide
    · unfold shortEscape at hletter
      split_ifs at hletter with h1 <;> cases hletter <;> first | exact hc | decide
  · rw [if_neg (by omega), List.mem_singleton] at hd
    exact hd ▸ hc

/-- The literal of an ASCII text without spaces is one too. -/
theorem graphic_of_mem_string {s : String} (hs : ∀ c ∈ s.toList, c.is_ascii_graphic = true) {c : Char}
    (hc : c ∈ string s) : c.is_ascii_graphic = true := by
  simp only [string, List.mem_cons, List.mem_append, List.mem_flatMap, List.not_mem_nil,
    or_false] at hc
  rcases hc with rfl | ⟨d, hd, hc⟩ | rfl
  · decide
  · exact graphic_of_mem_escape (hs d hd) hc
  · decide

theorem readChars_escape (c : Char) (s : List Char) :
    readChars (escape c ++ s) = (readChars s).map fun r => (c :: r.1, r.2) := by
  unfold escape
  split
  · rename_i d hd
    obtain ⟨hunescape, hu, -⟩ := unescape_of_shortEscape hd
    rw [List.cons_append, List.singleton_append, readChars, hunescape]
    · cases readChars s <;> rfl
    · rintro hi lo rest rfl
      exact absurd rfl hu
  · rename_i hnone
    split
    · rename_i hcontrol
      have hc : Char.ofNat (16 * (c.toNat / 16) + c.toNat % 16) = c := by
        rw [Nat.div_add_mod, Char.ofNat_toNat]
      simp only [List.cons_append, List.nil_append, readChars,
        hex.value_digit (n := c.toNat / 16) (by omega),
        hex.value_digit (n := c.toNat % 16) (by omega), Option.bind_eq_bind, Option.bind_some, hc]
      cases readChars s <;> rfl
    · obtain ⟨hquote, hbackslash⟩ := not_quote_of_shortEscape_eq_none hnone
      rw [List.singleton_append, readChars]
      · cases readChars s <;> rfl
      · exact hquote
      · exact fun _ _ _ h => absurd h hbackslash
      · exact fun _ _ h => absurd h hbackslash

@[simp] theorem readString_string (value : String) (s : List Char) :
    readString (string value ++ s) = some (value, s) := by
  have hchars : ∀ cs : List Char, readChars (cs.flatMap escape ++ '"' :: s) = some (cs, s) := by
    intro cs
    induction cs with
    | nil => rfl
    | cons c cs ih => rw [List.flatMap_cons, List.append_assoc, readChars_escape, ih]; rfl
  simp [string, readString, hchars]

/-- A number is read back when the text behind it does not start with a digit. -/
theorem readNat_nat (n : Nat) {s : List Char} (hs : ∀ c ∈ s.head?, c.isDigit = false) :
    readNat (nat n ++ s) = some (n, s) := by
  have hdigits : ∀ c ∈ nat n, c.isDigit = true := fun c hc =>
    Nat.isDigit_of_mem_toDigits (by decide) (by decide) hc
  have hstop : s.takeWhile Char.isDigit = [] ∧ s.dropWhile Char.isDigit = s := by
    cases s with
    | nil => exact ⟨rfl, rfl⟩
    | cons c s => simp [hs c (by simp)]
  have hne : nat n ≠ [] := Nat.toDigits_ne_nil
  rw [readNat, List.takeWhile_append_of_pos hdigits, List.dropWhile_append_of_pos hdigits, hstop.1,
    hstop.2, List.append_nil, if_neg hne, nat, Nat.ofDigitChars_ten_toDigits]

theorem readInt_int (i : Int) {s : List Char} (hs : ∀ c ∈ s.head?, c.isDigit = false) :
    readInt (int i ++ s) = some (i, s) := by
  cases i with
  | ofNat n =>
    have hminus : ∀ rest, nat n ++ s ≠ '-' :: rest := by
      intro rest h
      obtain ⟨c, digits, hdigits⟩ := List.exists_cons_of_ne_nil (Nat.toDigits_ne_nil (b := 10) (n := n))
      have hdigit := Nat.isDigit_of_mem_toDigits (b := 10) (n := n) (c := c) (by decide) (by decide)
        (by simp [hdigits])
      rw [nat, hdigits, List.cons_append, List.cons.injEq] at h
      rw [h.1] at hdigit
      exact absurd hdigit (by decide)
    rw [int, readInt]
    · rw [readNat_nat n hs]; rfl
    · exact hminus
  | negSucc n =>
    rw [int, List.cons_append, readInt, readNat_nat _ hs]
    rfl

/-- The items of an array or object, one on a line. -/
def items {α : Type} (write : α → List Char) (close : List Char) (as : List α) : List Char :=
  (str.lit ",\n").intercalate (as.map write) ++ '\n' :: close

/-- Reads items up to the closing text, at most as many as the fuel. -/
def readItems {α : Type} (read : List Char → Option (α × List Char)) (close : List Char) :
    Nat → List Char → Option (List α × List Char)
  | 0, _ => none
  | fuel + 1, s => do
    let (a, s) ← read s
    match str.strip_prefix (str.lit ",\n") s with
    | some s =>
      let (as, s) ← readItems read close fuel s
      return (a :: as, s)
    | none =>
      let s ← str.strip_prefix ('\n' :: close) s
      return ([a], s)

theorem readItems_items {α : Type} {write : α → List Char}
    {read : List Char → Option (α × List Char)} (hread : ∀ a s, read (write a ++ s) = some (a, s))
    (close : List Char) {as : List α} (hne : as ≠ []) {fuel : Nat} (hfuel : as.length ≤ fuel)
    (s : List Char) : readItems read close fuel (items write close as ++ s) = some (as, s) := by
  induction as generalizing fuel with
  | nil => exact absurd rfl hne
  | cons a as ih =>
    obtain ⟨fuel, rfl⟩ : ∃ n, fuel = n + 1 := Nat.exists_eq_succ_of_ne_zero (by simp at hfuel; omega)
    rw [readItems, items, List.map_cons]
    cases as with
    | nil =>
      have hclose : str.strip_prefix (str.lit ",\n") ('\n' :: close ++ s) = none := rfl
      rw [List.map_nil, List.intercalate_singleton, List.append_assoc, hread]
      dsimp only [Option.bind_eq_bind, Option.bind_some]
      rw [hclose, str.strip_prefix_append]
      rfl
    | cons b as =>
      have hrest := ih (List.cons_ne_nil b as) (by simpa using hfuel)
      rw [List.map_cons, List.intercalate_cons_cons, ← List.map_cons, List.append_assoc,
        List.append_assoc, List.append_assoc, hread]
      dsimp only [Option.bind_eq_bind, Option.bind_some]
      rw [str.strip_prefix_append, ← List.append_assoc, ← items]
      dsimp only
      rw [hrest]
      rfl

/-- Items have a separator between each two of them. -/
theorem length_le_items {α : Type} (write : α → List Char) (close : List Char) (as : List α) :
    as.length ≤ (items write close as).length := by
  have hparts : ∀ parts : List (List Char),
      parts.length ≤ ((str.lit ",\n").intercalate parts).length + 1 := by
    intro parts
    induction parts with
    | nil => simp
    | cons part parts ih =>
      cases parts with
      | nil => simp
      | cons next parts =>
        have hsep : (str.lit ",\n").length = 2 := rfl
        rw [List.intercalate_cons_cons, List.length_append, List.length_append, hsep]
        simp only [List.length_cons] at ih ⊢
        omega
  have h := hparts (as.map write)
  rw [items, List.length_append, List.length_cons]
  rw [List.length_map] at h
  omega

/-- An array or object between its brackets. -/
def bracket {α : Type} (write : α → List Char) (opening : Char) (closing : Char) (as : List α) :
    List Char :=
  if as = [] then [opening, closing]
  else opening :: '\n' :: items write [' ', ' ', closing] as

def readBracket {α : Type} (read : List Char → Option (α × List Char)) (opening closing : Char)
    (s : List Char) : Option (List α × List Char) :=
  match str.strip_prefix [opening, closing] s with
  | some s => some ([], s)
  | none => do
    let s ← str.strip_prefix [opening, '\n'] s
    readItems read [' ', ' ', closing] s.length s

theorem readBracket_bracket {α : Type} {write : α → List Char}
    {read : List Char → Option (α × List Char)} (hread : ∀ a s, read (write a ++ s) = some (a, s))
    (opening closing : Char) (hclosing : closing ≠ '\n') (as : List α) (s : List Char) :
    readBracket read opening closing (bracket write opening closing as ++ s) = some (as, s) := by
  unfold bracket readBracket
  by_cases hne : as = []
  · rw [if_pos hne, str.strip_prefix_append, hne]
  · rw [if_neg hne]
    have hopen : ∀ rest, str.strip_prefix [opening, closing] (opening :: '\n' :: rest) = none := by
      intro rest
      simp [ str.strip_prefix, hclosing]
    have hstrip : ∀ rest, str.strip_prefix [opening, '\n'] (opening :: '\n' :: rest) = some rest :=
      fun rest => str.strip_prefix_append [opening, '\n'] rest
    rw [List.cons_append, List.cons_append, hopen]
    dsimp only
    rw [hstrip]
    refine readItems_items hread _ hne ?_ s
    have hlength := length_le_items write [' ', ' ', closing] as
    rw [List.length_append]
    omega

end json
