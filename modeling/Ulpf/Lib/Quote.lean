import Ulpf.Lib.Lines
import Ulpf.Lib.Slice

namespace str

/-- `str::split_once` at a character. -/
def split_once (sep : Char) : List Char → Option (List Char × List Char)
  | [] => none
  | c :: s => if c = sep then some ([], s) else (split_once sep s).map fun parts => (c :: parts.1, parts.2)

theorem split_once_append {sep : Char} {a : List Char} (ha : sep ∉ a) (b : List Char) :
    split_once sep (a ++ sep :: b) = some (a, b) := by
  induction a with
  | nil => simp [split_once]
  | cons c a ih =>
    obtain ⟨hc, ha⟩ := not_or.mp (mt List.mem_cons.mpr ha)
    rw [List.cons_append, split_once, if_neg (Ne.symm hc), ih ha]
    rfl

/-- `str::split_whitespace`. -/
def split_whitespace (s : List Char) : List (List Char) :=
  (s.splitOnP Char.is_whitespace).filter fun token => !token.isEmpty

theorem forall_mem_of_mem_splitOnP {p : Char → Bool} {s part : List Char} (hpart : part ∈ s.splitOnP p)
    {c : Char} (hc : c ∈ part) : p c = false := by
  induction s generalizing part with
  | nil =>
    rw [List.splitOnP_nil, List.mem_singleton] at hpart
    subst hpart
    cases hc
  | cons d s ih =>
    rw [List.splitOnP_cons_eq_if_modifyHead] at hpart
    split at hpart
    · rcases List.mem_cons.mp hpart with rfl | hpart
      · cases hc
      · exact ih hpart hc
    · rename_i hd
      cases hsplit : s.splitOnP p with
      | nil => exact absurd hsplit (List.splitOnP_ne_nil p s)
      | cons head tail =>
        rw [hsplit] at hpart ih
        rcases List.mem_cons.mp hpart with rfl | hpart
        · rcases List.mem_cons.mp hc with rfl | hc
          · simpa using hd
          · exact ih List.mem_cons_self hc
        · exact ih (List.mem_cons_of_mem head hpart) hc

/-- The parts of a text have its characters, apart from the separators. -/
theorem exists_mem_splitOnP_iff {p : Char → Bool} {s : List Char} {c : Char} (hc : p c = false) :
    (∃ part ∈ s.splitOnP p, c ∈ part) ↔ c ∈ s := by
  induction s with
  | nil => simp
  | cons d s ih =>
    rw [List.splitOnP_cons_eq_if_modifyHead, List.mem_cons, ← ih]
    obtain ⟨head, tail, hparts⟩ := List.exists_cons_of_ne_nil (List.splitOnP_ne_nil p s)
    rw [hparts]
    by_cases hd : p d = true
    · have hne : c ≠ d := by
        rintro rfl
        rw [hc] at hd
        cases hd
      rw [if_pos hd]
      simp [hne]
    · rw [if_neg hd]
      simp [or_assoc]

theorem is_whitespace_of_mem_split_whitespace {s token : List Char}
    (htoken : token ∈ split_whitespace s) {c : Char} (hc : c ∈ token) : c.is_whitespace = false :=
  forall_mem_of_mem_splitOnP (List.mem_of_mem_filter htoken) hc

theorem mem_intercalate_iff {x : Char} {sep : List Char} (hx : x ∉ sep) (parts : List (List Char)) :
    x ∈ sep.intercalate parts ↔ ∃ part ∈ parts, x ∈ part := by
  induction parts with
  | nil => simp
  | cons part parts ih =>
    cases parts with
    | nil => simp
    | cons next parts =>
      rw [List.intercalate_cons_cons, List.mem_append, List.mem_append, ih]
      simp [hx]

/-- `str::parse` to a signed integer of the given width. -/
def parse_int (bits : Nat) (s : List Char) : Option Int :=
  match s with
  | '-' :: digits =>
    if digits ≠ [] ∧ digits.all Char.isDigit ∧ Nat.ofDigitChars 10 digits 0 ≤ 2 ^ (bits - 1) then
      some (-Nat.ofDigitChars 10 digits 0)
    else none
  | _ => (parse_uint (bits - 1) s).map Int.ofNat

/-- `Path::extension` of a path with this last component. -/
def extension (name : List Char) : Option (List Char) :=
  let extension := name.rtakeWhile (· ≠ '.')
  let before := name.take (name.length - extension.length - 1)
  if extension.length = name.length ∨ before = [] then none else some extension

theorem rtakeWhile_append_dot (stem : List Char) {ext : List Char} (hext : '.' ∉ ext) :
    (stem ++ '.' :: ext).rtakeWhile (· ≠ '.') = ext := by
  have hall : ∀ c ∈ ext.reverse, (decide (c ≠ '.')) = true := by
    intro c hc
    have hne : c ≠ '.' := fun h => hext (h ▸ List.mem_reverse.mp hc)
    simpa using hne
  rw [List.rtakeWhile, List.reverse_append, List.reverse_cons, List.append_assoc,
    List.takeWhile_append_of_pos hall]
  simp

theorem extension_append {stem ext : List Char} (hstem : stem ≠ []) (hext : '.' ∉ ext) :
    extension (stem ++ '.' :: ext) = some ext := by
  have htake : (stem ++ '.' :: ext).take ((stem ++ '.' :: ext).length - ext.length - 1) = stem := by
    have hlength : (stem ++ '.' :: ext).length - ext.length - 1 = stem.length := by
      simp only [List.length_append, List.length_cons]
      omega
    rw [hlength, List.take_left]
  rw [extension, rtakeWhile_append_dot stem hext, htake, if_neg]
  rintro (hlength | hnil)
  · simp only [List.length_append, List.length_cons] at hlength
    omega
  · exact hstem hnil

theorem trim_end_matches_eq_self {p : Char → Bool} {s : List Char}
    (hlast : ∀ c ∈ s.getLast?, p c = false) : trim_end_matches p s = s := by
  rw [trim_end_matches, List.rdropWhile_eq_self_iff]
  intro hne
  simpa using hlast _ (List.getLast?_eq_some_getLast hne)

theorem trim_matches_eq_self {p : Char → Bool} {s : List Char} (hhead : ∀ c ∈ s.head?, p c = false)
    (hlast : ∀ c ∈ s.getLast?, p c = false) : trim_matches p s = s := by
  have hdrop : s.dropWhile p = s := by
    cases s with
    | nil => rfl
    | cons c s => simp [hhead c (by simp)]
  rw [trim_matches, hdrop]
  exact trim_end_matches_eq_self hlast

/-- Nothing of the kind is left at the ends. -/
theorem trim_matches_ends (p : Char → Bool) (s : List Char) :
    (∀ c ∈ (trim_matches p s).head?, p c = false) ∧
      ∀ c ∈ (trim_matches p s).getLast?, p c = false := by
  constructor
  · intro c hc
    have hdrop : (s.dropWhile p).head? = some c := by
      obtain ⟨rest, hrest⟩ := List.rdropWhile_prefix p (s.dropWhile p)
      rw [← hrest, List.head?_append]
      unfold trim_matches at hc
      rw [hc]
      rfl
    have hnot := List.head?_dropWhile_not p s
    rw [hdrop] at hnot
    simpa using hnot
  · intro c hc
    have hne : (s.dropWhile p).rdropWhile p ≠ [] := by
      intro h
      rw [trim_matches, h] at hc
      cases hc
    have hlast := List.rdropWhile_last_not p _ hne
    rw [trim_matches, List.getLast?_eq_some_getLast hne, Option.mem_some_iff] at hc
    simpa [hc] using hlast

theorem mem_of_mem_trim_matches {p : Char → Bool} {s : List Char} {c : Char}
    (hc : c ∈ trim_matches p s) : c ∈ s :=
  (List.dropWhile_suffix p).subset ((List.rdropWhile_prefix p _).subset hc)

/-- Quotes around a text go with those at its own ends. -/
theorem trim_matches_quoted {p : Char → Bool} {q : Char} (hq : p q = true) (s : List Char) :
    trim_matches p (q :: (s ++ [q])) = trim_matches p s := by
  unfold trim_matches
  rw [List.dropWhile_cons_of_pos hq, List.dropWhile_append]
  split
  · rename_i hempty
    rw [List.isEmpty_iff] at hempty
    simp [hempty, hq]
  · exact List.rdropWhile_concat_pos _ _ _ hq

/-- Replacing a character. -/
theorem replace_char (c : Char) (new s : List Char) :
    replace [c] new s = s.flatMap fun d => if d = c then new else [d] := by
  unfold replace
  induction s with
  | nil => rfl
  | cons d s ih =>
    rw [replaceFrom, List.flatMap_cons]
    by_cases hd : d = c
    · have hpat : [c].isPrefixOf (d :: s) = true := by simp [hd]
      rw [if_pos hpat, if_pos hd]
      exact congrArg _ ih
    · have hpat : ¬ [c].isPrefixOf (d :: s) = true := by simpa using Ne.symm hd
      rw [if_neg hpat, if_neg hd, ih]
      rfl

theorem replace_char_of_notMem {c : Char} {s : List Char} (hs : c ∉ s) (new : List Char) :
    replace [c] new s = s := by
  rw [replace_char]
  conv_rhs => rw [← List.flatMap_singleton' s]
  exact List.flatMap_congr fun d hd => if_neg fun (h : d = c) => hs (h ▸ hd)

theorem length_replace_char (c : Char) (new s : List Char) :
    (replace [c] new s).length + s.count c = s.length + s.count c * new.length := by
  rw [replace_char]
  induction s with
  | nil => simp
  | cons d s ih =>
    rw [List.flatMap_cons, List.length_append, List.length_cons, List.count_cons]
    by_cases hd : d = c
    · simp only [hd, if_true, beq_self_eq_true, Nat.add_mul, Nat.one_mul]
      omega
    · simp only [hd, if_false, List.length_singleton, beq_iff_eq, Nat.add_zero]
      omega

/-- Replacing by something longer shows. -/
theorem replace_char_eq_self_iff {c : Char} {new : List Char} (hnew : 1 < new.length)
    {s : List Char} : replace [c] new s = s ↔ c ∉ s := by
  refine ⟨fun h hmem => ?_, fun h => replace_char_of_notMem h new⟩
  have hlength := length_replace_char c new s
  rw [h] at hlength
  have hcount := List.count_pos_iff.mpr hmem
  have hmul := Nat.mul_lt_mul_of_pos_left hnew hcount
  omega

theorem getLast?_replace_char {c d : Char} {s : List Char} (hlast : s.getLast? = some d) (hd : d ≠ c)
    (new : List Char) : (replace [c] new s).getLast? = some d := by
  obtain ⟨init, rfl⟩ := List.getLast?_eq_some_iff.mp hlast
  rw [replace_char, List.flatMap_append]
  simp [hd]

/-- A character that was doubled is read back. -/
theorem replace_double (c : Char) (s : List Char) :
    replace [c, c] [c] (replace [c] [c, c] s) = s := by
  rw [replace_char]
  unfold replace
  induction s with
  | nil => rfl
  | cons d s ih =>
    rw [List.flatMap_cons]
    by_cases hd : d = c
    · subst hd
      have hpat : [d, d].isPrefixOf
          (d :: d :: s.flatMap fun e => if e = d then [d, d] else [e]) = true := by simp
      rw [if_pos rfl, List.cons_append, List.singleton_append, replaceFrom, if_pos hpat]
      exact congrArg (d :: ·) ih
    · have hpat : ¬ [c, c].isPrefixOf
          (d :: s.flatMap fun e => if e = c then [c, c] else [e]) = true := by
        simp [Ne.symm hd]
      rw [if_neg hd, List.singleton_append, replaceFrom, if_neg hpat, ih]

theorem mem_replace_char {c x : Char} {new s : List Char} (h : x ∈ replace [c] new s) :
    x ∈ new ∨ x ∈ s := by
  rw [replace_char, List.mem_flatMap] at h
  obtain ⟨d, hd, hx⟩ := h
  split at hx
  · exact .inl hx
  · exact .inr (List.mem_singleton.mp hx ▸ hd)

/-- A text that stays one line when a newline is put behind it. -/
def WholeLine (line : List Char) : Prop := '\n' ∉ line ∧ line.getLast? ≠ some '\r'

theorem wholeLine_concat {line : List Char} {c : Char} (hline : '\n' ∉ line) (hc : c ≠ '\n')
    (hreturn : c ≠ '\r') : WholeLine (line ++ [c]) := by
  refine ⟨?_, ?_⟩
  · simp [hline, Ne.symm hc]
  · rw [List.getLast?_concat]
    exact fun h => hreturn (Option.some.inj h)

/-- The lines of a text that was put together from lines. -/
theorem lines_flatMap {texts : List (List Char)} (h : ∀ line ∈ texts, WholeLine line) :
    lines (texts.flatMap fun line => line ++ ['\n']) = texts := by
  induction texts with
  | nil => rfl
  | cons line texts ih =>
    obtain ⟨⟨hline, hreturn⟩, htexts⟩ := List.forall_mem_cons.mp h
    rw [List.flatMap_cons, List.append_assoc, List.singleton_append, lines_append hline,
      strip_cr, if_neg hreturn, ih htexts]

theorem trim_indent {s : List Char} (hhead : ∀ c ∈ s.head?, c.is_whitespace = false)
    (hlast : ∀ c ∈ s.getLast?, c.is_whitespace = false) : trim (' ' :: ' ' :: s) = s := by
  have htrim : trim (' ' :: ' ' :: s) = trim s := rfl
  rw [htrim, trim_eq_self hhead hlast]

end str
