import Ulpf.Lib.Crates

open Result

namespace regex

/-- The characters of a reference without braces. -/
def is_valid_cap_letter (c : Char) : Bool := c.isAlphanum || c = '_'

/-- The reference behind a dollar sign, and what follows it. -/
def find_cap_ref : List Char → Option (List Char × List Char)
  | '\x7b' :: rest =>
    match rest.dropWhile (· ≠ '\x7d') with
    | _ :: after => some (rest.takeWhile (· ≠ '\x7d'), after)
    | [] => none
  | rest =>
    if rest.takeWhile is_valid_cap_letter = [] then none
    else some (rest.takeWhile is_valid_cap_letter, rest.dropWhile is_valid_cap_letter)

/-- The loop over the text of a replacement. Every turn takes a character at least, so that the
    length of the text is fuel enough. -/
def interpolate (append : List Char → Result (List Char)) : Nat → List Char → Result (List Char)
  | _, [] => ok []
  | 0, rest => ok rest
  | fuel + 1, '$' :: '$' :: rest => do
    let tail ← interpolate append fuel rest
    ok ('$' :: tail)
  | fuel + 1, '$' :: rest =>
    match find_cap_ref rest with
    | some (cap, after) => do
      let text ← append cap
      let tail ← interpolate append fuel after
      ok (text ++ tail)
    | none => do
      let tail ← interpolate append fuel rest
      ok ('$' :: tail)
  | fuel + 1, c :: rest => do
    let tail ← interpolate append fuel rest
    ok (c :: tail)

/-- The text of a group, given by its number or its name. -/
def group_text (crates : Crates) (pattern : String) (captures : Captures) (haystack : List Char)
    (cap : List Char) : Result (List Char) := do
  let index := match str.parse_uint 64 cap with
    | some i => some i
    | none => (crates.capture_names pattern).idxOf? (some (String.ofList cap))
  match index with
  | some i => do
    let text ← captures.get haystack i
    ok (text.getD [])
  | none => ok []

/-- `Captures::expand`: what a replacement stands for at a match. -/
def expand (crates : Crates) (pattern : String) (captures : Captures) (haystack : List Char)
    (replacement : List Char) : Result (List Char) :=
  interpolate (group_text crates pattern captures haystack) replacement.length replacement

/-- `Regex::replace` with a text: the first match only. -/
def replace (crates : Crates) (pattern : String) (haystack replacement : List Char) :
    Result (List Char) :=
  Captures.replace haystack
    (fun captures _ => expand crates pattern captures haystack replacement) 0 0
    ((crates.captures_iter pattern haystack).take 1)

/-- A match lies somewhere in the text. -/
theorem exists_match {crates : Crates} {pattern : String} {haystack : List Char}
    {captures : Captures} (h : crates.captures pattern haystack = some captures) :
    ∃ before found after, haystack = before ++ found ++ after ∧
      captures.range 0 = some (str.len before, str.len (before ++ found)) := by
  have hmem : captures ∈ crates.captures_iter pattern haystack := List.mem_of_mem_head? h
  obtain ⟨range, hrange⟩ := Option.isSome_iff_exists.mp
    (crates.captures_whole pattern haystack captures hmem)
  obtain ⟨found, hfound⟩ :=
    crates.captures_aligned pattern haystack captures hmem range (Captures.mem_groups_of_range hrange)
  obtain ⟨before, after, hsplit, hstart, hstop⟩ := str.slice_eq_ok_iff.mp hfound
  exact ⟨before, found, after, hsplit, by rw [hrange, hstart, hstop]⟩

/-- The first match is replaced, and all around it stays. -/
theorem replace_of_match {crates : Crates} {pattern : String} {haystack : List Char}
    {captures : Captures} (h : crates.captures pattern haystack = some captures)
    (replacement : List Char) :
    ∃ before found after, haystack = before ++ found ++ after ∧
      captures.get haystack 0 = ok (some found) ∧
      replace crates pattern haystack replacement =
        expand crates pattern captures haystack replacement >>= fun text =>
          ok (before ++ text ++ after) := by
  obtain ⟨before, found, after, rfl, hrange⟩ := exists_match h
  refine ⟨before, found, after, rfl, ?_, ?_⟩
  · rw [Captures.get, hrange]
    dsimp only
    rw [str.slice_len, bind_ok]
  · have hfirst : (crates.captures_iter pattern (before ++ found ++ after)).take 1 = [captures] := by
      obtain ⟨rest, hrest⟩ := List.head?_eq_some_iff.mp h
      rw [hrest]
      rfl
    have hgap := str.slice_len [] before (found ++ after)
    rw [List.nil_append, str.len_nil, ← List.append_assoc] at hgap
    rw [replace, hfirst, Captures.replace, hrange]
    dsimp only
    rw [hgap, bind_ok, Captures.replace, str.slice_from_len]
    rfl

end regex
