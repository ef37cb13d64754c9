import Ulpf.Core.Parser.Cef
import Ulpf.Lib.Quote

open Result

namespace ulpf_core.parser.extractors

namespace fortigate

/-- A text for between double quotes: every double quote and every backslash of it is
    part of a backslash escape. -/
inductive Escaped : List Char → Prop
  | nil : Escaped []
  | plain {c : Char} {s : List Char} (hbackslash : c ≠ '\\') (hquote : c ≠ '"') (hs : Escaped s) :
    Escaped (c :: s)
  | escape (c : Char) {s : List Char} (hs : Escaped s) : Escaped ('\\' :: c :: s)

/-- A value as it is written behind a key. -/
inductive Written where
  | bare (text : List Char) (hplain : ∀ c ∈ text, c.is_whitespace = false)
    (hquote : text.head? ≠ some '"')
  | quoted (text : List Char) (hescaped : Escaped text)

namespace Written

def text : Written → List Char
  | bare text _ _ => text
  | quoted text _ => text

def render : Written → List Char
  | bare text _ _ => text
  | quoted text _ => '"' :: (text ++ ['"'])

end Written

/-- A pair that can be written as `key=value`. -/
structure Pair (crates : Crates) where
  key : List Char
  value : Written
  key_head : ∃ c ∈ key.head?, crates.is_alphanumeric c = true ∨ c = '_'
  key_plain : ∀ c ∈ key, c.is_whitespace = false ∧ c ≠ '='

variable {crates : Crates}

def Pair.render (pair : Pair crates) : List Char := pair.key ++ '=' :: pair.value.render

/-- The pairs, joined by single spaces. -/
def render (pairs : List (Pair crates)) : List Char := [' '].intercalate (pairs.map Pair.render)

theorem quotedValue_escaped {text : List Char} (htext : Escaped text) (rest : List Char) :
    quotedValue false (text ++ '"' :: rest) = (text, some rest) := by
  induction htext with
  | nil => simp [quotedValue]
  | plain hbackslash hquote _ ih => simp [quotedValue, hbackslash, hquote, ih]
  | escape c _ ih => simp [quotedValue, ih]

/-- A written value is read up to its own end if whitespace or nothing follows. -/
theorem readValue_render (value : Written) {rest : List Char}
    (hrest : ∀ c ∈ rest.head?, c.is_whitespace = true) :
    readValue (value.render ++ rest) = (value.text, rest) := by
  cases value with
  | quoted text hescaped =>
    have hquoted := quotedValue_escaped hescaped rest
    simp [Written.render, Written.text, readValue, hquoted]
  | bare text hplain hquote =>
    have hread : readValue (text ++ rest) = (text ++ rest).span fun c => !c.is_whitespace := by
      rw [readValue]
      intro inner hinner
      cases text with
      | nil =>
        have hspace := hrest '"' (by rw [← List.nil_append rest, hinner]; rfl)
        revert hspace
        decide
      | cons c text =>
        rw [List.cons_append, List.cons.injEq] at hinner
        exact hquote (congrArg some hinner.1)
    have hpos : ∀ c ∈ text, (!c.is_whitespace) = true := by simpa using hplain
    have hstop : rest.takeWhile (fun c => !c.is_whitespace) = [] ∧
        rest.dropWhile (fun c => !c.is_whitespace) = rest := by
      cases rest with
      | nil => exact ⟨rfl, rfl⟩
      | cons c rest => simp [hrest c (by simp)]
    rw [Written.render, hread, List.span_eq_takeWhile_dropWhile, List.takeWhile_append_of_pos hpos,
      List.dropWhile_append_of_pos hpos, hstop.1, hstop.2, List.append_nil]
    rfl

theorem Pair.trim_start_render (pair : Pair crates) (rest : List Char) :
    str.trim_start (pair.render ++ rest) = pair.render ++ rest := by
  obtain ⟨c, hc, -⟩ := pair.key_head
  obtain ⟨key, hkey⟩ := List.head?_eq_some_iff.mp hc
  have hplain := (pair.key_plain c (List.mem_of_head? hc)).1
  rw [str.trim_start, render, hkey]
  simp [hplain]

/-- A written pair is one token. -/
theorem Pair.readToken_render (pair : Pair crates) {rest : List Char}
    (hrest : ∀ c ∈ rest.head?, c.is_whitespace = true) :
    readToken (pair.render ++ rest) = some (⟨pair.key, pair.value.text⟩, rest) := by
  have hhead : ∀ c ∈ pair.key.head?, c.is_whitespace = false := fun c hc =>
    (pair.key_plain c (List.mem_of_head? hc)).1
  have hkey : '=' ∉ pair.key := fun hmem => (pair.key_plain _ hmem).2 rfl
  rw [render, List.append_assoc, List.cons_append, readToken_segment hhead hkey,
    readValue_render pair.value hrest]

theorem readTokens_space (s : List Char) : readTokens (' ' :: s) = readTokens s := by
  have htoken : readToken (' ' :: s) = readToken s := rfl
  cases hread : readToken s with
  | none => rw [readTokens_of_none hread, readTokens_of_none (htoken.trans hread)]
  | some read => rw [readTokens_of_some hread, readTokens_of_some (htoken.trans hread)]

theorem render_cons (pair : Pair crates) (pairs : List (Pair crates)) :
    render (pair :: pairs) = pair.render ++ pairs.flatMap fun next => ' ' :: next.render := by
  induction pairs generalizing pair with
  | nil => simp [render]
  | cons next pairs ih =>
    have hjoin : render (pair :: next :: pairs) = pair.render ++ ' ' :: render (next :: pairs) := by
      simp [render, List.intercalate_cons_cons]
    rw [hjoin, ih, List.flatMap_cons, List.cons_append]

/-- The tokens of a rendering are its pairs. -/
theorem readTokens_render (pairs : List (Pair crates)) :
    readTokens (render pairs) = pairs.map fun pair => ⟨pair.key, pair.value.text⟩ := by
  cases pairs with
  | nil => exact readTokens_of_none rfl
  | cons pair pairs =>
    rw [render_cons, List.map_cons]
    -- A pair is followed by nothing or by the space in front of the next one.
    induction pairs generalizing pair with
    | nil => exact readTokens_singleton (pair.readToken_render (by simp))
    | cons next pairs ih =>
      rw [List.flatMap_cons, List.cons_append,
        readTokens_of_some (pair.readToken_render (by simp [Char.is_whitespace])), readTokens_space,
        ih, List.map_cons]

theorem Pair.getLast?_render (pair : Pair crates) :
    ∃ c, pair.render.getLast? = some c ∧ c.is_whitespace = false := by
  obtain ⟨key, value, -, -⟩ := pair
  cases value with
  | quoted text hescaped =>
    refine ⟨'"', ?_, by decide⟩
    rw [render, Written.render, ← List.cons_append, ← List.cons_append, ← List.append_assoc,
      List.getLast?_concat]
  | bare text hplain hquote =>
    cases htext : text.getLast? with
    | none => exact ⟨'=', by simp_all [render, Written.render], by decide⟩
    | some c =>
      refine ⟨c, ?_, hplain c (List.mem_of_getLast? htext)⟩
      simp [render, Written.render, List.getLast?_append, List.getLast?_cons, htext]

/-- Nothing of a rendering is trimmed off. -/
theorem trim_render (pairs : List (Pair crates)) : str.trim (render pairs) = render pairs := by
  cases pairs with
  | nil => rfl
  | cons pair pairs =>
    have hlast : ∃ c, (render (pair :: pairs)).getLast? = some c ∧ c.is_whitespace = false := by
      rw [render_cons]
      induction pairs using List.reverseRecOn with
      | nil => simpa using pair.getLast?_render
      | append_singleton pairs last _ =>
        obtain ⟨c, hlast, hc⟩ := last.getLast?_render
        refine ⟨c, ?_, hc⟩
        simp [List.getLast?_append, List.getLast?_cons, hlast]
    obtain ⟨c, hlast, hc⟩ := hlast
    rw [str.trim, render_cons, pair.trim_start_render, ← render_cons, str.trim_end,
      List.rdropWhile_eq_self_iff]
    intro hne
    rw [List.getLast?_eq_some_getLast hne, Option.some.injEq] at hlast
    rw [hlast, hc]
    decide

theorem Pair.key_token (pair : Pair crates) :
    Token.key crates ⟨pair.key, pair.value.text⟩ = pair.key := by
  obtain ⟨c, hc, hword⟩ := pair.key_head
  obtain ⟨key, hkey⟩ := List.head?_eq_some_iff.mp hc
  have htake : (pair.key.rtakeWhile fun c => !c.is_whitespace) = pair.key := by
    rw [List.rtakeWhile_eq_self_iff]
    intro c hc
    simpa using (pair.key_plain c hc).1
  have hkeep : ¬ (!crates.is_alphanumeric c && c ≠ '_') = true := by
    rcases hword with hword | hword <;> simp [hword]
  rw [Token.key, htake, str.trim_start_matches, hkey]
  exact List.dropWhile_cons_of_neg hkeep

theorem Pair.keyAligned_token (pair : Pair crates) :
    Token.KeyAligned ⟨pair.key, pair.value.text⟩ := by
  have hfilter : pair.key.filter Char.is_whitespace = [] := by
    rw [List.filter_eq_nil_iff]
    intro c hc
    simp [(pair.key_plain c hc).1]
  simp [Token.KeyAligned, hfilter]

/-- The tokenizer gives back the pairs that were rendered, in order. -/
theorem KvTokenizer.pairs_render (pairs : List (Pair crates)) :
    KvTokenizer.pairs crates (render pairs) =
      ok (pairs.map fun pair => (pair.key, pair.value.text)) := by
  have haligned : ∀ token ∈ pairs.map fun pair => (⟨pair.key, pair.value.text⟩ : Token),
      token.KeyAligned := by
    intro token htoken
    obtain ⟨pair, -, rfl⟩ := List.mem_map.mp htoken
    exact pair.keyAligned_token
  rw [KvTokenizer.pairs_eq, trim_render, readTokens_render, if_pos haligned, List.map_map]
  congr 1
  apply List.map_congr_left
  intro pair _
  rw [Function.comp_apply, pair.key_token]

end fortigate

/-- A field as it is written in a row. -/
structure CsvField where
  text : List Char
  quoted : Bool
  bare_plain : quoted = false → ',' ∉ text ∧ '"' ∉ text

/-- RFC 4180: a quoted field doubles its inner quotes. -/
def CsvField.render (field : CsvField) : List Char :=
  if field.quoted then '"' :: (str.replace ['"'] ['"', '"'] field.text ++ ['"']) else field.text

/-- The fields, joined by commas. -/
def renderCsv (fields : List CsvField) : List Char := [','].intercalate (fields.map CsvField.render)

/-- Inside quotes everything up to the closing quote belongs to the field. -/
theorem csvFields_quoted (text field : List Char) {rest : List Char} (hrest : rest.head? ≠ some '"') :
    csvFields false true true field (str.replace ['"'] ['"', '"'] text ++ '"' :: rest) =
      csvFields false false true (field ++ str.replace ['"'] ['"', '"'] text ++ ['"']) rest := by
  rw [str.replace_char]
  induction text generalizing field with
  | nil => simp [csvFields, hrest]
  | cons c text ih =>
    rw [List.flatMap_cons]
    by_cases hc : c = '"'
    · simp [csvFields, hc, ih]
    · simp [csvFields, hc, ih]

theorem csvFields_bare {text : List Char} (hcomma : ',' ∉ text) (hquote : '"' ∉ text)
    (field rest : List Char) :
    csvFields false false false field (text ++ rest) =
      csvFields false false false (field ++ text) rest := by
  induction text generalizing field with
  | nil => simp
  | cons c text ih =>
    obtain ⟨hc, hcomma⟩ := not_or.mp (mt List.mem_cons.mpr hcomma)
    obtain ⟨hc', hquote⟩ := not_or.mp (mt List.mem_cons.mpr hquote)
    simp [csvFields, Ne.symm hc, Ne.symm hc', ih hcomma hquote]

/-- A quoted field loses its wrapping quotes and then the spaces at its ends. -/
theorem finish_csv_field_quoted (text : List Char) :
    finish_csv_field ('"' :: (str.replace ['"'] ['"', '"'] text ++ ['"'])) true = str.trim text := by
  have htrim : str.trim ('"' :: (str.replace ['"'] ['"', '"'] text ++ ['"'])) =
      '"' :: (str.replace ['"'] ['"', '"'] text ++ ['"']) := by
    apply str.trim_eq_self
    · rintro c ⟨⟩
      decide
    · intro c hc
      rw [← List.cons_append, List.getLast?_concat] at hc
      cases hc
      decide
  have hstrip : str.strip_prefix ['"'] ('"' :: (str.replace ['"'] ['"', '"'] text ++ ['"'])) =
      some (str.replace ['"'] ['"', '"'] text ++ ['"']) := str.strip_prefix_append ['"'] _
  simp [finish_csv_field, htrim, hstrip, strip_quote_suffix, str.replace_double]

/-- A written field is cut off at the next comma or at the end. -/
theorem CsvField.csvFields_render (field : CsvField) :
    csvFields false false false [] field.render = [str.trim field.text] ∧
      ∀ rest, csvFields false false false [] (field.render ++ ',' :: rest) =
        str.trim field.text :: csvFields false false false [] rest := by
  obtain ⟨text, quoted, hplain⟩ := field
  cases quoted with
  | false =>
    obtain ⟨hcomma, hquote⟩ := hplain rfl
    have hbare := csvFields_bare hcomma hquote []
    refine ⟨?_, fun rest => ?_⟩
    · have hend := hbare []
      rw [List.append_nil] at hend
      simp [render, hend, csvFields, finish_csv_field]
    · simp [render, hbare, csvFields, finish_csv_field]
  | true =>
    have hopen : ∀ s, csvFields false false false [] ('"' :: s) = csvFields false true true ['"'] s := by
      intro s
      simp [csvFields]
    have hfinish := finish_csv_field_quoted text
    refine ⟨?_, fun rest => ?_⟩
    · have hnil : ([] : List Char).head? ≠ some '"' := by simp
      have hend := csvFields_quoted text ['"'] hnil
      simp [render, hopen, hend, csvFields, hfinish]
    · have hcomma : (',' :: rest).head? ≠ some '"' := by simp
      have hnext := csvFields_quoted text ['"'] hcomma
      simp [render, hopen, hnext, csvFields, hfinish]

/-- Splitting a rendered row gives back its fields, trimmed. -/
theorem split_csv_renderCsv (fields : List CsvField) (hfields : fields ≠ []) :
    split_csv (renderCsv fields) = ok (fields.map fun field => str.trim field.text) := by
  rw [split_csv_eq]
  congr 1
  induction fields with
  | nil => exact absurd rfl hfields
  | cons field fields ih =>
    obtain ⟨hend, hnext⟩ := field.csvFields_render
    cases fields with
    | nil => simpa [renderCsv] using hend
    | cons next fields =>
      have hjoin : renderCsv (field :: next :: fields) =
          field.render ++ ',' :: renderCsv (next :: fields) := by
        simp [renderCsv, List.intercalate_cons_cons]
      rw [hjoin, hnext, ih (by simp), List.map_cons (a := field)]

/-- A quoted field of quotes, commas and spaces beside an empty one. -/
theorem split_csv_renderCsv_quotes :
    [(⟨str.lit " \"a\",\"\" ", true, by simp⟩ : CsvField), ⟨[], false, by simp⟩] ≠ [] ∧
      split_csv (renderCsv [⟨str.lit " \"a\",\"\" ", true, by simp⟩, ⟨[], false, by simp⟩]) =
        ok [str.trim (str.lit " \"a\",\"\" "), str.trim []] :=
  ⟨by simp, split_csv_renderCsv _ (by simp)⟩

namespace cef

/-- How a character of a header field is written. -/
def escapeChar (c : Char) : List Char :=
  if c = '\\' then ['\\', '\\']
  else if c = '|' then ['\\', '|']
  else if c = '\r' then ['\\', 'r']
  else if c = '\n' then ['\\', 'n']
  else [c]

def escape (field : List Char) : List Char := field.flatMap escapeChar

/-- Seven escaped header fields and the extension, joined by pipes. -/
def renderHeader (fields : List.Vector (List Char) 7) (extension : List Char) : List Char :=
  ['|'].intercalate (fields.toList.map escape ++ [extension])

theorem escape_cons (c : Char) (field : List Char) :
    escape (c :: field) = escapeChar c ++ escape field :=
  List.flatMap_cons

theorem unescape_escape (field : List Char) : unescape (escape field) = field := by
  induction field with
  | nil => rfl
  | cons c field ih =>
    rw [escape_cons, escapeChar]
    split_ifs with hbackslash hpipe hreturn hnewline
    · simp [unescape, hbackslash, ih]
    · simp [unescape, hpipe, ih]
    · simp [unescape, hreturn, ih]
    · simp [unescape, hnewline, ih]
    · simp [unescape, ih]

theorem unescape_of_notMem {s : List Char} (hs : '\\' ∉ s) : unescape s = s := by
  induction s with
  | nil => rfl
  | cons c s ih =>
    obtain ⟨hc, hs⟩ := not_or.mp (mt List.mem_cons.mpr hs)
    simp [unescape, Ne.symm hc, ih hs]

theorem unescape_cef_escape (field : List Char) : unescape_cef (escape field) = field := by
  rw [unescape_cef]
  split
  · rename_i hplain
    have hplain : '\\' ∉ escape field := by simpa using hplain
    rw [← unescape_of_notMem hplain, unescape_escape]
  · exact unescape_escape field

/-- An escaped field ends at the first pipe behind it. -/
theorem headerParts_escape (value : List Char) {splits : Nat} (hsplits : splits < 7)
    (field s : List Char) :
    headerParts false splits field (escape value ++ '|' :: s) =
      unescape_cef (field ++ escape value) :: headerParts false (splits + 1) [] s := by
  induction value generalizing field with
  | nil => simp [escape, headerParts, hsplits]
  | cons c value ih =>
    rw [escape_cons, escapeChar]
    split_ifs with hbackslash hpipe hreturn hnewline <;> simp_all [headerParts]

/-- What is left when the seven fields are cut off is the extension. -/
theorem headerParts_extension (extension : List Char) :
    headerParts false 7 [] extension = [extension] := by
  cases extension <;> simp [headerParts]

theorem headerParts_intercalate (fields : List (List Char)) {splits : Nat}
    (hsplits : splits + fields.length = 7) (extension : List Char) :
    headerParts false splits [] (['|'].intercalate (fields.map escape ++ [extension])) =
      fields ++ [extension] := by
  induction fields generalizing splits with
  | nil =>
    obtain rfl : splits = 7 := hsplits
    simpa using headerParts_extension extension
  | cons field fields ih =>
    have hjoin : ['|'].intercalate ((field :: fields).map escape ++ [extension]) =
        escape field ++ '|' :: ['|'].intercalate (fields.map escape ++ [extension]) := by
      cases fields <;> simp [List.intercalate_cons_cons]
    rw [List.length_cons] at hsplits
    rw [hjoin, headerParts_escape field (by omega), List.nil_append, unescape_cef_escape,
      ih (by omega), List.cons_append]

/-- Splitting a rendered header gives back its seven fields and the extension. -/
theorem split_cef_header_renderHeader (fields : List.Vector (List Char) 7) (extension : List Char) :
    split_cef_header (renderHeader fields extension) = ok (fields.toList ++ [extension]) := by
  rw [split_cef_header_eq, renderHeader,
    headerParts_intercalate fields.toList (by rw [fields.toList_length])]

end cef

end ulpf_core.parser.extractors
