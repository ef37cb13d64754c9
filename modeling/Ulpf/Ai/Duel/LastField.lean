import Ulpf.Core.Parser.Boundaries
import Ulpf.Lib.Quote

open Result ulpf_core.parser.extractors

namespace ulpf_ai.duel

namespace csv_last_field

/-- The variables of the loop. -/
structure Scan where
  in_quotes : Bool
  start : Nat
  deriving DecidableEq

/-- One turn of the loop. -/
def turn (scan : Scan) (index : Nat × Char) : Scan :=
  if index.2 = '"' then { scan with in_quotes := !scan.in_quotes }
  else if index.2 = ',' ∧ !scan.in_quotes then { scan with start := index.1 + 1 }
  else scan

def scan (line : List Char) : Scan := (str.char_indices line).foldl turn ⟨false, 0⟩

/-- A field with a quote at both ends goes without them, and doubled quotes become one. -/
def unquote (field : List Char) : Result (List Char) :=
  if 2 ≤ str.len field ∧ field.head? = some '"' ∧ field.getLast? = some '"' then do
    let inner ← str.slice field 1 (str.len field - 1)
    ok (str.replace ['"', '"'] ['"'] inner)
  else ok field

end csv_last_field

/-- Quote-aware last-column reader. -/
def csv_last_field (line : List Char) : Result (List Char) := do
  let line := str.trim_end_matches (· = '\r') line
  let field ← str.slice_from line (csv_last_field.scan line).start
  csv_last_field.unquote field

namespace csv_last_field

theorem scan_concat (line : List Char) (c : Char) :
    scan (line ++ [c]) = turn (scan line) (str.len line, c) := by
  rw [scan, str.char_indices_concat, List.foldl_append]
  rfl

/-- A character that is neither a quote nor a comma has neither among its bytes. -/
theorem ne_of_mem_bytes {c : Char} (hquote : c ≠ '"') (hcomma : c ≠ ',') {b : UInt8}
    (hb : b ∈ str.bytes [c]) : b ≠ split_csv.QUOTE ∧ b ≠ split_csv.COMMA := by
  rw [str.bytes, List.flatMap_singleton] at hb
  constructor
  · rintro rfl
    exact hquote (Char.toNat_inj.mp (String.toNat_eq_of_mem_utf8EncodeChar hb (by decide)))
  · rintro rfl
    exact hcomma (Char.toNat_inj.mp (String.toNat_eq_of_mem_utf8EncodeChar hb (by decide)))

/-- The scan over the characters reads the bytes. -/
theorem reads_scan (line : List Char) :
    quoted.Reads split_csv.QUOTE split_csv.COMMA (str.bytes line) (scan line).in_quotes
      (scan line).start := by
  have hne : split_csv.QUOTE ≠ split_csv.COMMA := by decide
  induction line using List.reverseRecOn with
  | nil => exact quoted.Reads.nil
  | append_singleton line c ih =>
    rw [scan_concat, turn, str.bytes_append]
    dsimp only
    split_ifs with hquote hcut
    · subst hquote
      exact ih.concat_quote hne
    · obtain ⟨rfl, houtside⟩ := hcut
      have hin : (scan line).in_quotes = false := by simpa using houtside
      rw [hin] at ih ⊢
      have hnext := ih.concat_sep hne
      rwa [str.length_bytes] at hnext
    · by_cases hcomma : c = ','
      · subst hcomma
        exact ih.concat_other hne.symm fun _ => by simpa using hcut
      · exact ih.append_other fun b hb => ne_of_mem_bytes hquote hcomma hb

/-- Wherever both loops have read the same text, they have the same field. -/
theorem start_scan_eq {line front back : List Char} {state : split_csv.Scan} (hline : line = front ++ back)
    (hfront : str.len front = state.i) (hstep : split_csv.InStep line state) :
    (scan front).start = state.start := by
  have hreads := hstep.reads
  rw [hline, str.bytes_append, ← hfront, ← str.length_bytes, List.take_left] at hreads
  exact (reads_scan front).start_unique hreads

theorem unquote_quoted (inner : List Char) :
    unquote ('"' :: (inner ++ ['"'])) = ok (str.replace ['"', '"'] ['"'] inner) := by
  have hquote : '"'.utf8Size = 1 := by decide
  have hstop : str.len ('"' :: (inner ++ ['"'])) - 1 = str.len (['"'] ++ inner) := by
    simp only [str.len_cons, str.len_append, str.len_nil, hquote]
    omega
  have hquotes : 2 ≤ str.len ('"' :: (inner ++ ['"'])) ∧ ('"' :: (inner ++ ['"'])).head? = some '"' ∧
      ('"' :: (inner ++ ['"'])).getLast? = some '"' := by
    refine ⟨?_, rfl, by rw [← List.cons_append, List.getLast?_concat]⟩
    simp only [str.len_cons, str.len_append, str.len_nil, hquote]
    omega
  have hslice := str.slice_len ['"'] inner ['"']
  rw [List.append_assoc, List.singleton_append, str.len_cons, str.len_nil, hquote] at hslice
  rw [unquote, if_pos hquotes, hstop, hslice, bind_ok]

theorem unquote_ne_panic (field : List Char) : unquote field ≠ panic := by
  by_cases hquotes : 2 ≤ str.len field ∧ field.head? = some '"' ∧ field.getLast? = some '"'
  · obtain ⟨hlen, hhead, hlast⟩ := hquotes
    obtain ⟨rest, rfl⟩ := List.head?_eq_some_iff.mp hhead
    -- One quote alone is too short.
    have hne : rest ≠ [] := by
      rintro rfl
      revert hlen
      decide
    rw [List.getLast?_cons_of_ne_nil hne] at hlast
    obtain ⟨inner, rfl⟩ := List.getLast?_eq_some_iff.mp hlast
    rw [unquote_quoted]
    exact fun h => by cases h
  · rw [unquote, if_neg hquotes]
    exact fun h => by cases h

end csv_last_field

/-- No row makes the reader panic. -/
theorem csv_last_field_ne_panic (line : List Char) : csv_last_field line ≠ panic := by
  obtain ⟨state, field, -, hend, hstep, hfield, -⟩ :=
    split_csv.exists_scan (str.trim_end_matches (· = '\r') line)
  rw [csv_last_field, csv_last_field.start_scan_eq (List.append_nil _).symm hend.symm hstep, hfield,
    bind_ok]
  exact csv_last_field.unquote_ne_panic field

/-- Both readers start the last field at one place. At every place which both loops reach, they
    are in the same field; the loop of `split_csv` ends with `start` where `csv_last_field` has it,
    and the two make their result of the same text. -/
theorem csv_last_field_starts_as_split_csv (line : List Char) (hline : line.getLast? ≠ some '\r') :
    (∀ fuel state front back, split_csv.turns line fuel .new = ok state → line = front ++ back →
      str.len front = state.i → (csv_last_field.scan front).start = state.start) ∧
    ∃ state field, split_csv.scan line = ok state ∧ state.i = str.len line ∧
      (csv_last_field.scan (str.trim_end_matches (· = '\r') line)).start = state.start ∧
      str.slice_from line state.start = ok field ∧
      split_csv line = ok (state.fields ++ [finish_csv_field field state.dirty]) ∧
      csv_last_field line = csv_last_field.unquote field := by
  constructor
  · intro fuel state front back hturns hsplit hfront
    exact csv_last_field.start_scan_eq hsplit hfront ((split_csv.InStep.new line).turns hturns).1
  · obtain ⟨state, field, hscan, hend, hstep, hfield, hfields⟩ := split_csv.exists_scan line
    have htrim : str.trim_end_matches (· = '\r') line = line := by
      refine str.trim_end_matches_eq_self fun c hc => decide_eq_false ?_
      rintro rfl
      exact hline hc
    have hstart := csv_last_field.start_scan_eq (List.append_nil line).symm hend.symm hstep
    refine ⟨state, field, hscan, hend, ?_, hfield, hfields, ?_⟩
    · rw [htrim, hstart]
    · rw [csv_last_field, htrim, hstart, hfield, bind_ok]

/-- Doubled quotes inside and outside a quoted field, and a quote that nothing closes. -/
def malformed : List Char := str.lit "1,\"a\"\",b\",x\"\"y,\"z,w"

theorem csv_last_field_starts_as_split_csv_malformed :
    malformed.getLast? ≠ some '\r' ∧ ∃ state, split_csv.scan malformed = ok state ∧
      state.start = 15 ∧
      (csv_last_field.scan (str.trim_end_matches (· = '\r') malformed)).start = state.start := by
  have hend : malformed.getLast? ≠ some '\r' := by decide
  obtain ⟨state, field, hscan, -, hstart, -⟩ :=
    (csv_last_field_starts_as_split_csv malformed hend).2
  refine ⟨hend, state, hscan, ?_, hstart⟩
  rw [← hstart]
  decide

end ulpf_ai.duel
