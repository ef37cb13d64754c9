import Ulpf.Lib.Text

/-- A text is one line, or a line, the separator and a rest. -/
theorem List.line_induction {α : Type} {motive : List α → Prop} (sep : α)
    (single : ∀ line, sep ∉ line → motive line)
    (cons : ∀ line rest, sep ∉ line → motive rest → motive (line ++ sep :: rest)) (text : List α) :
    motive text := by
  induction hlength : text.length using Nat.strongRecOn generalizing text with
  | _ n ih =>
    by_cases hmem : sep ∈ text
    · obtain ⟨line, rest, rfl, hline⟩ := List.eq_append_cons_of_mem hmem
      exact cons line rest hline (ih rest.length (by simp at hlength; omega) rest rfl)
    · exact single text hmem

@[simp] theorem from_utf8_nil : from_utf8 [] = some "" := rfl

theorem as_bytes_of_from_utf8 {bytes : List UInt8} {s : String} (h : from_utf8 bytes = some s) :
    s.as_bytes = bytes := by
  unfold from_utf8 String.fromUTF8? at h
  split at h
  · cases h
    rfl
  · cases h

namespace str

/-- The end of a line as `str::lines` sees it: one carriage return in front of the
    newline goes too. -/
def strip_cr (line : List Char) : List Char :=
  if line.getLast? = some '\r' then line.dropLast else line

def linesFrom (line : List Char) : List Char → List (List Char)
  | [] => if line = [] then [] else [line]
  | c :: rest =>
    if c = '\n' then strip_cr line :: linesFrom [] rest else linesFrom (line ++ [c]) rest

/-- `str::lines`. -/
def lines (s : List Char) : List (List Char) := linesFrom [] s

theorem linesFrom_append {text : List Char} (htext : '\n' ∉ text) (line rest : List Char) :
    linesFrom line (text ++ rest) = linesFrom (line ++ text) rest := by
  induction text generalizing line with
  | nil => simp
  | cons c text ih =>
    obtain ⟨hc, htail⟩ := not_or.mp (mt List.mem_cons.mpr htext)
    rw [List.cons_append, linesFrom, if_neg (Ne.symm hc), ih htail]
    simp

theorem lines_append {line : List Char} (hline : '\n' ∉ line) (rest : List Char) :
    lines (line ++ '\n' :: rest) = strip_cr line :: lines rest := by
  rw [lines, linesFrom_append hline, List.nil_append, linesFrom, if_pos rfl]
  rfl

theorem lines_single {line : List Char} (hline : '\n' ∉ line) :
    lines line = if line = [] then [] else [line] := by
  have h := linesFrom_append hline [] []
  rw [List.append_nil, List.nil_append] at h
  exact h

theorem trim_concat_whitespace (s : List Char) {c : Char} (hc : c.is_whitespace = true) :
    trim (s ++ [c]) = trim s := by
  unfold trim trim_start trim_end
  rw [List.dropWhile_append]
  split
  · rename_i hempty
    rw [List.isEmpty_iff] at hempty
    simp [hempty, hc]
  · exact List.rdropWhile_concat_pos _ _ _ hc

theorem trim_strip_cr (line : List Char) : trim (strip_cr line) = trim line := by
  unfold strip_cr
  split
  · rename_i hlast
    obtain ⟨init, rfl⟩ := List.getLast?_eq_some_iff.mp hlast
    rw [List.dropLast_concat, trim_concat_whitespace init (by decide)]
  · rfl

/-- Trimming takes whitespace off both ends. -/
theorem exists_trim (s : List Char) : ∃ left right, s = left ++ trim s ++ right ∧
    (∀ c ∈ left, c.is_whitespace = true) ∧ ∀ c ∈ right, c.is_whitespace = true := by
  refine ⟨s.takeWhile Char.is_whitespace, (trim_start s).rtakeWhile Char.is_whitespace, ?_, ?_, ?_⟩
  · rw [List.append_assoc, trim, trim_end, List.rdropWhile_append_rtakeWhile, trim_start,
      List.takeWhile_append_dropWhile]
  · exact fun c hc => List.mem_takeWhile_imp hc
  · exact fun c hc => List.mem_rtakeWhile_imp hc

theorem trim_eq_nil_iff (s : List Char) : trim s = [] ↔ ∀ c ∈ s, c.is_whitespace = true := by
  constructor
  · intro h c hc
    obtain ⟨left, right, hs, hleft, hright⟩ := exists_trim s
    rw [hs, h, List.append_nil, List.mem_append] at hc
    exact hc.elim (hleft c) (hright c)
  · intro h
    rw [trim, trim_start, List.dropWhile_eq_nil_iff.mpr h]
    rfl

end str

namespace buf_read

/-- A newline is one byte, and no other character has it among its bytes. -/
theorem as_bytes_line_append (line rest : List Char) :
    (String.ofList (line ++ '\n' :: rest)).as_bytes =
      (String.ofList line).as_bytes ++ NEWLINE :: (String.ofList rest).as_bytes := by
  rw [List.append_cons, String.as_bytes_ofList_append, String.as_bytes_ofList_append]
  simp [show (String.ofList ['\n']).as_bytes = [NEWLINE] from by decide]

theorem newline_not_mem_as_bytes {line : List Char} (hline : '\n' ∉ line) :
    NEWLINE ∉ (String.ofList line).as_bytes := by
  refine String.not_mem_as_bytes (by decide) fun c hc hcode => hline ?_
  rw [String.toList_ofList] at hc
  have hc' : c = '\n' := Char.toNat_inj.mp hcode
  exact hc' ▸ hc

/-- The lines of the bytes are the bytes of the lines. -/
theorem splitOn_as_bytes (s : List Char) :
    (String.ofList s).as_bytes.splitOn NEWLINE =
      (s.splitOn '\n').map fun line => (String.ofList line).as_bytes := by
  induction s using List.line_induction '\n' with
  | single line hline =>
    rw [List.splitOn_eq_singleton (newline_not_mem_as_bytes hline), List.splitOn_eq_singleton hline]
    rfl
  | cons line rest hline ih =>
    rw [as_bytes_line_append, List.splitOn_append_cons_self_of_not_mem (newline_not_mem_as_bytes hline),
      List.splitOn_append_cons_self_of_not_mem hline, ih]
    rfl

/-- A text is UTF-8 if its lines are. -/
theorem from_utf8_isSome_iff (bytes : List UInt8) : (from_utf8 bytes).isSome = true ↔
    ∀ line ∈ bytes.splitOn NEWLINE, (from_utf8 line).isSome = true := by
  constructor
  · intro h line hline
    obtain ⟨s, hs⟩ := Option.isSome_iff_exists.mp h
    rw [← as_bytes_of_from_utf8 hs, ← String.ofList_toList (s := s), splitOn_as_bytes] at hline
    obtain ⟨text, -, rfl⟩ := List.mem_map.mp hline
    rw [from_utf8_as_bytes]
    rfl
  · intro h
    induction bytes using List.line_induction NEWLINE with
    | single line hline =>
      rw [List.splitOn_eq_singleton hline] at h
      exact h line (List.mem_singleton.mpr rfl)
    | cons line rest hline ih =>
      rw [List.splitOn_append_cons_self_of_not_mem hline, List.forall_mem_cons] at h
      obtain ⟨s, hs⟩ := Option.isSome_iff_exists.mp h.1
      obtain ⟨t, ht⟩ := Option.isSome_iff_exists.mp (ih h.2)
      have hbytes := as_bytes_line_append s.toList t.toList
      rw [String.ofList_toList, String.ofList_toList, as_bytes_of_from_utf8 hs,
        as_bytes_of_from_utf8 ht] at hbytes
      rw [← hbytes, from_utf8_as_bytes]
      rfl

/-- The texts of the lines before the first that is not UTF-8. -/
def decodeLines : List (List UInt8) → List (List Char)
  | [] => []
  | line :: lines =>
    match from_utf8 line with
    | some text => text.toList :: decodeLines lines
    | none => []

theorem decodeLines_map (lines : List (List Char)) :
    decodeLines (lines.map fun line => (String.ofList line).as_bytes) = lines := by
  induction lines with
  | nil => rfl
  | cons line lines ih => simp [decodeLines, ih]

/-- Splitting the text and splitting the bytes show the same lines to a function that is
    blind to empty lines and to carriage returns. -/
theorem flatMap_lines {β : Type} {f : List Char → List β} (hempty : f [] = [])
    (hcr : ∀ line, f (str.strip_cr line) = f line) (s : List Char) :
    (str.lines s).flatMap f =
      (decodeLines ((String.ofList s).as_bytes.splitOn NEWLINE)).flatMap f := by
  rw [splitOn_as_bytes, decodeLines_map]
  induction s using List.line_induction '\n' with
  | single line hline =>
    rw [str.lines_single hline, List.splitOn_eq_singleton hline]
    split
    · rename_i h
      simp [h, hempty]
    · rfl
  | cons line rest hline ih =>
    rw [str.lines_append hline, List.splitOn_append_cons_self_of_not_mem hline, List.flatMap_cons,
      List.flatMap_cons, hcr, ih]

/-- `read_until` a newline, over the reads that the socket delivers. -/
def read_until : List (List UInt8) → List UInt8 → List UInt8 × List (List UInt8)
  | [], line => (line, [])
  | read :: reads, line =>
    match read.dropWhile (· != NEWLINE) with
    | [] => read_until reads (line ++ read)
    | newline :: rest => (line ++ read.takeWhile (· != NEWLINE) ++ [newline], rest :: reads)

/-- The last line of a stream need not end in a newline. -/
theorem read_until_end {reads : List (List UInt8)} (hreads : NEWLINE ∉ reads.flatten)
    (line : List UInt8) : read_until reads line = (line ++ reads.flatten, []) := by
  induction reads generalizing line with
  | nil => simp [read_until]
  | cons read reads ih =>
    obtain ⟨hread, hrest⟩ := not_or.mp (mt List.mem_append.mpr hreads)
    have hdrop : read.dropWhile (· != NEWLINE) = [] := by
      rw [List.dropWhile_eq_nil_iff]
      exact fun b hb => bne_iff_ne.mpr fun h => hread (h ▸ hb)
    rw [read_until, hdrop]
    dsimp only
    rw [ih hrest, List.append_assoc, List.flatten_cons]

/-- A line is found wherever the reads cut it. -/
theorem read_until_newline {reads : List (List UInt8)} {head rest : List UInt8}
    (hhead : NEWLINE ∉ head) (hreads : reads.flatten = head ++ NEWLINE :: rest) (line : List UInt8) :
    ∃ reads', read_until reads line = (line ++ head ++ [NEWLINE], reads') ∧ reads'.flatten = rest := by
  induction reads generalizing line head with
  | nil => simp at hreads
  | cons read reads ih =>
    rw [List.flatten_cons] at hreads
    by_cases hmem : NEWLINE ∈ read
    · obtain ⟨first, tail, rfl, hfirst⟩ := List.eq_append_cons_of_mem hmem
      have hsplit := List.splitOn_append_cons_self_of_not_mem hfirst (tail ++ reads.flatten)
      rw [← List.cons_append, ← List.append_assoc, hreads,
        List.splitOn_append_cons_self_of_not_mem hhead] at hsplit
      obtain ⟨rfl, -⟩ := List.cons.inj hsplit
      have hkeep : ∀ b ∈ head, (b != NEWLINE) = true :=
        fun b hb => bne_iff_ne.mpr fun h => hhead (h ▸ hb)
      refine ⟨tail :: reads, ?_, ?_⟩
      · rw [read_until, List.dropWhile_append_of_pos hkeep, List.takeWhile_append_of_pos hkeep]
        simp
      · simpa using hreads
    · have hdrop : read.dropWhile (· != NEWLINE) = [] := by
        rw [List.dropWhile_eq_nil_iff]
        exact fun b hb => bne_iff_ne.mpr fun h => hmem (h ▸ hb)
      obtain ⟨more, rfl⟩ : ∃ more, head = read ++ more := by
        rcases List.append_eq_append_iff.mp hreads with ⟨more, rfl, hmore⟩ | ⟨more, rfl, hmore⟩
        · exact ⟨more, rfl⟩
        · cases more with
          | nil => exact ⟨[], by simp⟩
          | cons b more =>
            obtain ⟨rfl, -⟩ := List.cons.inj hmore
            simp at hmem
      rw [List.append_assoc, List.append_cancel_left_eq] at hreads
      obtain ⟨reads', hread, hflat⟩ :=
        ih (fun h => hhead (List.mem_append_right _ h)) hreads (line ++ read)
      refine ⟨reads', ?_, hflat⟩
      rw [read_until, hdrop]
      dsimp only
      rw [hread, List.append_assoc line]

/-- The newline and one carriage return in front of it are not part of the line. -/
def strip_newline (line : List Char) : List Char :=
  if line.getLast? = some '\n' then str.strip_cr line.dropLast else line

/-- `next_line` of the buffered reader: the line and what is left to read, nothing at the
    end of the stream, or an error. -/
def next_line (reads : List (List UInt8)) :
    Except String (Option (List Char × List (List UInt8))) :=
  match read_until reads [] with
  | (line, rest) =>
    match from_utf8 line with
    | none => .error "stream did not contain valid UTF-8"
    | some text => if line = [] then .ok none else .ok (some (strip_newline text.toList, rest))

/-- What the next line is, by the bytes of the whole stream. -/
theorem next_line_cases (reads : List (List UInt8)) :
    (NEWLINE ∉ reads.flatten ∧
      ((from_utf8 reads.flatten = none ∧
          next_line reads = .error "stream did not contain valid UTF-8") ∨
        (reads.flatten = [] ∧ next_line reads = .ok none) ∨
        ∃ text, from_utf8 reads.flatten = some text ∧ reads.flatten ≠ [] ∧
          next_line reads = .ok (some (text.toList, [])))) ∨
    ∃ head rest, NEWLINE ∉ head ∧ reads.flatten = head ++ NEWLINE :: rest ∧
      ((from_utf8 head = none ∧ next_line reads = .error "stream did not contain valid UTF-8") ∨
        ∃ text reads', from_utf8 head = some text ∧ reads'.flatten = rest ∧
          next_line reads = .ok (some (str.strip_cr text.toList, reads'))) := by
  by_cases hmem : NEWLINE ∈ reads.flatten
  · right
    obtain ⟨head, rest, hreads, hhead⟩ := List.eq_append_cons_of_mem hmem
    obtain ⟨reads', hread, hrest⟩ := read_until_newline hhead hreads []
    rw [List.nil_append] at hread
    refine ⟨head, rest, hhead, hreads, ?_⟩
    cases htext : from_utf8 head with
    | none =>
      have hinvalid : from_utf8 (head ++ [NEWLINE]) = none := by
        rw [Option.eq_none_iff_forall_not_mem]
        intro s hs
        have hvalid := (from_utf8_isSome_iff (head ++ [NEWLINE])).mp (Option.isSome_of_mem hs) head
          (by rw [List.splitOn_append_cons_self_of_not_mem hhead]; exact List.mem_cons_self)
        simp [htext] at hvalid
      left
      simp [next_line, hread, hinvalid]
    | some text =>
      have hbytes := as_bytes_line_append text.toList []
      rw [String.ofList_toList, as_bytes_of_from_utf8 htext] at hbytes
      have hvalid : from_utf8 (head ++ [NEWLINE]) = some (String.ofList (text.toList ++ ['\n'])) := by
        rw [show head ++ [NEWLINE] = _ from hbytes.symm, from_utf8_as_bytes]
      right
      exact ⟨text, reads', rfl, hrest, by simp [next_line, hread, hvalid, strip_newline]⟩
  · left
    refine ⟨hmem, ?_⟩
    have hread := read_until_end hmem []
    rw [List.nil_append] at hread
    cases htext : from_utf8 reads.flatten with
    | none =>
      left
      simp [next_line, hread, htext]
    | some text =>
      right
      by_cases hempty : reads.flatten = []
      · left
        exact ⟨hempty, by simp [next_line, hread, hempty]⟩
      · right
        refine ⟨text, rfl, hempty, ?_⟩
        have hlast : text.toList.getLast? ≠ some '\n' := by
          intro h
          obtain ⟨init, hinit⟩ := List.getLast?_eq_some_iff.mp h
          have hbytes := as_bytes_line_append init []
          rw [← hinit, String.ofList_toList, as_bytes_of_from_utf8 htext] at hbytes
          exact hmem (by rw [hbytes]; simp)
        simp only [next_line, hread, htext, hempty, ↓reduceIte, strip_newline, hlast]

theorem length_of_next_line {reads rest : List (List UInt8)} {line : List Char}
    (h : next_line reads = .ok (some (line, rest))) : rest.flatten.length < reads.flatten.length := by
  rcases next_line_cases reads with ⟨-, ⟨-, hnext⟩ | ⟨-, hnext⟩ | ⟨text, -, hne, hnext⟩⟩ |
      ⟨head, tail, -, hreads, ⟨-, hnext⟩ | ⟨text, reads', -, hrest, hnext⟩⟩ <;> rw [hnext] at h <;>
    cases h
  · exact List.length_pos_iff.mpr hne
  · rw [hreads, hrest, List.length_append, List.length_cons]
    omega

/-- The lines of a reader up to its end or its first error. -/
def lines_until_error (reads : List (List UInt8)) : List (List Char) :=
  match _ : next_line reads with
  | .ok (some (line, rest)) => line :: lines_until_error rest
  | .ok none => []
  | .error _ => []
termination_by reads.flatten.length
decreasing_by exact length_of_next_line ‹_›

theorem lines_until_error_eq (reads : List (List UInt8)) :
    lines_until_error reads = match next_line reads with
      | .ok (some (line, rest)) => line :: lines_until_error rest
      | .ok none => []
      | .error _ => [] := by
  rw [lines_until_error]
  split <;> simp_all

/-- How the stream is cut into reads does not matter. -/
theorem flatMap_lines_until_error {β : Type} {f : List Char → List β} (hempty : f [] = [])
    (hcr : ∀ line, f (str.strip_cr line) = f line) (reads : List (List UInt8)) :
    (lines_until_error reads).flatMap f =
      (decodeLines (reads.flatten.splitOn NEWLINE)).flatMap f := by
  have hnone : lines_until_error [] = [] := by simp [lines_until_error_eq, next_line, read_until]
  induction hlength : reads.flatten.length using Nat.strongRecOn generalizing reads with
  | _ n ih =>
    rw [lines_until_error_eq]
    rcases next_line_cases reads with
      ⟨hmem, ⟨hinvalid, hnext⟩ | ⟨hnil, hnext⟩ | ⟨text, htext, -, hnext⟩⟩ |
      ⟨head, tail, hhead, hreads, ⟨hinvalid, hnext⟩ | ⟨text, reads', htext, rfl, hnext⟩⟩ <;>
      rw [hnext]
    · rw [List.splitOn_eq_singleton hmem, decodeLines, hinvalid]
    · simp [hnil, decodeLines, hempty]
    · simp [List.splitOn_eq_singleton hmem, decodeLines, htext, hnone]
    · rw [hreads, List.splitOn_append_cons_self_of_not_mem hhead, decodeLines, hinvalid]
    · have hshorter := length_of_next_line hnext
      rw [hreads, List.splitOn_append_cons_self_of_not_mem hhead, decodeLines, htext]
      dsimp only
      rw [List.flatMap_cons, List.flatMap_cons, hcr, ih _ (by omega) reads' rfl]

end buf_read
