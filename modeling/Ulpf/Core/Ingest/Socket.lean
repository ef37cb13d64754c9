import Ulpf.Lib.Lines

open buf_read

namespace ulpf_core.ingest

/-- The payload of a datagram. The length field of UDP counts eight bytes of header. -/
structure Datagram where
  payload : List UInt8
  length_le : payload.length ≤ 65527

/-- The bytes of one connection, in the reads that deliver them. -/
structure TcpStream where
  reads : List (List UInt8)
  read_ne_nil : ∀ read ∈ reads, read ≠ []

/-- What a listener hands on of a line: the trimmed text, unless it is empty. -/
def trimmed_line (line : List Char) : List String :=
  let trimmed := str.trim line
  if trimmed = [] then [] else [String.ofList trimmed]

/-- The lines of a datagram that was received into a buffer of this length. -/
def datagram_lines (buf_len : Nat) (datagram : Datagram) : List String :=
  match from_utf8 (datagram.payload.take buf_len) with
  | some text => (str.lines text.toList).flatMap trimmed_line
  | none => []

structure IngestConfig where
  batch_size : Nat
  buffer_capacity : Nat

def IngestConfig.default : IngestConfig where
  batch_size := 1000
  buffer_capacity := 65536

/-- The state of `UdpSyslogListener::run_raw`: the open batch, and those sent. -/
structure RunRaw where
  current_batch : List String
  sent : List (List String)

namespace RunRaw

def push_line (config : IngestConfig) (self : RunRaw) (line : String) : RunRaw :=
  let current_batch := self.current_batch ++ [line]
  if current_batch.length ≥ config.batch_size then
    { current_batch := [], sent := self.sent ++ [current_batch] }
  else { self with current_batch }

/-- The branches of the `select!`; `elapsed` tells whether the last batch is old enough. -/
inductive Wake where
  | Received (datagram : Datagram)
  | Timeout (elapsed : Bool)

def step (config : IngestConfig) (self : RunRaw) : Wake → RunRaw
  | .Received datagram => (datagram_lines config.buffer_capacity datagram).foldl (push_line config) self
  | .Timeout elapsed =>
    if self.current_batch ≠ [] ∧ elapsed = true then
      { current_batch := [], sent := self.sent ++ [self.current_batch] }
    else self

def Wake.lines (config : IngestConfig) : Wake → List String
  | Received datagram => datagram_lines config.buffer_capacity datagram
  | Timeout _ => []

/-- The lines that were handed on so far. -/
def lines (self : RunRaw) : List String := self.sent.flatten ++ self.current_batch

theorem lines_push_line (config : IngestConfig) (self : RunRaw) (line : String) :
    (self.push_line config line).lines = self.lines ++ [line] := by
  unfold push_line lines
  dsimp only
  split <;> simp

/-- The batches change nothing about the lines and their order. -/
theorem lines_step (config : IngestConfig) (self : RunRaw) (wake : Wake) :
    (self.step config wake).lines = self.lines ++ wake.lines config := by
  cases wake with
  | Received datagram =>
    unfold step Wake.lines
    dsimp only
    induction datagram_lines config.buffer_capacity datagram generalizing self with
    | nil => simp
    | cons line rest ih =>
      rw [List.foldl_cons, ih, lines_push_line, List.append_assoc, List.singleton_append]
  | Timeout elapsed =>
    simp only [step, Wake.lines]
    split <;> simp [lines]

end RunRaw

/-- The bytes are those of whitespace characters. -/
def isBlank (bytes : List UInt8) : Bool :=
  match from_utf8 bytes with
  | some text => text.toList.all Char.is_whitespace
  | none => false

/-- The item is the line but for whitespace at its ends, so it has all other bytes of the
    line, in order. -/
def Carries (line item : List UInt8) : Prop :=
  ∃ left right, line = left ++ item ++ right ∧ isBlank left = true ∧ isBlank right = true

/-- The lines that are more than whitespace. -/
def contentLines (bytes : List UInt8) : List (List UInt8) :=
  (bytes.splitOn NEWLINE).filter fun line => !isBlank line

/-- Each line with content is in an item of its own, or it is counted as dropped. -/
def Accounted (bytes : List UInt8) (items : List (List UInt8)) (dropped : Nat) : Prop :=
  ∃ kept, kept.Sublist (contentLines bytes) ∧ List.Forall₂ Carries kept items ∧
    (contentLines bytes).length ≤ kept.length + dropped

theorem isBlank_as_bytes (text : List Char) :
    isBlank (String.ofList text).as_bytes = true ↔ ∀ c ∈ text, c.is_whitespace = true := by
  simp [isBlank]

theorem isBlank_of_invalid {line : List UInt8} (h : from_utf8 line = none) : isBlank line = false := by
  simp [isBlank, h]

/-- A line with content is handed on, a blank one is not. -/
theorem trimmed_line_eq (text : List Char) :
    trimmed_line text =
      if isBlank (String.ofList text).as_bytes = true then [] else [String.ofList (str.trim text)] := by
  unfold trimmed_line
  simp only [str.trim_eq_nil_iff, isBlank_as_bytes]

theorem carries_trim (text : List Char) :
    Carries (String.ofList text).as_bytes (String.ofList (str.trim text)).as_bytes := by
  obtain ⟨left, right, htext, hleft, hright⟩ := str.exists_trim text
  refine ⟨(String.ofList left).as_bytes, (String.ofList right).as_bytes, ?_,
    (isBlank_as_bytes left).mpr hleft, (isBlank_as_bytes right).mpr hright⟩
  rw [← String.as_bytes_ofList_append, ← String.as_bytes_ofList_append, ← htext]

/-- The items that are handed on of the lines before the first that is not UTF-8. -/
def lineItems (lines : List (List UInt8)) : List (List UInt8) :=
  ((decodeLines lines).flatMap trimmed_line).map String.as_bytes

theorem exists_text_of_isSome {line : List UInt8} (h : (from_utf8 line).isSome = true) :
    ∃ text : List Char, line = (String.ofList text).as_bytes := by
  obtain ⟨s, hs⟩ := Option.isSome_iff_exists.mp h
  exact ⟨s.toList, by rw [String.ofList_toList, as_bytes_of_from_utf8 hs]⟩

theorem lineItems_cons (text : List Char) (lines : List (List UInt8)) :
    lineItems ((String.ofList text).as_bytes :: lines) =
      (trimmed_line text).map String.as_bytes ++ lineItems lines := by
  simp [lineItems, decodeLines]

theorem lineItems_cons_invalid {line : List UInt8} (h : from_utf8 line = none)
    (lines : List (List UInt8)) : lineItems (line :: lines) = [] := by
  simp [lineItems, decodeLines, h]

/-- Lines that are UTF-8 are all carried. -/
theorem forall₂_carries {lines : List (List UInt8)}
    (hlines : ∀ line ∈ lines, (from_utf8 line).isSome = true) :
    List.Forall₂ Carries (lines.filter fun line => !isBlank line) (lineItems lines) := by
  induction lines with
  | nil => exact .nil
  | cons line lines ih =>
    obtain ⟨hline, hrest⟩ := List.forall_mem_cons.mp hlines
    obtain ⟨text, rfl⟩ := exists_text_of_isSome hline
    rw [lineItems_cons, trimmed_line_eq, List.filter_cons]
    cases isBlank (String.ofList text).as_bytes with
    | true => exact ih hrest
    | false => exact .cons (carries_trim text) (ih hrest)

/-- From the first line on that is not UTF-8 nothing is handed on, and that line has
    content. -/
theorem length_lineItems_lt {lines : List (List UInt8)}
    (hlines : ¬ ∀ line ∈ lines, (from_utf8 line).isSome = true) :
    (lineItems lines).length < (lines.filter fun line => !isBlank line).length := by
  induction lines with
  | nil => exact absurd (List.forall_mem_nil _) hlines
  | cons line lines ih =>
    cases hline : from_utf8 line with
    | none =>
      rw [lineItems_cons_invalid hline, List.filter_cons, isBlank_of_invalid hline]
      exact Nat.succ_pos _
    | some s =>
      have hrest : ¬ ∀ line ∈ lines, (from_utf8 line).isSome = true :=
        fun h => hlines (List.forall_mem_cons.mpr ⟨Option.isSome_of_mem hline, h⟩)
      obtain ⟨text, rfl⟩ := exists_text_of_isSome (Option.isSome_of_mem hline)
      rw [lineItems_cons, trimmed_line_eq, List.filter_cons]
      cases isBlank (String.ofList text).as_bytes with
      | true => exact ih hrest
      | false => exact Nat.succ_lt_succ (ih hrest)

/-- Items that are fewer than the lines with content cannot account for them. -/
theorem Accounted.length_le {bytes : List UInt8} {items : List (List UInt8)} {dropped : Nat}
    (h : Accounted bytes items dropped) : (contentLines bytes).length ≤ items.length + dropped := by
  obtain ⟨kept, -, hcarries, hlength⟩ := h
  rw [← hcarries.length_eq]
  exact hlength

theorem accounted_lineItems_iff (bytes : List UInt8) :
    Accounted bytes (lineItems (bytes.splitOn NEWLINE)) 0 ↔ (from_utf8 bytes).isSome = true := by
  rw [from_utf8_isSome_iff]
  constructor
  · intro haccounted
    by_contra hinvalid
    have hlt := length_lineItems_lt hinvalid
    have hle := haccounted.length_le
    unfold contentLines at hle
    omega
  · intro hvalid
    exact ⟨contentLines bytes, List.Sublist.refl _, forall₂_carries hvalid, Nat.le_refl _⟩

theorem trimmed_line_nil : trimmed_line [] = [] := rfl

theorem trimmed_line_strip_cr (line : List Char) :
    trimmed_line (str.strip_cr line) = trimmed_line line := by
  simp only [trimmed_line, str.trim_strip_cr]

/-- A datagram that fits the buffer is accounted for exactly if it is UTF-8. -/
theorem accounted_datagram_lines_iff {buf_len : Nat} (hbuf : 65527 ≤ buf_len) (datagram : Datagram) :
    Accounted datagram.payload ((datagram_lines buf_len datagram).map String.as_bytes) 0 ↔
      (from_utf8 datagram.payload).isSome = true := by
  have htake : datagram.payload.take buf_len = datagram.payload :=
    List.take_of_length_le (datagram.length_le.trans hbuf)
  unfold datagram_lines
  rw [htake]
  cases htext : from_utf8 datagram.payload with
  | some text =>
    have hbytes : (String.ofList text.toList).as_bytes = datagram.payload := by
      rw [String.ofList_toList, as_bytes_of_from_utf8 htext]
    dsimp only
    rw [flatMap_lines trimmed_line_nil trimmed_line_strip_cr, hbytes, ← htext]
    exact accounted_lineItems_iff datagram.payload
  | none =>
    have hinvalid : ¬ ∀ line ∈ datagram.payload.splitOn NEWLINE, (from_utf8 line).isSome = true := by
      rw [← from_utf8_isSome_iff, htext]
      exact Bool.false_ne_true
    have hlt := length_lineItems_lt hinvalid
    refine ⟨fun haccounted => ?_, fun h => absurd h Bool.false_ne_true⟩
    have hle := haccounted.length_le
    simp only [contentLines, List.map_nil, List.length_nil] at hle
    omega

theorem accounted_lines_until_error_iff (stream : TcpStream) :
    Accounted stream.reads.flatten
        (((lines_until_error stream.reads).flatMap trimmed_line).map String.as_bytes) 0 ↔
      (from_utf8 stream.reads.flatten).isSome = true := by
  rw [flatMap_lines_until_error trimmed_line_nil trimmed_line_strip_cr]
  exact accounted_lineItems_iff stream.reads.flatten

end ulpf_core.ingest
