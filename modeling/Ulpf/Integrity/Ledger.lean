import Ulpf.Lib.Json

open str

namespace ulpf_integrity.batcher

/-- An append-only ledger entry recorded on disk and in memory. -/
structure LedgerEntry where
  block_id : Nat
  timestamp : Int
  leaf_count : Nat
  merkle_root : String
  parquet_file : String
  deriving DecidableEq, Repr

/-- `serde_json::to_string` of an entry. -/
def LedgerEntry.to_json (entry : LedgerEntry) : String :=
  String.ofList (json.key '\x7b' "block_id" ++ (json.nat entry.block_id ++
    (json.key ',' "timestamp" ++ (json.int entry.timestamp ++
    (json.key ',' "leaf_count" ++ (json.nat entry.leaf_count ++
    (json.key ',' "merkle_root" ++ (json.string entry.merkle_root ++
    (json.key ',' "parquet_file" ++ (json.string entry.parquet_file ++ ['\x7d']))))))))))

/-- The numbers of the entry are values of the types of their fields, `u64`, `i64` and `usize`, and
    the block id has a successor. -/
def LedgerEntry.Sized (entry : LedgerEntry) : Prop :=
  entry.block_id + 1 < 2 ^ 64 ∧ json.I64 entry.timestamp ∧ entry.leaf_count < 2 ^ 64

instance : DecidablePred LedgerEntry.Sized := fun _ => inferInstanceAs (Decidable (_ ∧ _))

/-- What the ledger relies on in `serde_json::from_str`: it reads back the entry
    that the serializer wrote. What it makes of any other text is left open. -/
structure JsonReader where
  from_str : String → Option LedgerEntry
  from_str_to_json : ∀ entry : LedgerEntry, entry.Sized → from_str entry.to_json = some entry

/-- A reader of exactly the serializer's layout. -/
def LedgerEntry.of_json (text : String) : Option LedgerEntry := do
  let s ← strip_prefix (json.key '\x7b' "block_id") text.toList
  let (block_id, s) ← json.readNat s
  let s ← strip_prefix (json.key ',' "timestamp") s
  let (timestamp, s) ← json.readInt s
  let s ← strip_prefix (json.key ',' "leaf_count") s
  let (leaf_count, s) ← json.readNat s
  let s ← strip_prefix (json.key ',' "merkle_root") s
  let (merkle_root, s) ← json.readString s
  let s ← strip_prefix (json.key ',' "parquet_file") s
  let (parquet_file, s) ← json.readString s
  if s = ['\x7d'] then some { block_id, timestamp, leaf_count, merkle_root, parquet_file } else none

/-- The line of the ledger file that holds an entry. -/
def ledgerLine (entry : LedgerEntry) : List UInt8 := entry.to_json.as_bytes ++ [buf_read.NEWLINE]

/-- The ledger file that holds some entries. -/
def ledgerText (entries : List LedgerEntry) : List UInt8 := entries.flatMap ledgerLine

def load_lines (reader : JsonReader) :
    Nat → List (List UInt8) → Except String (List LedgerEntry)
  | _, [] => .ok []
  | idx, line :: rest =>
    match from_utf8 line with
    | none => .error s!"Error reading line {idx} from ledger"
    | some line =>
      let trimmed := String.ofList (trim line.toList)
      if trimmed = "" then load_lines reader (idx + 1) rest
      else
        match reader.from_str trimmed with
        | none => .error s!"Failed parsing ledger entry at line {idx}: {trimmed}"
        | some entry => (load_lines reader (idx + 1) rest).map (entry :: ·)

/-- Loads all entries of the ledger file at `path`, which is absent or has the
    given content. -/
def load_ledger_entries (reader : JsonReader) (path : String) (file : Option (List UInt8)) :
    Except String (List LedgerEntry) :=
  match file with
  | none => .error s!"Failed to open ledger at {str.debug path}"
  | some bytes => load_lines reader 0 (buf_read.lines bytes)

theorem LedgerEntry.of_json_to_json (entry : LedgerEntry) : of_json entry.to_json = some entry := by
  have hcomma := json.not_isDigit_of_mem_head?_key
  simp only [of_json, to_json, String.toList_ofList, strip_prefix_append, Option.bind_eq_bind,
    Option.bind_some, json.readNat_nat _ (hcomma _ _), json.readInt_int _ (hcomma _ _),
    json.readString_string, ↓reduceIte]

/-- The reader of the serializer's own layout, as a reader. -/
def LedgerEntry.layoutReader : JsonReader := ⟨of_json, fun entry _ => of_json_to_json entry⟩

theorem LedgerEntry.toNat_of_mem_to_json {entry : LedgerEntry} {c : Char}
    (hc : c ∈ entry.to_json.toList) : 0x20 ≤ c.toNat := by
  have hbrace : (0x20 : Nat) ≤ '\x7b'.toNat ∧ (0x20 : Nat) ≤ '\x7d'.toNat ∧ (0x20 : Nat) ≤ ','.toNat := by
    decide
  simp only [to_json, String.toList_ofList, List.mem_append, List.mem_singleton] at hc
  rcases hc with hc | hc | hc | hc | hc | hc | hc | hc | hc | hc | rfl
  · exact json.toNat_of_mem_key hbrace.1 hc
  · exact json.toNat_of_mem_nat hc
  · exact json.toNat_of_mem_key hbrace.2.2 hc
  · exact json.toNat_of_mem_int hc
  · exact json.toNat_of_mem_key hbrace.2.2 hc
  · exact json.toNat_of_mem_nat hc
  · exact json.toNat_of_mem_key hbrace.2.2 hc
  · exact json.toNat_of_mem_string hc
  · exact json.toNat_of_mem_key hbrace.2.2 hc
  · exact json.toNat_of_mem_string hc
  · exact hbrace.2.1

theorem LedgerEntry.head?_to_json (entry : LedgerEntry) :
    entry.to_json.toList.head? = some '\x7b' := by
  rw [to_json, String.toList_ofList, json.head?_key_append]

theorem LedgerEntry.trim_to_json (entry : LedgerEntry) :
    trim entry.to_json.toList = entry.to_json.toList := by
  have hlast : entry.to_json.toList.getLast? = some '\x7d' := by
    simp only [to_json, String.toList_ofList, List.getLast?_append, List.getLast?_singleton,
      Option.some_or]
  apply trim_eq_self
  · intro c hc
    rw [head?_to_json, Option.mem_some_iff] at hc
    subst hc
    decide
  · intro c hc
    rw [hlast, Option.mem_some_iff] at hc
    subst hc
    decide

theorem load_lines_ledgerText (reader : JsonReader) {entries : List LedgerEntry}
    (hsized : ∀ entry ∈ entries, entry.Sized) (idx : Nat) :
    load_lines reader idx (buf_read.lines (ledgerText entries)) = .ok entries := by
  induction entries generalizing idx with
  | nil => rfl
  | cons entry entries ih =>
    obtain ⟨hentry, hrest⟩ := List.forall_mem_cons.mp hsized
    have hcontrol : ∀ b : UInt8, b.toNat < 0x20 → b ∉ entry.to_json.as_bytes := by
      intro b hb
      refine String.not_mem_as_bytes (by omega) fun c hc => ?_
      have := LedgerEntry.toNat_of_mem_to_json hc
      omega
    have hlines : buf_read.lines (ledgerText (entry :: entries)) =
        entry.to_json.as_bytes :: buf_read.lines (ledgerText entries) := by
      simp only [ledgerText, List.flatMap_cons, ledgerLine, List.append_assoc,
        List.singleton_append]
      exact buf_read.lines_append (hcontrol _ (by decide)) (hcontrol _ (by decide))
    have hnonempty : entry.to_json ≠ "" := by
      intro h
      have hhead := entry.head?_to_json
      rw [h] at hhead
      exact absurd hhead (by decide)
    rw [hlines, load_lines, from_utf8_as_bytes]
    simp only [LedgerEntry.trim_to_json, String.ofList_toList, hnonempty, ↓reduceIte,
      reader.from_str_to_json entry hentry, ih hrest]
    rfl

/-- The ledger that was written is the ledger that is loaded. -/
theorem load_ledger_entries_ledgerText (reader : JsonReader) (path : String)
    {entries : List LedgerEntry} (hsized : ∀ entry ∈ entries, entry.Sized) :
    load_ledger_entries reader path (some (ledgerText entries)) = .ok entries :=
  load_lines_ledgerText reader hsized 0

end ulpf_integrity.batcher
