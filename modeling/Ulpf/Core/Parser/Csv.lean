import Ulpf.Lib.Crates

open Result

namespace ulpf_core.parser.extractors

/-- Helper to convert a protocol name to the IANA protocol number. -/
def protocol_num_from_name (name : List Char) : Option Nat :=
  match String.ofList (str.to_ascii_uppercase name) with
  | "ICMP" => some 1
  | "IGMP" => some 2
  | "TCP" => some 6
  | "UDP" => some 17
  | "GRE" => some 47
  | "ESP" => some 50
  | "AH" => some 51
  | "ICMPV6" | "ICMP6" => some 58
  | "OSPF" => some 89
  | "SCTP" => some 132
  | _ => none

def protocol_name_from_num (num : Nat) : String :=
  match num with
  | 1 => "ICMP"
  | 2 => "IGMP"
  | 6 => "TCP"
  | 17 => "UDP"
  | 47 => "GRE"
  | 50 => "ESP"
  | 51 => "AH"
  | 58 => "ICMPv6"
  | 89 => "OSPF"
  | 132 => "SCTP"
  | _ => "UNKNOWN"

/-- ICMP carries no transport ports, and a port written as 0 is absent. -/
def normalize_port (proto_num port : Option Nat) : Option Nat :=
  if proto_num = some 1 then none else if port = some 0 then none else port

/-- An optional value that is kept under a name of its own. -/
def insert_some (name : String) (value : Option (List Char)) (unmapped : HashMap String String) :
    HashMap String String :=
  match value with
  | some text => unmapped.insert name (String.ofList text)
  | none => unmapped

/-- A field that is kept under a name of its own if it is not empty. -/
def insert_nonempty (name : String) (value : List Char) (unmapped : HashMap String String) :
    HashMap String String :=
  if value.isEmpty then unmapped else unmapped.insert name (String.ofList value)

/-- Drops one double quote at the end. -/
def strip_quote_suffix (s : List Char) : List Char :=
  if s.getLast? = some '"' then s.dropLast else s

/-- Clean fields are trimmed; quoted fields strip one wrapping pair and collapse
    doubled quotes. -/
def finish_csv_field (raw : List Char) (dirty : Bool) : List Char :=
  if !dirty then str.trim raw
  else
    let t := str.trim raw
    let t := (str.strip_prefix ['"'] t).getD t
    let t := strip_quote_suffix t
    str.trim (str.replace ['"', '"'] ['"'] t)

namespace split_csv

def QUOTE : UInt8 := 34
def COMMA : UInt8 := 44

/-- The scan over the bytes from position `i` on. `skip` says that this byte is the
    second one of a step of two. -/
def loop (input : List Char) : List UInt8 → Bool → Nat → Nat → Bool → Bool → List (List Char) →
    Result (List (List Char))
  | [], _, _, start, _, dirty, fields => do
    let field ← str.slice_from input start
    ok (fields ++ [finish_csv_field field dirty])
  | b :: rest, skip, i, start, in_quotes, dirty, fields =>
    if skip then loop input rest false (i + 1) start in_quotes dirty fields
    else if b = QUOTE ∧ in_quotes ∧ rest.head? = some QUOTE then
      loop input rest true (i + 1) start in_quotes true fields
    else if b = QUOTE then loop input rest false (i + 1) start (!in_quotes) true fields
    else if b = COMMA ∧ !in_quotes then do
      let field ← str.slice input start i
      loop input rest false (i + 1) (i + 1) in_quotes false
        (fields ++ [finish_csv_field field dirty])
    else loop input rest false (i + 1) start in_quotes dirty fields

end split_csv

/-- CSV field tokenizer handling optional double quotes. -/
def split_csv (input : List Char) : Result (List (List Char)) :=
  split_csv.loop input (str.bytes input) false 0 0 false false []

/-- The fields of a text, in characters; `field` is the part of the current field
    that has been read. -/
def csvFields (skip in_quotes dirty : Bool) (field : List Char) : List Char → List (List Char)
  | [] => [finish_csv_field field dirty]
  | c :: s =>
    if skip then csvFields false in_quotes dirty (field ++ [c]) s
    else if c = '"' ∧ in_quotes ∧ s.head? = some '"' then
      csvFields true in_quotes true (field ++ [c]) s
    else if c = '"' then csvFields false (!in_quotes) true (field ++ [c]) s
    else if c = ',' ∧ !in_quotes then
      finish_csv_field field dirty :: csvFields false in_quotes false [] s
    else csvFields false in_quotes dirty (field ++ [c]) s

/-- A byte beyond ASCII stays in the field. -/
theorem split_csv.loop_skip (input : List Char) {b : UInt8} (hb : 128 ≤ b.toNat) (rest : List UInt8)
    (skip : Bool) (i start : Nat) (in_quotes dirty : Bool) (fields : List (List Char)) :
    split_csv.loop input (b :: rest) skip i start in_quotes dirty fields =
      split_csv.loop input rest false (i + 1) start in_quotes dirty fields := by
  have hquote : b ≠ split_csv.QUOTE := str.byte_ne hb (by decide)
  have hcomma : b ≠ split_csv.COMMA := str.byte_ne hb (by decide)
  cases skip <;> simp [split_csv.loop, hquote, hcomma]

/-- The scan over the bytes cuts the text where the characters do. `before` is what
    precedes the current field. -/
theorem split_csv.loop_eq (skip in_quotes dirty : Bool) (before field s : List Char)
    (fields : List (List Char)) :
    split_csv.loop (before ++ field ++ s) (str.bytes s) skip (str.len (before ++ field))
      (str.len before) in_quotes dirty fields =
        ok (fields ++ csvFields skip in_quotes dirty field s) := by
  induction s generalizing skip in_quotes dirty before field fields with
  | nil => simp [split_csv.loop, csvFields]
  | cons c s ih =>
    -- A character that stays in the field leaves the rest of the text to the induction.
    have hinput : before ++ field ++ c :: s = before ++ (field ++ [c]) ++ s := by simp
    have hlen : str.len (before ++ (field ++ [c])) = str.len (before ++ field) + c.utf8Size := by
      simp [Nat.add_assoc]
    obtain ⟨b, hb, hcode, hsize⟩ | ⟨hcode, hbytes⟩ := str.utf8EncodeChar_cases c
    · have hquote : b = split_csv.QUOTE ↔ c = '"' := str.byte_eq_iff hcode rfl
      have hcomma : b = split_csv.COMMA ↔ c = ',' := str.byte_eq_iff hcode rfl
      have hnext : (str.bytes s).head? = some split_csv.QUOTE ↔ s.head? = some '"' :=
        str.head?_bytes_eq_some_iff rfl (by decide)
      have hstay : ∀ skip' in_quotes' dirty', split_csv.loop (before ++ field ++ c :: s) (str.bytes s)
          skip' (str.len (before ++ field) + 1) (str.len before) in_quotes' dirty' fields =
            ok (fields ++ csvFields skip' in_quotes' dirty' (field ++ [c]) s) := by
        intro skip' in_quotes' dirty'
        rw [hinput, ← hsize, ← hlen, ih]
      simp only [str.bytes_cons, hb, List.singleton_append, split_csv.loop, csvFields, hquote,
        hcomma, hnext, hstay]
      split_ifs with hskip hdouble hsingle hcut
      · rfl
      · rfl
      · rfl
      · have hslice := str.slice_len before field (c :: s)
        have hnextField := ih false in_quotes false (before ++ field ++ [c]) []
          (fields ++ [finish_csv_field field dirty])
        rw [List.append_nil, str.len_concat, hsize, List.append_assoc (before ++ field),
          List.singleton_append] at hnextField
        rw [hslice, bind_ok, hnextField, List.append_assoc, List.singleton_append]
      · rfl
    · have hquote : c ≠ '"' := str.char_ne hcode (by decide)
      have hcomma : c ≠ ',' := str.char_ne hcode (by decide)
      have hskip := str.bytes_cons_skip
        (fun bs skip i => split_csv.loop (before ++ field ++ c :: s) bs skip i (str.len before)
          in_quotes dirty fields)
        (fun b rest skip i hb => split_csv.loop_skip _ hb rest skip i _ _ _ _)
        hbytes s skip (str.len (before ++ field))
      have hfields : csvFields skip in_quotes dirty field (c :: s) =
          csvFields false in_quotes dirty (field ++ [c]) s := by
        cases skip <;> simp [csvFields, hquote, hcomma]
      rw [hskip, hfields, hinput, ← hlen, ih]

/-- Splitting never panics, whatever the text. -/
theorem split_csv_eq (input : List Char) :
    split_csv input = ok (csvFields false false false [] input) :=
  split_csv.loop_eq false false false [] [] input []

example : split_csv (str.lit "1,\"a,b\", c") = ok [['1'], ['a', ',', 'b'], ['c']] := by decide

/-- `NaiveDateTime` of a date and a time in epoch milliseconds. -/
def parse_date_time_or_fallback (crates : Crates) (date time : List Char) (fallback : Int) : Int :=
  let combined := str.trim date ++ [' '] ++ str.trim time
  (crates.parse_from_str combined "%Y-%m-%d %H:%M:%S").getD fallback

def parse_palo_alto_time_or_fallback (crates : Crates) (dt_str : List Char) (fallback : Int) : Int :=
  (crates.parse_from_str (str.trim dt_str) "%Y/%m/%d %H:%M:%S").getD fallback

def parse_rfc3339_or_fallback (crates : Crates) (ts_str : List Char) (fallback : Int) : Int :=
  (crates.parse_from_rfc3339 (str.trim ts_str)).getD fallback

end ulpf_core.parser.extractors
