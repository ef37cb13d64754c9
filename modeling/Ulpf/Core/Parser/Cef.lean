import Ulpf.Core.Parser.Fortigate

open Result
open ulpf_core.schema.ocsf

namespace ulpf_core.parser.extractors

namespace cef

def BACKSLASH : UInt8 := 92
def PIPE : UInt8 := 124

/-- The loop of `unescape_cef`. -/
def unescape : List Char → List Char
  | [] => []
  | '\\' :: s =>
    match s with
    | [] => ['\\']
    | x :: s => (if x = 'r' then '\r' else if x = 'n' then '\n' else x) :: unescape s
  | c :: s => c :: unescape s

def unescape_cef (s : List Char) : List Char :=
  if !s.contains '\\' then s else unescape s

/-- A text as it is read from left to right: a backslash takes the character behind it, and stands
    for itself at the end. -/
inductive Piece where
  | char (c : Char)
  | escape (x : Char)
  deriving DecidableEq

def pieces : List Char → List Piece
  | [] => []
  | ['\\'] => [.char '\\']
  | '\\' :: x :: s => .escape x :: pieces s
  | c :: s => .char c :: pieces s

def Piece.text : Piece → List Char
  | char c => [c]
  | escape x => ['\\', x]

/-- The documented escapes. -/
def escapeMeaning (x : Char) : Option Char :=
  if x = 'r' then some '\r' else if x = 'n' then some '\n'
  else if x = '|' ∨ x = '=' ∨ x = '\\' then some x else none

/-- What the documentation makes of a piece: an unknown escape stays literal. -/
def Piece.documented : Piece → List Char
  | char c => [c]
  | escape x =>
    match escapeMeaning x with
    | some c => [c]
    | none => ['\\', x]

/-- Unescaping as it is documented. -/
def unescapeDocumented (s : List Char) : List Char := (pieces s).flatMap Piece.documented

/-- No piece of the text is an escape without a meaning. -/
def KnownEscapes (s : List Char) : Prop :=
  ∀ x, Piece.escape x ∈ pieces s → (escapeMeaning x).isSome = true

theorem flatMap_text_pieces (s : List Char) : (pieces s).flatMap Piece.text = s := by
  fun_induction pieces s with
  | case1 => rfl
  | case2 => rfl
  | case3 x s ih => rw [List.flatMap_cons, ih, Piece.text]; rfl
  | case4 c s hlast hescape ih => rw [List.flatMap_cons, ih, Piece.text]; rfl

/-- A text without documented escapes means itself. -/
theorem unescapeDocumented_of_no_escape {s : List Char}
    (h : ∀ x, Piece.escape x ∈ pieces s → escapeMeaning x = none) : unescapeDocumented s = s := by
  have hpieces : ∀ piece ∈ pieces s, piece.documented = piece.text := by
    intro piece hpiece
    cases piece with
    | char c => rfl
    | escape x => rw [Piece.documented, h x hpiece, Piece.text]
  rw [unescapeDocumented, List.flatMap_congr hpieces, flatMap_text_pieces]

theorem unescape_eq_documented_iff (s : List Char) :
    unescape s = unescapeDocumented s ↔ KnownEscapes s := by
  unfold unescapeDocumented KnownEscapes
  fun_induction pieces s with
  | case1 => simp [unescape]
  | case2 => simp [unescape, Piece.documented]
  | case3 x s ih =>
    rw [unescape, List.flatMap_cons, Piece.documented]
    simp only [List.mem_cons, Piece.escape.injEq]
    by_cases hx : (escapeMeaning x).isSome = true
    · obtain ⟨c, hc⟩ := Option.isSome_iff_exists.mp hx
      have hpushed : (if x = 'r' then '\r' else if x = 'n' then '\n' else x) = c := by
        unfold escapeMeaning at hc
        split_ifs at hc ⊢ <;> exact Option.some.inj hc
      rw [hc, hpushed]
      simp only [List.singleton_append, List.cons.injEq, true_and, ih]
      constructor
      · rintro h y (rfl | hy)
        · exact hx
        · exact h y hy
      · exact fun h y hy => h y (.inr hy)
    · -- the code pushes the character alone, and it is not a backslash
      have hnone : escapeMeaning x = none := by simpa using hx
      have hpushed : (if x = 'r' then '\r' else if x = 'n' then '\n' else x) ≠ '\\' := by
        unfold escapeMeaning at hnone
        split_ifs at hnone ⊢
        tauto
      rw [hnone]
      refine iff_of_false ?_ fun h => hx (h x (.inl rfl))
      intro heq
      exact hpushed (List.cons.inj heq).1
  | case4 c s hlast hescape ih =>
    have hunescape : unescape (c :: s) = c :: unescape s := by
      rw [unescape]
      intro hc
      cases s with
      | nil => exact hlast hc rfl
      | cons x s => exact hescape x s hc rfl
    rw [hunescape, List.flatMap_cons, Piece.documented]
    simpa using ih

theorem escape_notMem_pieces {s : List Char} (hs : '\\' ∉ s) (x : Char) :
    Piece.escape x ∉ pieces s := by
  intro hx
  have htext : '\\' ∈ (pieces s).flatMap Piece.text :=
    List.mem_flatMap.mpr ⟨_, hx, List.mem_cons_self⟩
  exact hs (flatMap_text_pieces s ▸ htext)

/-- Unescaping is as documented if and only if every escape in the text is a documented one. -/
theorem unescape_cef_eq_documented_iff (s : List Char) :
    unescape_cef s = unescapeDocumented s ↔ KnownEscapes s := by
  by_cases hs : '\\' ∈ s
  · rw [unescape_cef, if_neg (by simpa using hs), unescape_eq_documented_iff]
  · have hnone := escape_notMem_pieces hs
    rw [unescape_cef, if_pos (by simpa using hs),
      unescapeDocumented_of_no_escape fun x hx => absurd hx (hnone x)]
    exact iff_of_true rfl fun x hx => absurd hx (hnone x)

/-- A path loses the backslash that its documentation keeps. -/
theorem unescape_cef_path :
    unescape_cef (str.lit "C:\\temp") = str.lit "C:temp" ∧
      unescapeDocumented (str.lit "C:\\temp") = str.lit "C:\\temp" := by
  decide

/-- The scan over the bytes from position `i` on. `skip` says that this byte follows
    a backslash. -/
def split_cef_header_loop (input : List Char) : List UInt8 → Bool → Nat → Nat → Nat →
    List (List Char) → Result (List (List Char))
  | [], _, _, start, _, parts => do
    let extension ← str.slice_from input start
    ok (parts ++ [extension])
  | b :: rest, skip, i, start, splits, parts =>
    if splits < 7 then
      if skip then split_cef_header_loop input rest false (i + 1) start splits parts
      else if b = BACKSLASH then split_cef_header_loop input rest true (i + 1) start splits parts
      else if b = PIPE then do
        let field ← str.slice input start i
        split_cef_header_loop input rest false (i + 1) (i + 1) (splits + 1)
          (parts ++ [unescape_cef field])
      else split_cef_header_loop input rest false (i + 1) start splits parts
    else do
      let extension ← str.slice_from input start
      ok (parts ++ [extension])

/-- Split a CEF header into its 7 fields and the extension. -/
def split_cef_header (input : List Char) : Result (List (List Char)) :=
  split_cef_header_loop input (str.bytes input) false 0 0 0 []

/-- The parts of a header, in characters; `field` is the part of the current field
    that has been read. -/
def headerParts (skip : Bool) (splits : Nat) (field : List Char) : List Char → List (List Char)
  | [] => [field]
  | c :: s =>
    if splits < 7 then
      if skip then headerParts false splits (field ++ [c]) s
      else if c = '\\' then headerParts true splits (field ++ [c]) s
      else if c = '|' then unescape_cef field :: headerParts false (splits + 1) [] s
      else headerParts false splits (field ++ [c]) s
    else [field ++ c :: s]

/-- A byte beyond ASCII stays in the field. -/
theorem split_cef_header_loop_skip (input : List Char) {b : UInt8} (hb : 128 ≤ b.toNat)
    (rest : List UInt8) (skip : Bool) (i start : Nat) {splits : Nat} (hsplits : splits < 7)
    (parts : List (List Char)) :
    split_cef_header_loop input (b :: rest) skip i start splits parts =
      split_cef_header_loop input rest false (i + 1) start splits parts := by
  have hbackslash : b ≠ BACKSLASH := str.byte_ne hb (by decide)
  have hpipe : b ≠ PIPE := str.byte_ne hb (by decide)
  cases skip <;> simp [split_cef_header_loop, hsplits, hbackslash, hpipe]

/-- The scan over the bytes cuts the header where the characters do. `before` is what
    precedes the current field. -/
theorem split_cef_header_loop_eq (skip : Bool) (splits : Nat) (before field s : List Char)
    (parts : List (List Char)) :
    split_cef_header_loop (before ++ field ++ s) (str.bytes s) skip (str.len (before ++ field))
      (str.len before) splits parts = ok (parts ++ headerParts skip splits field s) := by
  induction s generalizing skip splits before field parts with
  | nil => simp [split_cef_header_loop, headerParts]
  | cons c s ih =>
    have hinput : before ++ field ++ c :: s = before ++ (field ++ [c]) ++ s := by simp
    have hlen : str.len (before ++ (field ++ [c])) = str.len (before ++ field) + c.utf8Size := by
      simp [Nat.add_assoc]
    by_cases hsplits : splits < 7
    · obtain ⟨b, hb, hcode, hsize⟩ | ⟨hcode, hbytes⟩ := str.utf8EncodeChar_cases c
      · have hbackslash : b = BACKSLASH ↔ c = '\\' := str.byte_eq_iff hcode rfl
        have hpipe : b = PIPE ↔ c = '|' := str.byte_eq_iff hcode rfl
        have hstay : ∀ skip', split_cef_header_loop (before ++ field ++ c :: s) (str.bytes s) skip'
            (str.len (before ++ field) + 1) (str.len before) splits parts =
              ok (parts ++ headerParts skip' splits (field ++ [c]) s) := by
          intro skip'
          rw [hinput, ← hsize, ← hlen, ih]
        simp only [str.bytes_cons, hb, List.singleton_append, split_cef_header_loop, headerParts,
          hsplits, hbackslash, hpipe, hstay, ↓reduceIte]
        split_ifs with hskip hescape hcut
        · rfl
        · rfl
        · have hslice := str.slice_len before field (c :: s)
          have hnextField := ih false (splits + 1) (before ++ field ++ [c]) []
            (parts ++ [unescape_cef field])
          rw [List.append_nil, str.len_concat, hsize, List.append_assoc (before ++ field),
            List.singleton_append] at hnextField
          rw [hslice, bind_ok, hnextField, List.append_assoc, List.singleton_append]
        · rfl
      · have hbackslash : c ≠ '\\' := str.char_ne hcode (by decide)
        have hpipe : c ≠ '|' := str.char_ne hcode (by decide)
        have hskip := str.bytes_cons_skip
          (fun bs skip i => split_cef_header_loop (before ++ field ++ c :: s) bs skip i
            (str.len before) splits parts)
          (fun b rest skip i hb => split_cef_header_loop_skip _ hb rest skip i _ hsplits _)
          hbytes s skip (str.len (before ++ field))
        have hparts : headerParts skip splits field (c :: s) =
            headerParts false splits (field ++ [c]) s := by
          cases skip <;> simp [headerParts, hsplits, hbackslash, hpipe]
        rw [hskip, hparts, hinput, ← hlen, ih]
    · -- All seven fields are cut: the rest is the extension.
      obtain ⟨b, bs, hbs⟩ := str.exists_encode_cons c
      rw [List.append_assoc]
      simp [hbs, split_cef_header_loop, headerParts, hsplits]

/-- Splitting a header never panics. -/
theorem split_cef_header_eq (input : List Char) :
    split_cef_header input = ok (headerParts false 0 [] input) :=
  split_cef_header_loop_eq false 0 [] [] input []

/-- The variables of the loop over the pairs. -/
structure Fields where
  src_ip : Option String := none
  dst_ip : Option String := none
  src_port : Option Nat := none
  dst_port : Option Nat := none
  proto_num : Option Nat := none
  proto_name : Option String := none
  action : Option String := none
  rcvd_bytes : Option Nat := none
  sent_bytes : Option Nat := none
  unmapped : HashMap String String := ∅

/-- One pair of the loop. -/
def Fields.set (fields : Fields) (pair : List Char × List Char) : Fields :=
  let key := String.ofList pair.1
  let val := unescape_cef (str.trim_matches (· = '"') pair.2)
  match key with
  | "src" => { fields with src_ip := some (String.ofList val) }
  | "dst" => { fields with dst_ip := some (String.ofList val) }
  | "spt" | "sport" => { fields with src_port := str.parse_uint 16 val }
  | "dpt" | "dport" => { fields with dst_port := str.parse_uint 16 val }
  | "proto" =>
    { fields with proto_num := (parse_proto val).1, proto_name := (parse_proto val).2 }
  | "act" | "action" => { fields with action := some (String.ofList val) }
  | "in" => { fields with rcvd_bytes := str.parse_uint 64 val }
  | "out" => { fields with sent_bytes := str.parse_uint 64 val }
  | _ => { fields with unmapped := fields.unmapped.insert key (String.ofList val) }

def Fields.normalize_ports (fields : Fields) : Fields :=
  { fields with
    src_port := normalize_port fields.proto_num fields.src_port
    dst_port := normalize_port fields.proto_num fields.dst_port }

def disposition_of (action : Option String) : String × Nat :=
  match action.map fun s => String.ofList (str.to_ascii_lowercase s.toList) with
  | some "accept" | some "allow" | some "allowed" =>
    (disposition.ALLOWED, activity_id.TRAFFIC_FLOW)
  | some "deny" | some "denied" | some "blocked" | some "block" =>
    (disposition.BLOCKED, activity_id.OTHER)
  | some "drop" => (disposition.DROPPED, activity_id.OTHER)
  | some "close" | some "closed" | some "timeout" | some "client-rst" | some "server-rst"
  | some "reset" => (disposition.ALLOWED, activity_id.CLOSE)
  | _ => (disposition.UNKNOWN, activity_id.TRAFFIC_FLOW)

/-- The event made of the header and the collected fields. -/
def Fields.event (now_ms : Int) (raw : List Char) (header : List (List Char)) (fields : Fields) :
    NetworkActivity :=
  let get (i : Nat) : List Char := header.getD i []
  let vendor := str.trim (get 1)
  let product_name := str.trim (get 2)
  let device_version := str.trim (get 3)
  let signature_id := str.trim (get 4)
  let cef_name := str.trim (get 5)
  let severity := str.trim (get 6)
  let fields := fields.normalize_ports
  let unmapped := insert_nonempty "cef_signature_id" signature_id fields.unmapped
  let unmapped := insert_nonempty "cef_name" cef_name unmapped
  let unmapped := insert_nonempty "cef_severity" severity unmapped
  let (disp, act_id) := disposition_of fields.action
  let src_endpoint : Endpoint := ⟨fields.src_ip, fields.src_port, none, none⟩
  let dst_endpoint : Endpoint := ⟨fields.dst_ip, fields.dst_port, none, none⟩
  let connection_info : ConnectionInfo := ⟨fields.proto_num, fields.proto_name, none⟩
  let traffic : Option Traffic :=
    if fields.rcvd_bytes.isSome || fields.sent_bytes.isSome then
      some ⟨fields.rcvd_bytes, fields.sent_bytes, none, none⟩
    else none
  let product : Product :=
    { vendor_name := String.ofList vendor
      name := if product_name.isEmpty then "CEF" else String.ofList product_name
      version := if device_version.isEmpty then none else some (String.ofList device_version) }
  let metadata : Metadata := ⟨product, String.ofList raw, "", "", now_ms⟩
  (NetworkActivity.new act_id now_ms disp src_endpoint dst_endpoint connection_info traffic
    metadata).with_unmapped unmapped

end cef

/-- `CefExtractor::parse`. The header starts at the first `CEF:`. -/
def CefExtractor.parse (crates : Crates) (now_ms : Int) (raw : List Char) :
    Result (Except String NetworkActivity) :=
  match str.find_str (str.lit "CEF:") raw with
  | none => ok (.error s!"Not a CEF record (no 'CEF:' header): {String.ofList raw}")
  | some cef_pos => do
    let header_and_ext ← str.slice_from raw cef_pos
    let header ← cef.split_cef_header header_and_ext
    let extension := header.getD 7 []
    let pairs ← fortigate.KvTokenizer.pairs crates extension
    let fields := pairs.foldl cef.Fields.set {}
    ok (.ok (fields.event now_ms raw header))

/-- The text from the first `CEF:` on. -/
def cef.record (raw : List Char) : Option (List Char) :=
  raw.tails.find? (str.lit "CEF:").isPrefixOf

/-- The lines that the extractor gets through: in front of every key of the extension
    the last whitespace is an ASCII character. -/
def CefExtractor.Reads (raw : List Char) : Prop :=
  ∀ record ∈ cef.record raw,
    FortigateExtractor.Reads ((cef.headerParts false 0 [] record).getD 7 [])

theorem CefExtractor.parse_ne_panic_iff (crates : Crates) (now_ms : Int) (raw : List Char) :
    CefExtractor.parse crates now_ms raw ≠ panic ↔ CefExtractor.Reads raw := by
  obtain ⟨hnone, hrecord⟩ | ⟨n, record, hsome, hslice, hrecord⟩ :=
    str.find_str_spec (str.lit "CEF:") raw
  · simp [CefExtractor.parse, CefExtractor.Reads, cef.record, hnone, hrecord]
  · simp only [CefExtractor.parse, CefExtractor.Reads, cef.record, hsome, hrecord, hslice, bind_ok,
      cef.split_cef_header_eq, fortigate.KvTokenizer.pairs_eq, Option.mem_some_iff, forall_eq',
      FortigateExtractor.Reads]
    split <;> simp_all

/-- A header field without escapes ends at the next pipe. -/
theorem cef.headerParts_field {value : List Char} (hvalue : ∀ c ∈ value, c ≠ '|' ∧ c ≠ '\\')
    {splits : Nat} (hsplits : splits < 7) (field s : List Char) :
    headerParts false splits field (value ++ '|' :: s) =
      unescape_cef (field ++ value) :: headerParts false (splits + 1) [] s := by
  induction value generalizing field with
  | nil => simp [headerParts, hsplits]
  | cons c value ih =>
    obtain ⟨⟨hpipe, hbackslash⟩, hvalue⟩ := List.forall_mem_cons.mp hvalue
    simp [headerParts, hsplits, hpipe, hbackslash, ih hvalue]

/-- The vendor of a CEF line is whatever its sender writes into the second field. -/
theorem CefExtractor.parse_vendor (crates : Crates) (now_ms : Int) {vendor : List Char}
    (hvendor : ∀ c ∈ vendor, c ≠ '|' ∧ c ≠ '\\') (htrim : str.trim vendor = vendor) :
    ∃ event, CefExtractor.parse crates now_ms (str.lit "CEF:0|" ++ (vendor ++ ['|'])) =
        ok (.ok event) ∧ event.metadata.product.vendor_name = String.ofList vendor := by
  have hparts : cef.headerParts false 0 [] (str.lit "CEF:0|" ++ (vendor ++ ['|'])) =
      [str.lit "CEF:0", vendor, []] := by
    have hplain : '\\' ∉ vendor := fun hmem => (hvendor _ hmem).2 rfl
    have hescape : cef.unescape_cef vendor = vendor := by
      simp [cef.unescape_cef, hplain]
    have hcef : ∀ c ∈ str.lit "CEF:0", c ≠ '|' ∧ c ≠ '\\' := by
      simp [str.lit]
    have hversion := cef.headerParts_field hcef (show 0 < 7 by decide) [] (vendor ++ ['|'])
    rw [cef.headerParts_field hvendor (by decide), List.nil_append, List.nil_append, hescape]
      at hversion
    exact hversion
  have hfind : str.find_str (str.lit "CEF:") (str.lit "CEF:0|" ++ (vendor ++ ['|'])) = some 0 := by
    simp [str.find_str, str.lit]
  have hslice := str.slice_from_len [] (str.lit "CEF:0|" ++ (vendor ++ ['|']))
  rw [str.len_nil, List.nil_append] at hslice
  refine ⟨({} : cef.Fields).event now_ms (str.lit "CEF:0|" ++ (vendor ++ ['|']))
    [str.lit "CEF:0", vendor, []], ?_, ?_⟩
  · rw [CefExtractor.parse, hfind]
    simp only [hslice, bind_ok, cef.split_cef_header_eq, hparts]
    rfl
  · exact congrArg String.ofList htrim

/-- The extractor errs for lines without a CEF header only. -/
theorem CefExtractor.parse_eq_error_iff (crates : Crates) (now_ms : Int) (raw : List Char) :
    (∃ err, CefExtractor.parse crates now_ms raw = ok (.error err)) ↔
      str.contains (str.lit "CEF:") raw = false := by
  unfold CefExtractor.parse str.contains
  cases str.find_str (str.lit "CEF:") raw with
  | none => simp
  | some cef_pos => simp [bind_eq_ok_iff]

end ulpf_core.parser.extractors
