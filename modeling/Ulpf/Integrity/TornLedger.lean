import Ulpf.Integrity.Ledger

open str

namespace ulpf_integrity.batcher

/-- An append to the ledger file of which so many bytes got there. -/
structure Append where
  entry : LedgerEntry
  bytes : Nat
  deriving DecidableEq, Repr

namespace Append

def written (append : Append) : List UInt8 := (ledgerLine append.entry).take append.bytes

/-- The characters that are left of the entry. -/
def text (append : Append) : List Char := append.entry.to_json.toList.take append.bytes

/-- An append that was not cut. -/
def whole (entry : LedgerEntry) : Append := ⟨entry, (ledgerLine entry).length⟩

end Append

/-- The ledger file after some appends. -/
def tornText (appends : List Append) : List UInt8 := appends.flatMap Append.written

/-- The characters of a line that some appends share. -/
def lineText (line : List Append) : List Char := line.flatMap Append.text

/-- The appends by the line that they are on, `line` being those since the last
    newline. An append that was cut leaves its line open for the next one. -/
def linesOf (line : List Append) : List Append → List (List Append)
  | [] => if line = [] then [] else [line]
  | append :: rest =>
    if append.bytes = 0 then linesOf line rest
    else if append.bytes ≤ append.entry.to_json.toList.length then linesOf (line ++ [append]) rest
    else (line ++ [append]) :: linesOf [] rest

/-- What recovery relies on in `serde_json::from_str`: on a line that cut appends
    left behind it finds an entry only if the line is the text of one. Input that
    breaks off and characters behind the closing brace are errors. -/
def JsonReader.Strict (reader : JsonReader) : Prop :=
  ∀ (line : List Append) (entry : LedgerEntry), (∀ append ∈ line, 0 < append.bytes) →
    reader.from_str (String.ofList (lineText line)) = some entry →
    lineText line = entry.to_json.toList

/-- The text of the entry is ASCII without spaces. -/
def LedgerEntry.Graphic (entry : LedgerEntry) : Prop :=
  ∀ c ∈ entry.to_json.toList, c.is_ascii_graphic = true

/-- A reader that takes nothing but the serializer's own texts. -/
def LedgerEntry.canonicalReader : JsonReader where
  from_str text := (of_json text).filter fun entry => entry.to_json = text
  from_str_to_json entry _ := by simp [of_json_to_json]

theorem LedgerEntry.strict_canonicalReader : canonicalReader.Strict := by
  intro line entry _ hread
  obtain ⟨-, htext⟩ := Option.filter_eq_some_iff.mp hread
  rw [of_decide_eq_true htext, String.toList_ofList]

theorem LedgerEntry.graphic_of_fields {entry : LedgerEntry}
    (hroot : ∀ c ∈ entry.merkle_root.toList, c.is_ascii_graphic = true)
    (hfile : ∀ c ∈ entry.parquet_file.toList, c.is_ascii_graphic = true) : entry.Graphic := by
  have hkeys : ∀ key ∈ [json.key '\x7b' "block_id", json.key ',' "timestamp",
      json.key ',' "leaf_count", json.key ',' "merkle_root", json.key ',' "parquet_file", ['\x7d']],
      key.all Char.is_ascii_graphic = true := by decide
  intro c hc
  simp only [to_json, String.toList_ofList, List.mem_append] at hc
  rcases hc with hc | hc | hc | hc | hc | hc | hc | hc | hc | hc | hc
  · exact List.all_eq_true.mp (hkeys _ (by simp)) c hc
  · exact json.graphic_of_mem_nat hc
  · exact List.all_eq_true.mp (hkeys _ (by simp)) c hc
  · exact json.graphic_of_mem_int hc
  · exact List.all_eq_true.mp (hkeys _ (by simp)) c hc
  · exact json.graphic_of_mem_nat hc
  · exact List.all_eq_true.mp (hkeys _ (by simp)) c hc
  · exact json.graphic_of_mem_string hroot hc
  · exact List.all_eq_true.mp (hkeys _ (by simp)) c hc
  · exact json.graphic_of_mem_string hfile hc
  · exact List.all_eq_true.mp (hkeys _ (by simp)) c hc

/-- Serialized entries are prefix free. -/
theorem LedgerEntry.to_json_append_inj {a b : LedgerEntry} {s t : List Char}
    (h : a.to_json.toList ++ s = b.to_json.toList ++ t) : a = b ∧ s = t := by
  have hcomma := json.not_isDigit_of_mem_head?_key
  simp only [to_json, String.toList_ofList, List.append_assoc, List.append_cancel_left_eq] at h
  have hblock := congrArg json.readNat h
  rw [json.readNat_nat _ (hcomma _ _), json.readNat_nat _ (hcomma _ _)] at hblock
  simp only [Option.some.injEq, Prod.mk.injEq, List.append_cancel_left_eq] at hblock
  have htimestamp := congrArg json.readInt hblock.2
  rw [json.readInt_int _ (hcomma _ _), json.readInt_int _ (hcomma _ _)] at htimestamp
  simp only [Option.some.injEq, Prod.mk.injEq, List.append_cancel_left_eq] at htimestamp
  have hcount := congrArg json.readNat htimestamp.2
  rw [json.readNat_nat _ (hcomma _ _), json.readNat_nat _ (hcomma _ _)] at hcount
  simp only [Option.some.injEq, Prod.mk.injEq, List.append_cancel_left_eq] at hcount
  have hroot := congrArg json.readString hcount.2
  simp only [json.readString_string, Option.some.injEq, Prod.mk.injEq,
    List.append_cancel_left_eq] at hroot
  have hfile := congrArg json.readString hroot.2
  simp only [json.readString_string, Option.some.injEq, Prod.mk.injEq, List.cons_append,
    List.nil_append, List.cons.injEq, true_and] at hfile
  cases a
  cases b
  simp_all

/-- What can follow the opening brace of an append on a line of appends: it breaks
    off, the next one opens, or the first key goes on. -/
inductive AfterBrace : List Char → Prop where
  | nil : AfterBrace []
  | brace {s : List Char} (hs : AfterBrace s) : AfterBrace ('\x7b' :: s)
  | quote : AfterBrace ['"']
  | key {c : Char} {s : List Char} (hcomma : c ≠ ',') (hbrace : c ≠ '\x7d') :
      AfterBrace ('"' :: c :: s)

theorem LedgerEntry.to_json_eq_cons (entry : LedgerEntry) :
    ∃ s, entry.to_json.toList = '\x7b' :: '"' :: 'b' :: s := by
  rw [to_json, String.toList_ofList]
  exact ⟨_, rfl⟩

theorem lineText_eq_cons {line : List Append} (hpos : ∀ append ∈ line, 0 < append.bytes)
    (hne : line ≠ []) : ∃ s, lineText line = '\x7b' :: s ∧ AfterBrace s := by
  induction line with
  | nil => exact absurd rfl hne
  | cons append line ih =>
    obtain ⟨tail, htail⟩ := append.entry.to_json_eq_cons
    have hrest : line = [] ∨ ∃ s, lineText line = '\x7b' :: s ∧ AfterBrace s := by
      by_cases hline : line = []
      · exact .inl hline
      · exact .inr (ih (fun other hother => hpos other (List.mem_cons_of_mem _ hother)) hline)
    have hbytes := hpos append List.mem_cons_self
    rw [lineText, List.flatMap_cons, Append.text, htail]
    match hn : append.bytes with
    | 0 => omega
    | 1 =>
      obtain rfl | ⟨s, hs, hafter⟩ := hrest
      · exact ⟨[], rfl, .nil⟩
      · exact ⟨_, by rw [← lineText, hs]; rfl, .brace hafter⟩
    | 2 =>
      obtain rfl | ⟨s, hs, hafter⟩ := hrest
      · exact ⟨['"'], rfl, .quote⟩
      · exact ⟨_, by rw [← lineText, hs]; rfl, .key (by decide) (by decide)⟩
    | n + 3 => exact ⟨_, rfl, .key (by decide) (by decide)⟩

/-- No brace of the text is followed as the brace of an append is. -/
def NoBraceOpens (s : List Char) : Prop := ∀ u v, s = u ++ '\x7b' :: v → ¬ AfterBrace v

theorem NoBraceOpens.append {s t : List Char} (hs : '\x7b' ∉ s) (ht : NoBraceOpens t) :
    NoBraceOpens (s ++ t) := by
  induction s with
  | nil => exact ht
  | cons c s ih =>
    obtain ⟨hc, hs⟩ := not_or.mp (mt List.mem_cons.mpr hs)
    intro u v h
    cases u with
    | nil => exact absurd (List.cons.inj h).1.symm hc
    | cons d u => exact ih hs u v (List.cons.inj h).2

/-- Within a string literal a brace is followed by the rest of the literal, and that
    ends in a quote with a comma or brace behind it. -/
theorem not_afterBrace_of_literal (cs : List Char) {c : Char} {s : List Char}
    (hc : c = ',' ∨ c = '\x7d') : ¬ AfterBrace (cs.flatMap json.escape ++ '"' :: c :: s) := by
  induction cs with
  | nil =>
    intro hafter
    cases hafter with
    | key hcomma hbrace => exact hc.elim hcomma hbrace
  | cons d cs ih =>
    rw [List.flatMap_cons, List.append_assoc]
    obtain ⟨rfl, hescape⟩ | ⟨hno, e, t, hescape, he⟩ := json.escape_cases d
    · rw [hescape]
      intro hafter
      cases hafter with
      | brace hafter => exact ih hafter
    · rw [hescape] at hno ⊢
      rw [List.cons_append]
      generalize t ++ _ = tail
      intro hafter
      cases hafter with
      | brace => exact hno List.mem_cons_self
      | quote => exact he rfl
      | key => exact he rfl

theorem NoBraceOpens.string (value : String) {c : Char} {s : List Char}
    (hc : c = ',' ∨ c = '\x7d') (hs : NoBraceOpens (c :: s)) :
    NoBraceOpens (json.string value ++ c :: s) := by
  have hliteral : ∀ cs : List Char, NoBraceOpens (cs.flatMap json.escape ++ '"' :: c :: s) := by
    intro cs
    induction cs with
    | nil => exact NoBraceOpens.append (s := ['"']) (by decide) hs
    | cons d cs ih =>
      rw [List.flatMap_cons, List.append_assoc]
      obtain ⟨rfl, hescape⟩ | ⟨hno, -⟩ := json.escape_cases d
      · rw [hescape]
        intro u v h
        cases u with
        | nil =>
          obtain rfl := (List.cons.inj h).2
          exact not_afterBrace_of_literal cs hc
        | cons e u => exact ih u v (List.cons.inj h).2
      · exact ih.append hno
  have := NoBraceOpens.append (s := ['"']) (by decide) (hliteral value.toList)
  simpa [json.string] using this

theorem LedgerEntry.noBraceOpens (entry : LedgerEntry) :
    ∃ s, entry.to_json.toList = '\x7b' :: s ∧ NoBraceOpens s := by
  have hend : NoBraceOpens ['\x7d'] :=
    NoBraceOpens.append (s := ['\x7d']) (t := []) (by decide) (by simp [NoBraceOpens])
  have hfile := NoBraceOpens.append (s := json.key ',' "parquet_file") (by decide)
    (NoBraceOpens.string entry.parquet_file (.inr rfl) hend)
  have hroot := NoBraceOpens.append (s := json.key ',' "merkle_root") (by decide)
    (NoBraceOpens.string entry.merkle_root (.inl rfl) hfile)
  have hcount := NoBraceOpens.append (s := json.key ',' "leaf_count") (by decide)
    (hroot.append (json.brace_not_mem_nat entry.leaf_count))
  have htimestamp := NoBraceOpens.append (s := json.key ',' "timestamp") (by decide)
    (hcount.append (json.brace_not_mem_int entry.timestamp))
  have hblock := NoBraceOpens.append (s := json.string "block_id" ++ [':']) (by decide)
    (htimestamp.append (json.brace_not_mem_nat entry.block_id))
  rw [to_json, String.toList_ofList]
  exact ⟨_, rfl, hblock⟩

/-- A line of cut appends is the text of an entry only if it is one whole append. -/
theorem eq_singleton_of_lineText {line : List Append} {entry : LedgerEntry}
    (hpos : ∀ append ∈ line, 0 < append.bytes) (htext : lineText line = entry.to_json.toList) :
    ∃ append, line = [append] ∧ append.entry = entry ∧
      append.entry.to_json.toList.length ≤ append.bytes := by
  obtain ⟨s, hs, hclean⟩ := entry.noBraceOpens
  cases line with
  | nil => rw [hs] at htext; cases htext
  | cons append line =>
    have hbytes := hpos append List.mem_cons_self
    have hposTail : ∀ other ∈ line, 0 < other.bytes :=
      fun other hother => hpos other (List.mem_cons_of_mem _ hother)
    rw [lineText, List.flatMap_cons, ← lineText, Append.text] at htext
    by_cases hwhole : append.entry.to_json.toList.length ≤ append.bytes
    · rw [List.take_of_length_le hwhole, ← List.append_nil entry.to_json.toList] at htext
      obtain ⟨hentry, hrest⟩ := LedgerEntry.to_json_append_inj htext
      have hline : line = [] := by
        by_contra hne
        obtain ⟨t, ht, -⟩ := lineText_eq_cons hposTail hne
        rw [hrest] at ht
        cases ht
      exact ⟨append, by rw [hline], hentry, hwhole⟩
    · by_cases hline : line = []
      · -- the entry would be a proper prefix of the one that was cut
        rw [hline, lineText, List.flatMap_nil, List.append_nil] at htext
        have hsplit := List.take_append_drop append.bytes append.entry.to_json.toList
        rw [htext, ← List.append_nil append.entry.to_json.toList] at hsplit
        obtain ⟨-, hdrop⟩ := LedgerEntry.to_json_append_inj hsplit
        rw [List.append_nil, List.drop_eq_nil_iff] at hdrop
        exact absurd hdrop hwhole
      · -- the next append would open inside the entry
        obtain ⟨t, ht, hafter⟩ := lineText_eq_cons hposTail hline
        obtain ⟨tail, htail⟩ := append.entry.to_json_eq_cons
        obtain ⟨n, hn⟩ := Nat.exists_eq_succ_of_ne_zero hbytes.ne'
        rw [ht, htail, hn, List.take_succ_cons, hs, List.cons_append, List.cons.injEq] at htext
        exact absurd hafter (hclean _ _ htext.2.symm)

theorem graphic_lineText {line : List Append} (hgraphic : ∀ append ∈ line, append.entry.Graphic) :
    ∀ c ∈ lineText line, c.is_ascii_graphic = true := by
  intro c hc
  obtain ⟨append, hmem, hc⟩ := List.mem_flatMap.mp hc
  exact hgraphic append hmem c (List.mem_of_mem_take hc)

/-- A cut between two bytes of an entry is one between two characters. -/
theorem Append.written_of_le {append : Append} (hgraphic : append.entry.Graphic)
    (hcut : append.bytes ≤ append.entry.to_json.toList.length) :
    append.written = (String.ofList append.text).as_bytes := by
  have hjson := String.as_bytes_of_graphic hgraphic
  rw [String.ofList_toList] at hjson
  rw [written, text, ledgerLine, hjson, List.take_append_of_le_length (by simpa using hcut),
    String.as_bytes_of_graphic fun c hc => hgraphic c (List.mem_of_mem_take hc), List.map_take]

theorem Append.written_of_lt {append : Append} (hgraphic : append.entry.Graphic)
    (hwhole : append.entry.to_json.toList.length < append.bytes) :
    append.written = (String.ofList append.text).as_bytes ++ [buf_read.NEWLINE] := by
  have hjson := String.as_bytes_of_graphic hgraphic
  rw [String.ofList_toList] at hjson
  rw [written, text, List.take_of_length_le hwhole.le, String.ofList_toList, ledgerLine,
    List.take_of_length_le (by simpa [hjson] using hwhole)]

theorem LedgerEntry.Graphic.length_ledgerLine {entry : LedgerEntry} (hgraphic : entry.Graphic) :
    (ledgerLine entry).length = entry.to_json.toList.length + 1 := by
  have hjson := String.as_bytes_of_graphic hgraphic
  rw [String.ofList_toList] at hjson
  simp [ledgerLine, hjson]

theorem ledgerText_eq_tornText (entries : List LedgerEntry) :
    ledgerText entries = tornText (entries.map Append.whole) := by
  rw [ledgerText, tornText, List.flatMap_map]
  exact List.flatMap_congr fun entry _ => (List.take_length ..).symm

/-- The lines of a ledger file are those of its appends. -/
theorem linesFrom_tornText {appends line : List Append}
    (hline : ∀ append ∈ line, append.entry.Graphic ∧ 0 < append.bytes)
    (hgraphic : ∀ append ∈ appends, append.entry.Graphic) :
    buf_read.linesFrom (String.ofList (lineText line)).as_bytes (tornText appends) =
      (linesOf line appends).map fun line => (String.ofList (lineText line)).as_bytes := by
  induction appends generalizing line with
  | nil =>
    by_cases hempty : line = []
    · subst hempty
      rfl
    · obtain ⟨s, hs, -⟩ := lineText_eq_cons (fun append hmem => (hline append hmem).2) hempty
      have hne : (String.ofList (lineText line)).as_bytes ≠ [] := by
        intro h
        rw [String.as_bytes_of_graphic (graphic_lineText fun append hmem => (hline append hmem).1),
          hs] at h
        cases h
      simp [tornText, buf_read.linesFrom, linesOf, hne, hempty]
  | cons append appends ih =>
    have happend := hgraphic append List.mem_cons_self
    have hrest : ∀ other ∈ appends, other.entry.Graphic :=
      fun other hother => hgraphic other (List.mem_cons_of_mem _ hother)
    have hbytes : ∀ {b : UInt8}, b.toNat < 0x20 →
        b ∉ (String.ofList (lineText (line ++ [append]))).as_bytes := by
      intro b hb
      refine String.not_mem_as_bytes_of_graphic (graphic_lineText ?_) hb
      simpa [or_imp, forall_and, happend] using fun other hother => (hline other hother).1
    have hsnoc : (String.ofList (lineText (line ++ [append]))).as_bytes =
        (String.ofList (lineText line)).as_bytes ++ (String.ofList append.text).as_bytes := by
      rw [← String.as_bytes_ofList_append]
      simp [lineText]
    have htext : buf_read.NEWLINE ∉ (String.ofList append.text).as_bytes := by
      have := hbytes (b := buf_read.NEWLINE) (by decide)
      rw [hsnoc, List.mem_append, not_or] at this
      exact this.2
    rw [tornText, List.flatMap_cons, ← tornText, linesOf]
    split
    · rename_i hzero
      rw [Append.written, hzero, List.take_zero, List.nil_append, ih hline hrest]
    split
    · rename_i hpos hcut
      rw [Append.written_of_le happend hcut, buf_read.linesFrom_append htext, ← hsnoc]
      refine ih ?_ hrest
      simpa [or_imp, forall_and, happend, Nat.pos_of_ne_zero hpos] using
        ⟨fun other hother => (hline other hother).1, fun other hother => (hline other hother).2⟩
    · rename_i hpos hcut
      rw [Append.written_of_lt happend (by omega), List.append_assoc, buf_read.linesFrom_append htext,
        ← hsnoc, List.singleton_append, buf_read.linesFrom_newline (hbytes (by decide)),
        List.map_cons]
      exact congrArg _ (ih (List.forall_mem_nil _) hrest)

/-- Each append with a byte in the file is on one line, and they are in order. -/
theorem flatten_linesOf (line appends : List Append) :
    (linesOf line appends).flatten = line ++ appends.filter (0 < ·.bytes) := by
  induction appends generalizing line with
  | nil =>
    rw [linesOf]
    split <;> simp_all
  | cons append appends ih =>
    rw [linesOf]
    split
    · rename_i hzero
      simp [ih, hzero]
    · rename_i hpos
      split <;> simp [ih, Nat.pos_of_ne_zero hpos]

theorem ne_nil_of_mem_linesOf {line appends group : List Append} (hgroup : group ∈ linesOf line appends) :
    group ≠ [] := by
  induction appends generalizing line with
  | nil =>
    rw [linesOf] at hgroup
    split at hgroup <;> simp_all
  | cons append appends ih =>
    rw [linesOf] at hgroup
    split at hgroup
    · exact ih hgroup
    split at hgroup
    · exact ih hgroup
    · rcases List.mem_cons.mp hgroup with rfl | hgroup
      · simp
      · exact ih hgroup

/-- An append that was cut shares its line with the next one that gets a byte in. -/
theorem linesOf_of_ne_nil {line : List Append} (hne : line ≠ []) (appends : List Append) :
    ∃ more groups, linesOf line appends = (line ++ more) :: groups ∧
      (more = [] → ∀ append ∈ appends, append.bytes = 0) := by
  induction appends generalizing line with
  | nil => exact ⟨[], [], by simp [linesOf, hne], by simp⟩
  | cons append appends ih =>
    rw [linesOf]
    split
    · rename_i hzero
      obtain ⟨more, groups, hlines, hmore⟩ := ih hne
      exact ⟨more, groups, hlines, fun h => by simpa [hzero] using hmore h⟩
    split
    · obtain ⟨more, groups, hlines, -⟩ := ih (List.append_ne_nil_of_right_ne_nil line (List.cons_ne_nil append []))
      exact ⟨append :: more, groups, by simp [hlines], by simp⟩
    · exact ⟨[append], _, rfl, by simp⟩

theorem mem_linesOf_append (before : List Append) {append : Append} (after : List Append)
    (hpos : append.bytes ≠ 0) (hcut : append.bytes ≤ append.entry.to_json.toList.length)
    (line : List Append) :
    ∃ first more, first ++ append :: more ∈ linesOf line (before ++ append :: after) ∧
      (more = [] → ∀ other ∈ after, other.bytes = 0) := by
  induction before generalizing line with
  | nil =>
    obtain ⟨more, groups, hlines, hmore⟩ :=
      linesOf_of_ne_nil (List.append_ne_nil_of_right_ne_nil line (List.cons_ne_nil append [])) after
    refine ⟨line, more, ?_, hmore⟩
    rw [List.nil_append, linesOf, if_neg hpos, if_pos hcut, hlines]
    simp
  | cons other before ih =>
    rw [List.cons_append, linesOf]
    split
    · exact ih line
    split
    · exact ih _
    · obtain ⟨first, more, hmem, hmore⟩ := ih []
      exact ⟨first, more, List.mem_cons_of_mem _ hmem, hmore⟩

/-- Lines that load are read one by one. -/
theorem map_from_str_of_load_lines {reader : JsonReader} {groups : List (List Append)} {idx : Nat}
    {entries : List LedgerEntry}
    (hgroups : ∀ group ∈ groups, group ≠ [] ∧ ∀ append ∈ group, append.entry.Graphic ∧ 0 < append.bytes)
    (hload : load_lines reader idx (groups.map fun line => (String.ofList (lineText line)).as_bytes) =
      .ok entries) :
    groups.map (fun line => reader.from_str (String.ofList (lineText line))) = entries.map some := by
  induction groups generalizing idx entries with
  | nil => cases hload; rfl
  | cons group groups ih =>
    obtain ⟨hne, hgroup⟩ := hgroups group List.mem_cons_self
    have htrim := trim_of_graphic (graphic_lineText fun append hmem => (hgroup append hmem).1)
    obtain ⟨s, hs, -⟩ := lineText_eq_cons (fun append hmem => (hgroup append hmem).2) hne
    have hnonempty : String.ofList (lineText group) ≠ "" := by
      intro h
      have := congrArg String.toList h
      rw [String.toList_ofList, hs] at this
      cases this
    rw [List.map_cons, load_lines, from_utf8_as_bytes] at hload
    simp only [String.toList_ofList, htrim, hnonempty, ↓reduceIte] at hload
    split at hload
    · cases hload
    · rename_i entry hentry
      cases hrest : load_lines reader (idx + 1)
          (groups.map fun line => (String.ofList (lineText line)).as_bytes) with
      | error e => rw [hrest] at hload; cases hload
      | ok rest =>
        rw [hrest] at hload
        cases hload
        rw [List.map_cons, List.map_cons, hentry,
          ih (fun other hother => hgroups other (List.mem_cons_of_mem _ hother)) hrest]

/-- Lines with one append each have the entries that are read from them. -/
theorem map_entry_flatten {groups : List (List Append)} {entries : List LedgerEntry}
    {read : List Append → Option LedgerEntry} (hread : groups.map read = entries.map some)
    (hsingle : ∀ group ∈ groups, ∀ entry, read group = some entry →
      ∃ append, group = [append] ∧ append.entry = entry) :
    groups.flatten.map Append.entry = entries := by
  induction groups generalizing entries with
  | nil => simpa using hread
  | cons group groups ih =>
    cases entries with
    | nil => cases hread
    | cons entry entries =>
      obtain ⟨hhead, htail⟩ := List.cons.inj hread
      obtain ⟨append, rfl, rfl⟩ := hsingle group List.mem_cons_self entry hhead
      have hrest := ih htail fun other hother => hsingle other (List.mem_cons_of_mem _ hother)
      rw [List.flatten_cons, List.map_append, hrest]
      rfl

/-- A ledger file that loads has the entries of all appends that got a byte in, and
    none of them was cut but, at its newline, the last. -/
theorem load_tornText {reader : JsonReader} (hstrict : reader.Strict) {path : String}
    {appends : List Append} (hgraphic : ∀ append ∈ appends, append.entry.Graphic)
    {entries : List LedgerEntry}
    (hload : load_ledger_entries reader path (some (tornText appends)) = .ok entries) :
    entries = (appends.filter (0 < ·.bytes)).map Append.entry ∧
    ∀ before append after, appends = before ++ append :: after → 0 < append.bytes →
      append.bytes ≤ append.entry.to_json.toList.length →
      append.bytes = append.entry.to_json.toList.length ∧ ∀ other ∈ after, other.bytes = 0 := by
  have hgroups : ∀ group ∈ linesOf [] appends, group ≠ [] ∧
      ∀ append ∈ group, append.entry.Graphic ∧ 0 < append.bytes := by
    intro group hgroup
    refine ⟨ne_nil_of_mem_linesOf hgroup, fun append happend => ?_⟩
    have hmem := List.mem_flatten_of_mem hgroup happend
    rw [flatten_linesOf, List.nil_append, List.mem_filter] at hmem
    exact ⟨hgraphic append hmem.1, by simpa using hmem.2⟩
  have hlines : buf_read.lines (tornText appends) = (linesOf [] appends).map _ :=
    linesFrom_tornText (List.forall_mem_nil _) hgraphic
  rw [load_ledger_entries, hlines] at hload
  have hread := map_from_str_of_load_lines hgroups hload
  have hsingle : ∀ group ∈ linesOf [] appends, ∀ entry,
      reader.from_str (String.ofList (lineText group)) = some entry →
      ∃ append, group = [append] ∧ append.entry = entry ∧
        append.entry.to_json.toList.length ≤ append.bytes := by
    intro group hgroup entry hentry
    have hpos : ∀ append ∈ group, 0 < append.bytes :=
      fun append h => ((hgroups group hgroup).2 append h).2
    exact eq_singleton_of_lineText hpos (hstrict group entry hpos hentry)
  constructor
  · rw [← map_entry_flatten hread, flatten_linesOf, List.nil_append]
    intro group hgroup entry hentry
    obtain ⟨append, happend, hsame, -⟩ := hsingle group hgroup entry hentry
    exact ⟨append, happend, hsame⟩
  · intro before append after happends hpos hcut
    obtain ⟨first, more, hmem, hmore⟩ :=
      mem_linesOf_append before after hpos.ne' hcut []
    rw [← happends] at hmem
    have hsome := List.mem_map_of_mem (f := fun line => reader.from_str (String.ofList (lineText line)))
      hmem
    rw [hread] at hsome
    obtain ⟨entry, -, hentry⟩ := List.mem_map.mp hsome
    obtain ⟨whole, hwhole, -, hlength⟩ := hsingle _ hmem entry hentry.symm
    obtain ⟨rfl, hcons⟩ | ⟨-, hnil⟩ := List.append_eq_singleton_iff.mp hwhole
    · obtain ⟨rfl, rfl⟩ := List.cons.inj hcons
      exact ⟨by omega, hmore rfl⟩
    · cases hnil

/-- Behind an append that was cut short no other one can be read. -/
theorem eq_nil_of_load_torn {reader : JsonReader} (hstrict : reader.Strict) {path : String}
    {entries later : List LedgerEntry} {entry : LedgerEntry} {bytes : Nat}
    (hgraphic : ∀ e ∈ entries ++ entry :: later, e.Graphic) (hpos : 0 < bytes)
    (hcut : bytes < (ledgerLine entry).length) {loaded : List LedgerEntry}
    (hload : load_ledger_entries reader path
      (some (ledgerText entries ++ (ledgerLine entry).take bytes ++ ledgerText later)) = .ok loaded) :
    later = [] ∧ bytes = entry.to_json.toList.length ∧ loaded = entries ++ [entry] := by
  have hlength := (hgraphic entry (by simp)).length_ledgerLine
  have htext : ledgerText entries ++ (ledgerLine entry).take bytes ++ ledgerText later =
      tornText (entries.map Append.whole ++ ⟨entry, bytes⟩ :: later.map Append.whole) := by
    simp [ledgerText_eq_tornText, tornText, Append.written]
  have happends : ∀ append ∈ entries.map Append.whole ++ ⟨entry, bytes⟩ :: later.map Append.whole,
      append.entry.Graphic := by
    intro append happend
    apply hgraphic
    simp only [List.mem_append, List.mem_map, List.mem_cons] at happend ⊢
    rcases happend with ⟨e, he, rfl⟩ | rfl | ⟨e, he, rfl⟩
    · exact .inl he
    · exact .inr (.inl rfl)
    · exact .inr (.inr he)
  rw [htext] at hload
  obtain ⟨hloaded, htorn⟩ := load_tornText hstrict happends hload
  obtain ⟨hbytes, hafter⟩ := htorn _ ⟨entry, bytes⟩ _ rfl hpos (by dsimp only; omega)
  cases later with
  | nil =>
    refine ⟨rfl, hbytes, hloaded.trans ?_⟩
    have hall : ∀ append ∈ entries.map Append.whole ++ [⟨entry, bytes⟩], decide (0 < append.bytes) := by
      simp [Append.whole, ledgerLine, hpos, or_imp, forall_and]
    rw [List.map_nil, List.filter_eq_self.mpr hall]
    simp [Append.whole, Function.comp_def]
  | cons other later =>
    have := hafter (Append.whole other) (by simp)
    simp [Append.whole, ledgerLine] at this

end ulpf_integrity.batcher
