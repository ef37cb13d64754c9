import Ulpf.Core.Parser.Fortigate
import Ulpf.Core.Parser.PaloAlto
import Ulpf.Lib.LastWrite

open Result
open ulpf_core.schema.ocsf

namespace ulpf_core.parser.extractors

theorem paloalto.strip_syslog_prefix_row {row : List Char} (hrow : str.lit "1,20" <+: row) :
    paloalto.strip_syslog_prefix row = ok (str.trim_end row) := by
  obtain ⟨rest, rfl⟩ := hrow
  have htrim : str.trim (str.lit "1,20" ++ rest) = str.trim_end (str.lit "1,20" ++ rest) := rfl
  have hend : str.trim_end (str.lit "1,20" ++ rest) = str.lit "1,20" ++ str.trim_end rest :=
    str.trim_end_append (a := str.lit "1,2") (by decide) rest
  rw [paloalto.strip_syslog_prefix, htrim, hend]
  simp

/-- A header without the start of a row is dropped. -/
theorem paloalto.strip_syslog_prefix_relay {header row : List Char} (hrow : str.lit "1,20" <+: row)
    (hheader : ¬ str.lit "1,20" <:+: header) :
    paloalto.strip_syslog_prefix (header ++ ' ' :: row) = ok (str.trim_end row) := by
  obtain ⟨rest, rfl⟩ := hrow
  have hend : str.trim_end (str.lit "1,20" ++ rest) = str.lit "1,20" ++ str.trim_end rest :=
    str.trim_end_append (a := str.lit "1,2") (by decide) rest
  have hspace : ' ' ∉ str.lit "1,20" := by decide
  have hstart : str.trim_start (header ++ ' ' :: (str.lit "1,20" ++ rest)) =
      if (str.trim_start header).isEmpty then str.lit "1,20" ++ rest
      else str.trim_start header ++ ' ' :: (str.lit "1,20" ++ rest) := List.dropWhile_append
  by_cases hblank : (str.trim_start header).isEmpty = true
  · rw [if_pos hblank] at hstart
    have htrim : str.trim (header ++ ' ' :: (str.lit "1,20" ++ rest)) =
        str.trim_end (str.lit "1,20" ++ rest) := congrArg str.trim_end hstart
    rw [paloalto.strip_syslog_prefix, htrim, hend]
    simp
  · rw [if_neg hblank] at hstart
    generalize hfront : str.trim_start header = front at hstart
    have hsuffix : front <:+ header := by
      rw [← hfront]
      exact List.dropWhile_suffix Char.is_whitespace
    have hword : ¬ str.lit "1,20" <:+: front := fun h => hheader (h.trans hsuffix.isInfix)
    have htrim : str.trim (header ++ ' ' :: (str.lit "1,20" ++ rest)) =
        front ++ ' ' :: (str.lit "1,20" ++ str.trim_end rest) := by
      have hrest := str.trim_end_append (a := front ++ ' ' :: str.lit "1,2") (c := '0') (by decide) rest
      rw [List.append_assoc, List.append_assoc] at hrest
      exact (congrArg str.trim_end hstart).trans hrest
    have hrow : ¬ (str.lit "1,20").isPrefixOf
        (front ++ ' ' :: (str.lit "1,20" ++ str.trim_end rest)) = true := fun h =>
      hword (str.prefix_of_notMem hspace (List.isPrefixOf_iff_prefix.mp h)).isInfix
    have hlit : str.lit " 1,20" = ' ' :: str.lit "1,20" := by decide
    rw [paloalto.strip_syslog_prefix, htrim, if_neg hrow, hlit, str.find_str_cons hspace hword]
    dsimp only
    rw [str.slice_from_succ_of_ascii _ _ (by decide), hend]

/-- The row says when it was received. -/
def paloalto.receiveTime (crates : Crates) (fields : List (List Char)) : Option Int :=
  let traffic_idx :=
    (fields.findIdx? fun f => str.eq_ignore_ascii_case f (str.lit "TRAFFIC")).getD 3
  (column fields (traffic_idx - 3) 1).bind fun rt =>
    crates.parse_from_str (str.trim rt) "%Y/%m/%d %H:%M:%S"

theorem paloalto.event_time (crates : Crates) (now_ms : Int) (raw : List Char)
    (fields : List (List Char)) :
    (event crates now_ms raw fields).time = (receiveTime crates fields).getD now_ms := by
  rw [event, NetworkActivity.with_unmapped_eq, receiveTime]
  dsimp only [NetworkActivity.new]
  cases column fields _ 1 <;> rfl

/-- The event depends on the line through its columns and its raw text only. -/
theorem paloalto.event_eq (crates : Crates) (now_ms now_ms' : Int) (raw raw' : List Char)
    (fields : List (List Char)) :
    event crates now_ms raw fields =
      { event crates now_ms' raw' fields with
        time := (event crates now_ms raw fields).time
        metadata := { (event crates now_ms' raw' fields).metadata with
          raw_data := (event crates now_ms raw fields).metadata.raw_data
          ingest_time := (event crates now_ms raw fields).metadata.ingest_time } } := by
  rw [event, event, NetworkActivity.with_unmapped_eq, NetworkActivity.with_unmapped_eq]
  rfl

/-- A relay header without the start of a row changes nothing but the raw text. The
    clock reading counts where the row does not say when it was received. -/
theorem PaloAltoExtractor.parse_relay (crates : Crates) (now_ms now_ms' : Int)
    {header row : List Char} (hrow : str.lit "1,20" <+: row)
    (hheader : ¬ str.lit "1,20" <:+: header) :
    (∃ event other received,
      PaloAltoExtractor.parse crates now_ms (header ++ ' ' :: row) = ok (.ok event) ∧
        PaloAltoExtractor.parse crates now_ms' row = ok (.ok other) ∧
        event = { other with
          time := event.time
          metadata := { other.metadata with
            raw_data := event.metadata.raw_data, ingest_time := event.metadata.ingest_time } } ∧
        event.time = Option.getD received now_ms ∧ other.time = Option.getD received now_ms') ∨
      ∃ err err', PaloAltoExtractor.parse crates now_ms (header ++ ' ' :: row) = ok (.error err) ∧
        PaloAltoExtractor.parse crates now_ms' row = ok (.error err') := by
  rw [PaloAltoExtractor.parse, PaloAltoExtractor.parse,
    paloalto.strip_syslog_prefix_relay hrow hheader, paloalto.strip_syslog_prefix_row hrow, bind_ok,
    bind_ok, split_csv_eq, bind_ok, bind_ok]
  by_cases hlength : (csvFields false false false [] (str.trim_end row)).length < 10
  · rw [if_pos hlength, if_pos hlength]
    exact .inr ⟨_, _, rfl, rfl⟩
  · rw [if_neg hlength, if_neg hlength]
    exact .inl ⟨_, _, paloalto.receiveTime crates _, rfl, rfl,
      paloalto.event_eq crates now_ms now_ms' _ row _, paloalto.event_time .., paloalto.event_time ..⟩

theorem PaloAltoExtractor.parse_relay_row :
    ∃ event other,
      PaloAltoExtractor.parse default 7 (str.lit "<14>Oct 15 fw, TRAFFIC:" ++
        ' ' :: str.lit "1,2023/10/15 10:20:30,18,TRAFFIC,start,0,,10.0.0.1,10.0.0.2,,") =
          ok (.ok event) ∧
      PaloAltoExtractor.parse default 9
        (str.lit "1,2023/10/15 10:20:30,18,TRAFFIC,start,0,,10.0.0.1,10.0.0.2,,") =
          ok (.ok other) ∧
      event.src_endpoint = other.src_endpoint := by
  obtain ⟨event, other, -, hevent, hother, heq, -⟩ | ⟨-, err, -, herr⟩ :=
    PaloAltoExtractor.parse_relay default 7 9
      (show str.lit "1,20" <+:
        str.lit "1,2023/10/15 10:20:30,18,TRAFFIC,start,0,,10.0.0.1,10.0.0.2,," by decide)
      (show ¬ str.lit "1,20" <:+: str.lit "<14>Oct 15 fw, TRAFFIC:" by decide)
  · refine ⟨event, other, hevent, hother, ?_⟩
    rw [heq]
  · have hlength : (csvFields false false false [] (str.trim_end
        (str.lit "1,2023/10/15 10:20:30,18,TRAFFIC,start,0,,10.0.0.1,10.0.0.2,,"))).length = 11 := by
      decide
    obtain ⟨csv_data, fields, hcsv, hfields, hshort⟩ :=
      (PaloAltoExtractor.parse_eq_error_iff default 9 _).mp ⟨err, herr⟩
    rw [paloalto.strip_syslog_prefix_row (by decide)] at hcsv
    cases hcsv
    rw [split_csv_eq] at hfields
    cases hfields
    omega

namespace fortigate

/-- The names of the keys that have a variable of their own. -/
def mappedKeys : List String :=
  ["srcip", "dstip", "srcport", "dstport", "srcintf", "dstintf", "srcintfrole", "srczone",
    "dstintfrole", "dstzone", "proto", "action", "sentbyte", "rcvdbyte", "sentpkt", "rcvdpkt",
    "date", "time", "devname"]

/-- The name of the key of a pair. -/
def keyOf (pair : List Char × List Char) : String := String.ofList pair.1

/-- The variables other than the date, the time and the unmapped pairs. -/
def Fields.rest (fields : Fields) : Fields :=
  { fields with date_str := none, time_str := none, unmapped := ∅ }

theorem Fields.set_of_notMem {pair : List Char × List Char} (hkey : keyOf pair ∉ mappedKeys)
    (fields : Fields) :
    fields.set pair =
      { fields with unmapped := fields.unmapped.insert (keyOf pair) (String.ofList pair.2) } := by
  unfold Fields.set keyOf at *
  generalize String.ofList pair.1 = key at *
  dsimp only
  split
  all_goals first | rfl | exact absurd (by decide) hkey

/-- What a mapped pair does to one variable does not depend on the others. -/
theorem Fields.set_of_mem {pair : List Char × List Char} (hkey : keyOf pair ∈ mappedKeys)
    (fields : Fields) :
    fields.set pair =
      { fields.rest.set pair with
        date_str := if keyOf pair = "date" then some pair.2 else fields.date_str
        time_str := if keyOf pair = "time" then some pair.2 else fields.time_str
        unmapped := fields.unmapped } := by
  unfold Fields.set keyOf at *
  generalize String.ofList pair.1 = key at *
  rw [mappedKeys] at hkey
  simp only [List.mem_cons, List.not_mem_nil, or_false] at hkey
  obtain rfl | rfl | rfl | rfl | rfl | rfl | rfl | rfl | rfl | rfl | rfl | rfl | rfl | rfl | rfl |
    rfl | rfl | rfl | rfl := hkey
  all_goals rfl

theorem Fields.set_date_str (fields : Fields) (pair : List Char × List Char) :
    (fields.set pair).date_str = if keyOf pair = "date" then some pair.2 else fields.date_str := by
  by_cases hkey : keyOf pair ∈ mappedKeys
  · rw [Fields.set_of_mem hkey]
  · have hne : keyOf pair ≠ "date" := fun h => hkey (h ▸ by decide)
    rw [Fields.set_of_notMem hkey, if_neg hne]

theorem Fields.set_time_str (fields : Fields) (pair : List Char × List Char) :
    (fields.set pair).time_str = if keyOf pair = "time" then some pair.2 else fields.time_str := by
  by_cases hkey : keyOf pair ∈ mappedKeys
  · rw [Fields.set_of_mem hkey]
  · have hne : keyOf pair ≠ "time" := fun h => hkey (h ▸ by decide)
    rw [Fields.set_of_notMem hkey, if_neg hne]

theorem Fields.rest_set (fields : Fields) (pair : List Char × List Char) :
    (fields.set pair).rest = (fields.rest.set pair).rest := by
  by_cases hkey : keyOf pair ∈ mappedKeys
  · rw [Fields.set_of_mem hkey]
    rfl
  · rw [Fields.set_of_notMem hkey, Fields.set_of_notMem hkey]
    rfl

theorem Fields.lookup_set (fields : Fields) (pair : List Char × List Char) {key : String}
    (hkey : key ∉ mappedKeys) :
    (fields.set pair).unmapped.lookup key =
      if keyOf pair = key then some (String.ofList pair.2) else fields.unmapped.lookup key := by
  by_cases hpair : keyOf pair ∈ mappedKeys
  · have hne : keyOf pair ≠ key := fun h => hkey (h ▸ hpair)
    rw [Fields.set_of_mem hpair, if_neg hne]
  · rw [Fields.set_of_notMem hpair]
    split
    · rename_i heq
      rw [heq, AList.lookup_insert]
    · rename_i hne
      rw [AList.lookup_insert_ne (Ne.symm hne)]

theorem Fields.lookup_set_mapped (fields : Fields) (pair : List Char × List Char) {key : String}
    (hkey : key ∈ mappedKeys) :
    (fields.set pair).unmapped.lookup key = fields.unmapped.lookup key := by
  by_cases hpair : keyOf pair ∈ mappedKeys
  · rw [Fields.set_of_mem hpair]
  · have hne : key ≠ keyOf pair := fun h => hpair (h ▸ hkey)
    rw [Fields.set_of_notMem hpair, AList.lookup_insert_ne hne]

section Collected

variable (pairs : List (List Char × List Char))

/-- The variables when the loop over the pairs is done. -/
def collected : Fields := pairs.foldl Fields.set {}

theorem collected_concat (pair : List Char × List Char) :
    collected (pairs ++ [pair]) = (collected pairs).set pair :=
  List.foldl_concat ..

theorem date_str_collected :
    (collected pairs).date_str = (last_write.latest keyOf pairs "date").map Prod.snd :=
  (last_write.field_foldl Fields.date_str Fields.set Prod.snd Fields.set_date_str pairs {}).trans
    Option.or_none

theorem time_str_collected :
    (collected pairs).time_str = (last_write.latest keyOf pairs "time").map Prod.snd :=
  (last_write.field_foldl Fields.time_str Fields.set Prod.snd Fields.set_time_str pairs {}).trans
    Option.or_none

theorem lookup_collected {key : String} (hkey : key ∉ mappedKeys) :
    (collected pairs).unmapped.lookup key =
      (last_write.latest keyOf pairs key).map fun pair => String.ofList pair.2 :=
  (last_write.field_foldl (fun fields => fields.unmapped.lookup key) Fields.set
    (fun pair => String.ofList pair.2) (fun fields pair => Fields.lookup_set fields pair hkey)
    pairs {}).trans Option.or_none

theorem lookup_collected_mapped {key : String} (hkey : key ∈ mappedKeys) :
    (collected pairs).unmapped.lookup key = none := by
  induction pairs using List.reverseRecOn with
  | nil => rfl
  | append_singleton pairs pair ih =>
    rw [collected_concat, Fields.lookup_set_mapped _ _ hkey, ih]

/-- Pairs that leave the other variables alone may differ. -/
theorem rest_collected_cons {pair other : List Char × List Char}
    (h : (({} : Fields).set pair).rest = (({} : Fields).set other).rest) :
    (collected (pair :: pairs)).rest = (collected (other :: pairs)).rest := by
  induction pairs using List.reverseRecOn with
  | nil => exact h
  | append_singleton pairs last ih =>
    rw [← List.cons_append, ← List.cons_append, collected_concat, collected_concat,
      Fields.rest_set, ih, ← Fields.rest_set]

end Collected

/-- The date and the time that a line states, if they are valid. -/
def dateTime (crates : Crates) (pairs : List (List Char × List Char)) : Option Int :=
  (last_write.latest keyOf pairs "date").bind fun date =>
    (last_write.latest keyOf pairs "time").bind fun time =>
      crates.parse_from_str (str.trim date.2 ++ [' '] ++ str.trim time.2) "%Y-%m-%d %H:%M:%S"

/-- The date and the time are for the time of the event only. -/
theorem Fields.event_eq (fields : Fields) (crates : Crates) (now_ms : Int) (raw : List Char) :
    fields.event crates now_ms raw =
      { fields.rest.event crates now_ms raw with
        time := match fields.date_str, fields.time_str with
          | some d, some t => parse_date_time_or_fallback crates d t now_ms
          | _, _ => now_ms
        unmapped := if fields.unmapped.entries.isEmpty then none else some fields.unmapped } := by
  have haction : fields.normalize_ports.action = fields.action := rfl
  have haction' : fields.rest.normalize_ports.action = fields.action := rfl
  rw [Fields.event, Fields.event, haction, haction']
  obtain ⟨disp, act_id⟩ := disposition_of fields.action
  simp only [NetworkActivity.with_unmapped_eq]
  rfl

theorem event_time (crates : Crates) (now_ms : Int) (raw : List Char)
    (pairs : List (List Char × List Char)) :
    ((collected pairs).event crates now_ms raw).time = (dateTime crates pairs).getD now_ms := by
  rw [Fields.event_eq, date_str_collected, time_str_collected, dateTime]
  cases last_write.latest keyOf pairs "date" with
  | none => rfl
  | some date => cases last_write.latest keyOf pairs "time" <;> rfl

/-- A text whose first key has no whitespace in front of it. The value and what is left
    are those of any other such key. -/
theorem KvTokenizer.pairs_segment (crates : Crates) (after_eq : List Char) :
    ∃ val, ∃ tokens : List Token, ∀ segment : List Char,
      (∀ c ∈ segment, c.is_whitespace = false ∧ c ≠ '=') →
      KvTokenizer.pairs crates (segment ++ '=' :: after_eq) =
        if ∀ token ∈ tokens, Token.KeyAligned token then
          ok ((Token.key crates ⟨segment, val⟩, val) ::
            tokens.map fun token => (token.key crates, token.value))
        else panic := by
  refine ⟨(readValue (str.trim_end after_eq)).1, readTokens (readValue (str.trim_end after_eq)).2,
    fun segment hsegment => ?_⟩
  have hstart : str.trim_start (segment ++ '=' :: after_eq) = segment ++ '=' :: after_eq := by
    cases segment with
    | nil => rfl
    | cons c segment => simp [str.trim_start, (hsegment c (by simp)).1]
  have htrim : str.trim (segment ++ '=' :: after_eq) = segment ++ '=' :: str.trim_end after_eq := by
    rw [str.trim, hstart, str.trim_end_append (by decide)]
  have hread := readToken_segment (fun c hc => (hsegment c (List.mem_of_head? hc)).1)
    (fun hmem => (hsegment _ hmem).2 rfl) (str.trim_end after_eq)
  have hfilter : segment.filter Char.is_whitespace = [] := by
    rw [List.filter_eq_nil_iff]
    intro c hc
    simp [(hsegment c hc).1]
  have haligned : Token.KeyAligned ⟨segment, (readValue (str.trim_end after_eq)).1⟩ := by
    simp [Token.KeyAligned, hfilter]
  rw [KvTokenizer.pairs_eq, htrim, readTokens_of_some hread]
  simp only [List.forall_mem_cons, haligned, true_and, List.map_cons]

end fortigate

/-- Whatever the clock reads, both lines make the extractor panic or give the same event.
    The raw texts and the readings of the clock differ; the time counts if `line` states it. -/
def FortigateExtractor.SameEvent (crates : Crates) (other line : List Char) : Prop :=
  ∀ now_ms now_ms' : Int,
    (FortigateExtractor.parse crates now_ms other = panic ∧
      FortigateExtractor.parse crates now_ms' line = panic) ∨
    ∃ pairs event event', fortigate.KvTokenizer.pairs crates line = ok pairs ∧
      FortigateExtractor.parse crates now_ms other = ok (.ok event) ∧
      FortigateExtractor.parse crates now_ms' line = ok (.ok event') ∧
      event = { event' with
        time := event.time
        metadata := { event'.metadata with
          raw_data := event.metadata.raw_data, ingest_time := event.metadata.ingest_time }
        unmapped := event.unmapped } ∧
      (∀ key, event.unmappedField key = event'.unmappedField key) ∧
      ((fortigate.dateTime crates pairs).isSome → event.time = event'.time)

theorem fortigate.unmappedField_event (crates : Crates) (now_ms : Int) (raw : List Char)
    (fields : Fields) (key : String) :
    (fields.event crates now_ms raw).unmappedField key = fields.unmapped.lookup key := by
  rw [Fields.event_eq, NetworkActivity.unmappedField]
  dsimp only
  split
  · rename_i hempty
    have hnil : fields.unmapped = ∅ := AList.ext (List.isEmpty_iff.mp hempty)
    rw [hnil, AList.lookup_empty, Option.bind_none]
  · rfl

theorem fortigate.event_eq_of_rest {fields fields' : Fields} (h : fields.rest = fields'.rest)
    (crates : Crates) (now_ms now_ms' : Int) (raw raw' : List Char) :
    fields.event crates now_ms raw =
      { fields'.event crates now_ms' raw' with
        time := (fields.event crates now_ms raw).time
        metadata := { (fields'.event crates now_ms' raw').metadata with
          raw_data := (fields.event crates now_ms raw).metadata.raw_data
          ingest_time := (fields.event crates now_ms raw).metadata.ingest_time }
        unmapped := (fields.event crates now_ms raw).unmapped } := by
  rw [Fields.event_eq fields, Fields.event_eq fields', h]
  rw [Fields.event, Fields.event]
  obtain ⟨disp, act_id⟩ := disposition_of fields'.rest.normalize_ports.action
  simp only [NetworkActivity.with_unmapped_eq]
  rfl

/-- The pairs of the line have the key that the priority makes of the first one, and
    the date is stated again or is of no use. -/
def FortigateExtractor.Restates (crates : Crates) (priority line : List Char) : Prop :=
  ∀ pairs, fortigate.KvTokenizer.pairs crates line = ok pairs →
    (∃ pair ∈ pairs, pair.1 = priority ++ str.lit ">date") ∧
      ((∃ pair ∈ pairs.tail, pair.1 = str.lit "date") ∨ fortigate.dateTime crates pairs = none)

theorem FortigateExtractor.parse_of_pairs {crates : Crates} {raw : List Char}
    {pairs : List (List Char × List Char)} (h : fortigate.KvTokenizer.pairs crates raw = ok pairs)
    (now_ms : Int) :
    FortigateExtractor.parse crates now_ms raw =
      ok (.ok ((fortigate.collected pairs).event crates now_ms raw)) := by
  rw [FortigateExtractor.parse, h]
  rfl

theorem FortigateExtractor.SameEvent.of_parse {crates : Crates} {other line : List Char}
    (h : FortigateExtractor.SameEvent crates other line) {pairs : List (List Char × List Char)}
    (hpairs : fortigate.KvTokenizer.pairs crates line = ok pairs) {now_ms now_ms' : Int}
    {event event' : NetworkActivity}
    (hevent : FortigateExtractor.parse crates now_ms other = ok (.ok event))
    (hevent' : FortigateExtractor.parse crates now_ms' line = ok (.ok event')) :
    (∀ key, event.unmappedField key = event'.unmappedField key) ∧
      ((fortigate.dateTime crates pairs).isSome → event.time = event'.time) := by
  obtain ⟨hpanic, -⟩ | ⟨_, _, _, hp, he, he', -, hfields, htime⟩ := h now_ms now_ms'
  · rw [hpanic] at hevent
    cases hevent
  · rw [hpairs] at hp
    rw [hevent] at he
    rw [hevent'] at he'
    cases hp
    cases he
    cases he'
    exact ⟨hfields, htime⟩

section Priority

open fortigate last_write

variable (priority val : List Char) (later : List (List Char × List Char))

theorem fortigate.priority_notMem :
    String.ofList (priority ++ str.lit ">date") ∉ mappedKeys := by
  intro hmem
  have hall : mappedKeys.all (fun key => !key.toList.contains '>') = true := by decide
  have hplain := List.all_eq_true.mp hall _ hmem
  simp [str.lit] at hplain

theorem fortigate.exists_key_iff (key : List Char) :
    (∃ pair ∈ later, pair.1 = key) ↔ ∃ pair, latest keyOf later (String.ofList key) = some pair := by
  constructor
  · rintro ⟨pair, hpair, rfl⟩
    exact exists_latest keyOf hpair
  · rintro ⟨pair, hpair⟩
    obtain ⟨hmem, hkey⟩ := mem_of_latest hpair
    exact ⟨pair, hmem, String.ofList_injective hkey⟩

/-- The unmapped pairs agree exactly if a later pair has the key that the priority makes. -/
theorem fortigate.lookup_priority_iff :
    (∀ key, (collected ((priority ++ str.lit ">date", val) :: later)).unmapped.lookup key =
        (collected ((str.lit "date", val) :: later)).unmapped.lookup key) ↔
      ∃ pair ∈ later, pair.1 = priority ++ str.lit ">date" := by
  have hprefixed : keyOf (priority ++ str.lit ">date", val) =
      String.ofList (priority ++ str.lit ">date") := rfl
  have hdate : keyOf (str.lit "date", val) = "date" := rfl
  have hmapped : "date" ∈ mappedKeys := by decide
  have hnew := priority_notMem priority
  rw [exists_key_iff]
  generalize String.ofList (priority ++ str.lit ">date") = name at hprefixed hnew
  have hother : "date" ≠ name := fun h => hnew (h ▸ hmapped)
  constructor
  · intro h
    have hname := h name
    rw [lookup_collected _ hnew, lookup_collected _ hnew, latest_cons, latest_cons, hprefixed,
      hdate, if_pos rfl, if_neg hother] at hname
    cases hlatest : latest keyOf later name with
    | none =>
      rw [hlatest] at hname
      cases hname
    | some pair => exact ⟨pair, rfl⟩
  · rintro ⟨pair, hpair⟩ key
    by_cases hkey : key ∈ mappedKeys
    · rw [lookup_collected_mapped _ hkey, lookup_collected_mapped _ hkey]
    · have hne : "date" ≠ key := fun h => hkey (h ▸ hmapped)
      rw [lookup_collected _ hkey, lookup_collected _ hkey, latest_cons, latest_cons, hprefixed,
        hdate, if_neg hne]
      by_cases hname : name = key
      · rw [← hname, hpair]
        rfl
      · rw [if_neg hname]

/-- The priority takes the date of the first pair away. -/
theorem fortigate.dateTime_priority (crates : Crates) :
    ((∃ pair ∈ later, pair.1 = str.lit "date") →
      dateTime crates ((priority ++ str.lit ">date", val) :: later) =
        dateTime crates ((str.lit "date", val) :: later)) ∧
    ((¬ ∃ pair ∈ later, pair.1 = str.lit "date") →
      dateTime crates ((priority ++ str.lit ">date", val) :: later) = none) := by
  have hnew : keyOf (priority ++ str.lit ">date", val) ∉ mappedKeys := priority_notMem priority
  have hdate : keyOf (priority ++ str.lit ">date", val) ≠ "date" := fun h => by
    rw [h] at hnew
    exact hnew (by decide)
  have htime : keyOf (priority ++ str.lit ">date", val) ≠ "time" := fun h => by
    rw [h] at hnew
    exact hnew (by decide)
  have htime' : keyOf (str.lit "date", val) ≠ "time" := by
    have hne : "date" ≠ "time" := by decide
    exact hne
  rw [exists_key_iff, dateTime, dateTime]
  simp only [latest_cons, if_neg hdate, if_neg htime, if_neg htime', Option.or_none]
  refine ⟨?_, ?_⟩
  · rintro ⟨pair, hpair⟩
    have hpair : latest keyOf later "date" = some pair := hpair
    rw [hpair]
    rfl
  · intro hnone
    have hnone : latest keyOf later "date" = none :=
      Option.eq_none_iff_forall_not_mem.mpr fun pair hpair => hnone ⟨pair, hpair⟩
    rw [hnone]
    rfl

end Priority

section Prefixed

open fortigate

variable {crates : Crates} {priority line : List Char}

/-- The characters below 128 are classified as in ASCII. -/
def AsciiAlphanumeric (crates : Crates) : Prop :=
  ∀ c : Char, c.toNat < 128 → crates.is_alphanumeric c = c.isAlphanum

/-- Behind a priority, the first key of a line keeps the digits and the bracket; the other
    pairs are the same. -/
theorem fortigate.pairs_priority (hcrates : AsciiAlphanumeric crates) (hne : priority ≠ [])
    (hpriority : ∀ c ∈ priority, c.isDigit = true) (hline : str.lit "date=" <+: line) :
    (KvTokenizer.pairs crates ('<' :: (priority ++ '>' :: line)) = panic ∧
      KvTokenizer.pairs crates line = panic) ∨
    ∃ val later,
      KvTokenizer.pairs crates ('<' :: (priority ++ '>' :: line)) =
        ok ((priority ++ str.lit ">date", val) :: later) ∧
      KvTokenizer.pairs crates line = ok ((str.lit "date", val) :: later) := by
  obtain ⟨after_eq, rfl⟩ := hline
  obtain ⟨val, tokens, hpairs⟩ := KvTokenizer.pairs_segment crates after_eq
  have hdate := hpairs (str.lit "date") (by simp [str.lit, Char.is_whitespace])
  have hplain : ∀ c ∈ '<' :: (priority ++ str.lit ">date"), c.is_whitespace = false ∧ c ≠ '=' := by
    intro c hc
    rcases List.mem_cons.mp hc with rfl | hc
    · decide
    rcases List.mem_append.mp hc with hc | hc
    · refine ⟨Char.is_whitespace_of_graphic (Char.graphic_of_isDigit (hpriority c hc)), ?_⟩
      rintro rfl
      exact absurd (hpriority _ hc) (by decide)
    · have hlit : (str.lit ">date").all (fun c => !c.is_whitespace && c ≠ '=') = true := by decide
      simpa using List.all_eq_true.mp hlit c hc
  have hword : ∀ segment : List Char, (∀ c ∈ segment, c.is_whitespace = false ∧ c ≠ '=') →
      (segment.rtakeWhile fun c => !c.is_whitespace) = segment := by
    intro segment hsegment
    rw [List.rtakeWhile_eq_self_iff]
    intro c hc
    simpa using (hsegment c hc).1
  have hdateKey : Token.key crates ⟨str.lit "date", val⟩ = str.lit "date" := by
    have hd : crates.is_alphanumeric 'd' = true := hcrates 'd' (by decide)
    rw [Token.key, hword _ (by simp [str.lit, Char.is_whitespace])]
    simp [str.trim_start_matches, str.lit, hd]
  have hprefixedKey : Token.key crates ⟨'<' :: (priority ++ str.lit ">date"), val⟩ =
      priority ++ str.lit ">date" := by
    have hbracket : crates.is_alphanumeric '<' = false := hcrates '<' (by decide)
    obtain ⟨d, digits, rfl⟩ := List.exists_cons_of_ne_nil hne
    have hdigit := hpriority d List.mem_cons_self
    have hd : crates.is_alphanumeric d = true := by
      have hgraphic := Char.toNat_of_graphic (Char.graphic_of_isDigit hdigit)
      rw [hcrates d (by omega), Char.isAlphanum, hdigit, Bool.or_true]
    rw [Token.key, hword _ hplain]
    simp [str.trim_start_matches, hbracket, hd]
  have hprefixed := hpairs ('<' :: (priority ++ str.lit ">date")) hplain
  have hinput : '<' :: (priority ++ '>' :: (str.lit "date=" ++ after_eq)) =
      '<' :: (priority ++ str.lit ">date") ++ '=' :: after_eq := by
    simp [str.lit]
  have hline : str.lit "date=" ++ after_eq = str.lit "date" ++ '=' :: after_eq := rfl
  rw [hinput, hline, hprefixed, hdate, hdateKey, hprefixedKey]
  by_cases haligned : ∀ token ∈ tokens, Token.KeyAligned token
  · rw [if_pos haligned, if_pos haligned]
    exact .inr ⟨_, _, rfl, rfl⟩
  · rw [if_neg haligned, if_neg haligned]
    exact .inl ⟨rfl, rfl⟩

/-- A priority in front of a line changes nothing exactly if the line states again what
    the priority spoils. -/
theorem FortigateExtractor.sameEvent_priority_iff (hcrates : AsciiAlphanumeric crates)
    (hne : priority ≠ []) (hpriority : ∀ c ∈ priority, c.isDigit = true)
    (hline : str.lit "date=" <+: line) :
    FortigateExtractor.SameEvent crates ('<' :: (priority ++ '>' :: line)) line ↔
      FortigateExtractor.Restates crates priority line := by
  obtain ⟨hpanic, hpanic'⟩ | ⟨val, later, hprefixed, hpairs⟩ :=
    pairs_priority hcrates hne hpriority hline
  · have hrestates : FortigateExtractor.Restates crates priority line := by
      intro pairs h
      rw [hpanic'] at h
      cases h
    refine ⟨fun _ => hrestates, fun _ now_ms now_ms' => .inl ⟨?_, ?_⟩⟩
    · rw [FortigateExtractor.parse, hpanic]
      rfl
    · rw [FortigateExtractor.parse, hpanic']
      rfl
  · have hparse := FortigateExtractor.parse_of_pairs hprefixed
    have hparse' := FortigateExtractor.parse_of_pairs hpairs
    have hlookup := lookup_priority_iff priority val later
    obtain ⟨hstated, hspoiled⟩ := dateTime_priority priority val later crates
    constructor
    · intro h pairs hline
      obtain rfl := ok.inj (hpairs.symm.trans hline)
      have hevents := fun now_ms now_ms' => FortigateExtractor.SameEvent.of_parse h hpairs
        (hparse now_ms) (hparse' now_ms')
      simp only [unmappedField_event, event_time] at hevents
      obtain ⟨pair, hpair, hkey⟩ := hlookup.mp (hevents 0 0).1
      refine ⟨⟨pair, List.mem_cons_of_mem _ hpair, hkey⟩, ?_⟩
      by_contra hneither
      obtain ⟨hdate, hvalid⟩ := not_or.mp hneither
      obtain ⟨t, ht⟩ := Option.ne_none_iff_exists'.mp hvalid
      -- A clock that reads another time than the line states.
      have htime := (hevents (t + 1) 0).2 (by rw [ht]; rfl)
      rw [hspoiled hdate, ht] at htime
      simp at htime
    · intro h now_ms now_ms'
      obtain ⟨⟨pair, hpair, hkey⟩, hdate⟩ := h _ hpairs
      have hrest : (collected ((priority ++ str.lit ">date", val) :: later)).rest =
          (collected ((str.lit "date", val) :: later)).rest := by
        apply rest_collected_cons
        have hnew : keyOf (priority ++ str.lit ">date", val) ∉ mappedKeys := priority_notMem priority
        rw [Fields.set_of_notMem hnew]
        rfl
      have hlater : ∃ pair ∈ later, pair.1 = priority ++ str.lit ">date" := by
        rcases List.mem_cons.mp hpair with rfl | hpair
        · have hkey : str.lit "date" = priority ++ str.lit ">date" := hkey
          have hmem : '>' ∈ str.lit "date" := by
            rw [hkey]
            simp [str.lit]
          exact absurd hmem (by decide)
        · exact ⟨pair, hpair, hkey⟩
      refine .inr ⟨_, _, _, hpairs, hparse now_ms, hparse' now_ms',
        event_eq_of_rest hrest crates now_ms now_ms' _ line, fun key => ?_, fun hvalid => ?_⟩
      · rw [unmappedField_event, unmappedField_event]
        exact hlookup.mpr hlater key
      · rw [event_time, event_time]
        rcases hdate with hdate | hnone
        · obtain ⟨t, ht⟩ := Option.isSome_iff_exists.mp hvalid
          rw [hstated hdate, ht]
          rfl
        · rw [hnone] at hvalid
          cases hvalid

end Prefixed

/-- Libraries that know one date. -/
def stampCrates : Crates :=
  { (default : Crates) with
    parse_from_str := fun text format =>
      if text = str.lit "2023-10-15 10:20:30" ∧ format = "%Y-%m-%d %H:%M:%S" then some 1697365230000
      else none }

theorem FortigateExtractor.sameEvent_priority_restated :
    FortigateExtractor.SameEvent stampCrates
      ('<' :: (str.lit "189" ++ '>' :: str.lit "date=2023-10-15 189>date=x"))
      (str.lit "date=2023-10-15 189>date=x") := by
  refine (FortigateExtractor.sameEvent_priority_iff (fun _ _ => rfl) (by decide) (by simp [str.lit])
    ⟨str.lit "2023-10-15 189>date=x", by decide⟩).mpr ?_
  intro pairs hpairs
  have hvalue : fortigate.KvTokenizer.pairs stampCrates (str.lit "date=2023-10-15 189>date=x") =
      ok [(str.lit "date", str.lit "2023-10-15"), (str.lit "189>date", ['x'])] := by decide
  obtain rfl := ok.inj (hvalue.symm.trans hpairs)
  exact ⟨⟨_, List.mem_cons_of_mem _ List.mem_cons_self, by decide⟩, .inr rfl⟩

/-- The priority of the wire format takes the date away: the event gets the time of the
    clock and a key that no line has. -/
theorem FortigateExtractor.not_sameEvent_priority :
    ¬ FortigateExtractor.SameEvent stampCrates
      (str.lit "<189>date=2023-10-15 time=10:20:30 srcip=10.0.0.1")
      (str.lit "date=2023-10-15 time=10:20:30 srcip=10.0.0.1") := by
  intro h
  have hprefixed : fortigate.KvTokenizer.pairs stampCrates
      (str.lit "<189>date=2023-10-15 time=10:20:30 srcip=10.0.0.1") =
        ok [(str.lit "189>date", str.lit "2023-10-15"), (str.lit "time", str.lit "10:20:30"),
          (str.lit "srcip", str.lit "10.0.0.1")] := by decide
  have hpairs : fortigate.KvTokenizer.pairs stampCrates
      (str.lit "date=2023-10-15 time=10:20:30 srcip=10.0.0.1") =
        ok [(str.lit "date", str.lit "2023-10-15"), (str.lit "time", str.lit "10:20:30"),
          (str.lit "srcip", str.lit "10.0.0.1")] := by decide
  obtain ⟨-, htime⟩ := h.of_parse hpairs (FortigateExtractor.parse_of_pairs hprefixed 0)
    (FortigateExtractor.parse_of_pairs hpairs 0)
  rw [fortigate.event_time, fortigate.event_time] at htime
  revert htime
  decide

end ulpf_core.parser.extractors
