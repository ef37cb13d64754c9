import Ulpf.Core.Parser.Verdict
import Ulpf.Ai.Evaluator.GroundTruth

open Result
open ulpf_core.schema.ocsf
open ulpf_core.parser ulpf_core.parser.classifier ulpf_core.parser.extractors
open ulpf_integrity.merkle (Digest)

namespace ulpf_ai.evaluator.EvaluatorEngine

/-- The format that the ground truth of a line is for. -/
def truthFormat (raw : List Char) : VendorFormat :=
  let contains (pat : String) : Bool := str.contains (str.lit pat) raw
  if contains "CEF:" then .Cef
  else if contains "%ASA-" then .CiscoAsa
  else if contains "devname=" || contains "type=\"traffic\"" || contains "logid=" then .Fortinet
  else if contains ",TRAFFIC," || contains ",THREAT," then .PaloAlto
  else if raw.head? = some '\x7b' || contains "\"event_type\"" then .Suricata
  else if contains "filterlog[" || contains "filterlog:" then .PfSense
  else .Unknown

section

variable (text : List Char)

def failurePhrase : Bool :=
  str.contains (str.lit "authentication failed") (str.to_ascii_lowercase text) ||
    str.contains (str.lit "login failed") (str.to_ascii_lowercase text)

/-- The words that the audit takes for an allowed line. -/
def truthAllows : Bool :=
  str.contains (str.lit "Built") text || str.contains (str.lit "permit") text ||
    str.contains (str.lit "successful login") (str.to_ascii_lowercase text) ||
    str.contains (str.lit "tunnel established") (str.to_ascii_lowercase text) ||
    str.contains (str.lit "session disconnected") (str.to_ascii_lowercase text)

/-- The words that the audit takes for a blocked line. -/
def truthBlocks : Bool := str.contains (str.lit "Deny") text || str.contains (str.lit "drop") text

/-- The words that the engine takes for an allowed line. -/
def engineAllows : Bool :=
  str.contains (str.lit "Built") text || str.contains (str.lit "Teardown") text ||
    str.contains (str.lit "successful login") (str.to_ascii_lowercase text) ||
    str.contains (str.lit "tunnel established") (str.to_ascii_lowercase text) ||
    str.contains (str.lit "session disconnected") (str.to_ascii_lowercase text)

/-- The words that the engine takes for a blocked line. -/
def engineBlocks : Bool := str.contains (str.lit "Deny") text || str.contains (str.lit "denied") text

theorem asa_action_cases {d : String} (h : asa_action text = some d) :
    (d = "Blocked" ∧ (failurePhrase text = true ∨ truthAllows text = false ∧ truthBlocks text = true)) ∨
      (d = "Allowed" ∧ failurePhrase text = false ∧
        (truthAllows text = true ∨ truthBlocks text = false)) := by
  have heq : asa_action text =
      if failurePhrase text = true then some "Blocked"
      else if truthAllows text = true then some "Allowed"
      else if truthBlocks text = true then some "Blocked"
      else if str.contains (str.lit "Teardown") text = true then some "Allowed"
      else none := rfl
  rw [heq] at h
  split_ifs at h with hfails hallows hblocks hteardown
  all_goals cases h
  · exact .inl ⟨rfl, .inl hfails⟩
  · exact .inr ⟨rfl, Bool.eq_false_iff.mpr hfails, .inl hallows⟩
  · exact .inl ⟨rfl, .inr ⟨Bool.eq_false_iff.mpr hallows, hblocks⟩⟩
  · exact .inr ⟨rfl, Bool.eq_false_iff.mpr hfails, .inr (Bool.eq_false_iff.mpr hblocks)⟩

theorem fallback_disposition_eq :
    cisco_asa.fallback_disposition text =
      if failurePhrase text = true then disposition.BLOCKED
      else if engineAllows text = true then disposition.ALLOWED
      else if engineBlocks text = true then disposition.BLOCKED
      else if (str.contains (str.lit "drop") text || str.contains (str.lit "dropped") text) = true then
        disposition.DROPPED
      else disposition.UNKNOWN := rfl

theorem fallback_disposition_eq_blocked_iff :
    cisco_asa.fallback_disposition text = "Blocked" ↔
      failurePhrase text = true ∨ engineAllows text = false ∧ engineBlocks text = true := by
  rw [fallback_disposition_eq]
  split_ifs with hfails hallows hblocks <;> simp_all [disposition.BLOCKED, disposition.ALLOWED,
    disposition.DROPPED, disposition.UNKNOWN]

theorem fallback_disposition_eq_allowed_iff :
    cisco_asa.fallback_disposition text = "Allowed" ↔
      failurePhrase text = false ∧ engineAllows text = true := by
  rw [fallback_disposition_eq]
  split_ifs with hfails hallows hblocks <;> simp_all [disposition.BLOCKED, disposition.ALLOWED,
    disposition.DROPPED, disposition.UNKNOWN]

end

/-- The words of a line that is handled by its body alone have one verdict on both sides. The body
    is a part of the line, so the audit can see words that the engine does not. -/
inductive AsaInStep (raw body : List Char) : Prop where
  | failure (hbody : failurePhrase body = true)
  | allowed (hraw : failurePhrase raw = false) (hbody : engineAllows body = true)
      (hblocks : truthAllows raw = true ∨ truthBlocks raw = false)
  | blocked (hbody : engineAllows body = false) (hblocks : engineBlocks body = true)
      (hraw : failurePhrase raw = true ∨ truthAllows raw = false ∧ truthBlocks raw = true)

theorem failurePhrase_of_infix {body raw : List Char} (hbody : body <:+: raw)
    (h : failurePhrase body = true) : failurePhrase raw = true := by
  have hlower : str.to_ascii_lowercase body <:+: str.to_ascii_lowercase raw := hbody.map Char.toLower
  rw [failurePhrase, Bool.or_eq_true] at h ⊢
  exact h.imp (str.contains_of_infix hlower) (str.contains_of_infix hlower)

theorem asaInStep_iff {raw body : List Char} (hbody : body <:+: raw) {d : String}
    (htruth : asa_action raw = some d) :
    cisco_asa.fallback_disposition body = d ↔ AsaInStep raw body := by
  have hfails := failurePhrase_of_infix hbody
  constructor
  · intro h
    obtain ⟨rfl, hraw⟩ | ⟨rfl, hraw, hblocks⟩ := asa_action_cases raw htruth
    · obtain hfailure | ⟨hallows, hblocks⟩ := (fallback_disposition_eq_blocked_iff body).mp h
      · exact .failure hfailure
      · exact .blocked hallows hblocks hraw
    · exact .allowed hraw ((fallback_disposition_eq_allowed_iff body).mp h).2 hblocks
  · intro h
    obtain ⟨rfl, hraw⟩ | ⟨rfl, hraw, hallowed⟩ := asa_action_cases raw htruth
    · rw [fallback_disposition_eq_blocked_iff]
      cases h with
      | failure hbody => exact .inl hbody
      | allowed hno hbody hblocks =>
        rcases hraw with hraw | ⟨hno', hraw⟩
        · rw [hraw] at hno
          cases hno
        · rw [hno', hraw] at hblocks
          simp at hblocks
      | blocked hbody hblocks => exact .inr ⟨hbody, hblocks⟩
    · have hnot : failurePhrase body = false := by
        by_contra hyes
        rw [hfails (by simpa using hyes)] at hraw
        cases hraw
      rw [fallback_disposition_eq_allowed_iff]
      cases h with
      | failure hbody =>
        rw [hbody] at hnot
        cases hnot
      | allowed hno hbody => exact ⟨hnot, hbody⟩
      | blocked hbody hblocks hboth =>
        rcases hboth with hboth | ⟨hallows, hdrops⟩
        · rw [hboth] at hraw
          cases hraw
        · rw [hallows, hdrops] at hallowed
          simp at hallowed

/-- The verdicts that an action can have. -/
inductive ActionVerdict where
  | Allowed
  | Blocked
  | Dropped

namespace ActionVerdict

def text : ActionVerdict → String
  | Allowed => "Allowed"
  | Blocked => "Blocked"
  | Dropped => "Dropped"

/-- The words of an action with a verdict, and more that only one side has for an allowed line. -/
def words (more : List String) : ActionVerdict → List String
  | Allowed => ["accept", "allow", "allowed", "close", "closed", "timeout", "client-rst", "server-rst",
      "reset"] ++ more
  | Blocked => ["deny", "denied", "blocked", "block"]
  | Dropped => ["drop"]

theorem text_injective : Function.Injective text := by
  intro verdict verdict' h
  cases verdict <;> cases verdict' <;> first | rfl | simp [text] at h

end ActionVerdict

theorem kv_verdict_eq_some_iff {word : List Char} {verdict : ActionVerdict} :
    kv_verdict word = some verdict.text ↔ String.ofList word ∈ verdict.words [] := by
  unfold kv_verdict
  generalize String.ofList word = word
  split
  all_goals cases verdict <;> simp_all [ActionVerdict.text, ActionVerdict.words]

theorem exists_verdict {word : List Char} {d : String} (h : kv_verdict word = some d) :
    ∃ verdict : ActionVerdict, d = verdict.text ∧ String.ofList word ∈ verdict.words [] := by
  obtain ⟨verdict, rfl⟩ : ∃ verdict : ActionVerdict, d = verdict.text := by
    unfold kv_verdict at h
    split at h
    all_goals cases h
    all_goals first | exact ⟨.Allowed, rfl⟩ | exact ⟨.Blocked, rfl⟩ | exact ⟨.Dropped, rfl⟩
  exact ⟨verdict, rfl, kv_verdict_eq_some_iff.mp h⟩

/-- The engine takes two words more of a FortiGate line for an allowed one. -/
def fortinetWords : List String := ["open", "start"]

theorem fortigate_disposition_iff (value : Option (List Char)) (verdict : ActionVerdict) :
    (fortigate.disposition_of (value.map String.ofList)).1 = verdict.text ↔
      ∃ word, value = some word ∧
        String.ofList (str.to_ascii_lowercase word) ∈ verdict.words fortinetWords := by
  cases value with
  | none => cases verdict <;> simp [fortigate.disposition_of, ActionVerdict.text, disposition.UNKNOWN]
  | some value =>
    rw [fortigate.disposition_of, Option.map_some, Option.map_some, String.toList_ofList]
    simp only [Option.some.injEq, exists_eq_left']
    generalize String.ofList (str.to_ascii_lowercase value) = word
    split
    all_goals cases verdict <;> simp_all [ActionVerdict.text, ActionVerdict.words, fortinetWords,
      disposition.ALLOWED, disposition.BLOCKED, disposition.DROPPED, disposition.UNKNOWN]

theorem cef_disposition_iff (value : Option (List Char)) (verdict : ActionVerdict) :
    (cef.disposition_of (value.map String.ofList)).1 = verdict.text ↔
      ∃ word, value = some word ∧ String.ofList (str.to_ascii_lowercase word) ∈ verdict.words [] := by
  cases value with
  | none => cases verdict <;> simp [cef.disposition_of, ActionVerdict.text, disposition.UNKNOWN]
  | some value =>
    rw [cef.disposition_of, Option.map_some, Option.map_some, String.toList_ofList]
    simp only [Option.some.injEq, exists_eq_left']
    generalize String.ofList (str.to_ascii_lowercase value) = word
    split
    all_goals cases verdict <;> simp_all [ActionVerdict.text, ActionVerdict.words,
      disposition.ALLOWED, disposition.BLOCKED, disposition.DROPPED, disposition.UNKNOWN]

/-- The value of a whitespace-delimited token, without quotes and commas around it. -/
def bareWord (value : List Char) : List Char :=
  str.trim_matches (· = ',') (str.trim_matches (· = '"') value)

/-- A word of the audit and a word of the engine, in any case, that have one verdict. -/
def SameVerdict (more : List String) (first last : List Char) : Prop :=
  ∃ verdict : ActionVerdict, String.ofList (bareWord first) ∈ verdict.words [] ∧
    String.ofList (str.to_ascii_lowercase last) ∈ verdict.words more

/-- The last action that the tokenizer reads has the verdict of the first whitespace-delimited
    token with the key. -/
structure FortinetInStep (crates : Crates) (raw : List Char) : Prop where
  reads : FortigateExtractor.Reads raw
  verdict : ∃ first last, kv_token raw (str.lit "action=") = some first ∧
    last_write.latest fortigate.keyOf (fortigate.kvPairs crates raw) "action" = some last ∧
    SameVerdict fortinetWords first last.2

/-- The same for a record, whose extension the two sides cut out in their own ways. -/
structure CefInStep (crates : Crates) (raw : List Char) : Prop where
  reads : CefExtractor.Reads raw
  verdict : ∃ record first last, cef.record raw = some record ∧
    kv_token (cef_extension record) (str.lit "act=") = some first ∧
    last_write.latest cef.isAction (fortigate.kvPairs crates (cef.extension record)) true = some last ∧
    SameVerdict [] first (cef.actionValue last)

theorem sameVerdict_iff {more : List String} {first last : List Char} {verdict : ActionVerdict}
    (hfirst : String.ofList (bareWord first) ∈ verdict.words []) :
    SameVerdict more first last ↔
      String.ofList (str.to_ascii_lowercase last) ∈ verdict.words more := by
  constructor
  · rintro ⟨verdict', hfirst', hlast⟩
    rw [← kv_verdict_eq_some_iff] at hfirst hfirst'
    rwa [ActionVerdict.text_injective (Option.some.inj (hfirst.symm.trans hfirst'))]
  · exact fun hlast => ⟨verdict, hfirst, hlast⟩

theorem exists_of_action_from_kv_token {text key : List Char} {d : String}
    (h : action_from_kv_token text key = some d) :
    ∃ first, ∃ verdict : ActionVerdict, kv_token text key = some first ∧ d = verdict.text ∧
      String.ofList (bareWord first) ∈ verdict.words [] := by
  obtain ⟨first, hfirst, hverdict⟩ := Option.bind_eq_some_iff.mp h
  obtain ⟨verdict, hd, hword⟩ := exists_verdict hverdict
  exact ⟨first, verdict, hfirst, hd, hword⟩

theorem exists_map_eq_some_iff {α β : Type} {o : Option α} {f : α → β} {p : β → Prop} :
    (∃ b, o.map f = some b ∧ p b) ↔ ∃ a, o = some a ∧ p (f a) := by
  cases o <;> simp

/-- An extractor that gets through the lines that it reads gives a disposition only there. -/
theorem exists_event_iff {parsed : Result (Except String NetworkActivity)} {Reads Says : Prop}
    {d : String} (hreads : parsed ≠ panic ↔ Reads)
    (hparse : Reads → ∃ event, parsed = ok (.ok event) ∧ (event.disposition = d ↔ Says)) :
    (∃ event, parsed = ok (.ok event) ∧ event.disposition = d) ↔ Reads ∧ Says := by
  constructor
  · rintro ⟨event, hevent, hdisposition⟩
    have h : Reads := hreads.mp (by simp [hevent])
    obtain ⟨event', hevent', hsays⟩ := hparse h
    rw [hevent] at hevent'
    cases hevent'
    exact ⟨h, hsays.mp hdisposition⟩
  · rintro ⟨h, hsays⟩
    obtain ⟨event, hevent, hdisposition⟩ := hparse h
    exact ⟨event, hevent, hdisposition.mpr hsays⟩

section

variable {crates : Crates} {now_ms : Int} {raw : List Char} {d : String}

theorem fortinetInStep_iff (htruth : action_from_kv_token raw (str.lit "action=") = some d) :
    (∃ event, FortigateExtractor.parse crates now_ms raw = ok (.ok event) ∧ event.disposition = d) ↔
      FortinetInStep crates raw := by
  obtain ⟨first, verdict, hfirst, rfl, hword⟩ := exists_of_action_from_kv_token htruth
  have hparse (hreads : FortigateExtractor.Reads raw) :
      ∃ event, FortigateExtractor.parse crates now_ms raw = ok (.ok event) ∧
        (event.disposition = verdict.text ↔ ∃ last,
          last_write.latest fortigate.keyOf (fortigate.kvPairs crates raw) "action" = some last ∧
            SameVerdict fortinetWords first last.2) := by
    obtain ⟨event, hevent, hdisposition⟩ := FortigateExtractor.disposition_of_parse hreads crates now_ms
    refine ⟨event, hevent, ?_⟩
    simp only [sameVerdict_iff hword]
    rw [hdisposition, fortigate_disposition_iff, exists_map_eq_some_iff]
  rw [exists_event_iff (FortigateExtractor.parse_ne_panic_iff crates now_ms raw) hparse]
  constructor
  · rintro ⟨hreads, last, hlast, hsame⟩
    exact ⟨hreads, first, last, hfirst, hlast, hsame⟩
  · rintro ⟨hreads, first', last, hfirst', hlast, hsame⟩
    rw [hfirst] at hfirst'
    cases hfirst'
    exact ⟨hreads, last, hlast, hsame⟩

theorem cefInStep_iff {record : List Char} (hrecord : cef.record raw = some record)
    (htruth : action_from_kv_token (cef_extension record) (str.lit "act=") = some d) :
    (∃ event, CefExtractor.parse crates now_ms raw = ok (.ok event) ∧ event.disposition = d) ↔
      CefInStep crates raw := by
  obtain ⟨first, verdict, hfirst, rfl, hword⟩ := exists_of_action_from_kv_token htruth
  have hparse (hreads : CefExtractor.Reads raw) :
      ∃ event, CefExtractor.parse crates now_ms raw = ok (.ok event) ∧
        (event.disposition = verdict.text ↔ ∃ last,
          last_write.latest cef.isAction (fortigate.kvPairs crates (cef.extension record)) true =
            some last ∧ SameVerdict [] first (cef.actionValue last)) := by
    obtain ⟨event, hevent, hdisposition⟩ := CefExtractor.disposition_of_parse hrecord hreads crates now_ms
    refine ⟨event, hevent, ?_⟩
    simp only [sameVerdict_iff hword]
    rw [hdisposition, cef_disposition_iff, exists_map_eq_some_iff]
  rw [exists_event_iff (CefExtractor.parse_ne_panic_iff crates now_ms raw) hparse]
  constructor
  · rintro ⟨hreads, last, hlast, hsame⟩
    exact ⟨hreads, record, first, last, hrecord, hfirst, hlast, hsame⟩
  · rintro ⟨hreads, record', first', last, hrecord', hfirst', hlast, hsame⟩
    rw [hrecord] at hrecord'
    cases hrecord'
    rw [hfirst] at hfirst'
    cases hfirst'
    exact ⟨hreads, last, hlast, hsame⟩

end

/-- The lines whose event is compared with the ground truth of their format. -/
def Compared (crates : Crates) (raw : List Char) : VendorFormat → Prop
  | .Fortinet => True
  | .Cef => True
  | .CiscoAsa => ∃ body, cisco_asa.FallsBack crates raw body
  | _ => False

/-- The condition for each of these formats. -/
def InStep (crates : Crates) (raw : List Char) : VendorFormat → Prop
  | .Fortinet => FortinetInStep crates raw
  | .Cef => CefInStep crates raw
  | .CiscoAsa => ∃ body, cisco_asa.FallsBack crates raw body ∧ AsaInStep raw body
  | _ => False

section

variable {raw vendor tag : List Char} {action : Option String}

theorem action_of_fortinet (hformat : truthFormat raw = .Fortinet)
    (htruth : extract_ground_truth raw = ok (vendor, tag, action)) :
    action = action_from_kv_token raw (str.lit "action=") := by
  unfold truthFormat at hformat
  unfold extract_ground_truth at htruth
  dsimp only at hformat htruth
  split_ifs at hformat with hcef hasa hfortinet
  rw [Option.not_isSome_iff_eq_none.mp hcef] at htruth
  dsimp only at htruth
  rw [if_neg hasa, if_pos hfortinet] at htruth
  cases htruth
  rfl

theorem action_of_asa (hformat : truthFormat raw = .CiscoAsa)
    (htruth : extract_ground_truth raw = ok (vendor, tag, action)) : action = asa_action raw := by
  unfold truthFormat at hformat
  unfold extract_ground_truth at htruth
  dsimp only at hformat htruth
  split_ifs at hformat with hcef hasa
  rw [Option.not_isSome_iff_eq_none.mp hcef] at htruth
  dsimp only at htruth
  rw [if_pos hasa] at htruth
  obtain ⟨cut, -, htruth⟩ := bind_eq_ok_iff.mp htruth
  cases htruth
  rfl

theorem action_of_cef (hformat : truthFormat raw = .Cef)
    (htruth : extract_ground_truth raw = ok (vendor, tag, action)) :
    ∃ record, cef.record raw = some record ∧
      action = action_from_kv_token (cef_extension record) (str.lit "act=") := by
  unfold truthFormat at hformat
  unfold extract_ground_truth at htruth
  dsimp only at hformat htruth
  split_ifs at hformat with hcef
  obtain ⟨hnone, -⟩ | ⟨n, record, hsome, hslice, hrecord⟩ := str.find_str_spec (str.lit "CEF:") raw
  · rw [str.contains, hnone] at hcef
    cases hcef
  · rw [hsome] at htruth
    dsimp only at htruth
    rw [hslice, bind_ok] at htruth
    cases htruth
    exact ⟨record, hrecord, rfl⟩

end

/-- The engine gives a line the disposition that the audit expects of its format exactly if the two
    sides find words of one verdict in it. -/
theorem parse_in_step_iff (H : Type) [Digest H] (crates : Crates) (reading : Reading)
    {raw vendor tag : List Char} {d : String}
    (htruth : extract_ground_truth raw = ok (vendor, tag, some d))
    (hformat : truthFormat raw = Classifier.classify raw)
    (hcompared : Compared crates raw (Classifier.classify raw)) :
    (∃ event, UniversalParser.parse H crates reading raw = ok (.ok event) ∧ event.disposition = d) ↔
      InStep crates raw (Classifier.classify raw) := by
  rw [UniversalParser.exists_event_iff_extract]
  cases hclass : Classifier.classify raw with
  | Fortinet =>
    rw [hclass] at hformat
    exact fortinetInStep_iff (action_of_fortinet hformat htruth).symm
  | Cef =>
    rw [hclass] at hformat
    obtain ⟨record, hrecord, haction⟩ := action_of_cef hformat htruth
    exact cefInStep_iff hrecord haction.symm
  | CiscoAsa =>
    rw [hclass] at hformat hcompared
    obtain ⟨body, hbody⟩ := hcompared
    obtain ⟨event, hparse, hdisposition⟩ :=
      CiscoAsaExtractor.disposition_of_parse hbody reading.now_ms
    have hstep := asaInStep_iff hbody.body_infix (action_of_asa hformat htruth).symm
    constructor
    · rintro ⟨event', hparse', rfl⟩
      rw [UniversalParser.extract, hparse] at hparse'
      cases hparse'
      exact ⟨body, hbody, hstep.mp hdisposition.symm⟩
    · rintro ⟨body', hbody', hin⟩
      rw [hbody.body_unique hbody'] at hin
      exact ⟨event, hparse, hdisposition.trans (hstep.mpr hin)⟩
  | PaloAlto | Suricata | PfSense | Unknown =>
    rw [hclass] at hcompared
    exact hcompared.elim

/-- The disposition of the event that a line is parsed to. -/
def parsedDisposition (crates : Crates) (raw : List Char) : Result (Option String) := do
  let parsed ← UniversalParser.parse ulpf_integrity.merkle.Hash crates default raw
  ok (parsed.toOption.map NetworkActivity.disposition)

theorem parse_of_parsedDisposition {crates : Crates} {raw : List Char} {d : String}
    (h : parsedDisposition crates raw = ok (some d)) :
    ∃ event, UniversalParser.parse ulpf_integrity.merkle.Hash crates default raw = ok (.ok event) ∧
      event.disposition = d := by
  obtain ⟨parsed, hparsed, h⟩ := bind_eq_ok_iff.mp h
  cases parsed with
  | error err => cases h
  | ok event => exact ⟨event, hparsed, Option.some.inj (Result.ok.inj h)⟩

def acceptLine : List Char := str.lit "devname=\"FW\" action=\"accept\""

theorem parse_in_step_iff_acceptLine :
    (∃ event, UniversalParser.parse ulpf_integrity.merkle.Hash default default acceptLine =
      ok (.ok event) ∧ event.disposition = "Allowed") ∧ InStep default acceptLine .Fortinet := by
  have htruth : extract_ground_truth acceptLine =
      ok (str.lit "Fortinet", str.lit "fortigate_traffic", some "Allowed") := by
    decide +kernel
  have hclass : Classifier.classify acceptLine = .Fortinet := by decide +kernel
  have hparse := parse_of_parsedDisposition
    (show parsedDisposition default acceptLine = ok (some "Allowed") by decide +kernel)
  have hin := (parse_in_step_iff ulpf_integrity.merkle.Hash default default htruth
    (by decide +kernel) (hclass ▸ trivial)).mp hparse
  rw [hclass] at hin
  exact ⟨hparse, hin⟩

def dropLine : List Char := str.lit "%ASA-4-733100: drop rate exceeded"

/-- A regular expression engine that knows the header of this line. -/
def headerCrates : Crates :=
  { (default : Crates) with
    captures_iter := fun pattern haystack =>
      if pattern = cisco_asa.REGEX_ASA_HEADER ∧ haystack = dropLine then
        [⟨[some (0, 33), some (5, 6), some (7, 13), some (15, 33)]⟩]
      else []
    captures_aligned := by
      intro pattern haystack captures hcaptures range hrange
      split at hcaptures
      · rename_i hline
        rw [List.mem_singleton] at hcaptures
        rw [hcaptures] at hrange
        rw [hline.2]
        simp only [List.mem_cons, Option.some.injEq, List.not_mem_nil, or_false] at hrange
        obtain rfl | rfl | rfl | rfl := hrange
        all_goals exact ⟨_, rfl⟩
      · cases hcaptures
    captures_whole := by
      intro pattern haystack captures hcaptures
      split at hcaptures <;> simp_all [Captures.range]
    captures_ordered := by
      intro pattern haystack
      split <;> simp }

theorem fallsBack_dropLine :
    cisco_asa.FallsBack headerCrates dropLine (str.lit "drop rate exceeded") := by
  have hlayouts : cisco_asa.layouts (String.ofList (str.lit "733100")) = [] := by decide +kernel
  refine ⟨⟨[some (0, 33), some (5, 6), some (7, 13), some (15, 33)]⟩, some (str.lit "733100"),
    some (str.lit "drop rate exceeded"), ?_, by decide +kernel, by decide +kernel, rfl, ?_⟩
  · have hmatches : headerCrates.captures_iter cisco_asa.REGEX_ASA_HEADER dropLine =
        [⟨[some (0, 33), some (5, 6), some (7, 13), some (15, 33)]⟩] := by
      dsimp only [headerCrates]
      exact if_pos ⟨rfl, rfl⟩
    rw [Crates.captures, hmatches, List.head?_cons]
  · rw [Option.getD_some, hlayouts]
    exact fun pattern hpattern => absurd hpattern List.not_mem_nil

def twiceLine : List Char := str.lit "devname=\"FW\" action=\"accept\" action=\"deny\""

/-- What is dropped for the engine is blocked for the audit, and of two actions the engine takes
    the last and the audit the first. -/
theorem engine_out_of_step :
    (extract_ground_truth dropLine = ok (str.lit "Cisco", str.lit "%ASA-4-733100", some "Blocked") ∧
      truthFormat dropLine = Classifier.classify dropLine ∧
      cisco_asa.FallsBack headerCrates dropLine (str.lit "drop rate exceeded") ∧
      ∃ event, UniversalParser.parse ulpf_integrity.merkle.Hash headerCrates default dropLine =
        ok (.ok event) ∧ event.disposition = "Dropped") ∧
    extract_ground_truth twiceLine =
        ok (str.lit "Fortinet", str.lit "fortigate_traffic", some "Allowed") ∧
      truthFormat twiceLine = .Fortinet ∧ Classifier.classify twiceLine = .Fortinet ∧
      ∃ event, UniversalParser.parse ulpf_integrity.merkle.Hash default default twiceLine =
        ok (.ok event) ∧ event.disposition = "Blocked" := by
  have hdrop : parsedDisposition headerCrates dropLine = ok (some "Dropped") := by decide +kernel
  have htwice : parsedDisposition default twiceLine = ok (some "Blocked") := by decide +kernel
  exact ⟨⟨by decide +kernel, by decide +kernel, fallsBack_dropLine,
    parse_of_parsedDisposition hdrop⟩, by decide +kernel, by decide +kernel, by decide +kernel,
    parse_of_parsedDisposition htwice⟩

end ulpf_ai.evaluator.EvaluatorEngine
