import Ulpf.Integrity.Hash
import Ulpf.Core.Parser.LruCache
import Ulpf.Core.Parser.Cef
import Ulpf.Core.Parser.PaloAlto
import Ulpf.Core.Parser.PfSense
import Ulpf.Core.Parser.Suricata
import Ulpf.Core.Parser.CiscoAsa

open Result
open ulpf_core.schema.ocsf
open ulpf_core.parser.extractors
open ulpf_core.parser.classifier
open ulpf_core.parser.lru_cache
open ulpf_integrity.merkle (Digest digest_hex)

namespace ulpf_core.parser

/-- What one attempt to build an event takes from its surroundings: a fresh UUIDv7,
    the time of ingestion, and the time that the extractor reads by itself. -/
structure Reading where
  event_id : String
  ingest_time : Int
  now_ms : Int
  deriving Inhabited

/-- Hex-encoded SHA-256 digest. -/
def compute_sha256 (H : Type) [Digest H] (bytes : List UInt8) : String := digest_hex H bytes

namespace UniversalParser

/-- The extractor of a format. -/
def extract (crates : Crates) (now_ms : Int) (raw : List Char) :
    VendorFormat → Result (Except String NetworkActivity)
  | .CiscoAsa => CiscoAsaExtractor.parse crates now_ms raw
  | .Fortinet => FortigateExtractor.parse crates now_ms raw
  | .PaloAlto => PaloAltoExtractor.parse crates now_ms raw
  | .Suricata => SuricataExtractor.parse crates now_ms raw
  | .PfSense => PfSenseExtractor.parse now_ms raw
  | .Cef => CefExtractor.parse crates now_ms raw
  | .Unknown => ok (.error s!"Unrecognized log format for raw line: {String.ofList raw}")

section

variable (H : Type) [Digest H]

/-- The raw line and its traceability, written over what the extractor left there. -/
def stamp (reading : Reading) (raw : List Char) (activity : NetworkActivity) : NetworkActivity :=
  { activity with
    metadata :=
      { activity.metadata with
        raw_data := String.ofList raw
        raw_hash := compute_sha256 H (str.bytes raw)
        event_id := reading.event_id
        ingest_time := reading.ingest_time } }

/-- Parse with a known format, without classification. -/
def parse_with_format (crates : Crates) (reading : Reading) (raw : List Char)
    (format : VendorFormat) : Result (Except String NetworkActivity) :=
  (extract crates reading.now_ms raw format).and_then fun activity =>
    ok (.ok (stamp H reading raw activity))

/-- Parse a raw log line. The body is that of `parse_with_format` at the class of
    the line. -/
def parse (crates : Crates) (reading : Reading) (raw : List Char) :
    Result (Except String NetworkActivity) :=
  parse_with_format H crates reading raw (Classifier.classify raw)

/-- The event of a line that was not parsed. -/
def lossless_event (fallback : Reading) (raw : List Char) (err : String) : NetworkActivity :=
  let unmapped : HashMap String String := AList.insert "parse_error" err ∅
  let product : Product := ⟨"Unknown", "Generic / Unparsed", none⟩
  let metadata : Metadata :=
    ⟨product, String.ofList raw, compute_sha256 H (str.bytes raw), fallback.event_id,
      fallback.now_ms⟩
  (NetworkActivity.new activity_id.OTHER fallback.now_ms disposition.UNKNOWN {} {} {} none
    metadata).with_unmapped unmapped

/-- The event of a parse that returned, whether or not it succeeded. -/
def or_lossless (fallback : Reading) (raw : List Char) :
    Except String NetworkActivity → NetworkActivity
  | .ok activity => activity
  | .error err => lossless_event H fallback raw err

/-- Lossless parsing. -/
def parse_lossless (crates : Crates) (reading fallback : Reading) (raw : List Char) :
    Result NetworkActivity := do
  let parsed ← parse H crates reading raw
  ok (or_lossless H fallback raw parsed)

/-- The format of a line by the cache, or else by the classifier, whose answer is then
    cached unless it is `Unknown`. -/
def cached_format (cache : SignatureLruCache) (sig_hash : UInt64) (raw : List Char) :
    VendorFormat × SignatureLruCache :=
  match cache.get sig_hash with
  | (some fmt, cache) => (fmt, cache)
  | (none, cache) =>
    let fmt := Classifier.classify raw
    (fmt, if fmt ≠ .Unknown then cache.insert sig_hash fmt else cache)

/-- Parse by way of the signature cache. -/
def parse_cached (crates : Crates) (reading : Reading) (cache : SignatureLruCache)
    (raw : List Char) : Result (Except String NetworkActivity × SignatureLruCache) := do
  let sig_hash ← SignatureLruCache.compute_signature_hash raw
  let (format, cache) := cached_format cache sig_hash raw
  let parsed ← parse_with_format H crates reading raw format
  ok (parsed, cache)

/-- Lossless parsing by way of the signature cache. -/
def parse_cached_lossless (crates : Crates) (reading fallback : Reading)
    (cache : SignatureLruCache) (raw : List Char) :
    Result (NetworkActivity × SignatureLruCache) := do
  let (parsed, cache) ← parse_cached H crates reading cache raw
  ok (or_lossless H fallback raw parsed, cache)

end

theorem cached_format_new (sig_hash : UInt64) (raw : List Char) :
    (cached_format SignatureLruCache.new sig_hash raw).1 = Classifier.classify raw := by
  have hget := SignatureLruCache.get_new sig_hash
  unfold cached_format
  split
  · rename_i hsome
    rw [hsome] at hget
    cases hget
  · rfl

/-- The lines that the extractor of a format gets through. -/
def Reads (raw : List Char) : VendorFormat → Prop
  | .Fortinet => FortigateExtractor.Reads raw
  | .Cef => CefExtractor.Reads raw
  | _ => True

/-- The lines that the extractor of a format has no event for. -/
def Rejects (crates : Crates) (raw : List Char) : VendorFormat → Prop
  | .CiscoAsa => crates.captures cisco_asa.REGEX_ASA_HEADER raw = none
  | .Fortinet => False
  | .PaloAlto =>
    ∃ csv_data fields, paloalto.strip_syslog_prefix raw = ok csv_data ∧
      split_csv csv_data = ok fields ∧ fields.length < 10
  | .Suricata =>
    ∃ json_slice e, suricata.json_slice raw = ok json_slice ∧ crates.from_str json_slice = .error e
  | .PfSense =>
    ∃ csv_part fields, pfsense.csv_part raw = ok csv_part ∧
      split_csv csv_part = ok fields ∧ fields.length < 9
  | .Cef => str.contains (str.lit "CEF:") raw = false
  | .Unknown => True

theorem extract_eq_error_iff (crates : Crates) (now_ms : Int) (raw : List Char)
    (format : VendorFormat) :
    (∃ err, extract crates now_ms raw format = ok (.error err)) ↔ Rejects crates raw format := by
  cases format with
  | CiscoAsa => exact CiscoAsaExtractor.parse_eq_error_iff crates now_ms raw
  | Fortinet => simp [extract, Rejects, FortigateExtractor.parse_ne_error]
  | PaloAlto => exact PaloAltoExtractor.parse_eq_error_iff crates now_ms raw
  | Suricata => exact SuricataExtractor.parse_eq_error_iff crates now_ms raw
  | PfSense => exact PfSenseExtractor.parse_eq_error_iff now_ms raw
  | Cef => exact CefExtractor.parse_eq_error_iff crates now_ms raw
  | Unknown => simp [extract, Rejects]

theorem extract_ne_panic_iff (crates : Crates) (now_ms : Int) (raw : List Char)
    (format : VendorFormat) : extract crates now_ms raw format ≠ panic ↔ Reads raw format := by
  cases format with
  | Fortinet => exact FortigateExtractor.parse_ne_panic_iff crates now_ms raw
  | Cef => exact CefExtractor.parse_ne_panic_iff crates now_ms raw
  | CiscoAsa => exact iff_of_true (CiscoAsaExtractor.parse_ne_panic crates now_ms raw) trivial
  | PaloAlto => exact iff_of_true (PaloAltoExtractor.parse_ne_panic crates now_ms raw) trivial
  | Suricata => exact iff_of_true (SuricataExtractor.parse_ne_panic crates now_ms raw) trivial
  | PfSense => exact iff_of_true (PfSenseExtractor.parse_ne_panic now_ms raw) trivial
  | Unknown => simp [extract, Reads]

section

variable (H : Type) [Digest H]

theorem parse_with_format_ne_panic_iff (crates : Crates) (reading : Reading) (raw : List Char)
    (format : VendorFormat) :
    parse_with_format H crates reading raw format ≠ panic ↔ Reads raw format := by
  rw [← extract_ne_panic_iff crates reading.now_ms, parse_with_format]
  rcases extract crates reading.now_ms raw format with ⟨_ | _⟩ | _ <;> simp

/-- What the extractor of the line's class reads is what lossless parsing returns. -/
theorem parse_lossless_of_extract {crates : Crates} {reading : Reading} {raw : List Char}
    {activity : NetworkActivity}
    (hextract : extract crates reading.now_ms raw (Classifier.classify raw) = ok (.ok activity))
    (fallback : Reading) :
    parse_lossless H crates reading fallback raw = ok (stamp H reading raw activity) := by
  rw [parse_lossless, parse, parse_with_format, hextract]
  rfl

theorem parse_lossless_ne_panic_iff (crates : Crates) (reading fallback : Reading)
    (raw : List Char) :
    parse_lossless H crates reading fallback raw ≠ panic ↔ Reads raw (Classifier.classify raw) := by
  rw [← parse_with_format_ne_panic_iff H crates reading, parse_lossless, parse]
  cases parse_with_format H crates reading raw (Classifier.classify raw) <;> simp

/-- The signature hash exists for every line, so only the extractor can panic. -/
theorem parse_cached_lossless_ne_panic_iff (crates : Crates) (reading fallback : Reading)
    (cache : SignatureLruCache) {raw : List Char} {sig_hash : UInt64}
    (hhash : SignatureLruCache.compute_signature_hash raw = ok sig_hash) :
    parse_cached_lossless H crates reading fallback cache raw ≠ panic ↔
      Reads raw (cached_format cache sig_hash raw).1 := by
  rw [← parse_with_format_ne_panic_iff H crates reading, parse_cached_lossless, parse_cached,
    hhash, bind_ok]
  cases hparsed : parse_with_format H crates reading raw (cached_format cache sig_hash raw).1 <;>
    simp [hparsed]

end

end UniversalParser

end ulpf_core.parser
