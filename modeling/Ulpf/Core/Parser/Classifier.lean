import Ulpf.Lib.Slice

namespace ulpf_core.parser.classifier

/-- Supported vendor log formats. -/
inductive VendorFormat where
  | CiscoAsa
  | Fortinet
  | PaloAlto
  | Suricata
  | PfSense
  | Cef
  | Unknown
  deriving DecidableEq, Repr

namespace Classifier

/-- The pattern table; its order decides between patterns that match at one place. -/
def patterns_with_formats : List (List Char × VendorFormat) :=
  [(str.lit "%ASA-", .CiscoAsa),
   (str.lit "CEF:", .Cef),
   (str.lit "devname=\"", .Fortinet),
   (str.lit "type=\"traffic\"", .Fortinet),
   (str.lit "logid=\"", .Fortinet),
   (str.lit "type=traffic", .Fortinet),
   (str.lit "devname=", .Fortinet),
   (str.lit "filterlog[", .PfSense),
   (str.lit "filterlog:", .PfSense),
   (str.lit "\x7b\"timestamp\":", .Suricata),
   (str.lit "\"event_type\":", .Suricata),
   (str.lit "\"flow\":", .Suricata),
   (str.lit "\"alert\":", .Suricata),
   (str.lit ",TRAFFIC,", .PaloAlto),
   (str.lit ",THREAT,", .PaloAlto),
   (str.lit ",SYSTEM,", .PaloAlto),
   (str.lit "TRAFFIC,drop", .PaloAlto),
   (str.lit "TRAFFIC,allow", .PaloAlto),
   (str.lit "TRAFFIC,start", .PaloAlto),
   (str.lit "TRAFFIC,end", .PaloAlto),
   (str.lit "PAN-OS", .PaloAlto)]

/-- The leftmost-first match of the automaton: the first place where a pattern
    matches, and there the first pattern of the table. -/
def ac_find (patterns : List (List Char × VendorFormat)) (raw : List Char) : Option VendorFormat :=
  raw.tails.findSome? fun tail =>
    (patterns.find? fun pattern => pattern.1.isPrefixOf tail).map Prod.snd

/-- Secondary structural fallback. -/
def fallback_classify (raw : List Char) : VendorFormat :=
  let trimmed := str.trim raw
  let contains (pat : String) : Bool := str.contains (str.lit pat) trimmed
  if contains "%ASA-" then .CiscoAsa
  else if contains "CEF:" then .Cef
  else if contains "filterlog" then .PfSense
  else if (trimmed.head? = some '\x7b' || contains "\x7b\"") &&
      (contains "\"timestamp\"" || contains "\"event_type\"") then
    .Suricata
  else if (contains "srcip=" || contains "dstip=") && contains "proto=" then .Fortinet
  else if decide (trimmed.count ',' ≥ 15) &&
      (contains "TRAFFIC" || contains "THREAT" || contains "allow" || contains "deny" ||
        contains "drop") then
    .PaloAlto
  else .Unknown

/-- Classify a raw log line into its vendor format. -/
def classify (raw : List Char) : VendorFormat :=
  match ac_find patterns_with_formats raw with
  | some format => format
  | none => fallback_classify raw

/-- A line that starts with a CEF header is taken for CEF, whatever follows. -/
theorem classify_cef (s : List Char) : classify (str.lit "CEF:" ++ s) = .Cef := rfl

end Classifier

end ulpf_core.parser.classifier
