import Ulpf.Lib.Crates

open Result

namespace ulpf_ai.drain

/-- Syslog message codes, for the masker and for the tag of a cluster. -/
def SYSLOG_TAG_PATTERN : String := "%[A-Za-z0-9_-]+-\\d+-\\d+:|%[A-Za-z0-9_-]+:"

def LogMasker.re_ip_port : String :=
  "((?:\\d\x7b1,3\x7d\\.)\x7b3\x7d\\d\x7b1,3\x7d)[:/](\\d\x7b1,5\x7d)"

def LogMasker.re_ip : String := "\\b(?:\\d\x7b1,3\x7d\\.)\x7b3\x7d\\d\x7b1,3\x7d\\b"

def LogMasker.re_timestamp_iso : String :=
  "\\b\\d\x7b4\x7d[-/]\\d\x7b2\x7d[-/]\\d\x7b2\x7d" ++
    "[T\\s]\\d\x7b2\x7d:\\d\x7b2\x7d:\\d\x7b2\x7d(?:\\.\\d+)?(?:Z|[+-]\\d\x7b2\x7d:?\\d\x7b2\x7d)?\\b"

def LogMasker.re_timestamp_syslog : String :=
  "\\b(?:Jan|Feb|Mar|Apr|May|Jun|Jul|Aug|Sep|Oct|Nov|Dec)" ++
    "\\s+\\d\x7b1,2\x7d\\s+\\d\x7b2\x7d:\\d\x7b2\x7d:\\d\x7b2\x7d\\b"

def LogMasker.re_hex : String := "\\b0x[0-9a-fA-F]+\\b|\\b[a-fA-F0-9]\x7b32,64\x7d\\b"

def LogMasker.re_uuid : String :=
  "\\b[0-9a-fA-F]\x7b8\x7d-[0-9a-fA-F]\x7b4\x7d-[0-9a-fA-F]\x7b4\x7d" ++
    "-[0-9a-fA-F]\x7b4\x7d-[0-9a-fA-F]\x7b12\x7d\\b"

def LogMasker.re_url : String := "https?://[^\\s,\"'>]+"

def LogMasker.re_kv_num : String :=
  "(\\b(?:sessionid|session_id|logid|sentbyte|rcvdbyte|sentpkt|rcvdpkt|duration|bytes|" ++
    "cn1|cn2|cn3|eventtime|tracker)=\\s*[\"']?)\\d+([\"']?)"

def LogMasker.re_pure_num : String := "\\b\\d\x7b3,\x7d\\b"

/-- The text that stands for a masked parameter. -/
def WILDCARD : List Char := str.lit "<*>"

/-- Syslog message code of a raw line. -/
def syslog_tag_of (crates : Crates) (raw : List Char) : Result (Option (List Char)) :=
  match crates.captures SYSLOG_TAG_PATTERN raw with
  | none => ok none
  | some captures => captures.get raw 0

namespace LogMasker

def placeholder (i : Nat) : List Char :=
  str.lit "__SYSLOG_TAG_" ++ Nat.toDigits 10 i ++ str.lit "__"

/-- `caps.get(0).unwrap().as_str()`. -/
def whole_match (haystack : List Char) (captures : Captures) : Result (List Char) := do
  let text ← captures.get haystack 0
  match text with
  | some text => ok text
  | none => panic

/-- The text with a placeholder for every tag, and the tags. -/
def protect_tags (crates : Crates) (has_percent : Bool) (s : List Char) :
    Result (List Char × List (List Char)) :=
  if has_percent then do
    let masked ← crates.replace_all SYSLOG_TAG_PATTERN s fun _ i => ok (placeholder i)
    let tags ← map_each (whole_match s) (crates.captures_iter SYSLOG_TAG_PATTERN s)
    ok (masked, tags)
  else ok (s, [])

/-- The saved tags are put back one after the other. -/
def restore_tags : List Char → Nat → List (List Char) → List Char
  | s, _, [] => s
  | s, i, tag :: tags => restore_tags (str.replace (placeholder i) tag s) (i + 1) tags

/-- One masking pass, where its guard holds. -/
def mask_when (crates : Crates) (guard : Bool) (pattern : String) (s : List Char) :
    Result (List Char) :=
  if guard then crates.replace_all pattern s fun _ _ => ok WILDCARD else ok s

/-- The pass whose replacement is `${1}<*>${2}`; a group that took no part is empty. -/
def mask_kv_num (crates : Crates) (guard : Bool) (s : List Char) : Result (List Char) :=
  if guard then
    crates.replace_all re_kv_num s fun captures _ => do
      let front ← captures.get s 1
      let back ← captures.get s 2
      ok (front.getD [] ++ WILDCARD ++ back.getD [])
  else ok s

/-- `LogMasker::mask`. The guards look at the raw line, not at what is masked so far. -/
def mask (crates : Crates) (raw : List Char) : Result (List Char) :=
  let contains (pat : String) : Bool := str.contains (str.lit pat) raw
  let has_percent := contains "%"
  let has_dot := contains "."
  let has_colon := contains ":"
  let has_digit := raw.any Char.isDigit
  if !has_digit && !has_percent then ok raw
  else do
    let (s, saved_tags) ← protect_tags crates has_percent raw
    let s ← mask_when crates (contains "http") re_url s
    let s ← mask_when crates (contains "-" && decide (str.len raw > 36)) re_uuid s
    let s ← mask_when crates (contains "0x") re_hex s
    let s ← mask_when crates (has_colon && (contains "-" || contains "/")) re_timestamp_iso s
    let s ← mask_when crates has_colon re_timestamp_syslog s
    let s ← mask_when crates (has_dot && (has_colon || contains "/")) re_ip_port s
    let s ← mask_when crates has_dot re_ip s
    let s ← mask_kv_num crates (contains "=") s
    let s ← mask_when crates has_digit re_pure_num s
    ok (restore_tags s 0 saved_tags)

theorem whole_match_ne_panic {captures : Captures} {haystack : List Char}
    (haligned : captures.Aligned haystack) (hwhole : (captures.range 0).isSome) :
    whole_match haystack captures ≠ panic := by
  obtain ⟨range, hrange⟩ := Option.isSome_iff_exists.mp hwhole
  obtain ⟨text, htext⟩ := haligned range (Captures.mem_groups_of_range hrange)
  simp [whole_match, Captures.get, hrange, htext]

theorem save_tags_ne_panic (crates : Crates) (s : List Char) :
    map_each (whole_match s) (crates.captures_iter SYSLOG_TAG_PATTERN s) ≠ panic := by
  apply ne_panic_iff.mpr
  apply map_each_ok
  intro captures hcaptures
  exact ne_panic_iff.mp (whole_match_ne_panic
    (crates.captures_aligned SYSLOG_TAG_PATTERN s captures hcaptures)
    (crates.captures_whole SYSLOG_TAG_PATTERN s captures hcaptures))

theorem protect_tags_ne_panic (crates : Crates) (has_percent : Bool) (s : List Char) :
    protect_tags crates has_percent s ≠ panic := by
  unfold protect_tags
  split
  · apply bind_ne_panic (crates.replace_all_ne_panic SYSLOG_TAG_PATTERN s (by simp))
    intro masked
    apply bind_ne_panic (save_tags_ne_panic crates s)
    simp
  · simp

theorem mask_when_ne_panic (crates : Crates) (guard : Bool) (pattern : String) (s : List Char) :
    mask_when crates guard pattern s ≠ panic := by
  unfold mask_when
  split
  · apply crates.replace_all_ne_panic
    simp
  · simp

theorem mask_kv_num_ne_panic (crates : Crates) (guard : Bool) (s : List Char) :
    mask_kv_num crates guard s ≠ panic := by
  unfold mask_kv_num
  split
  · apply crates.replace_all_ne_panic
    intro captures haligned _
    apply bind_ne_panic (haligned.get_ne_panic 1)
    intro front
    apply bind_ne_panic (haligned.get_ne_panic 2)
    simp
  · simp

theorem mask_ne_panic (crates : Crates) (raw : List Char) : mask crates raw ≠ panic := by
  unfold mask
  dsimp only
  split
  · simp
  apply bind_ne_panic (protect_tags_ne_panic crates _ raw)
  rintro ⟨s, saved_tags⟩
  dsimp only
  repeat
    refine bind_ne_panic (mask_when_ne_panic crates _ _ _) fun s => ?_
  refine bind_ne_panic (mask_kv_num_ne_panic crates _ _) fun s => ?_
  refine bind_ne_panic (mask_when_ne_panic crates _ _ _) fun s => ?_
  simp

end LogMasker

theorem syslog_tag_of_ne_panic (crates : Crates) (raw : List Char) :
    syslog_tag_of crates raw ≠ panic := by
  unfold syslog_tag_of
  split
  · simp
  · rename_i captures hcaptures
    exact (Crates.aligned_of_captures hcaptures).get_ne_panic 0

end ulpf_ai.drain
