import Ulpf.Lib.Crates

open Result

namespace ulpf_core.parser.extractors.fortigate

namespace KvTokenizer

def BACKSLASH : UInt8 := 92
def QUOTE : UInt8 := 34

/-- The position of the closing quote among the bytes of a quoted value. -/
def end_pos (escaped : Bool) (idx : Nat) : List UInt8 → Option Nat
  | [] => none
  | b :: rest =>
    if escaped then end_pos false (idx + 1) rest
    else if b = BACKSLASH then end_pos true (idx + 1) rest
    else if b = QUOTE then some idx
    else end_pos false (idx + 1) rest

/-- The word immediately preceding the `=`. The cut is one byte behind the last
    whitespace character. -/
def last_word (raw_key : List Char) : Result (List Char) :=
  match str.rfind Char.is_whitespace raw_key with
  | some space_pos => str.slice_from raw_key (space_pos + 1)
  | none => ok raw_key

/-- The value in front and what is left behind it. -/
def value (after_eq : List Char) : Result (List Char × List Char) :=
  match str.strip_prefix ['"'] after_eq with
  | some inner =>
    match end_pos false 0 (str.bytes inner) with
    | some close_idx => do
      let val ← str.slice_to inner close_idx
      let rest ← str.slice_from inner (close_idx + 1)
      ok (val, rest)
    | none => ok (inner, [])
  | none =>
    match str.find Char.is_whitespace after_eq with
    | some idx => do
      let val ← str.slice_to after_eq idx
      let rest ← str.slice_from after_eq idx
      ok (val, rest)
    | none => ok (after_eq, [])

variable (crates : Crates)

/-- `Iterator::next`: the pair, and the text that is left. -/
def next (s : List Char) : Result (Option (List Char × List Char) × List Char) :=
  let s := str.trim_start s
  if s.isEmpty then ok (none, s)
  else
    match str.find (· = '=') s with
    | none => ok (none, s)
    | some eq_pos => do
      let raw_key ← str.slice_to s eq_pos
      let key ← last_word raw_key
      let key := str.trim_start_matches (fun c => !crates.is_alphanumeric c && c ≠ '_') key
      let after_eq ← str.slice_from s (eq_pos + 1)
      let (val, rest) ← value after_eq
      ok (some (key, val), rest)

/-- The pairs that a `for` loop over the tokenizer sees. Every pair takes at least
    its `=`, so one unit of fuel for each character is enough. -/
def collect : Nat → List Char → Result (List (List Char × List Char))
  | 0, _ => ok []
  | fuel + 1, s => do
    let (item, rest) ← next crates s
    match item with
    | none => ok []
    | some pair => do
      let pairs ← collect fuel rest
      ok (pair :: pairs)

/-- Iterating `KvTokenizer::new(input)`. -/
def pairs (input : List Char) : Result (List (List Char × List Char)) :=
  collect crates (input.length + 1) (str.trim input)

end KvTokenizer

/-- A quoted value, in characters: what stands in front of the closing quote, and
    what follows it if there is one. -/
def quotedValue (escaped : Bool) : List Char → List Char × Option (List Char)
  | [] => ([], none)
  | c :: s =>
    if escaped then (c :: (quotedValue false s).1, (quotedValue false s).2)
    else if c = '\\' then (c :: (quotedValue true s).1, (quotedValue true s).2)
    else if c = '"' then ([], some s)
    else (c :: (quotedValue false s).1, (quotedValue false s).2)

/-- What the tokenizer reads in one go, in characters. -/
structure Token where
  /-- Everything in front of the `=`. -/
  segment : List Char
  value : List Char
  deriving DecidableEq

/-- The value behind an `=`, and what is left. -/
def readValue : List Char → List Char × List Char
  | '"' :: inner => ((quotedValue false inner).1, (quotedValue false inner).2.getD [])
  | after_eq => after_eq.span fun c => !c.is_whitespace

/-- The next token of a text, and what is left. -/
def readToken (s : List Char) : Option (Token × List Char) :=
  match (str.trim_start s).span (· ≠ '=') with
  | (_, []) => none
  | (segment, _ :: after_eq) => some (⟨segment, (readValue after_eq).1⟩, (readValue after_eq).2)

namespace Token

/-- The last whitespace character in front of the key takes one byte. -/
def KeyAligned (token : Token) : Prop :=
  ∀ c ∈ (token.segment.filter Char.is_whitespace).getLast?, c.toNat < 128

instance (token : Token) : Decidable token.KeyAligned :=
  decidable_of_iff
    ((token.segment.filter Char.is_whitespace).getLast?.all (fun c => c.toNat < 128) = true)
    (by
      rw [KeyAligned]
      cases (token.segment.filter Char.is_whitespace).getLast? <;> simp)

/-- The key that the segment ends with. -/
def key (crates : Crates) (token : Token) : List Char :=
  str.trim_start_matches (fun c => !crates.is_alphanumeric c && c ≠ '_')
    (token.segment.rtakeWhile fun c => !c.is_whitespace)

end Token

/-- The last word is cut off safely exactly if the cut is behind an ASCII character. -/
theorem KvTokenizer.last_word_eq (token : Token) :
    KvTokenizer.last_word token.segment =
      if token.KeyAligned then ok (token.segment.rtakeWhile fun c => !c.is_whitespace) else panic := by
  obtain ⟨segment, value⟩ := token
  obtain hnone | ⟨a, c, b, rfl, hc, hb⟩ := str.forall_or_exists_last Char.is_whitespace segment
  · have hfilter : segment.filter Char.is_whitespace = [] := by simpa using hnone
    have htake : (segment.rtakeWhile fun c => !c.is_whitespace) = segment := by
      rw [List.rtakeWhile_eq_self_iff]
      simpa using hnone
    have haligned : Token.KeyAligned ⟨segment, value⟩ := by simp [Token.KeyAligned, hfilter]
    simp [KvTokenizer.last_word, str.rfind_eq_none_iff.mpr hnone, haligned, htake]
  · have hfilter : (a ++ c :: b).filter Char.is_whitespace = a.filter Char.is_whitespace ++ [c] := by
      simpa [hc] using hb
    have htake : ((a ++ c :: b).rtakeWhile fun c => !c.is_whitespace) = b := by
      rw [List.rtakeWhile, List.reverse_append, List.reverse_cons, List.append_assoc,
        List.takeWhile_append_of_pos (by simpa using hb)]
      simp [hc]
    have haligned : Token.KeyAligned ⟨a ++ c :: b, value⟩ ↔ c.utf8Size = 1 := by
      simp [Token.KeyAligned, hfilter, str.utf8Size_eq_one_iff]
    simp only [KvTokenizer.last_word, str.rfind_append_cons hc hb, str.slice_from_succ, haligned,
      htake]

/-- A byte beyond ASCII neither escapes nor closes. -/
theorem KvTokenizer.end_pos_skip {b : UInt8} (hb : 128 ≤ b.toNat) (escaped : Bool) (idx : Nat)
    (rest : List UInt8) :
    KvTokenizer.end_pos escaped idx (b :: rest) = KvTokenizer.end_pos false (idx + 1) rest := by
  have hbackslash : b ≠ KvTokenizer.BACKSLASH := str.byte_ne hb (by decide)
  have hquote : b ≠ KvTokenizer.QUOTE := str.byte_ne hb (by decide)
  cases escaped <;> simp [KvTokenizer.end_pos, hbackslash, hquote]

/-- Looking for the closing quote among the bytes is looking for it among the
    characters: no byte of a longer character is a quote or a backslash. -/
theorem KvTokenizer.end_pos_bytes (escaped : Bool) (idx : Nat) (s : List Char) :
    KvTokenizer.end_pos escaped idx (str.bytes s) =
      (quotedValue escaped s).2.map fun _ => idx + str.len (quotedValue escaped s).1 := by
  induction s generalizing escaped idx with
  | nil => rfl
  | cons c s ih =>
    obtain ⟨b, hb, hcode, hsize⟩ | ⟨hcode, hbytes⟩ := str.utf8EncodeChar_cases c
    · have hbackslash : b = KvTokenizer.BACKSLASH ↔ c = '\\' := str.byte_eq_iff hcode rfl
      have hquote : b = KvTokenizer.QUOTE ↔ c = '"' := str.byte_eq_iff hcode rfl
      simp only [str.bytes_cons, hb, List.singleton_append, KvTokenizer.end_pos, quotedValue,
        hbackslash, hquote, ih]
      split_ifs <;> simp [hsize, Nat.add_assoc]
    · have hescape : c ≠ '\\' := str.char_ne hcode (by decide)
      have hclose : c ≠ '"' := str.char_ne hcode (by decide)
      have hskip := str.bytes_cons_skip (fun bs escaped idx => KvTokenizer.end_pos escaped idx bs)
        (fun b rest escaped idx hb => KvTokenizer.end_pos_skip hb escaped idx rest) hbytes s escaped idx
      rw [hskip, ih]
      cases escaped <;> simp [quotedValue, hescape, hclose, Nat.add_assoc]

/-- A quoted value and what is left make up the text. -/
theorem quotedValue_append (escaped : Bool) (s : List Char) :
    (quotedValue escaped s).1 ++ ((quotedValue escaped s).2.map ('"' :: ·)).getD [] = s := by
  induction s generalizing escaped with
  | nil => rfl
  | cons c s ih =>
    rw [quotedValue]
    split_ifs with hescaped hbackslash hquote
    · simpa using ih false
    · simpa using ih true
    · simp [hquote]
    · simpa using ih false

/-- A text up to the first character of a kind. -/
theorem span_of_find (p : Char → Bool) (s : List Char) :
    (match str.find p s with
      | some idx => do
        let front ← str.slice_to s idx
        let back ← str.slice_from s idx
        ok (front, back)
      | none => ok (s, [])) = ok (s.span fun c => !p c) := by
  rw [List.span_eq_takeWhile_dropWhile]
  cases hfind : str.find p s with
  | none =>
    have hnone := str.find_eq_none_iff.mp hfind
    rw [List.takeWhile_eq_self_iff.mpr (by simpa using hnone),
      List.dropWhile_eq_nil_iff.mpr (by simpa using hnone)]
  | some idx =>
    obtain ⟨a, c, b, rfl, rfl, hc, ha⟩ := str.find_eq_some_iff.mp hfind
    have hpos : ∀ x ∈ a, (!p x) = true := by simpa using ha
    rw [List.takeWhile_append_of_pos hpos, List.dropWhile_append_of_pos hpos]
    simp [hc]

/-- The slices around a value are all in place. -/
theorem KvTokenizer.value_eq (after_eq : List Char) :
    KvTokenizer.value after_eq = ok (readValue after_eq) := by
  by_cases hquoted : ∃ inner, after_eq = '"' :: inner
  · obtain ⟨inner, rfl⟩ := hquoted
    have hstrip : str.strip_prefix ['"'] ('"' :: inner) = some inner := str.strip_prefix_append ['"'] inner
    have happend := quotedValue_append false inner
    simp only [KvTokenizer.value, hstrip, KvTokenizer.end_pos_bytes, readValue, Nat.zero_add]
    cases hrest : (quotedValue false inner).2 with
    | none => simpa [hrest] using happend.symm
    | some rest =>
      rw [hrest] at happend
      simp only [Option.map_some, Option.getD_some] at happend ⊢
      have hto := str.slice_to_len (quotedValue false inner).1 ('"' :: rest)
      have hfrom := str.slice_from_succ_of_ascii (quotedValue false inner).1 rest
        (show '"'.utf8Size = 1 by decide)
      rw [happend] at hto hfrom
      simp [hto, hfrom]
  · have hstrip : str.strip_prefix ['"'] after_eq = none := by
      rw [ str.strip_prefix, if_neg]
      rintro hprefix
      obtain ⟨inner, hinner⟩ := List.isPrefixOf_iff_prefix.mp hprefix
      exact hquoted ⟨inner, hinner.symm⟩
    have hread : readValue after_eq = after_eq.span fun c => !c.is_whitespace := by
      rw [readValue]
      exact fun inner h => hquoted ⟨inner, h⟩
    rw [KvTokenizer.value, hstrip, hread, ← span_of_find]

/-- One step of the tokenizer, in characters. It panics exactly if the last
    whitespace in front of the key takes more than one byte. -/
theorem KvTokenizer.next_eq (crates : Crates) (s : List Char) :
    KvTokenizer.next crates s =
      match readToken s with
      | none => ok (none, str.trim_start s)
      | some (token, rest) =>
        if token.KeyAligned then ok (some (token.key crates, token.value), rest) else panic := by
  rw [KvTokenizer.next, readToken, List.span_eq_takeWhile_dropWhile]
  generalize str.trim_start s = text
  cases hfind : str.find (· = '=') text with
  | none =>
    have hnone := str.find_eq_none_iff.mp hfind
    rw [List.dropWhile_eq_nil_iff.mpr (by simpa using hnone)]
    simp
  | some eq_pos =>
    obtain ⟨a, c, b, rfl, rfl, hc, ha⟩ := str.find_eq_some_iff.mp hfind
    obtain rfl : c = '=' := by simpa using hc
    have hpos : ∀ x ∈ a, decide (x ≠ '=') = true := by simpa using ha
    rw [List.takeWhile_append_of_pos hpos, List.dropWhile_append_of_pos hpos]
    have hempty : (a ++ '=' :: b).isEmpty = false := by simp
    have hword := KvTokenizer.last_word_eq ⟨a, (readValue b).1⟩
    have hafter := str.slice_from_succ_of_ascii a b (show '='.utf8Size = 1 by decide)
    simp only [hempty, Bool.false_eq_true, ↓reduceIte, str.slice_to_len, bind_ok, hword, hafter,
      KvTokenizer.value_eq, List.takeWhile_cons, List.dropWhile_cons, ne_eq, not_true_eq_false,
      decide_false, List.append_nil]
    by_cases haligned : Token.KeyAligned ⟨a, (readValue b).1⟩
    · simp [haligned, Token.key]
    · simp [haligned]

theorem length_readValue_le (after_eq : List Char) :
    (readValue after_eq).2.length ≤ after_eq.length := by
  unfold readValue
  split
  · rename_i inner
    have happend := congrArg List.length (quotedValue_append false inner)
    cases hrest : (quotedValue false inner).2 with
    | none => simp
    | some rest =>
      simp only [hrest, Option.map_some, Option.getD_some, List.length_append,
        List.length_cons] at happend ⊢
      omega
  · rw [List.span_eq_takeWhile_dropWhile]
    exact List.length_dropWhile_le _ _

/-- A token takes at least its `=`. -/
theorem length_lt_of_readToken {s rest : List Char} {token : Token}
    (h : readToken s = some (token, rest)) : rest.length < s.length := by
  unfold readToken at h
  rw [List.span_eq_takeWhile_dropWhile] at h
  split at h
  · cases h
  · rename_i segment c after_eq hspan
    cases h
    have hdrop := congrArg (List.length ∘ Prod.snd) hspan
    have hle := List.length_dropWhile_le (· ≠ '=') (str.trim_start s)
    have htrim : (str.trim_start s).length ≤ s.length := List.length_dropWhile_le _ _
    have hvalue := length_readValue_le after_eq
    simp only [Function.comp_apply, List.length_cons] at hdrop
    omega

/-- A segment is read up to its `=`. -/
theorem readToken_segment {segment : List Char}
    (hhead : ∀ c ∈ segment.head?, c.is_whitespace = false) (hsegment : '=' ∉ segment)
    (after_eq : List Char) :
    readToken (segment ++ '=' :: after_eq) =
      some (⟨segment, (readValue after_eq).1⟩, (readValue after_eq).2) := by
  have htrim : str.trim_start (segment ++ '=' :: after_eq) = segment ++ '=' :: after_eq := by
    cases segment with
    | nil => rfl
    | cons c segment => simp [str.trim_start, hhead c (by simp)]
  have hpos : ∀ c ∈ segment, decide (c ≠ '=') = true := by
    intro c hc
    simpa using fun h : c = '=' => hsegment (h ▸ hc)
  have hsplit : (segment ++ '=' :: after_eq).span (· ≠ '=') = (segment, '=' :: after_eq) := by
    rw [List.span_eq_takeWhile_dropWhile, List.takeWhile_append_of_pos hpos,
      List.dropWhile_append_of_pos hpos]
    simp
  rw [readToken, htrim, hsplit]

/-- All tokens of a text. -/
def readTokens (s : List Char) : List Token :=
  match _h : readToken s with
  | none => []
  | some (token, rest) => token :: readTokens rest
termination_by s.length
decreasing_by exact length_lt_of_readToken _h

theorem readTokens_of_none {s : List Char} (h : readToken s = none) : readTokens s = [] := by
  rw [readTokens]
  split <;> simp_all

theorem readTokens_of_some {s rest : List Char} {token : Token}
    (h : readToken s = some (token, rest)) : readTokens s = token :: readTokens rest := by
  rw [readTokens]
  split <;> simp_all

/-- A text that one token uses up. -/
theorem readTokens_singleton {s : List Char} {token : Token}
    (h : readToken s = some (token, [])) : readTokens s = [token] := by
  have hnil : readToken [] = none := rfl
  rw [readTokens_of_some h, readTokens_of_none hnil]

/-- Collecting with enough fuel. -/
theorem KvTokenizer.collect_eq (crates : Crates) {fuel : Nat} {s : List Char}
    (hfuel : s.length < fuel) :
    KvTokenizer.collect crates fuel s =
      if ∀ token ∈ readTokens s, token.KeyAligned then
        ok ((readTokens s).map fun token => (token.key crates, token.value))
      else panic := by
  induction fuel generalizing s with
  | zero => omega
  | succ fuel ih =>
    rw [KvTokenizer.collect, KvTokenizer.next_eq]
    split
    · rename_i hread
      simp [readTokens_of_none hread]
    · rename_i token rest hread
      have hrest := ih (s := rest) (by have := length_lt_of_readToken hread; omega)
      rw [readTokens_of_some hread]
      by_cases haligned : token.KeyAligned
      · simp only [haligned, if_true, bind_ok, hrest, List.mem_cons, forall_eq_or_imp, true_and]
        split <;> simp
      · simp [haligned]

/-- Iterating the tokenizer panics exactly if some key follows a whitespace
    character of more than one byte. -/
theorem KvTokenizer.pairs_eq (crates : Crates) (input : List Char) :
    KvTokenizer.pairs crates input =
      if ∀ token ∈ readTokens (str.trim input), token.KeyAligned then
        ok ((readTokens (str.trim input)).map fun token => (token.key crates, token.value))
      else panic := by
  apply KvTokenizer.collect_eq
  have hstart : (str.trim_start input).length ≤ input.length := List.length_dropWhile_le _ _
  have hend : (str.trim input).length ≤ (str.trim_start input).length :=
    (List.rdropWhile_prefix _ _).length_le
  omega

end ulpf_core.parser.extractors.fortigate
