import Mathlib.Data.List.DropRight
import Ulpf.Lib.Bytes

/-- `char::is_whitespace`: the Unicode `White_Space` property. -/
def Char.is_whitespace (c : Char) : Bool :=
  let n := c.toNat
  (0x9 ≤ n && n ≤ 0xd) || n == 0x20 || n == 0x85 || n == 0xa0 || n == 0x1680 ||
    (0x2000 ≤ n && n ≤ 0x200a) || n == 0x2028 || n == 0x2029 || n == 0x202f || n == 0x205f ||
    n == 0x3000

/-- `char::is_ascii_graphic`. -/
def Char.is_ascii_graphic (c : Char) : Bool := 0x21 ≤ c.toNat && c.toNat ≤ 0x7e

theorem Char.toNat_of_graphic {c : Char} (hc : c.is_ascii_graphic = true) :
    0x21 ≤ c.toNat ∧ c.toNat ≤ 0x7e := by
  simpa [Char.is_ascii_graphic] using hc

theorem Char.is_whitespace_of_graphic {c : Char} (hc : c.is_ascii_graphic = true) :
    c.is_whitespace = false := by
  obtain ⟨hlo, hhi⟩ := Char.toNat_of_graphic hc
  simp [Char.is_whitespace]
  omega

theorem Char.graphic_of_isDigit {c : Char} (hc : c.isDigit = true) : c.is_ascii_graphic = true := by
  simp only [Char.isDigit, Bool.and_eq_true, decide_eq_true_eq] at hc
  have hlo : (48 : Nat) ≤ c.toNat := hc.1
  have hhi : c.toNat ≤ (57 : Nat) := hc.2
  simp only [Char.is_ascii_graphic, Bool.and_eq_true, decide_eq_true_eq]
  omega

theorem hex.graphic_of_mem_encode {bytes : List UInt8} {c : Char}
    (hc : c ∈ (hex.encode bytes).toList) : c.is_ascii_graphic = true := by
  have hdigit : ∀ n < 16, (hex.digit n).is_ascii_graphic = true := by decide
  rw [hex.encode, String.toList_ofList] at hc
  obtain ⟨b, -, hc⟩ := List.mem_flatMap.mp hc
  have hb := b.toNat_lt
  rcases List.mem_pair.mp hc with rfl | rfl
  · exact hdigit _ (by omega)
  · exact hdigit _ (by omega)

namespace str

/-- `{:?}` of a text of printable characters. -/
def debug (s : String) : String :=
  String.ofList ('"' :: (s.toList.flatMap fun c =>
    if c = '"' ∨ c = '\\' then ['\\', c] else [c]) ++ ['"'])

def trim_start (s : List Char) : List Char := s.dropWhile Char.is_whitespace

def trim_end (s : List Char) : List Char := s.rdropWhile Char.is_whitespace

def trim (s : List Char) : List Char := trim_end (trim_start s)

theorem trim_eq_self {s : List Char} (hhead : ∀ c ∈ s.head?, c.is_whitespace = false)
    (hlast : ∀ c ∈ s.getLast?, c.is_whitespace = false) : trim s = s := by
  have hstart : trim_start s = s := by
    cases s with
    | nil => rfl
    | cons c s => simp [trim_start, hhead c (by simp)]
  rw [trim, hstart, trim_end, List.rdropWhile_eq_self_iff]
  intro hne
  simpa using hlast _ (List.getLast?_eq_some_getLast hne)

theorem trim_end_append {a : List Char} {c : Char} (hc : c.is_whitespace = false) (b : List Char) :
    trim_end (a ++ c :: b) = a ++ c :: trim_end b := by
  have hsplit : (a ++ c :: b).reverse = b.reverse ++ (c :: a.reverse) := by simp
  have hstop : (c :: a.reverse).dropWhile Char.is_whitespace = c :: a.reverse :=
    List.dropWhile_cons_of_neg (by simp [hc])
  rw [trim_end, List.rdropWhile, hsplit, List.dropWhile_append, hstop]
  split
  · rename_i hempty
    have hnil : trim_end b = [] := by simpa [trim_end, List.rdropWhile] using hempty
    simp [hnil]
  · simp [trim_end, List.rdropWhile]

theorem trim_of_graphic {s : List Char} (hs : ∀ c ∈ s, c.is_ascii_graphic = true) : trim s = s :=
  trim_eq_self (fun c hc => Char.is_whitespace_of_graphic (hs c (List.mem_of_head? hc)))
    (fun c hc => Char.is_whitespace_of_graphic (hs c (List.mem_of_getLast? hc)))

/-- `{:0width$}` of an unsigned integer. -/
def zero_padded (width n : Nat) : List Char :=
  let digits := Nat.toDigits 10 n
  List.replicate (width - digits.length) '0' ++ digits

theorem zero_padded_injective (width : Nat) : Function.Injective (zero_padded width) := by
  intro m n h
  have hvalue := congrArg (fun digits => Nat.ofDigitChars 10 digits 0) h
  simpa [zero_padded, Nat.ofDigitChars_append] using hvalue

theorem graphic_of_mem_zero_padded {width n : Nat} {c : Char} (hc : c ∈ zero_padded width n) :
    c.is_ascii_graphic = true := by
  rcases List.mem_append.mp hc with hc | hc
  · obtain rfl := List.eq_of_mem_replicate hc
    decide
  · exact Char.graphic_of_isDigit (Nat.isDigit_of_mem_toDigits (by decide) (by decide) hc)

/-- A format string with one hole. -/
theorem ofList_surround_injective (pre post : List Char) :
    Function.Injective fun mid : List Char => String.ofList (pre ++ mid ++ post) := by
  intro x y h
  have hlists := String.ofList_injective h
  exact List.append_cancel_left (List.append_cancel_right hlists)

theorem graphic_surround {pre mid post : List Char} (hpre : ∀ c ∈ pre, c.is_ascii_graphic = true)
    (hmid : ∀ c ∈ mid, c.is_ascii_graphic = true) (hpost : ∀ c ∈ post, c.is_ascii_graphic = true) :
    ∀ c ∈ (String.ofList (pre ++ mid ++ post)).toList, c.is_ascii_graphic = true := by
  intro c hc
  rw [String.toList_ofList, List.mem_append, List.mem_append] at hc
  rcases hc with (hc | hc) | hc
  · exact hpre c hc
  · exact hmid c hc
  · exact hpost c hc

/-- `str::parse` to an unsigned integer of the given width. -/
def parse_uint (bits : Nat) (s : List Char) : Option Nat :=
  let digits := match s with
    | '+' :: rest => rest
    | _ => s
  if digits ≠ [] ∧ digits.all Char.isDigit ∧ Nat.ofDigitChars 10 digits 0 < 2 ^ bits then
    some (Nat.ofDigitChars 10 digits 0)
  else none

/-- `Path::file_stem` of a path with this last component. -/
def file_stem (name : List Char) : List Char :=
  let extension := name.rtakeWhile (· ≠ '.')
  let before := name.take (name.length - extension.length - 1)
  if extension.length = name.length ∨ before = [] then name else before

def strip_prefix (pat s : List Char) : Option (List Char) :=
  if pat.isPrefixOf s then some (s.drop pat.length) else none

@[simp] theorem strip_prefix_append (pat s : List Char) : strip_prefix pat (pat ++ s) = some s := by
  simp [ strip_prefix]

end str

section

/-- The bytes of a string are those of its characters in turn. -/
theorem String.as_bytes_eq_flatMap (s : String) :
    s.as_bytes = s.toList.flatMap String.utf8EncodeChar := by
  rw [String.as_bytes, ← String.utf8Encode_toList, List.utf8Encode]
  simp

theorem String.as_bytes_ofList_append (s t : List Char) :
    (String.ofList (s ++ t)).as_bytes = (String.ofList s).as_bytes ++ (String.ofList t).as_bytes := by
  simp only [String.as_bytes_eq_flatMap, String.toList_ofList, List.flatMap_append]

/-- An ASCII byte of a UTF-8 text stands for the character of that code. -/
theorem String.toNat_eq_of_mem_utf8EncodeChar {c : Char} {b : UInt8}
    (hb : b ∈ String.utf8EncodeChar c) (hascii : b.toNat < 128) : c.toNat = b.toNat := by
  unfold String.utf8EncodeChar at hb
  have hc : c.val.toNat = c.toNat := rfl
  simp only [hc] at hb
  split at hb
  · simp only [List.mem_singleton] at hb
    subst hb
    simp; omega
  · split at hb
    · simp only [List.mem_cons, List.not_mem_nil, or_false] at hb
      rcases hb with rfl | rfl <;> simp at hascii <;> omega
    · split at hb
      · simp only [List.mem_cons, List.not_mem_nil, or_false] at hb
        rcases hb with rfl | rfl | rfl <;> simp at hascii <;> omega
      · simp only [List.mem_cons, List.not_mem_nil, or_false] at hb
        rcases hb with rfl | rfl | rfl | rfl <;> simp at hascii <;> omega

theorem String.not_mem_as_bytes {s : String} {b : UInt8} (hascii : b.toNat < 128)
    (hs : ∀ c ∈ s.toList, c.toNat ≠ b.toNat) : b ∉ s.as_bytes := by
  intro hb
  rw [String.as_bytes_eq_flatMap, List.mem_flatMap] at hb
  obtain ⟨c, hc, hb⟩ := hb
  exact hs c hc (String.toNat_eq_of_mem_utf8EncodeChar hb hascii)

/-- In an ASCII text every character is one byte. -/
theorem String.as_bytes_of_graphic {s : List Char} (hs : ∀ c ∈ s, c.is_ascii_graphic = true) :
    (String.ofList s).as_bytes = s.map fun c => c.toNat.toUInt8 := by
  rw [String.as_bytes_eq_flatMap, String.toList_ofList, List.map_eq_flatMap]
  refine List.flatMap_congr fun c hc => ?_
  obtain ⟨hlo, hhi⟩ := Char.toNat_of_graphic (hs c hc)
  have hcode : c.val.toNat = c.toNat := rfl
  rw [String.utf8EncodeChar, hcode, if_pos (by omega)]

theorem String.not_mem_as_bytes_of_graphic {s : List Char}
    (hs : ∀ c ∈ s, c.is_ascii_graphic = true) {b : UInt8} (hb : b.toNat < 0x20) :
    b ∉ (String.ofList s).as_bytes := by
  refine String.not_mem_as_bytes (by omega) fun c hc => ?_
  rw [String.toList_ofList] at hc
  obtain ⟨hlo, -⟩ := Char.toNat_of_graphic (hs c hc)
  omega

end

namespace buf_read

def NEWLINE : UInt8 := 10
def CARRIAGE_RETURN : UInt8 := 13

/-- The end of a line as `BufRead::lines` sees it: the newline is gone already,
    one carriage return in front of it goes too. -/
def strip_cr (line : List UInt8) : List UInt8 :=
  if line.getLast? = some CARRIAGE_RETURN then line.dropLast else line

/-- `BufRead::lines` over a whole file, `line` being the bytes read since the last
    newline. A last line without a newline counts if it is not empty. -/
def linesFrom (line : List UInt8) : List UInt8 → List (List UInt8)
  | [] => if line = [] then [] else [line]
  | b :: rest =>
    if b = NEWLINE then strip_cr line :: linesFrom [] rest else linesFrom (line ++ [b]) rest

def lines (bytes : List UInt8) : List (List UInt8) := linesFrom [] bytes

theorem linesFrom_append {text : List UInt8} (htext : NEWLINE ∉ text) (line rest : List UInt8) :
    linesFrom line (text ++ rest) = linesFrom (line ++ text) rest := by
  induction text generalizing line with
  | nil => simp
  | cons b text ih =>
    obtain ⟨hb, htail⟩ := not_or.mp (mt List.mem_cons.mpr htext)
    rw [List.cons_append, linesFrom, if_neg (Ne.symm hb), ih htail]
    simp

/-- The newline ends the line; what it follows has no carriage return to lose. -/
theorem linesFrom_newline {line : List UInt8} (hreturn : CARRIAGE_RETURN ∉ line) (rest : List UInt8) :
    linesFrom line (NEWLINE :: rest) = line :: linesFrom [] rest := by
  rw [linesFrom, if_pos rfl, strip_cr, if_neg]
  exact fun hlast => hreturn (List.mem_of_getLast? hlast)

/-- A file that starts with a line of text without line breaks. -/
theorem lines_append {text rest : List UInt8} (hnewline : NEWLINE ∉ text)
    (hreturn : CARRIAGE_RETURN ∉ text) :
    lines (text ++ NEWLINE :: rest) = text :: lines rest := by
  rw [lines, linesFrom_append hnewline, List.nil_append, linesFrom_newline hreturn]
  rfl

end buf_read
