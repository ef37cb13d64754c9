import Ulpf.Lib.Slice

namespace u8

def is_ascii_digit (b : UInt8) : Bool := 48 ≤ b.toNat && b.toNat ≤ 57

def is_ascii_alphabetic (b : UInt8) : Bool :=
  (65 ≤ b.toNat && b.toNat ≤ 90) || (97 ≤ b.toNat && b.toNat ≤ 122)

def is_ascii_alphanumeric (b : UInt8) : Bool := is_ascii_alphabetic b || is_ascii_digit b

end u8

/-- A test of bytes that accepts ASCII only, and the same test of characters. -/
structure AsciiTest (onByte : UInt8 → Bool) (onChar : Char → Bool) : Prop where
  agree : ∀ b c, b.toNat = c.toNat → onByte b = onChar c
  byte_ascii : ∀ b, onByte b = true → b.toNat < 128
  char_ascii : ∀ c, onChar c = true → c.toNat < 128

namespace AsciiTest

theorem digit : AsciiTest u8.is_ascii_digit Char.isDigit where
  agree b c hcode := by
    simp [u8.is_ascii_digit, Char.isDigit, hcode, UInt32.le_iff_toNat_le]
  byte_ascii b hb := by
    simp only [u8.is_ascii_digit, Bool.and_eq_true, decide_eq_true_eq] at hb
    omega
  char_ascii c hc := by
    simp [Char.isDigit, UInt32.le_iff_toNat_le] at hc
    omega

theorem alphabetic : AsciiTest u8.is_ascii_alphabetic Char.isAlpha where
  agree b c hcode := by
    delta Char.isAlpha Char.isUpper Char.isLower
    simp [u8.is_ascii_alphabetic, hcode, UInt32.le_iff_toNat_le]
  byte_ascii b hb := by
    simp only [u8.is_ascii_alphabetic, Bool.or_eq_true, Bool.and_eq_true, decide_eq_true_eq] at hb
    omega
  char_ascii c hc := by
    delta Char.isAlpha Char.isUpper Char.isLower at hc
    simp [UInt32.le_iff_toNat_le] at hc
    omega

theorem or {p p' : UInt8 → Bool} {q q' : Char → Bool} (h : AsciiTest p q) (h' : AsciiTest p' q') :
    AsciiTest (fun b => p b || p' b) (fun c => q c || q' c) where
  agree b c hcode := by rw [h.agree b c hcode, h'.agree b c hcode]
  byte_ascii b hb := (Bool.or_eq_true _ _ ▸ hb).elim (h.byte_ascii b) (h'.byte_ascii b)
  char_ascii c hc := (Bool.or_eq_true _ _ ▸ hc).elim (h.char_ascii c) (h'.char_ascii c)

theorem alphanumeric : AsciiTest u8.is_ascii_alphanumeric Char.isAlphanum :=
  alphabetic.or digit

theorem equal {k : UInt8} {d : Char} (hcode : k.toNat = d.toNat) (hascii : k.toNat < 128) :
    AsciiTest (fun b => b = k) (fun c => c = d) where
  agree b c hbc := decide_eq_decide.mpr (str.byte_eq_iff hbc hcode)
  byte_ascii b hb := by rwa [of_decide_eq_true hb]
  char_ascii c hc := by rwa [of_decide_eq_true hc, ← hcode]

variable {p : UInt8 → Bool} {q : Char → Bool}

theorem utf8Size_eq_one (h : AsciiTest p q) {c : Char} (hc : q c = true) : c.utf8Size = 1 :=
  str.utf8Size_eq_one_iff.mpr (h.char_ascii c hc)

/-- The bytes of a character pass the test if it is the only one and the character passes. -/
theorem encode (h : AsciiTest p q) (c : Char) :
    (∃ b, String.utf8EncodeChar c = [b] ∧ p b = q c) ∨
      (q c = false ∧ ∀ b ∈ String.utf8EncodeChar c, p b = false) := by
  obtain ⟨b, hb, hcode, -⟩ | ⟨hcode, hbytes⟩ := str.utf8EncodeChar_cases c
  · exact .inl ⟨b, hb, h.agree b c hcode⟩
  · refine .inr ⟨Bool.eq_false_iff.mpr fun hc => ?_, fun b hb => Bool.eq_false_iff.mpr fun hp => ?_⟩
    · have := h.char_ascii c hc
      omega
    · have := h.byte_ascii b hp
      have := hbytes b hb
      omega

end AsciiTest

namespace str

theorem length_bytes (s : List Char) : (bytes s).length = len s := by
  induction s with
  | nil => rfl
  | cons c s ih => simp [ih]

theorem bytes_append (s t : List Char) : bytes (s ++ t) = bytes s ++ bytes t := by
  simp [bytes]

theorem append_inj_of_len {a b c d : List Char} (h : a ++ b = c ++ d) (hlen : len a = len c) :
    a = c ∧ b = d := by
  have hsplit := split_at_checked_eq_some_iff.mpr ⟨h, hlen.symm⟩
  rw [split_at_checked_eq_some_iff.mpr ⟨rfl, rfl⟩, Option.some_inj, Prod.mk.injEq] at hsplit
  exact hsplit

/-- An offset is a character boundary, or inside a character, or beyond the end. -/
theorem offset_cases (s : List Char) (i : Nat) :
    (∃ front back, s = front ++ back ∧ len front = i) ∨
      (∃ front c back, s = front ++ c :: back ∧ len front < i ∧ i < len front + c.utf8Size) ∨
      len s < i := by
  induction s generalizing i with
  | nil =>
    obtain rfl | hi := Nat.eq_zero_or_pos i
    · exact .inl ⟨[], [], rfl, rfl⟩
    · exact .inr (.inr hi)
  | cons c s ih =>
    obtain rfl | hi := Nat.eq_zero_or_pos i
    · exact .inl ⟨[], c :: s, rfl, rfl⟩
    · by_cases hlt : i < c.utf8Size
      · exact .inr (.inl ⟨[], c, s, rfl, hi, by simpa using hlt⟩)
      · obtain ⟨front, back, rfl, hlen⟩ | ⟨front, d, back, rfl, hlow, hhigh⟩ | hbeyond :=
          ih (i - c.utf8Size)
        · refine .inl ⟨c :: front, back, rfl, ?_⟩
          rw [len_cons]
          omega
        · refine .inr (.inl ⟨c :: front, d, back, rfl, ?_, ?_⟩) <;> rw [len_cons] <;> omega
        · refine .inr (.inr ?_)
          rw [len_cons]
          omega

section

variable {p : UInt8 → Bool} {q : Char → Bool}

/-- Testing the byte at a boundary is testing the character there. -/
theorem any_getElem?_bytes (h : AsciiTest p q) (front back : List Char) :
    ((bytes (front ++ back))[len front]?).any p = back.head?.any q := by
  rw [bytes_append, ← length_bytes, List.getElem?_append_right le_rfl, Nat.sub_self]
  cases back with
  | nil => rfl
  | cons c back =>
    obtain ⟨b, hb, hpq⟩ | ⟨hc, hbytes⟩ := h.encode c
    · simp [hb, hpq]
    · obtain ⟨b, bs, hbs⟩ := exists_encode_cons c
      simp [hbs, hc, hbytes b (by simp [hbs])]

/-- No byte inside a character passes. -/
theorem any_getElem?_bytes_inside (h : AsciiTest p q) (front back : List Char) {c : Char} {i : Nat}
    (hlow : len front < i) (hhigh : i < len front + c.utf8Size) :
    ((bytes (front ++ c :: back))[i]?).any p = false := by
  have hinner : i - len front < (String.utf8EncodeChar c).length := by
    rw [String.length_utf8EncodeChar]
    omega
  rw [bytes_append, bytes_cons, List.getElem?_append_right (by rw [length_bytes]; omega), length_bytes,
    List.getElem?_append_left hinner]
  obtain ⟨b, hb, -⟩ | ⟨-, hbytes⟩ := h.encode c
  · rw [hb, List.length_singleton] at hinner
    omega
  · rw [List.getElem?_eq_getElem hinner, Option.any_some]
    exact hbytes _ (List.getElem_mem hinner)

/-- Testing the byte before a boundary is testing the character that ends there. -/
theorem any_getElem?_bytes_pred (h : AsciiTest p q) (front back : List Char) (hne : front ≠ []) :
    ((bytes (front ++ back))[len front - 1]?).any p = front.getLast?.any q := by
  obtain ⟨start, c, rfl⟩ := (List.eq_nil_or_concat' front).resolve_left hne
  have hpos := c.utf8Size_pos
  have hassoc : start ++ [c] ++ back = start ++ c :: back := by simp
  rw [List.getLast?_concat, Option.any_some, len_append, len_cons, len_nil, hassoc]
  by_cases hsize : c.utf8Size = 1
  · rw [hsize, Nat.add_zero, Nat.add_sub_cancel, any_getElem?_bytes h, List.head?_cons, Option.any_some]
  · rw [any_getElem?_bytes_inside h start back (by omega) (by omega)]
    exact (Bool.eq_false_iff.mpr fun hc => hsize (h.utf8Size_eq_one hc)).symm

/-- A byte that passes is a character that does. -/
theorem exists_of_any_getElem?_bytes (h : AsciiTest p q) {s : List Char} {i : Nat}
    (hi : ((bytes s)[i]?).any p = true) :
    ∃ front c back, s = front ++ c :: back ∧ len front = i ∧ q c = true := by
  obtain ⟨front, back, rfl, rfl⟩ | ⟨front, c, back, rfl, hlow, hhigh⟩ | hbeyond := offset_cases s i
  · rw [any_getElem?_bytes h] at hi
    cases back with
    | nil => cases hi
    | cons c back => exact ⟨front, c, back, rfl, rfl, hi⟩
  · rw [any_getElem?_bytes_inside h front back hlow hhigh] at hi
    cases hi
  · rw [List.getElem?_eq_none (by rw [length_bytes]; omega)] at hi
    cases hi

end

end str
