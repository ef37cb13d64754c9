import Ulpf.Lib.Slice

namespace hex

/-- A hexadecimal digit, in either case. -/
def isDigit (c : Char) : Bool := (value c).isSome

theorem isDigit_iff {c : Char} :
    isDigit c = true ↔ ('0' ≤ c ∧ c ≤ '9') ∨ ('a' ≤ c ∧ c ≤ 'f') ∨ ('A' ≤ c ∧ c ≤ 'F') := by
  unfold isDigit value
  split_ifs <;> simp_all

theorem graphic_of_isDigit {c : Char} (hc : isDigit c = true) : c.is_ascii_graphic = true := by
  have hrange : 48 ≤ c.toNat ∧ c.toNat ≤ 102 := by
    rcases isDigit_iff.mp hc with ⟨hlo, hhi⟩ | ⟨hlo, hhi⟩ | ⟨hlo, hhi⟩
    · have hlo : (48 : Nat) ≤ c.toNat := hlo
      have hhi : c.toNat ≤ (57 : Nat) := hhi
      omega
    · have hlo : (97 : Nat) ≤ c.toNat := hlo
      have hhi : c.toNat ≤ (102 : Nat) := hhi
      omega
    · have hlo : (65 : Nat) ≤ c.toNat := hlo
      have hhi : c.toNat ≤ (70 : Nat) := hhi
      omega
  simp only [Char.is_ascii_graphic, Bool.and_eq_true, decide_eq_true_eq]
  omega

/-- Writing the value of a digit gives the digit in lowercase. -/
theorem digit_of_value {c : Char} {n : Nat} (h : value c = some n) :
    n < 16 ∧ digit n = c.toLower := by
  have hall : ∀ k < 128, (value (Char.ofNat k)).all
      (fun n => n < 16 ∧ digit n = (Char.ofNat k).toLower) = true := by decide
  have hdigit : isDigit c = true := by rw [isDigit, h]; rfl
  have hcode := (Char.toNat_of_graphic (graphic_of_isDigit hdigit)).2
  have hc := hall c.toNat (by omega)
  rw [Char.ofNat_toNat, h] at hc
  simpa using hc

theorem decodeChars_isSome_iff (s : List Char) :
    (decodeChars s).isSome = true ↔ s.length % 2 = 0 ∧ ∀ c ∈ s, isDigit c = true := by
  fun_induction decodeChars s with
  | case1 => simp
  | case2 c => simp
  | case3 hi lo rest ih =>
    rw [List.length_cons, List.length_cons, Nat.add_assoc, Nat.add_mod_right,
      List.forall_mem_cons, List.forall_mem_cons, isDigit, isDigit]
    cases value hi with
    | none => simp
    | some high =>
      cases value lo with
      | none => simp
      | some low => cases hrest : decodeChars rest <;> simpa [hrest] using ih

/-- What is decoded reads as the text in lowercase. -/
theorem encodeByte_of_decodeChars {s : List Char} {bytes : List UInt8}
    (h : decodeChars s = some bytes) : bytes.flatMap encodeByte = str.to_ascii_lowercase s := by
  fun_induction decodeChars s generalizing bytes with
  | case1 =>
    cases h
    rfl
  | case2 c => cases h
  | case3 hi lo rest ih =>
    simp only [Option.bind_eq_bind, Option.bind_eq_some_iff, Option.pure_def, Option.some.injEq] at h
    obtain ⟨high, hhigh, low, hlow, tail, htail, rfl⟩ := h
    obtain ⟨hhigh_lt, hhigh_digit⟩ := digit_of_value hhigh
    obtain ⟨hlow_lt, hlow_digit⟩ := digit_of_value hlow
    have hbyte : (UInt8.ofNat (16 * high + low)).toNat = 16 * high + low := by
      rw [UInt8.toNat_ofNat', Nat.mod_eq_of_lt (by omega)]
    have hdiv : (16 * high + low) / 16 = high := by omega
    have hmod : (16 * high + low) % 16 = low := by omega
    rw [List.flatMap_cons, ih htail, encodeByte, hbyte, hdiv, hmod, hhigh_digit, hlow_digit]
    rfl

theorem length_of_decodeChars {s : List Char} {bytes : List UInt8}
    (h : decodeChars s = some bytes) : s.length = 2 * bytes.length := by
  have hlength := congrArg List.length (encodeByte_of_decodeChars h)
  simpa [str.to_ascii_lowercase, encodeByte, List.length_flatMap, Nat.mul_comm] using hlength.symm

/-- The texts of so many bytes. -/
theorem exists_decode_iff (s : String) (n : Nat) :
    (∃ bytes, decode s = some bytes ∧ bytes.length = n) ↔
      s.toList.length = 2 * n ∧ ∀ c ∈ s.toList, isDigit c = true := by
  have hsome := decodeChars_isSome_iff s.toList
  rw [Option.isSome_iff_exists] at hsome
  constructor
  · rintro ⟨bytes, hbytes, rfl⟩
    exact ⟨length_of_decodeChars hbytes, (hsome.mp ⟨bytes, hbytes⟩).2⟩
  · rintro ⟨hlength, hdigits⟩
    obtain ⟨bytes, hbytes⟩ := hsome.mpr ⟨by omega, hdigits⟩
    have hbytes_length := length_of_decodeChars hbytes
    exact ⟨bytes, hbytes, by omega⟩

end hex
