import Ulpf.Lib.Address
import Ulpf.Core.Parser.CiscoAsa

open Result

namespace ulpf_core.parser.extractors.cisco_asa

/-- The name of an interface. -/
structure Interface where
  name : List Char
  plain : ∀ c ∈ name, c ≠ ':' ∧ c ≠ '/' ∧ c.is_whitespace = false ∧ is_bracket c = false

/-- An endpoint in one of the four documented forms: an interface in front of the address or none,
    a port behind it or none. -/
structure EndpointForm where
  interface : Option Interface
  address : Address
  port : Option (Fin 65536)

namespace EndpointForm

def portText (self : EndpointForm) : List Char :=
  match self.port with
  | some port => '/' :: Nat.toDigits 10 port
  | none => []

def text (self : EndpointForm) : List Char :=
  match self.interface with
  | some interface => interface.name ++ ':' :: (self.address.text ++ self.portText)
  | none => self.address.text ++ self.portText

/-- What the form says. -/
def endpoint (self : EndpointForm) (default_intf : Option (List Char)) :
    Option String × Option Nat × Option String :=
  (some (String.ofList self.address.text), self.port.map Fin.val,
    (match self.interface with
      | some interface => some interface.name
      | none => default_intf).map String.ofList)

end EndpointForm

/-- A character that neither trimming nor the search for a port notices. -/
def PlainChar (c : Char) : Prop := c.is_whitespace = false ∧ is_bracket c = false

theorem plainChar_of_graphic {c : Char} (hc : c.is_ascii_graphic = true)
    (hbracket : is_bracket c = false) : PlainChar c :=
  ⟨Char.is_whitespace_of_graphic hc, hbracket⟩

theorem plainChar_of_hexDigit {c : Char} (hc : hex.isDigit c = true) : PlainChar c := by
  refine plainChar_of_graphic (hex.graphic_of_isDigit hc) ?_
  simp only [is_bracket, Bool.or_eq_false_iff, decide_eq_false_iff_not]
  refine ⟨⟨⟨?_, ?_⟩, ?_⟩, ?_⟩ <;> rintro rfl <;> revert hc <;> decide

theorem plainChar_of_address {c : Char} (hc : Address.IsAddressChar c) : PlainChar c := by
  rcases hc with hc | rfl | rfl
  · exact plainChar_of_hexDigit hc
  · exact ⟨by decide, by decide⟩
  · exact ⟨by decide, by decide⟩

theorem slash_notMem_address (address : Address) : '/' ∉ address.text := by
  intro hmem
  rcases address.isAddressChar hmem with h | h | h
  · exact absurd h (by decide)
  · exact absurd h (by decide)
  · exact absurd h (by decide)

theorem trim_of_plain {s : List Char} (hs : ∀ c ∈ s, PlainChar c) :
    str.trim_matches is_bracket (str.trim s) = s := by
  rw [str.trim_eq_self (fun c hc => (hs c (List.mem_of_head? hc)).1)
      (fun c hc => (hs c (List.mem_of_getLast? hc)).1),
    str.trim_matches_eq_self (fun c hc => (hs c (List.mem_of_head? hc)).2)
      (fun c hc => (hs c (List.mem_of_getLast? hc)).2)]

namespace EndpointForm

theorem plainChar_of_mem_portText (self : EndpointForm) {c : Char} (hc : c ∈ self.portText) :
    PlainChar c := by
  unfold portText at hc
  split at hc
  · rcases List.mem_cons.mp hc with rfl | hc
    · exact ⟨by decide, by decide⟩
    · exact plainChar_of_hexDigit (Address.hexDigit_of_isDigit
        (Nat.isDigit_of_mem_toDigits (by decide) (by decide) hc))
  · cases hc

theorem colon_notMem_portText (self : EndpointForm) : ':' ∉ self.portText := by
  unfold portText
  split
  · intro hc
    rcases List.mem_cons.mp hc with h | h
    · exact absurd h (by decide)
    · exact absurd (Nat.isDigit_of_mem_toDigits (by decide) (by decide) h) (by decide)
  · exact List.not_mem_nil

theorem plainChar_of_mem_text (self : EndpointForm) : ∀ c ∈ self.text, PlainChar c := by
  intro c hc
  have hrest : c ∈ self.address.text ++ self.portText → PlainChar c := by
    intro hc
    rcases List.mem_append.mp hc with hc | hc
    · exact plainChar_of_address (self.address.isAddressChar hc)
    · exact self.plainChar_of_mem_portText hc
  unfold text at hc
  split at hc
  · rename_i interface _
    rcases List.mem_append.mp hc with hc | hc
    · exact (interface.plain c hc).2.2
    rcases List.mem_cons.mp hc with rfl | hc
    · exact ⟨by decide, by decide⟩
    · exact hrest hc
  · exact hrest hc

end EndpointForm

/-- A text of digits has no sign. -/
theorem parse_uint_of_digits {bits : Nat} {s : List Char} (hne : s ≠ [])
    (hs : ∀ c ∈ s, c.isDigit = true) (hlt : Nat.ofDigitChars 10 s 0 < 2 ^ bits) :
    str.parse_uint bits s = some (Nat.ofDigitChars 10 s 0) := by
  unfold str.parse_uint
  dsimp only
  split
  · exact absurd (hs '+' List.mem_cons_self) (by decide)
  · rw [if_pos ⟨hne, List.all_eq_true.mpr hs, hlt⟩]

theorem parse_uint_toDigits {bits n : Nat} (hn : n < 2 ^ bits) :
    str.parse_uint bits (Nat.toDigits 10 n) = some n := by
  have hvalue : Nat.ofDigitChars 10 (Nat.toDigits 10 n) 0 = n := Nat.ofDigitChars_ten_toDigits
  rw [parse_uint_of_digits Nat.toDigits_ne_nil
    (fun c hc => Nat.isDigit_of_mem_toDigits (by decide) (by decide) hc) (by rwa [hvalue]), hvalue]

theorem slice_from_one (back : List Char) {c : Char} (hc : c.utf8Size = 1) :
    str.slice_from (c :: back) 1 = ok back :=
  str.slice_from_succ_of_ascii [] back hc

/-- The cut at the first colon. -/
theorem split_interface_append {front back : List Char} (hfront : ':' ∉ front)
    (default_intf : Option (List Char)) :
    split_interface (front ++ ':' :: back) default_intf = ok (some (String.ofList front), back) := by
  have hfind : str.find (· = ':') (front ++ ':' :: back) = some (str.len front) :=
    str.find_eq_some_iff.mpr ⟨front, ':', back, rfl, rfl, rfl, fun x hx =>
      decide_eq_false fun heq => hfront (heq ▸ hx)⟩
  rw [split_interface, hfind]
  dsimp only
  rw [str.split_at_len, bind_ok]
  dsimp only
  rw [slice_from_one back (by decide), bind_ok]

theorem split_interface_of_notMem {clean : List Char} (h : ':' ∉ clean)
    (default_intf : Option (List Char)) :
    split_interface clean default_intf = ok (default_intf.map String.ofList, clean) := by
  have hfind : str.find (· = ':') clean = none :=
    str.find_eq_none_iff.mpr fun x hx => decide_eq_false fun heq => h (heq ▸ hx)
  rw [split_interface, hfind]

theorem split_port_form (form : EndpointForm) {ip : List Char} (hip : '/' ∉ ip) :
    split_port (ip ++ form.portText) = ok (some (String.ofList ip), form.port.map Fin.val) := by
  unfold EndpointForm.portText
  split
  · rename_i port hport
    have hfind : str.find (· = '/') (ip ++ '/' :: Nat.toDigits 10 port) = some (str.len ip) :=
      str.find_eq_some_iff.mpr ⟨ip, '/', _, rfl, rfl, rfl, fun x hx =>
        decide_eq_false fun heq => hip (heq ▸ hx)⟩
    rw [split_port, hfind]
    dsimp only
    rw [str.split_at_len, bind_ok]
    dsimp only
    rw [slice_from_one _ (by decide), bind_ok, parse_uint_toDigits port.isLt, hport]
    rfl
  · rename_i hport
    have hfind : str.find (· = '/') ip = none :=
      str.find_eq_none_iff.mpr fun x hx => decide_eq_false fun heq => hip (heq ▸ hx)
    rw [List.append_nil, split_port, hfind, hport]
    rfl

/-- With an interface in front, the first colon is the one behind it. -/
theorem parse_endpoint_str_of_interface (form : EndpointForm) {interface : Interface}
    (h : form.interface = some interface) (default_intf : Option (List Char)) :
    parse_endpoint_str form.text default_intf = ok (form.endpoint default_intf) := by
  have htext : form.text = interface.name ++ ':' :: (form.address.text ++ form.portText) := by
    rw [EndpointForm.text, h]
  have hcolon : ':' ∉ interface.name := fun hmem => (interface.plain _ hmem).1 rfl
  rw [parse_endpoint_str, trim_of_plain form.plainChar_of_mem_text, htext,
    split_interface_append hcolon, bind_ok]
  dsimp only
  rw [split_port_form form (slash_notMem_address form.address), bind_ok, EndpointForm.endpoint, h]
  rfl

theorem parse_endpoint_str_of_v4 (form : EndpointForm) (h : form.interface = none)
    (hv4 : form.address.isV4 = true) (default_intf : Option (List Char)) :
    parse_endpoint_str form.text default_intf = ok (form.endpoint default_intf) := by
  have htext : form.text = form.address.text ++ form.portText := by rw [EndpointForm.text, h]
  have hcolon : ':' ∉ form.address.text ++ form.portText := by
    rw [List.mem_append, not_or]
    refine ⟨fun hmem => ?_, form.colon_notMem_portText⟩
    have hv6 := (form.address.colon_mem_iff).mp hmem
    rw [hv4] at hv6
    cases hv6
  rw [parse_endpoint_str, trim_of_plain form.plainChar_of_mem_text, htext,
    split_interface_of_notMem hcolon, bind_ok]
  dsimp only
  rw [split_port_form form (slash_notMem_address form.address), bind_ok, EndpointForm.endpoint, h]

/-- Without one, the first colon is inside the address, and cuts it. -/
theorem parse_endpoint_str_of_v6 (form : EndpointForm) (h : form.interface = none)
    (hv6 : form.address.isV4 = false) (default_intf : Option (List Char)) :
    parse_endpoint_str form.text default_intf ≠ ok (form.endpoint default_intf) := by
  have htext : form.text = form.address.text ++ form.portText := by rw [EndpointForm.text, h]
  obtain ⟨front, back, haddress, hfront⟩ :=
    List.eq_append_cons_of_mem (form.address.colon_mem_iff.mpr hv6)
  have hslash : '/' ∉ back := fun hmem =>
    slash_notMem_address form.address (haddress ▸ by simp [hmem])
  rw [parse_endpoint_str, trim_of_plain form.plainChar_of_mem_text, htext, haddress,
    List.append_assoc, List.cons_append, split_interface_append hfront, bind_ok]
  dsimp only
  rw [split_port_form form hslash, bind_ok]
  intro heq
  have hip : String.ofList back = String.ofList form.address.text :=
    Option.some.inj (congrArg Prod.fst (Result.ok.inj heq))
  have hlength := congrArg List.length (haddress ▸ String.ofList_injective hip)
  simp at hlength
  omega

/-- An endpoint is read as its form says if and only if it has an interface or its address is of
    version 4. -/
theorem parse_endpoint_str_eq_iff (form : EndpointForm) (default_intf : Option (List Char)) :
    parse_endpoint_str form.text default_intf = ok (form.endpoint default_intf) ↔
      form.interface.isSome = true ∨ form.address.isV4 = true := by
  cases hinterface : form.interface with
  | some interface =>
    exact iff_of_true (parse_endpoint_str_of_interface form hinterface default_intf) (.inl rfl)
  | none =>
    cases hv4 : form.address.isV4 with
    | true => exact iff_of_true (parse_endpoint_str_of_v4 form hinterface hv4 default_intf) (.inr rfl)
    | false =>
      exact iff_of_false (parse_endpoint_str_of_v6 form hinterface hv4 default_intf) (by simp)

/-- `2001:db8::1` and the port 443. -/
def documentationForm : EndpointForm where
  interface := none
  address := .v6
    { front := [str.lit "2001", str.lit "db8"]
      back := some [['1']]
      tail := none
      group := by decide
      count := by decide }
  port := some 443

/-- It is read as an interface `2001` with the address `db8::1`. -/
theorem parse_documentationForm :
    documentationForm.text = str.lit "2001:db8::1/443" ∧
      parse_endpoint_str documentationForm.text none =
        ok (some "db8::1", some 443, some "2001") ∧
      documentationForm.endpoint none = (some "2001:db8::1", some 443, none) := by
  refine ⟨by decide, ?_, ?_⟩ <;> decide

end ulpf_core.parser.extractors.cisco_asa
