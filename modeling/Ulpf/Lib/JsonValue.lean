import Ulpf.Lib.Crates
import Ulpf.Lib.Json

namespace json

mutual

/-- The compact text of a value. A negative integer is kept as its absolute value. -/
def value : Value → List Char
  | .Null => str.lit "null"
  | .Bool b => if b then str.lit "true" else str.lit "false"
  | .PosInt n => nat n
  | .NegInt n => '-' :: nat n
  | .Float text => text.toList
  | .Text s => string s
  | .Array values => elements '[' values
  | .Object fields => members '\x7b' fields

/-- The elements of an array, the first one behind its bracket and the others behind a comma. -/
def elements (punctuation : Char) : List Value → List Char
  | [] => if punctuation = '[' then ['[', ']'] else [']']
  | v :: values => punctuation :: (value v ++ elements ',' values)

/-- The members of an object. -/
def members (punctuation : Char) : List (String × Value) → List Char
  | [] => if punctuation = '\x7b' then ['\x7b', '\x7d'] else ['\x7d']
  | field :: fields => key punctuation field.1 ++ (value field.2 ++ members ',' fields)

end

def ofInt : Int → Value
  | .ofNat n => .PosInt n
  | .negSucc n => .NegInt (n + 1)

/-- The values whose text is read back by a reader that goes so many levels deep: integers are
    within `u64` or `i64`, no number has a fraction, and no two members of an object have the same
    name. -/
inductive Written : Nat → Value → Prop where
  | null {depth : Nat} : Written depth .Null
  | bool {depth : Nat} (b : Bool) : Written depth (.Bool b)
  | posInt {depth n : Nat} (hn : n < 2 ^ 64) : Written depth (.PosInt n)
  | negInt {depth n : Nat} (hpos : 0 < n) (hn : n ≤ 2 ^ 63) : Written depth (.NegInt n)
  | text {depth : Nat} (s : String) : Written depth (.Text s)
  | array {depth : Nat} {values : List Value} (hvalues : ∀ v ∈ values, Written depth v) :
      Written (depth + 1) (.Array values)
  | object {depth : Nat} {fields : List (String × Value)} (hnames : (fields.map Prod.fst).Nodup)
      (hfields : ∀ field ∈ fields, Written depth field.2) : Written (depth + 1) (.Object fields)

/-- A field of a record. -/
def field (name : String) (v : Value) : List (String × Value) := [(name, v)]

/-- A field that is left out where it has no value. -/
def optional (name : String) (v : Option Value) : List (String × Value) :=
  (v.map fun v => (name, v)).toList

/-- A record with its fields in order. -/
def record (fields : List (List (String × Value))) : Value := .Object fields.flatten

/-- A text, as the derived readers take one. -/
def asText : Value → Option String
  | .Text s => some s
  | _ => none

/-- An unsigned integer of a width. -/
def asUint (bits : Nat) : Value → Option Nat
  | .PosInt n => if n < 2 ^ bits then some n else none
  | _ => none

/-- An `i64`; a negative integer of the crate always is one. -/
def asInt : Value → Option Int
  | .PosInt n => if n < 2 ^ 63 then some n else none
  | .NegInt n => some (-n)
  | _ => none

/-- A field that has to be there. -/
def required {α : Type} (read : Value → Option α) (name : String) (v : Value) : Option α :=
  (v.get name).bind read

/-- A field that may be left out or be null. -/
def nullable {α : Type} (read : Value → Option α) (name : String) (v : Value) : Option (Option α) :=
  match v.get name with
  | none | some .Null => some none
  | some value => (read value).map some

theorem asInt_ofInt {n : Int} (hn : I64 n) : asInt (ofInt n) = some n := by
  cases n with
  | ofNat n =>
    have hlt : n < 2 ^ 63 := by
      have := hn.2
      simp only [Int.ofNat_eq_natCast] at this
      omega
    exact if_pos hlt
  | negSucc n => rfl

theorem asUint_posInt {bits n : Nat} (h : n < 2 ^ bits) : asUint bits (.PosInt n) = some n :=
  if_pos h

theorem written_ofInt {depth : Nat} {n : Int} (hn : I64 n) : Written depth (ofInt n) := by
  obtain ⟨hlow, hhigh⟩ := hn
  cases n with
  | ofNat n =>
    refine .posInt ?_
    simp only [Int.ofNat_eq_natCast] at hhigh
    omega
  | negSucc n => exact .negInt n.succ_pos (by omega)

/-- The fields are values that are read back, under some of the given names in their order. -/
structure Fields (depth : Nat) (names : List String) (fields : List (List (String × Value))) :
    Prop where
  names : (fields.flatten.map Prod.fst).Sublist names
  written : ∀ field ∈ fields.flatten, Written depth field.2

namespace Fields

variable {depth : Nat} {names : List String} {fields : List (List (String × Value))} {name : String}

theorem nil : Fields depth [] [] := ⟨List.Sublist.slnil, by simp⟩

theorem field (h : Fields depth names fields) {v : Value} (hv : Written depth v) :
    Fields depth (name :: names) (json.field name v :: fields) where
  names := h.names.cons_cons name
  written := List.forall_mem_cons.mpr ⟨hv, h.written⟩

theorem optional (h : Fields depth names fields) {v : Option Value}
    (hv : ∀ v' ∈ v, Written depth v') :
    Fields depth (name :: names) (json.optional name v :: fields) := by
  cases v with
  | none => exact ⟨h.names.cons name, h.written⟩
  | some v => exact h.field (hv v rfl)

theorem written_record (h : Fields depth names fields) (hnames : names.Nodup) :
    Written (depth + 1) (record fields) :=
  .object (hnames.sublist h.names) h.written

end Fields

@[simp] theorem get_record_nil (name : String) : (record []).get name = none := rfl

@[simp] theorem get_record_field (name other : String) (v : Value)
    (fields : List (List (String × Value))) :
    (record (json.field other v :: fields)).get name =
      if name = other then some v else (record fields).get name := by
  by_cases h : name = other
  · simp [record, Value.get, json.field, h]
  · have hbeq : (name == other) = false := by simpa using h
    simp [record, Value.get, json.field, List.lookup_cons, hbeq, h]

@[simp] theorem get_record_optional (name other : String) (v : Option Value)
    (fields : List (List (String × Value))) :
    (record (json.optional other v :: fields)).get name =
      if name = other then v.or ((record fields).get name) else (record fields).get name := by
  cases v with
  | none => simp [record, Value.get, json.optional]
  | some v => exact get_record_field name other v fields

theorem required_eq {α : Type} {read : Value → Option α} {name : String} {v field : Value} {a : α}
    (hfield : v.get name = some field) (hread : read field = some a) :
    required read name v = some a := by
  rw [required, hfield]
  exact hread

theorem required_text {name : String} {v : Value} {s : String}
    (hfield : v.get name = some (.Text s)) : required asText name v = some s :=
  required_eq hfield rfl

theorem required_uint {name : String} {v : Value} {bits n : Nat}
    (hfield : v.get name = some (.PosInt n)) (hfits : n < 2 ^ bits) :
    required (asUint bits) name v = some n :=
  required_eq hfield (asUint_posInt hfits)

theorem required_int {name : String} {v : Value} {n : Int}
    (hfield : v.get name = some (ofInt n)) (hn : I64 n) : required asInt name v = some n :=
  required_eq hfield (asInt_ofInt hn)

/-- A field that was left out where it has no value reads as what it was. -/
theorem nullable_eq {α : Type} {read : Value → Option α} (write : α → Value) {name : String}
    {v : Value} {a : Option α} (hfield : v.get name = a.map write)
    (hread : ∀ b ∈ a, read (write b) = some b) (hnull : ∀ b, write b ≠ .Null) :
    nullable read name v = some a := by
  rw [nullable, hfield]
  cases a with
  | none => rfl
  | some b =>
    have hb := hread b rfl
    have hwrite := hnull b
    rw [Option.map_some]
    split
    · rename_i heq
      cases heq
    · rename_i heq
      exact absurd (Option.some_injective _ heq) hwrite
    · rename_i heq
      rw [← Option.some_injective _ heq, hb]
      rfl

theorem nullable_text {name : String} {v : Value} {s : Option String}
    (hfield : v.get name = s.map .Text) : nullable asText name v = some s :=
  nullable_eq .Text hfield (fun _ _ => rfl) (by simp)

theorem nullable_uint {name : String} {v : Value} {bits : Nat} {n : Option Nat}
    (hfield : v.get name = n.map .PosInt) (hfits : ∀ k ∈ n, k < 2 ^ bits) :
    nullable (asUint bits) name v = some n :=
  nullable_eq .PosInt hfield (fun k hk => asUint_posInt (hfits k hk)) (by simp)

theorem nullable_u64 {name : String} {v : Value} {n : Option Nat}
    (hfield : v.get name = n.map .PosInt) : nullable Value.as_u64 name v = some n :=
  nullable_eq .PosInt hfield (fun _ _ => rfl) (by simp)

/-- Reads items behind commas up to the closing character. -/
def readSeq {α : Type} (read : List Char → Option (α × List Char)) (close : Char) :
    Nat → List Char → Option (List α × List Char)
  | 0, _ => none
  | fuel + 1, s => do
    let (a, s) ← read s
    match s with
    | [] => none
    | c :: s =>
      if c = ',' then
        let (as, s) ← readSeq read close fuel s
        return (a :: as, s)
      else if c = close then return ([a], s)
      else none

def readMember (read : List Char → Option (Value × List Char)) (s : List Char) :
    Option ((String × Value) × List Char) := do
  let (name, s) ← readString s
  let s ← str.strip_prefix [':'] s
  let (v, s) ← read s
  return ((name, v), s)

/-- Reads the value at the front of a text. -/
def readValue : Nat → List Char → Option (Value × List Char)
  | 0, _ => none
  | fuel + 1, s =>
    match s with
    | 'n' :: 'u' :: 'l' :: 'l' :: s => some (.Null, s)
    | 't' :: 'r' :: 'u' :: 'e' :: s => some (.Bool true, s)
    | 'f' :: 'a' :: 'l' :: 's' :: 'e' :: s => some (.Bool false, s)
    | '-' :: s => (readNat s).map fun (n, s) => (.NegInt n, s)
    | '"' :: s => (readString ('"' :: s)).map fun (text, s) => (.Text text, s)
    | '[' :: ']' :: s => some (.Array [], s)
    | '[' :: s => (readSeq (readValue fuel) ']' s.length s).map fun (values, s) => (.Array values, s)
    | '\x7b' :: '\x7d' :: s => some (.Object [], s)
    | '\x7b' :: s =>
      (readSeq (readMember (readValue fuel)) '\x7d' s.length s).map fun (fields, s) =>
        (.Object fields, s)
    | s => (readNat s).map fun (n, s) => (.PosInt n, s)

/-- Reads a text that is one value. -/
def fromStr (s : List Char) : Except String Value :=
  match readValue s.length s with
  | some (v, []) => .ok v
  | _ => .error "invalid JSON"

/-- No number goes on at the front of the text. -/
def Ends (s : List Char) : Prop := ∀ c ∈ s.head?, c.isDigit = false

theorem ends_cons {c : Char} (hc : c.isDigit = false) (s : List Char) : Ends (c :: s) := by
  intro d hd
  rw [List.head?_cons, Option.mem_some_iff] at hd
  rwa [← hd]

/-- The items behind the first one. -/
def tail {α : Type} (write : α → List Char) (close : Char) (as : List α) : List Char :=
  as.flatMap (fun a => ',' :: write a) ++ [close]

theorem elements_comma (values : List Value) : elements ',' values = tail value ']' values := by
  induction values with
  | nil => rfl
  | cons v values ih => simp [elements, ih, tail]

def member (field : String × Value) : List Char := string field.1 ++ ':' :: value field.2

theorem members_comma (fields : List (String × Value)) :
    members ',' fields = tail member '\x7d' fields := by
  induction fields with
  | nil => rfl
  | cons field fields ih => simp [members, key, ih, tail, member]

theorem readSeq_tail {α : Type} {read : List Char → Option (α × List Char)}
    {write : α → List Char} {close : Char} (hdigit : close.isDigit = false) (hcomma : close ≠ ',')
    {a : α} {as : List α}
    (hread : ∀ b ∈ a :: as, ∀ s, Ends s → read (write b ++ s) = some (b, s)) {fuel : Nat}
    (hfuel : as.length < fuel) (s : List Char) :
    readSeq read close fuel (write a ++ (tail write close as ++ s)) = some (a :: as, s) := by
  induction as generalizing a fuel with
  | nil =>
    obtain ⟨fuel, rfl⟩ : ∃ n, fuel = n + 1 := Nat.exists_eq_succ_of_ne_zero (by omega)
    have hclose := hread a List.mem_cons_self (close :: s) (ends_cons hdigit s)
    simp [readSeq, tail, hclose, hcomma]
  | cons b as ih =>
    obtain ⟨fuel, rfl⟩ : ∃ n, fuel = n + 1 := Nat.exists_eq_succ_of_ne_zero (by omega)
    have hrest := ih (fun b hb => hread b (List.mem_cons_of_mem _ hb))
      (by simpa using hfuel)
    have hnext := hread a List.mem_cons_self (',' :: (write b ++ (tail write close as ++ s)))
      (ends_cons (by decide) _)
    have htail : tail write close (b :: as) ++ s = ',' :: (write b ++ (tail write close as ++ s)) := by
      simp [tail]
    rw [readSeq, htail, hnext]
    simp [hrest]

theorem length_lt_tail {α : Type} (write : α → List Char) (close : Char) (as : List α) :
    as.length < (tail write close as).length := by
  induction as with
  | nil => simp [tail]
  | cons a as ih =>
    simp only [tail, List.flatMap_cons, List.length_append, List.length_cons] at ih ⊢
    omega

/-- The text of an item is no longer than that of all items. -/
theorem length_item_le {α : Type} (write : α → List Char) (close : Char) {a b : α} {as : List α}
    (hb : b ∈ a :: as) : (write b).length ≤ (write a ++ tail write close as).length := by
  rw [List.length_append]
  rcases List.mem_cons.mp hb with rfl | hb
  · omega
  · obtain ⟨first, rest, rfl⟩ := List.append_of_mem hb
    simp only [tail, List.flatMap_append, List.flatMap_cons, List.length_append, List.length_cons]
    omega

/-- A text that starts with a digit is a number. -/
theorem readValue_of_isDigit (fuel : Nat) {c : Char} (hc : c.isDigit = true) (s : List Char) :
    readValue (fuel + 1) (c :: s) = (readNat (c :: s)).map fun (n, s) => (.PosInt n, s) := by
  rw [readValue]
  all_goals
    intro rest h
    obtain ⟨rfl, -⟩ := List.cons.inj h
    cases hc

theorem readValue_array (fuel : Nat) {s : List Char} (hs : s.head? ≠ some ']') :
    readValue (fuel + 1) ('[' :: s) =
      (readSeq (readValue fuel) ']' s.length s).map fun (values, s) => (.Array values, s) := by
  rw [readValue]
  rintro rest rfl
  exact hs rfl

/-- No value starts like the end of an array. -/
theorem head?_value {depth : Nat} {v : Value} (hv : Written depth v) (s : List Char) :
    (value v ++ s).head? ≠ some ']' := by
  have hnat : ∀ n, (nat n ++ s).head? ≠ some ']' := by
    intro n h
    obtain ⟨c, digits, hdigits⟩ := List.exists_cons_of_ne_nil (Nat.toDigits_ne_nil (b := 10) (n := n))
    have hdigit := Nat.isDigit_of_mem_toDigits (b := 10) (n := n) (c := c) (by decide) (by decide)
      (by simp [hdigits])
    rw [nat, hdigits, List.cons_append, List.head?_cons, Option.some.injEq] at h
    rw [h] at hdigit
    cases hdigit
  cases hv with
  | null => simp [value, str.lit]
  | bool b => cases b <;> simp [value, str.lit]
  | posInt hn => exact hnat _
  | negInt hpos hn => simp [value]
  | text s => simp [value, string]
  | @array _ values _ => cases values <;> simp [value, elements]
  | @object _ fields _ _ => cases fields <;> simp [value, members, key]

/-- No text of a value is empty. -/
theorem exists_fuel {depth : Nat} {v : Value} (hv : Written depth v) {fuel : Nat}
    (hfuel : (value v).length ≤ fuel) :
    ∃ n, fuel = n + 1 := by
  refine Nat.exists_eq_succ_of_ne_zero fun h => ?_
  have hnil : value v = [] := List.eq_nil_of_length_eq_zero (by omega)
  have hhead := head?_value hv [']']
  rw [hnil] at hhead
  exact hhead rfl

/-- The text of a value is read back, wherever no digit follows it. -/
theorem readValue_value {depth : Nat} {v : Value} (hv : Written depth v) {fuel : Nat}
    (hfuel : (value v).length ≤ fuel) {s : List Char} (hs : Ends s) :
    readValue fuel (value v ++ s) = some (v, s) := by
  induction hv generalizing fuel s with
  | @null depth =>
    obtain ⟨fuel, rfl⟩ := exists_fuel (@Written.null depth) hfuel
    rfl
  | @bool depth b =>
    obtain ⟨fuel, rfl⟩ := exists_fuel (@Written.bool depth b) hfuel
    cases b <;> rfl
  | @posInt depth n hn =>
    obtain ⟨fuel, rfl⟩ := exists_fuel (@Written.posInt depth n hn) hfuel
    obtain ⟨c, digits, hdigits⟩ := List.exists_cons_of_ne_nil (Nat.toDigits_ne_nil (b := 10) (n := n))
    have hdigit := Nat.isDigit_of_mem_toDigits (b := 10) (n := n) (c := c) (by decide) (by decide)
      (by simp [hdigits])
    have hnat : value (.PosInt n) ++ s = c :: (digits ++ s) := by rw [value, nat, hdigits]; rfl
    rw [hnat, readValue_of_isDigit fuel hdigit, ← hnat, value, readNat_nat n hs]
    rfl
  | @negInt depth n hpos hn =>
    obtain ⟨fuel, rfl⟩ := exists_fuel (@Written.negInt depth n hpos hn) hfuel
    rw [value, List.cons_append, readValue, readNat_nat n hs]
    rfl
  | @text depth text =>
    obtain ⟨fuel, rfl⟩ := exists_fuel (@Written.text depth text) hfuel
    have hstring : string text ++ s = '"' :: (text.toList.flatMap escape ++ ('"' :: s)) := by
      simp [string]
    rw [value, hstring, readValue, ← hstring, readString_string]
    rfl
  | @array _ values hvalues ih =>
    obtain ⟨fuel, rfl⟩ := exists_fuel (.array hvalues) hfuel
    cases values with
    | nil => rfl
    | cons v values =>
      have htext : value (.Array (v :: values)) = '[' :: (value v ++ tail value ']' values) := by
        simp [value, elements, elements_comma]
      rw [htext] at hfuel ⊢
      rw [List.cons_append, List.append_assoc,
        readValue_array fuel (head?_value (hvalues v List.mem_cons_self) _),
        readSeq_tail (by decide) (by decide)]
      · rfl
      · intro b hb s hs
        have hlength := length_item_le value ']' hb
        rw [List.length_cons] at hfuel
        exact ih b hb (by omega) hs
      · have := length_lt_tail value ']' values
        simp
        omega
  | @object _ fields hnames hfields ih =>
    obtain ⟨fuel, rfl⟩ := exists_fuel (.object hnames hfields) hfuel
    cases fields with
    | nil => rfl
    | cons field fields =>
      have htext : value (.Object (field :: fields)) =
          '\x7b' :: (member field ++ tail member '\x7d' fields) := by
        simp [value, members, members_comma, key, member]
      rw [htext] at hfuel ⊢
      rw [List.cons_append, List.append_assoc, readValue, readSeq_tail (by decide) (by decide)]
      · rfl
      · intro b hb s hs
        have hlength := length_item_le member '\x7d' hb
        have hmember : (value b.2).length ≤ (member b).length := by
          simp only [member, List.length_append, List.length_cons]
          omega
        rw [List.length_cons] at hfuel
        have hvalue : readValue fuel (value b.2 ++ s) = some (b.2, s) := ih b hb (by omega) hs
        simp [readMember, member, str.strip_prefix, hvalue]
      · have := length_lt_tail member '\x7d' fields
        simp
        omega
      · simp [member, string]

/-- The text of a value is one value. -/
theorem fromStr_value {depth : Nat} {v : Value} (hv : Written depth v) : fromStr (value v) = .ok v := by
  have hread := readValue_value hv le_rfl (s := []) (by simp [Ends])
  rw [List.append_nil] at hread
  rw [fromStr, hread]

end json

/-- What the program relies on in `serde_json::from_str`: the text that the serializer wrote is read
    back, up to the recursion limit of 128. An object is listed in the order of its text; the crate
    sorts its names, but nothing looks at their order. What is made of any other text is left
    open. -/
def Crates.ReadsBack (crates : Crates) : Prop :=
  ∀ v, json.Written 127 v → crates.from_str (json.value v) = .ok v

/-- Libraries that read exactly the serializer's layout. -/
def Crates.layout : Crates := { (default : Crates) with from_str := json.fromStr }

theorem Crates.layout_readsBack : Crates.layout.ReadsBack := fun _ hv => json.fromStr_value hv
