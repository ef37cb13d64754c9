import Ulpf.Core.Parser.Csv
import Ulpf.Lib.Ascii
import Ulpf.Lib.Quoted

open Result

namespace ulpf_core.parser.extractors

namespace split_csv

/-- The variables of the loop. -/
structure Scan where
  fields : List (List Char)
  in_quotes : Bool
  dirty : Bool
  start : Nat
  i : Nat
  deriving DecidableEq

def Scan.new : Scan := ⟨[], false, false, 0, 0⟩

/-- One turn of the loop. -/
def turn (input : List Char) (scan : Scan) : Result Scan :=
  let bytes := str.bytes input
  if bytes[scan.i]? = some QUOTE ∧ scan.in_quotes ∧ bytes[scan.i + 1]? = some QUOTE then
    ok { scan with dirty := true, i := scan.i + 2 }
  else if bytes[scan.i]? = some QUOTE then
    ok { scan with dirty := true, in_quotes := !scan.in_quotes, i := scan.i + 1 }
  else if bytes[scan.i]? = some COMMA ∧ !scan.in_quotes then do
    let field ← str.slice input scan.start scan.i
    ok { scan with
      fields := scan.fields ++ [finish_csv_field field scan.dirty]
      start := scan.i + 1
      dirty := false
      i := scan.i + 1 }
  else ok { scan with i := scan.i + 1 }

/-- `while i < bytes.len()`, for so many turns at most. -/
def turns (input : List Char) : Nat → Scan → Result Scan
  | 0, scan => ok scan
  | fuel + 1, scan =>
    if scan.i < (str.bytes input).length then do
      let scan ← turn input scan
      turns input fuel scan
    else ok scan

/-- The variables at the end of the loop. Each turn moves on, so one for each byte is enough. -/
def scan (input : List Char) : Result Scan := turns input (str.bytes input).length Scan.new

/-- The last field is pushed behind the loop. -/
def finish (input : List Char) (scan : Scan) : Result (List (List Char)) := do
  let field ← str.slice_from input scan.start
  ok (scan.fields ++ [finish_csv_field field scan.dirty])

/-- The loop over the bytes that are left is the run of the turns that are left. -/
theorem loop_eq_turns (input : List Char) (fuel : Nat) (scan : Scan)
    (hfuel : (str.bytes input).length ≤ scan.i + fuel) :
    loop input ((str.bytes input).drop scan.i) false scan.i scan.start scan.in_quotes scan.dirty
      scan.fields = turns input fuel scan >>= finish input := by
  induction fuel generalizing scan with
  | zero =>
    rw [Nat.add_zero] at hfuel
    rw [List.drop_eq_nil_of_le hfuel]
    rfl
  | succ fuel ih =>
    by_cases hlt : scan.i < (str.bytes input).length
    · have hget := List.getElem?_eq_getElem hlt
      rw [turns, if_pos hlt, turn, List.drop_eq_getElem_cons hlt, loop, if_neg Bool.false_ne_true,
        List.head?_drop]
      simp only [hget, Option.some_inj]
      split_ifs with hpair hquote hcut
      · -- The second quote of a pair is passed over.
        have hnext := List.getElem?_eq_some_iff.mp hpair.2.2
        rw [List.drop_eq_getElem_cons hnext.choose, loop, if_pos rfl]
        exact ih { scan with dirty := true, i := scan.i + 2 } (by simp only; omega)
      · exact ih { scan with dirty := true, in_quotes := !scan.in_quotes, i := scan.i + 1 }
          (by simp only; omega)
      · cases hslice : str.slice input scan.start scan.i with
        | panic => rfl
        | ok field =>
          exact ih { scan with fields := _, start := scan.i + 1, dirty := false, i := scan.i + 1 }
            (by simp only; omega)
      · exact ih { scan with i := scan.i + 1 } (by simp only; omega)
    · rw [turns, if_neg hlt, List.drop_eq_nil_of_le (Nat.not_lt.mp hlt)]
      rfl

/-- The loop is in quotes and starts its field where the bytes before its position say. -/
structure InStep (input : List Char) (scan : Scan) : Prop where
  le : scan.i ≤ (str.bytes input).length
  reads : quoted.Reads QUOTE COMMA ((str.bytes input).take scan.i) scan.in_quotes scan.start

theorem InStep.new (input : List Char) : InStep input Scan.new where
  le := Nat.zero_le _
  reads := quoted.Reads.nil

section

variable {input : List Char} {scan scan' : Scan}

/-- A turn moves on by one byte, or by the two quotes of a pair. -/
theorem InStep.turn (h : InStep input scan) (hlt : scan.i < (str.bytes input).length)
    (hturn : turn input scan = ok scan') : InStep input scan' ∧ scan.i < scan'.i := by
  have hne : QUOTE ≠ COMMA := by decide
  have htake : (str.bytes input).take (scan.i + 1) =
      (str.bytes input).take scan.i ++ (str.bytes input)[scan.i]?.toList := List.take_add_one
  unfold split_csv.turn at hturn
  dsimp only at hturn
  split_ifs at hturn with hpair hquote hcut
  · obtain ⟨hfirst, -, hsecond⟩ := hpair
    cases hturn
    refine ⟨⟨(List.getElem?_eq_some_iff.mp hsecond).choose, ?_⟩, by simp only; omega⟩
    rw [List.take_add_one (i := scan.i + 1), htake, hfirst, hsecond, List.append_assoc]
    exact h.reads.concat_quote_quote hne
  · cases hturn
    refine ⟨⟨hlt, ?_⟩, Nat.lt_succ_self _⟩
    rw [htake, hquote]
    exact h.reads.concat_quote hne
  · obtain ⟨field, -, hscan⟩ := bind_eq_ok_iff.mp hturn
    cases hscan
    have houtside : scan.in_quotes = false := by simpa using hcut.2
    have hreads := h.reads
    rw [houtside] at hreads
    have hnext := hreads.concat_sep hne
    rw [List.length_take_of_le h.le] at hnext
    refine ⟨⟨hlt, ?_⟩, Nat.lt_succ_self _⟩
    rw [htake, hcut.1, houtside]
    exact hnext
  · cases hturn
    refine ⟨⟨hlt, ?_⟩, Nat.lt_succ_self _⟩
    have hget := List.getElem?_eq_getElem hlt
    rw [hget, Option.some_inj] at hquote hcut
    rw [htake, hget]
    refine h.reads.concat_other hquote fun hcomma => ?_
    simpa [hcomma] using hcut

/-- Every state of the loop is in step, and enough turns go to the end. -/
theorem InStep.turns {fuel : Nat} (h : InStep input scan) (hturns : turns input fuel scan = ok scan') :
    InStep input scan' ∧
      ((str.bytes input).length ≤ scan.i + fuel → scan'.i = (str.bytes input).length) := by
  induction fuel generalizing scan with
  | zero =>
    cases hturns
    exact ⟨h, fun hfuel => Nat.le_antisymm h.le hfuel⟩
  | succ fuel ih =>
    rw [split_csv.turns] at hturns
    split_ifs at hturns with hlt
    · obtain ⟨next, hturn, hturns⟩ := bind_eq_ok_iff.mp hturns
      obtain ⟨hnext, hmoved⟩ := h.turn hlt hturn
      obtain ⟨hscan, hend⟩ := ih hnext hturns
      exact ⟨hscan, fun hfuel => hend (by omega)⟩
    · cases hturns
      exact ⟨h, fun _ => Nat.le_antisymm h.le (Nat.not_lt.mp hlt)⟩

end

end split_csv

theorem split_csv_eq_scan (input : List Char) :
    split_csv input = split_csv.scan input >>= split_csv.finish input :=
  split_csv.loop_eq_turns input _ split_csv.Scan.new (Nat.le_add_left _ _)

/-- The loop gets to the end of every text, and the rest of the text from `start` on is the last
    field. -/
theorem split_csv.exists_scan (input : List Char) : ∃ scan field, split_csv.scan input = ok scan ∧
    scan.i = str.len input ∧ split_csv.InStep input scan ∧
    str.slice_from input scan.start = ok field ∧
    split_csv input = ok (scan.fields ++ [finish_csv_field field scan.dirty]) := by
  have hsplit := split_csv_eq_scan input
  rw [split_csv_eq] at hsplit
  obtain ⟨scan, hscan, hfinish⟩ := bind_eq_ok_iff.mp hsplit.symm
  obtain ⟨field, hfield, hfields⟩ := bind_eq_ok_iff.mp hfinish
  obtain ⟨hstep, hend⟩ := (split_csv.InStep.new input).turns hscan
  refine ⟨scan, field, hscan, ?_, hstep, hfield, ?_⟩
  · rw [hend (Nat.le_add_left _ _), str.length_bytes]
  · rw [split_csv_eq, hfields]

end ulpf_core.parser.extractors
