import Ulpf.Core.Parser.WellFormed
import Ulpf.Ai.Pipeline.System
import Ulpf.Cli.Provenance

open Result
open ulpf_core.schema.ocsf
open ulpf_core.parser
open ulpf_core.parser.extractors
open ulpf_ai.onboarder
open ulpf_integrity.merkle (Digest Hash)

namespace ulpf_ai.onboarder

open Option (Fits)

theorem ParserDefinition.fits_parse_protocol (text : Option (List Char)) :
    (parse_protocol text).protocol_num.Fits 8 := by
  unfold parse_protocol
  split
  · exact Fits.none
  · rename_i text
    have hnumber := Fits.parse_uint 8 (str.trim text)
    dsimp only
    split
    · rename_i num hnum
      rw [hnum] at hnumber
      exact hnumber
    · exact fits_protocol_num_from_name _

theorem ParserDefinition.derive_activity_id_mem (raw_action norm_disp : String) :
    derive_activity_id raw_action norm_disp ∈ activity_id.ALL := by
  unfold derive_activity_id
  split
  case h_7 => exact List.ite_mem (by decide) (by decide) _
  all_goals decide

section
variable {H : Type} [Digest H] {crates : Crates} {raw : List Char} {event : NetworkActivity}

/-- A dynamic parser may map an action to any text, so its disposition need not be one of the
    schema. -/
theorem ParserDefinition.wellFormed_of_parse_with_regex {reading : Reading}
    {self : ParserDefinition} {compiled_re : String}
    (h : self.parse_with_regex H crates reading compiled_re raw = ok (.ok event)) :
    event.WellFormed := by
  unfold parse_with_regex at h
  split at h
  · cases h
  dsimp only at h
  -- the ten groups with a field of their own, and the others
  iterate 11 obtain ⟨_, -, h⟩ := bind_eq_ok_iff.mp h
  cases h
  exact NetworkActivity.wellFormed_new (derive_activity_id_mem _ _)
    (Fits.bind (Fits.parse_uint 16) _) (Fits.bind (Fits.parse_uint 16) _)
    (fits_parse_protocol _) ..

end

end ulpf_ai.onboarder

namespace ulpf_ai.pipeline

/-- The event of a call: well formed, about the line of the call, and with a disposition of the
    schema unless a dynamic parser made it. -/
structure Sound (H : Type) [Digest H] (raw : List Char) (origin : Origin) (event : NetworkActivity) :
    Prop where
  wellFormed : event.WellFormed
  traces : Traces H raw event
  standard : origin ≠ .Dynamic → event.Standard

/-- The event that a call has in hand, and where it came from. -/
def ProcessPc.event : ProcessPc → Option (Origin × NetworkActivity)
  | .Promote _ event => some (.Native, event)
  | .InsertRoute _ event | .CountInserted _ event => some (.Dynamic, event)
  | .Returned origin event => some (origin, event)
  | _ => none

section
variable {H : Type} [Digest H] {crates : Crates} {raw : List Char} {event : NetworkActivity}

theorem sound_of_parse_with_format {reading : Reading} {format : classifier.VendorFormat}
    (h : UniversalParser.parse_with_format H crates reading raw format = ok (.ok event)) :
    Sound H raw .Native event where
  wellFormed := (UniversalParser.conforms_of_parse_with_format h).wellFormed
  traces := UniversalParser.traces_of_parse_with_format h
  standard _ := (UniversalParser.conforms_of_parse_with_format h).standard

theorem sound_of_parse_lossless {reading fallback : Reading}
    (h : UniversalParser.parse_lossless H crates reading fallback raw = ok event) :
    Sound H raw .Lossless event where
  wellFormed := (UniversalParser.conforms_of_parse_lossless h).wellFormed
  traces := UniversalParser.traces_of_parse_lossless h
  standard _ := (UniversalParser.conforms_of_parse_lossless h).standard

theorem sound_of_parse_with_regex {reading : Reading}
    (h : ∃ (parser : ParserDefinition) (re : String),
      parser.parse_with_regex H crates reading re raw = ok (.ok event)) :
    Sound H raw .Dynamic event := by
  obtain ⟨parser, re, h⟩ := h
  exact ⟨ParserDefinition.wellFormed_of_parse_with_regex h,
    ParserDefinition.traces_of_parse_with_regex h, fun hdynamic => absurd rfl hdynamic⟩

theorem AfterDispatch.event_pc (raw : List Char) (after : AfterDispatch) :
    (after.pc raw).event = none := by
  cases after with
  | ParseCached format => rfl
  | ParsePinned =>
    rw [AfterDispatch.pc]
    split <;> rfl

variable {ι : Type} {me : Holder ι} {call : ProcessCall} {s s' : Shared ι} {pc pc' : ProcessPc}

/-- A step makes an event of the line of its call, or hands on the one it has. -/
theorem process_step_event (hstep : process_step H crates me call s pc = some (pc', s'))
    {origin : Origin} (hevent : pc'.event = some (origin, event)) :
    pc.event = some (origin, event) ∨ Sound H call.raw origin event := by
  cases pc with
  | Start | LoadBudget | LoadRoutes | CountRemoved | CountHit =>
    simp only [process_step] at hstep
    first
    | cases hstep; cases hevent
    | split at hstep <;> cases hstep <;> cases hevent
  | Lookup =>
    simp only [process_step] at hstep
    cases hstep
    split at hevent <;> cases hevent
  | Dispatch template dispatch after =>
    simp only [process_step] at hstep
    split at hstep
    · cases hstep
      cases hevent
    · cases hstep
      rw [AfterDispatch.event_pc] at hevent
      cases hevent
  | ParseCached format =>
    simp only [process_step] at hstep
    split at hstep
    · rename_i hparsed
      cases hstep
      cases hevent
      exact .inr (sound_of_parse_with_format hparsed)
    all_goals cases hstep; cases hevent
  | GetRoute =>
    simp only [process_step] at hstep
    split at hstep
    · split at hstep
      · split at hstep <;> cases hstep <;> cases hevent
      · cases hstep
        cases hevent
    · cases hstep
  | ParseRoute key =>
    simp only [process_step] at hstep
    split at hstep
    · cases hstep
      cases hevent
    split at hstep
    · rename_i hparsed
      cases hstep
      cases hevent
      exact .inr (sound_of_parse_with_regex (DynamicParserRegistry.exists_of_parse_key hparsed))
    all_goals cases hstep; cases hevent
  | RemoveRoute =>
    simp only [process_step] at hstep
    split at hstep <;> cases hstep
    cases hevent
  | Mine =>
    simp only [process_step] at hstep
    split at hstep <;> cases hstep <;> cases hevent
  | ParseNative format =>
    simp only [process_step] at hstep
    split at hstep
    · rename_i hparsed
      cases hstep
      cases hevent
      exact .inr (sound_of_parse_with_format hparsed)
    all_goals cases hstep; cases hevent
  | Promote format event' =>
    simp only [process_step] at hstep
    cases hstep
    exact .inl hevent
  | ParseAny =>
    simp only [process_step] at hstep
    split at hstep
    · cases hstep
      cases hevent
    split at hstep
    · rename_i hparsed
      cases hstep
      cases hevent
      exact .inr (sound_of_parse_with_regex
        (DynamicParserRegistry.exists_of_parse_any_keyed hparsed))
    all_goals cases hstep; cases hevent
  | InsertRoute key event' =>
    simp only [process_step] at hstep
    split at hstep <;> cases hstep
    exact .inl hevent
  | CountInserted inserted event' =>
    simp only [process_step] at hstep
    cases hstep
    exact .inl hevent
  | ParseLossless =>
    simp only [process_step] at hstep
    split at hstep
    · rename_i hparsed
      cases hstep
      cases hevent
      exact .inr (sound_of_parse_lossless hparsed)
    · cases hstep
      cases hevent
  | Returned | Panicked => cases hstep

end

section
variable {ι : Type} [DecidableEq ι] {H : Type} [Digest H] {crates : Crates} {triage : Triage}
  {s s' : System ι}

/-- Every event in the hands of a thread is that of its own call. -/
def EventsSound (H : Type) [Digest H] (s : System ι) : Prop :=
  ∀ i call pc origin event, s.threads i = .Running call pc → pc.event = some (origin, event) →
    Sound H call.raw origin event

/-- One thread goes on, whatever happens to what the threads share. -/
theorem EventsSound.update (h : EventsSound H s) {i : ι} {thread : Thread}
    (hthread : ∀ call pc origin event, thread = .Running call pc →
      pc.event = some (origin, event) → Sound H call.raw origin event) (shared' : Shared ι) :
    EventsSound H { s with shared := shared', threads := Function.update s.threads i thread } := by
  intro j call pc origin event hrunning hevent
  dsimp only at hrunning
  by_cases hj : j = i
  · subst hj
    rw [Function.update_self] at hrunning
    exact hthread call pc origin event hrunning hevent
  · rw [Function.update_of_ne hj] at hrunning
    exact h j call pc origin event hrunning hevent

theorem EventsSound.step (h : EventsSound H s) (hstep : Step H crates triage s s') :
    EventsSound H s' := by
  cases hstep with
  | call i call hidle =>
    refine h.update (fun _ _ _ _ hrunning hevent => ?_) _
    cases hrunning
    cases hevent
  | process i call pc pc' shared' hrunning hprocess =>
    refine h.update (fun _ _ origin event hthread hevent => ?_) _
    cases hthread
    obtain hsame | hsound := process_step_event hprocess hevent
    · exact h i call pc origin event hrunning hsame
    · exact hsound
  | returned i call origin event hreturned =>
    refine h.update (fun _ _ _ _ hrunning _ => ?_) _
    cases hrunning
  | worker | registry | poison => exact h

theorem Reachable.eventsSound (h : Reachable H crates triage s) : EventsSound H s := by
  obtain ⟨capacity, hrun⟩ := h
  induction hrun with
  | refl =>
    intro i call pc origin event hthread
    cases hthread
  | tail _ hstep ih => exact ih.step hstep

/-- Whatever the other threads, the worker and the users of the registry do, an event that a call
    returns is well formed, has the line of this call and its digest, and a disposition of the
    schema unless a dynamic parser made it. -/
theorem returned_event_sound (hreachable : Reachable H crates triage s) {i : ι} {call : ProcessCall}
    {origin : Origin} {event : NetworkActivity}
    (hreturned : s.threads i = .Running call (.Returned origin event)) :
    event.WellFormed ∧ Traces H call.raw event ∧ (origin ≠ .Dynamic → event.Standard) :=
  have hsound := hreachable.eventsSound i call _ origin event hreturned rfl
  ⟨hsound.wellFormed, hsound.traces, hsound.standard⟩

end

theorem returned_event_sound_fortinet_line :
    ∃ (s : System Unit) (call : ProcessCall) (origin : Origin) (event : NetworkActivity),
      Reachable Hash default ⟨fun _ => none, fun _ _ _ => none⟩ s ∧
      s.threads () = .Running call (.Returned origin event) ∧ call.raw = str.lit "x devname=" ∧
      event.WellFormed ∧ event.metadata.raw_data = "x devname=" := by
  obtain ⟨s, call, origin, event, hreachable, hthread, hraw, -⟩ := exists_returned_fortinet_line
  obtain ⟨hwellFormed, htraces, -⟩ := returned_event_sound hreachable hthread
  refine ⟨s, call, origin, event, hreachable, hthread, hraw, hwellFormed, ?_⟩
  rw [htraces.raw_data, hraw]
  rfl

end ulpf_ai.pipeline
