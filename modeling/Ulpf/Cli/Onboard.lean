import Ulpf.Ai.Onboarder.Register
import Ulpf.Ai.Onboarder.Yaml
import Ulpf.Cli.Prove

open Result last_write
open ulpf_ai.onboarder
open ulpf_integrity.batcher (path_join)

namespace ulpf_cli.serve.handlers

/-- The HTTP statuses of an onboarding. -/
inductive OnboardStatus where
  | OK
  | CREATED
  | BAD_REQUEST
  | UNPROCESSABLE_ENTITY
  | INTERNAL_SERVER_ERROR
  deriving DecidableEq, Repr

def OnboardStatus.as_u16 : OnboardStatus → Nat
  | OK => 200
  | CREATED => 201
  | BAD_REQUEST => 400
  | UNPROCESSABLE_ENTITY => 422
  | INTERNAL_SERVER_ERROR => 500

structure OnboardRequest where
  vendor : String
  device_model : String
  sample_lines : List (List Char)
  confirm : Bool

structure OnboardResponse where
  status : String
  persisted : Bool
  vendor : String
  device_model : String
  parser_definition : ParserExport
  validation_report : ValidationReport
  json_path : Option String
  yaml_path : Option String
  message : String

/-- How `std::fs::write` ends. A write that fails may leave a part of the text behind. -/
inductive Write where
  | Done
  | Failed (error : String) (left : Option (List Char))

/-- What a request meets: the clock, the order of hash maps and the file system. -/
structure Surroundings where
  now_ms : Int
  order : (map : HashMap String String) → Iteration map
  json_write : Write
  yaml_write : Write

/-- The registry of the server, and the files of `parsers_dir`. -/
structure ParserStore where
  parsers_dir : String
  registry : DynamicParserRegistry
  files : HashMap String (List Char)

def write_file (files : HashMap String (List Char)) (name : String) (text : List Char) :
    Write → HashMap String (List Char)
  | .Done => files.insert name text
  | .Failed _ (some left) => files.insert name left
  | .Failed _ none => files

/-- The sample lines that are not blank. -/
def clean_samples (sample_lines : List (List Char)) : List (List Char) :=
  (sample_lines.map str.trim).filter fun sample => !sample.isEmpty

/-- The name that the files of a vendor get. -/
def vendor_slug (crates : Crates) (vendor : String) : List Char :=
  let slug := (crates.to_lowercase vendor.toList).map fun c =>
    if c.isAlphanum || c = '_' || c = '-' then c else '_'
  if str.trim_matches (· = '_') slug = [] then str.lit "custom_vendor" else slug

def json_file (slug : List Char) : String := String.ofList (slug ++ str.lit ".json")

def yaml_file (slug : List Char) : String := String.ofList (slug ++ str.lit ".yaml")

def onboard_error (status : OnboardStatus) (error message : String) :
    OnboardStatus × ErrorResponse :=
  (status, ⟨error, status.as_u16, message, none, none⟩)

/-- `POST /onboard`. The YAML form is always produced, and whether it is written is ignored. -/
def post_onboard (crates : OnboarderCrates) (around : Surroundings) (state : ParserStore)
    (payload : OnboardRequest) :
    Result (Except (OnboardStatus × ErrorResponse) (OnboardStatus × OnboardResponse) × ParserStore) :=
  let samples := clean_samples payload.sample_lines
  if samples.length < 3 then
    ok (.error (onboard_error .BAD_REQUEST "Insufficient Samples"
      s!"Air-gapped parser synthesis requires at least 3 distinct sample lines (received {samples.length})"),
      state)
  else do
    let generated ←
      Onboarder.generateParser crates around.now_ms payload.vendor payload.device_model samples
    match generated with
    | .error e => ok (.error (onboard_error .UNPROCESSABLE_ENTITY "Synthesis Failed"
        s!"Failed to synthesize parser specification: {e}"), state)
    | .ok (parser_def, report) =>
      if payload.confirm then
        let slug := vendor_slug crates.toCrates payload.vendor
        let order := around.order parser_def.action_mappings
        match ParserDefinition.to_json crates parser_def order with
        | .error e => ok (.error (onboard_error .INTERNAL_SERVER_ERROR "Serialization Error"
            s!"Failed serializing parser to JSON: {e}"), state)
        | .ok json_str =>
          let yaml_str := ParserDefinition.to_yaml crates parser_def order
          let files := write_file state.files (json_file slug) json_str around.json_write
          match around.json_write with
          | .Failed e _ => ok (.error (onboard_error .INTERNAL_SERVER_ERROR "Disk Write Error"
              s!"Failed writing parser JSON to disk: {e}"), { state with files })
          | .Done =>
            let files := write_file files (yaml_file slug) yaml_str around.yaml_write
            let (_, registry) :=
              state.registry.register crates.toCrates parser_def.toParserDefinition
            ok (.ok (.CREATED,
              { status := "hot_loaded"
                persisted := true
                vendor := payload.vendor
                device_model := payload.device_model
                parser_definition := parser_def
                validation_report := report
                json_path := some (path_join state.parsers_dir (json_file slug))
                yaml_path := some (path_join state.parsers_dir (yaml_file slug))
                message := "Parser hot-loaded into active memory and written to disk." }),
              { state with registry, files })
      else
        ok (.ok (.OK,
          { status := "preview"
            persisted := false
            vendor := payload.vendor
            device_model := payload.device_model
            parser_definition := parser_def
            validation_report := report
            json_path := none
            yaml_path := none
            message :=
              "Parser synthesized successfully (Preview mode: confirm=false, no files written)." }),
          state)

end ulpf_cli.serve.handlers

namespace ulpf_cli.serve.state

/-- An entry of a directory and what reading it gives, at the time of the reading. -/
structure DirEntry where
  name : String
  is_file : Bool
  content : Option (List Char)
  now_ms : Int

/-- One turn of the loop over `parsers_dir`. -/
def load_entry (crates : OnboarderCrates) (registry : DynamicParserRegistry) (entry : DirEntry) :
    DynamicParserRegistry :=
  if entry.is_file then
    match str.extension entry.name.toList with
    | some ext =>
      if ext = str.lit "json" then
        match entry.content with
        | some content => (registry.load_from_json crates content).2
        | none => registry
      else if ext = str.lit "yaml" ∨ ext = str.lit "yml" then
        match entry.content with
        | some content => (registry.load_from_yaml crates entry.now_ms content).2
        | none => registry
      else registry
    | none => registry
  else registry

/-- The registry of `AppState::new`, from the entries in the order of the listing. -/
def AppState.load_registry (crates : OnboarderCrates) (entries : List DirEntry) :
    DynamicParserRegistry :=
  entries.foldl (load_entry crates) .new

end ulpf_cli.serve.state
