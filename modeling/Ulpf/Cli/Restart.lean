import Ulpf.Ai.Onboarder.Json
import Ulpf.Ai.Onboarder.RoundTrip
import Ulpf.Cli.Onboard

open Result last_write
open ulpf_ai.onboarder
open ulpf_cli.serve.handlers

namespace ulpf_cli.serve.state

/-- A request together with what it meets. -/
structure OnboardCall where
  payload : OnboardRequest
  around : Surroundings

namespace OnboardCall

def samples (self : OnboardCall) : List (List Char) := clean_samples self.payload.sample_lines

/-- The name of the files of a call. -/
def slug (crates : OnboarderCrates) (self : OnboardCall) : List Char :=
  vendor_slug crates.toCrates self.payload.vendor

/-- The key of the registry of a call. -/
def key (crates : OnboarderCrates) (self : OnboardCall) : String :=
  String.ofList (crates.to_lowercase self.payload.vendor.toList) ++ ":" ++ self.payload.device_model

/-- The two calls have the same files exactly if they have the same key. -/
def Agree (crates : OnboarderCrates) (earlier later : OnboardCall) : Prop :=
  earlier.slug crates = later.slug crates ↔ earlier.key crates = later.key crates

instance (crates : OnboarderCrates) : Std.Symm (Agree crates) where
  symm _ _ h := eq_comm.trans (h.trans eq_comm)

end OnboardCall

/-- Confirmed onboardings that all succeed, from an empty directory and without an error of the
    file system. -/
inductive Onboards (crates : OnboarderCrates) : List OnboardCall → ParserStore → Prop where
  | start (parsers_dir : String) : Onboards crates [] ⟨parsers_dir, .new, ∅⟩
  | confirmed {calls : List OnboardCall} {store store' : ParserStore} {call : OnboardCall}
      {response : OnboardResponse} (hcalls : Onboards crates calls store)
      (hconfirm : call.payload.confirm = true) (hjson : call.around.json_write = .Done)
      (hyaml : call.around.yaml_write = .Done)
      (hpost : post_onboard crates call.around store call.payload =
        ok (.ok (.CREATED, response), store')) :
      Onboards crates (calls ++ [call]) store'

/-- A listing of a directory, in any order, all of whose files can be read. -/
def Lists (files : HashMap String (List Char)) (entries : List DirEntry) : Prop :=
  (entries.map fun entry => (entry.name, entry.content)).Perm
      (files.entries.map fun file => (file.1, some file.2)) ∧
    ∀ entry ∈ entries, entry.is_file = true

/-- What an onboarding leaves behind. -/
structure Saved where
  parser : ParserExport
  json : List Char
  yaml : List Char

def Saved.contents (self : Saved) : Contents := self.parser.toParserDefinition.contents

/-- The name of the files of a definition. -/
def slot (crates : OnboarderCrates) (contents : Contents) : List Char :=
  vendor_slug crates.toCrates contents.vendor

structure SavedBy (crates : OnboarderCrates) (call : OnboardCall) (saved : Saved) : Prop where
  generated : ∃ report, Onboarder.generateParser crates call.around.now_ms call.payload.vendor
    call.payload.device_model call.samples = ok (.ok (saved.parser, report))
  json : ParserDefinition.to_json crates saved.parser
    (call.around.order saved.parser.action_mappings) = .ok saved.json
  yaml : saved.yaml = ParserDefinition.to_yaml crates saved.parser
    (call.around.order saved.parser.action_mappings)

section

variable {crates : OnboarderCrates}

theorem SavedBy.slot_eq {call : OnboardCall} {saved : Saved} (h : SavedBy crates call saved) :
    slot crates saved.contents = call.slug crates := by
  obtain ⟨report, hgenerated⟩ := h.generated
  obtain ⟨pattern, -, hparser⟩ := Onboarder.generateParser_eq_ok hgenerated
  rw [slot, Saved.contents, hparser]
  rfl

theorem SavedBy.key_eq {call : OnboardCall} {saved : Saved} (h : SavedBy crates call saved) :
    saved.contents.key crates.toCrates = call.key crates := by
  obtain ⟨report, hgenerated⟩ := h.generated
  obtain ⟨pattern, -, hparser⟩ := Onboarder.generateParser_eq_ok hgenerated
  rw [Saved.contents, hparser]
  rfl

/-- What a confirmed onboarding that succeeds does. -/
theorem post_onboard_created {call : OnboardCall} {store store' : ParserStore}
    {response : OnboardResponse} (hconfirm : call.payload.confirm = true)
    (hjson : call.around.json_write = .Done) (hyaml : call.around.yaml_write = .Done)
    (hpost : post_onboard crates call.around store call.payload =
      ok (.ok (.CREATED, response), store')) :
    ∃ saved, SavedBy crates call saved ∧
      store'.registry =
        (store.registry.register crates.toCrates saved.parser.toParserDefinition).2 ∧
      store'.files = (store.files.insert (json_file (slot crates saved.contents)) saved.json).insert
        (yaml_file (slot crates saved.contents)) saved.yaml := by
  unfold post_onboard at hpost
  dsimp only at hpost
  split at hpost
  · cases hpost
  obtain ⟨generated, hgenerated, hpost⟩ := bind_eq_ok_iff.mp hpost
  split at hpost
  · cases hpost
  rename_i parser_def report
  split at hpost
  · cases hpost
  rename_i json_str hjson_str
  rw [hjson, hyaml] at hpost
  dsimp only at hpost
  have hsaved : SavedBy crates call ⟨parser_def, json_str,
      ParserDefinition.to_yaml crates parser_def (call.around.order parser_def.action_mappings)⟩ :=
    ⟨⟨report, hgenerated⟩, hjson_str, rfl⟩
  refine ⟨_, hsaved, ?_⟩
  rw [hsaved.slot_eq]
  cases hpost
  exact ⟨rfl, rfl⟩

theorem vendor_slug_ne_nil (crates : Crates) (vendor : String) : vendor_slug crates vendor ≠ [] := by
  unfold vendor_slug
  dsimp only
  split
  · decide
  · rename_i htrim
    intro hnil
    rw [hnil] at htrim
    exact htrim rfl

theorem json_file_injective : Function.Injective json_file := fun _ _ h =>
  List.append_cancel_right (String.ofList_injective h)

theorem yaml_file_injective : Function.Injective yaml_file := fun _ _ h =>
  List.append_cancel_right (String.ofList_injective h)

theorem json_file_ne_yaml_file (a b : List Char) : json_file a ≠ yaml_file b := by
  intro h
  have hlast := congrArg List.getLast? (String.ofList_injective h)
  rw [List.getLast?_append, List.getLast?_append] at hlast
  have hletter : some 'n' = some 'l' := hlast
  exact absurd hletter (by decide)

/-- The registry and the files after a sequence of onboardings. -/
structure Stored (crates : OnboarderCrates) (saved : List Saved) (store : ParserStore) : Prop where
  registry : store.registry = DynamicParserRegistry.register_all crates.toCrates
    (saved.map fun save => save.parser.toParserDefinition)
  json : ∀ slug, store.files.lookup (json_file slug) =
    (latest (fun save => slot crates save.contents) saved slug).map Saved.json
  yaml : ∀ slug, store.files.lookup (yaml_file slug) =
    (latest (fun save => slot crates save.contents) saved slug).map Saved.yaml
  only : ∀ name text, store.files.lookup name = some text → ∃ save ∈ saved,
    name = json_file (slot crates save.contents) ∨ name = yaml_file (slot crates save.contents)

theorem Stored.concat {saved : List Saved} {store store' : ParserStore} (h : Stored crates saved store)
    (save : Saved)
    (hregistry : store'.registry =
      (store.registry.register crates.toCrates save.parser.toParserDefinition).2)
    (hfiles : store'.files = (store.files.insert (json_file (slot crates save.contents)) save.json).insert
      (yaml_file (slot crates save.contents)) save.yaml) :
    Stored crates (saved ++ [save]) store' := by
  constructor
  · rw [hregistry, h.registry, List.map_append, List.map_singleton,
      DynamicParserRegistry.register_all_concat]
  · intro slug
    rw [hfiles, AList.lookup_insert_ne (json_file_ne_yaml_file _ _), latest_concat]
    split
    · rename_i hslug
      subst hslug
      exact AList.lookup_insert _
    · rename_i hslug
      rw [AList.lookup_insert_ne fun heq => hslug (json_file_injective heq).symm, h.json]
  · intro slug
    rw [hfiles, latest_concat]
    split
    · rename_i hslug
      subst hslug
      exact AList.lookup_insert _
    · rename_i hslug
      rw [AList.lookup_insert_ne fun heq => hslug (yaml_file_injective heq).symm,
        AList.lookup_insert_ne (Ne.symm (json_file_ne_yaml_file _ _)), h.yaml]
  · intro name text htext
    by_cases hyaml : name = yaml_file (slot crates save.contents)
    · exact ⟨save, by simp, .inr hyaml⟩
    by_cases hjson : name = json_file (slot crates save.contents)
    · exact ⟨save, by simp, .inl hjson⟩
    rw [hfiles, AList.lookup_insert_ne hyaml, AList.lookup_insert_ne hjson] at htext
    obtain ⟨earlier, hearlier, hname⟩ := h.only name text htext
    exact ⟨earlier, List.mem_append_left _ hearlier, hname⟩

/-- Every run has such a history. -/
theorem Onboards.exists_saved {calls : List OnboardCall} {store : ParserStore}
    (h : Onboards crates calls store) :
    ∃ saved, Stored crates saved store ∧ List.Forall₂ (SavedBy crates) calls saved := by
  induction h with
  | start parsers_dir =>
    refine ⟨[], ⟨rfl, fun slug => rfl, fun slug => rfl, fun name text htext => ?_⟩, .nil⟩
    cases htext
  | confirmed _ hconfirm hjson hyaml hpost ih =>
    obtain ⟨saved, hstored, hcalls⟩ := ih
    obtain ⟨save, hsave, hregistry, hfiles⟩ := post_onboard_created hconfirm hjson hyaml hpost
    exact ⟨saved ++ [save], hstored.concat save hregistry hfiles,
      List.rel_append hcalls (.cons hsave .nil)⟩

theorem exists_savedBy {calls : List OnboardCall} {saved : List Saved}
    (h : List.Forall₂ (SavedBy crates) calls saved) {save : Saved} (hsave : save ∈ saved) :
    ∃ call ∈ calls, SavedBy crates call save := by
  induction h with
  | nil => cases hsave
  | cons hby _ ih =>
    rcases List.mem_cons.mp hsave with rfl | hsave
    · exact ⟨_, List.mem_cons_self, hby⟩
    · obtain ⟨call, hcall, hby⟩ := ih hsave
      exact ⟨call, List.mem_cons_of_mem _ hcall, hby⟩

/-- The definition that an entry of the directory gives. -/
def DirEntry.parser (crates : OnboarderCrates) (self : DirEntry) : Option ParserDefinition :=
  if self.is_file then do
    let ext ← str.extension self.name.toList
    let content ← self.content
    if ext = str.lit "json" then
      (ParserDefinition.from_json crates content).toOption.map ParserExport.toParserDefinition
    else if ext = str.lit "yaml" ∨ ext = str.lit "yml" then
      (ParserDefinition.from_yaml crates self.now_ms content).toOption.map
        ParserExport.toParserDefinition
    else none
  else none

theorem load_entry_eq (registry : DynamicParserRegistry) (entry : DirEntry) :
    load_entry crates registry entry =
      match entry.parser crates with
      | some parser => (registry.register crates.toCrates parser).2
      | none => registry := by
  unfold load_entry DirEntry.parser
  split
  · cases hext : str.extension entry.name.toList with
    | none => rfl
    | some ext =>
      cases hcontent : entry.content with
      | none => simp
      | some content =>
        dsimp only [Option.bind_eq_bind, Option.bind_some]
        split
        · unfold DynamicParserRegistry.load_from_json
          cases ParserDefinition.from_json crates content <;> rfl
        · split
          · unfold DynamicParserRegistry.load_from_yaml
            cases ParserDefinition.from_yaml crates entry.now_ms content <;> rfl
          · rfl
  · rfl

/-- Loading a directory is registering the definitions of its entries. -/
theorem load_registry_eq (entries : List DirEntry) :
    AppState.load_registry crates entries = DynamicParserRegistry.register_all crates.toCrates
      (entries.filterMap (DirEntry.parser crates)) := by
  have hfold : ∀ registry : DynamicParserRegistry, entries.foldl (load_entry crates) registry =
      (entries.filterMap (DirEntry.parser crates)).foldl
        (fun registry parser => (registry.register crates.toCrates parser).2) registry := by
    induction entries with
    | nil => exact fun registry => rfl
    | cons entry entries ih =>
      intro registry
      rw [List.foldl_cons, ih, load_entry_eq]
      cases hparser : entry.parser crates with
      | none => rw [List.filterMap_cons_none hparser]
      | some parser => rw [List.filterMap_cons_some hparser, List.foldl_cons]
  exact hfold _

theorem Lists.mem {files : HashMap String (List Char)} {entries : List DirEntry}
    (h : Lists files entries) {entry : DirEntry} (hentry : entry ∈ entries) :
    ∃ text, files.lookup entry.name = some text ∧ entry.content = some text ∧
      entry.is_file = true := by
  have hmem := h.1.mem_iff.mp (List.mem_map_of_mem hentry)
  obtain ⟨file, hfile, heq⟩ := List.mem_map.mp hmem
  obtain ⟨hname, hcontent⟩ := Prod.mk.inj heq
  exact ⟨file.2, hname ▸ AList.mem_lookup_iff.mpr hfile, hcontent.symm, h.2 entry hentry⟩

theorem Lists.exists_mem {files : HashMap String (List Char)} {entries : List DirEntry}
    (h : Lists files entries) {name : String} {text : List Char}
    (hfile : files.lookup name = some text) : ∃ entry ∈ entries, entry.name = name := by
  have hmem : (name, some text) ∈ files.entries.map fun file => (file.1, some file.2) :=
    List.mem_map.mpr ⟨⟨name, text⟩, AList.mem_lookup_iff.mp hfile, rfl⟩
  obtain ⟨entry, hentry, heq⟩ := List.mem_map.mp (h.1.mem_iff.mpr hmem)
  exact ⟨entry, hentry, (Prod.mk.inj heq).1⟩

theorem extension_json_file {slug : List Char} (hslug : slug ≠ []) :
    str.extension (json_file slug).toList = some (str.lit "json") := by
  rw [json_file, String.toList_ofList]
  exact str.extension_append hslug (by decide)

theorem extension_yaml_file {slug : List Char} (hslug : slug ≠ []) :
    str.extension (yaml_file slug).toList = some (str.lit "yaml") := by
  rw [yaml_file, String.toList_ofList]
  exact str.extension_append hslug (by decide)

theorem SavedBy.contents_from_json {call : OnboardCall} {save : Saved}
    (h : SavedBy crates call save) :
    ∃ read, ParserDefinition.from_json crates save.json = .ok read ∧
      read.toParserDefinition.contents = save.contents := by
  have hjson := h.json
  unfold ParserDefinition.to_json at hjson
  split at hjson
  · rename_i text htext
    cases hjson
    obtain ⟨read, hread, hcontents⟩ := crates.definition_round_trip _ _ _ htext
    exact ⟨read, by rw [ParserDefinition.from_json, hread], hcontents⟩
  · cases hjson

/-- A run of requests that all can go through YAML, with what they saved. -/
structure History (crates : OnboarderCrates) (calls : List OnboardCall) (saved : List Saved)
    (store : ParserStore) : Prop where
  stored : Stored crates saved store
  saved_by : List.Forall₂ (SavedBy crates) calls saved
  safe : ∀ call ∈ calls, Onboarder.YamlSafe crates call.payload.vendor call.payload.device_model
    call.samples
  capacity : (calls.map (OnboardCall.key crates)).toFinset.card ≤ REGISTRY_CAPACITY

namespace History

variable {calls : List OnboardCall} {saved : List Saved} {store : ParserStore}
  {entries : List DirEntry}

/-- Each file gives the last definition saved under its name. -/
theorem parser_of_entry (h : History crates calls saved store) (hentries : Lists store.files entries)
    {entry : DirEntry} (hentry : entry ∈ entries) :
    ∃ save parser, entry.parser crates = some parser ∧ parser.contents = save.contents ∧
      latest (fun save => slot crates save.contents) saved (slot crates save.contents) = some save ∧
      (entry.name = json_file (slot crates save.contents) ∨
        entry.name = yaml_file (slot crates save.contents)) := by
  obtain ⟨text, htext, hcontent, hfile⟩ := hentries.mem hentry
  obtain ⟨named, hnamed, hname⟩ := h.stored.only _ _ htext
  obtain ⟨save, hlatest⟩ := exists_latest (fun save => slot crates save.contents) hnamed
  obtain ⟨hsave, hslot⟩ := mem_of_latest hlatest
  obtain ⟨call, hcall, hby⟩ := exists_savedBy h.saved_by hsave
  rw [← hslot] at hname hlatest
  have hslug : slot crates save.contents ≠ [] := vendor_slug_ne_nil _ _
  rcases hname with hname | hname
  · rw [hname, h.stored.json, hlatest] at htext
    obtain ⟨read, hread, hcontents⟩ := hby.contents_from_json
    refine ⟨save, read.toParserDefinition, ?_, hcontents, hlatest, .inl hname⟩
    rw [DirEntry.parser, if_pos hfile, hname, extension_json_file hslug, hcontent,
      ← Option.some.inj htext]
    dsimp only [Option.bind_eq_bind, Option.bind_some]
    rw [if_pos rfl, hread]
    rfl
  · rw [hname, h.stored.yaml, hlatest] at htext
    obtain ⟨report, hgenerated⟩ := hby.generated
    obtain ⟨read, hread, hcontents⟩ := (h.safe call hcall).contents_from_yaml hgenerated
      (call.around.order save.parser.action_mappings) entry.now_ms
    refine ⟨save, read.toParserDefinition, ?_, hcontents, hlatest, .inr hname⟩
    rw [DirEntry.parser, if_pos hfile, hname, extension_yaml_file hslug, hcontent,
      ← Option.some.inj htext, hby.yaml]
    dsimp only [Option.bind_eq_bind, Option.bind_some]
    rw [if_neg (by decide), if_pos (.inl rfl), hread]
    rfl

/-- Definitions with the contents of saved ones have no more keys than the calls. -/
theorem card_keys_le (h : History crates calls saved store) {parsers : List ParserDefinition}
    (hparsers : ∀ parser ∈ parsers, ∃ save ∈ saved, parser.contents = save.contents) :
    (DynamicParserRegistry.keys crates.toCrates parsers).card ≤ REGISTRY_CAPACITY := by
  refine (Finset.card_le_card fun key hkey => ?_).trans h.capacity
  simp only [DynamicParserRegistry.keys, List.mem_toFinset, List.mem_map] at hkey ⊢
  obtain ⟨parser, hparser, rfl⟩ := hkey
  obtain ⟨save, hsave, hcontents⟩ := hparsers parser hparser
  obtain ⟨call, hcall, hby⟩ := exists_savedBy h.saved_by hsave
  exact ⟨call, hcall, by rw [hcontents, hby.key_eq]⟩

theorem live (h : History crates calls saved store) :
    DynamicParserRegistry.LastOf crates.toCrates
      (saved.map fun save => save.parser.toParserDefinition) store.registry := by
  rw [h.stored.registry]
  refine DynamicParserRegistry.lastOf_register_all (h.card_keys_le fun parser hparser => ?_)
  obtain ⟨save, hsave, rfl⟩ := List.mem_map.mp hparser
  exact ⟨save, hsave, rfl⟩

theorem loaded (h : History crates calls saved store) (hentries : Lists store.files entries) :
    DynamicParserRegistry.LastOf crates.toCrates (entries.filterMap (DirEntry.parser crates))
      (AppState.load_registry crates entries) := by
  rw [load_registry_eq]
  refine DynamicParserRegistry.lastOf_register_all (h.card_keys_le fun parser hparser => ?_)
  obtain ⟨entry, hentry, hparser⟩ := List.mem_filterMap.mp hparser
  obtain ⟨save, read, hread, hcontents, hlatest, -⟩ := h.parser_of_entry hentries hentry
  obtain rfl := Option.some.inj (hread.symm.trans hparser)
  exact ⟨save, (mem_of_latest hlatest).1, hcontents⟩

/-- What is loaded is the last of what was saved under its name. -/
theorem latest_of_loaded (h : History crates calls saved store)
    (hentries : Lists store.files entries) {contents : Contents}
    (hcontents : contents ∈ (entries.filterMap (DirEntry.parser crates)).map
      ParserDefinition.contents) :
    latest (slot crates) (saved.map Saved.contents) (slot crates contents) = some contents := by
  obtain ⟨parser, hparser, rfl⟩ := List.mem_map.mp hcontents
  obtain ⟨entry, hentry, hparser⟩ := List.mem_filterMap.mp hparser
  obtain ⟨save, read, hread, hread_contents, hlatest, -⟩ := h.parser_of_entry hentries hentry
  obtain rfl := Option.some.inj (hread.symm.trans hparser)
  rw [hread_contents, latest_map, hlatest]
  rfl

/-- Nothing that was saved is missing under its name. -/
theorem exists_loaded (h : History crates calls saved store) (hentries : Lists store.files entries)
    {contents : Contents} (hcontents : contents ∈ saved.map Saved.contents) :
    ∃ read ∈ (entries.filterMap (DirEntry.parser crates)).map ParserDefinition.contents,
      slot crates read = slot crates contents := by
  obtain ⟨save, hsave, rfl⟩ := List.mem_map.mp hcontents
  obtain ⟨last, hlast⟩ := exists_latest (fun save => slot crates save.contents) hsave
  have hfile : store.files.lookup (json_file (slot crates save.contents)) = some last.json := by
    rw [h.stored.json, hlast]
    rfl
  obtain ⟨entry, hentry, hname⟩ := hentries.exists_mem hfile
  obtain ⟨named, parser, hparser, hparser_contents, -, hnamed⟩ := h.parser_of_entry hentries hentry
  refine ⟨parser.contents, List.mem_map_of_mem (List.mem_filterMap.mpr ⟨entry, hentry, hparser⟩), ?_⟩
  rw [hparser_contents]
  rcases hnamed with hnamed | hnamed
  · exact json_file_injective (hnamed.symm.trans hname)
  · exact absurd (hname.symm.trans hnamed) (json_file_ne_yaml_file _ _)

/-- Requests that their file names and their keys tell apart alike. -/
theorem agree (h : History crates calls saved store)
    (hagree : calls.Pairwise (OnboardCall.Agree crates)) :
    ∀ a ∈ saved.map Saved.contents, ∀ b ∈ saved.map Saved.contents,
      slot crates a = slot crates b ↔ a.key crates.toCrates = b.key crates.toCrates := by
  have hcalls : ∀ ⦃a⦄, a ∈ calls → ∀ ⦃b⦄, b ∈ calls → OnboardCall.Agree crates a b :=
    List.Pairwise.forall_of_forall (fun _ _ => iff_of_true rfl rfl) hagree
  intro a ha b hb
  obtain ⟨save, hsave, rfl⟩ := List.mem_map.mp ha
  obtain ⟨save', hsave', rfl⟩ := List.mem_map.mp hb
  obtain ⟨call, hcall, hby⟩ := exists_savedBy h.saved_by hsave
  obtain ⟨call', hcall', hby'⟩ := exists_savedBy h.saved_by hsave'
  rw [hby.slot_eq, hby'.slot_eq, hby.key_eq, hby'.key_eq]
  exact hcalls hcall hcall'

end History

end

/-- Confirmed onboardings survive a restart: in every run in which each request can go through
    YAML, and has the file name of an earlier one exactly if it has its key, the registry that is
    loaded from the directory has the keys of the live one and the same definitions under them. -/
theorem onboardings_survive_restart (crates : OnboarderCrates) {calls : List OnboardCall}
    {store : ParserStore} (hrun : Onboards crates calls store)
    (hcapacity : (calls.map (OnboardCall.key crates)).toFinset.card ≤ REGISTRY_CAPACITY)
    (hsafe : ∀ call ∈ calls, Onboarder.YamlSafe crates call.payload.vendor
      call.payload.device_model call.samples)
    (hagree : calls.Pairwise (OnboardCall.Agree crates))
    {entries : List DirEntry} (hentries : Lists store.files entries) (key : String) :
    (AppState.load_registry crates entries).answer key = store.registry.answer key := by
  obtain ⟨saved, hstored, hsaved⟩ := hrun.exists_saved
  have h : History crates calls saved store := ⟨hstored, hsaved, hsafe, hcapacity⟩
  rw [h.live.answer, (h.loaded hentries).answer, List.map_map]
  exact latest_reload (slot crates) (h.agree hagree) (fun _ => h.latest_of_loaded hentries)
    (fun _ => h.exists_loaded hentries) key

/-- A flow in the notation of Juniper. -/
def flowLine : List Char := str.lit "10.0.0.1/80->10.0.0.2/443"

/-- What the two patterns match in that line; its two optional groups take no part. -/
def flowCaptures (pattern : String) (text : List Char) : List Captures :=
  let groups := [some (0, 25), some (0, 8), some (9, 11), some (13, 21), some (22, 25)]
  if text = flowLine then
    if pattern = String.ofList Onboarder.re_flow_slash then [⟨groups⟩]
    else if pattern = String.ofList Onboarder.slash_pattern then [⟨groups ++ [none, none]⟩]
    else []
  else []

theorem mem_flowCaptures {pattern : String} {text : List Char} {captures : Captures}
    (h : captures ∈ flowCaptures pattern text) :
    text = flowLine ∧ captures.range 0 = some (0, 25) ∧
      ∀ range, some range ∈ captures.groups →
        range ∈ [(0, 25), (0, 8), (9, 11), (13, 21), (22, 25)] := by
  unfold flowCaptures at h
  dsimp only at h
  split at h
  · refine ⟨‹_›, ?_⟩
    split at h
    · obtain rfl := List.mem_singleton.mp h
      exact ⟨rfl, by simp⟩
    split at h
    · obtain rfl := List.mem_singleton.mp h
      exact ⟨rfl, by simp⟩
    · cases h
  · cases h

theorem aligned_flowCaptures (pattern : String) (text : List Char) :
    ∀ captures ∈ flowCaptures pattern text, captures.Aligned text := by
  intro captures hcaptures range hrange
  obtain ⟨rfl, -, hranges⟩ := mem_flowCaptures hcaptures
  have hmem := hranges range hrange
  simp only [List.mem_cons, List.not_mem_nil, or_false] at hmem
  rcases hmem with rfl | rfl | rfl | rfl | rfl <;> exact ⟨_, rfl⟩

/-- There is never a second match. -/
theorem ordered_flowCaptures (pattern : String) (text : List Char) :
    (flowCaptures pattern text).Pairwise fun a b =>
      ∀ range ∈ a.range 0, ∀ later ∈ b.range 0, range.2 ≤ later.1 := by
  unfold flowCaptures
  dsimp only
  split
  · split
    · exact List.pairwise_singleton _ _
    split
    · exact List.pairwise_singleton _ _
    · exact .nil
  · exact .nil

/-- Libraries that know the line. -/
def flowCrates : OnboarderCrates where
  is_alphanumeric := Char.isAlphanum
  to_lowercase := List.map Char.toLower
  format_fixed2 _ := "1.00"
  regex_new _ := true
  captures_iter := flowCaptures
  captures_aligned := aligned_flowCaptures
  captures_whole _ _ captures hcaptures := by
    rw [(mem_flowCaptures hcaptures).2.1]
    rfl
  captures_ordered := ordered_flowCaptures
  capture_names _ := [none, some "src_ip", some "src_port", some "dst_ip", some "dst_port",
    some "protocol", some "action"]
  from_str _ := .error ""
  to_string _ := ""
  parse_from_str _ _ := none
  parse_from_rfc3339 _ := none
  to_string_pretty parser order := some (ParserDefinition.pretty parser order.entries)
  from_str_definition := ParserDefinition.readPretty
  definition_round_trip parser order text htext := by
    cases htext
    refine ⟨_, ParserDefinition.readPretty_pretty parser order.entries, ?_⟩
    simp only [ParserDefinition.contents, ParserDefinition.lookup_iteration]
  definition_not_letter c text hc := ParserDefinition.readPretty_letter hc text
  ip_from_str text := text ∈ [str.lit "10.0.0.1", str.lit "10.0.0.2"]
  parse_f64 _ := some 1
  format_fixed1 _ := "100.0"
  format_fixed2_one := rfl
  format_debug _ := "[]"

theorem synthesize_flowLine :
    Onboarder.synthesize_regex flowCrates [flowLine, flowLine, flowLine] =
      .ok Onboarder.slash_pattern := by
  have hflow : Onboarder.is_flow flowLine = true := by decide
  have hmatch : Onboarder.is_match flowCrates.toCrates Onboarder.re_flow_slash flowLine = true := rfl
  have hjuniper : (str.lit "RT_FLOW").isPrefixOf flowLine = false := by decide
  simp only [Onboarder.synthesize_regex, Onboarder.synthesize_flow_regex, List.headD_cons, hflow,
    hmatch, hjuniper, if_true, Bool.false_eq_true, if_false]

theorem captures_flowLine :
    flowCrates.captures (String.ofList Onboarder.slash_pattern) flowLine =
      some ⟨[some (0, 25), some (0, 8), some (9, 11), some (13, 21), some (22, 25), none, none]⟩ := by
  have hne : String.ofList Onboarder.slash_pattern ≠ String.ofList Onboarder.re_flow_slash := by
    intro h
    have hhead := congrArg List.head? (String.ofList_injective h)
    have hchar : some '^' = some '(' := hhead
    exact absurd hchar (by decide)
  have hiter : flowCaptures (String.ofList Onboarder.slash_pattern) flowLine =
      [⟨[some (0, 25), some (0, 8), some (9, 11), some (13, 21), some (22, 25), none, none]⟩] := by
    unfold flowCaptures
    dsimp only
    rw [if_pos rfl, if_neg hne, if_pos rfl]
    rfl
  have hfield : flowCrates.captures_iter = flowCaptures := rfl
  rw [Crates.captures, hfield, hiter, List.head?_cons]

theorem validate_flowLine (idx : Nat) :
    Onboarder.validate_sample flowCrates (String.ofList Onboarder.slash_pattern) idx flowLine =
      ok none := by
  have hnames : flowCrates.capture_names (String.ofList Onboarder.slash_pattern) =
    [none, some "src_ip", some "src_port", some "dst_ip", some "dst_port", some "protocol",
      some "action"] := rfl
  unfold Onboarder.validate_sample
  simp only [captures_flowLine, capture_name, hnames]
  rfl

theorem generate_flowLine (now_ms : Int) (vendor device_model : String) :
    ∃ parser report, Onboarder.generateParser flowCrates now_ms vendor device_model
      [flowLine, flowLine, flowLine] = ok (.ok (parser, report)) :=
  Onboarder.exists_generated_of_validate rfl synthesize_flowLine (by decide) (by decide)
    validate_flowLine now_ms vendor device_model

/-- A confirmed request with three such lines. -/
def flowCall (vendor device_model : String) : OnboardCall where
  payload := ⟨vendor, device_model, [flowLine, flowLine, flowLine], true⟩
  around := ⟨0, fun map => ⟨map.entries.map fun entry => (entry.1, entry.2), .refl _⟩, .Done, .Done⟩

theorem samples_flowCall (vendor device_model : String) :
    (flowCall vendor device_model).samples = [flowLine, flowLine, flowLine] := by
  have hclean : clean_samples [flowLine, flowLine, flowLine] = [flowLine, flowLine, flowLine] := by
    decide
  exact hclean

theorem Onboards.flowCall {calls : List OnboardCall} {store : ParserStore}
    (h : Onboards flowCrates calls store) (vendor device_model : String) :
    ∃ store', Onboards flowCrates (calls ++ [flowCall vendor device_model]) store' := by
  obtain ⟨parser, report, hgenerated⟩ := generate_flowLine 0 vendor device_model
  have hpost : ∃ response store', post_onboard flowCrates (state.flowCall vendor device_model).around
      store (state.flowCall vendor device_model).payload =
        ok (.ok (.CREATED, response), store') := by
    have hsamples : clean_samples (state.flowCall vendor device_model).payload.sample_lines =
        [flowLine, flowLine, flowLine] := samples_flowCall vendor device_model
    unfold post_onboard
    rw [hsamples, if_neg (by decide), state.flowCall, hgenerated]
    exact ⟨_, _, rfl⟩
  obtain ⟨response, store', hpost⟩ := hpost
  exact ⟨store', h.confirmed rfl rfl rfl hpost⟩

/-- A directory as it is. -/
def listing (files : HashMap String (List Char)) : List DirEntry :=
  files.entries.map fun file => ⟨file.1, true, some file.2, 0⟩

theorem lists_listing (files : HashMap String (List Char)) : Lists files (listing files) := by
  constructor
  · rw [listing, List.map_map]
    exact .refl _
  · intro entry hentry
    obtain ⟨file, -, rfl⟩ := List.mem_map.mp hentry
    rfl

/-- Texts of the wizard that can go through YAML. -/
theorem yamlSafe_flowCall {vendor device_model : String} (hvendor : '\n' ∉ vendor.toList)
    (hvendor_quotes : ParserDefinition.Unquoted vendor.toList) (hmodel : '\n' ∉ device_model.toList)
    (hmodel_quotes : ParserDefinition.Unquoted device_model.toList) :
    Onboarder.YamlSafe flowCrates (flowCall vendor device_model).payload.vendor
      (flowCall vendor device_model).payload.device_model
      (flowCall vendor device_model).samples := by
  rw [samples_flowCall]
  refine ⟨hvendor, hvendor_quotes, hmodel, hmodel_quotes, ?_, ?_⟩
  · have hline : '\n' ∉ flowLine := by decide
    simp [hline]
  · have hflow : Onboarder.is_flow flowLine = true := by decide
    have hmatch : Onboarder.is_match flowCrates.toCrates Onboarder.re_flow_slash flowLine = true :=
      rfl
    simp only [Onboarder.QuoteFree, List.headD_cons, hflow, hmatch, if_true, true_or]

/-- Two vendors with one device model each. -/
theorem onboardings_survive_restart_two_vendors :
    ∃ store, Onboards flowCrates [flowCall "acme" "m1", flowCall "bolt" "m1"] store ∧
      ∀ key, (AppState.load_registry flowCrates (listing store.files)).answer key =
        store.registry.answer key := by
  have hstart : Onboards flowCrates [] ⟨"parsers", .new, ∅⟩ := .start "parsers"
  obtain ⟨middle, hfirst⟩ := hstart.flowCall "acme" "m1"
  obtain ⟨store, hrun⟩ := hfirst.flowCall "bolt" "m1"
  refine ⟨store, hrun, fun key => ?_⟩
  refine onboardings_survive_restart flowCrates hrun (by decide) ?_ ?_ (lists_listing store.files) key
  · intro call hcall
    rcases List.mem_pair.mp hcall with rfl | rfl
    · exact yamlSafe_flowCall (by decide) ⟨by decide, by decide⟩ (by decide) ⟨by decide, by decide⟩
    · exact yamlSafe_flowCall (by decide) ⟨by decide, by decide⟩ (by decide) ⟨by decide, by decide⟩
  · have hslug : (flowCall "acme" "m1").slug flowCrates ≠ (flowCall "bolt" "m1").slug flowCrates := by
      decide
    have hkey : (flowCall "acme" "m1").key flowCrates ≠ (flowCall "bolt" "m1").key flowCrates := by
      decide
    exact List.pairwise_pair.mpr (iff_of_false hslug hkey)

/-- The second device model of a vendor takes the file of the first, which is gone after a
    restart. -/
theorem restart_loses_first_model :
    ∃ store, Onboards flowCrates [flowCall "acme" "m1", flowCall "acme" "m2"] store ∧
      ([flowCall "acme" "m1", flowCall "acme" "m2"].map
        (OnboardCall.key flowCrates)).toFinset.card ≤ REGISTRY_CAPACITY ∧
      Lists store.files (listing store.files) ∧
      store.registry.answer "acme:m1" ≠ none ∧
      (AppState.load_registry flowCrates (listing store.files)).answer "acme:m1" = none := by
  have hstart : Onboards flowCrates [] ⟨"parsers", .new, ∅⟩ := .start "parsers"
  obtain ⟨middle, hfirst⟩ := hstart.flowCall "acme" "m1"
  obtain ⟨store, hrun⟩ := hfirst.flowCall "acme" "m2"
  have hcapacity : ([flowCall "acme" "m1", flowCall "acme" "m2"].map
      (OnboardCall.key flowCrates)).toFinset.card ≤ REGISTRY_CAPACITY := by decide
  have hentries := lists_listing store.files
  obtain ⟨saved, hstored, hsaved⟩ := hrun.exists_saved
  have h : History flowCrates [flowCall "acme" "m1", flowCall "acme" "m2"] saved store := by
    refine ⟨hstored, hsaved, fun call hcall => ?_, hcapacity⟩
    rcases List.mem_pair.mp hcall with rfl | rfl
    · exact yamlSafe_flowCall (by decide) ⟨by decide, by decide⟩ (by decide) ⟨by decide, by decide⟩
    · exact yamlSafe_flowCall (by decide) ⟨by decide, by decide⟩ (by decide) ⟨by decide, by decide⟩
  obtain ⟨first, rest, hby_first, hrest, rfl⟩ := List.forall₂_cons_left_iff.mp hsaved
  obtain ⟨second, rest, hby_second, hnil, rfl⟩ := List.forall₂_cons_left_iff.mp hrest
  obtain rfl := List.forall₂_nil_left_iff.mp hnil
  have hkey : (flowCall "acme" "m1").key flowCrates = "acme:m1" ∧
      (flowCall "acme" "m2").key flowCrates = "acme:m2" := by decide
  refine ⟨store, hrun, hcapacity, hentries, ?_, ?_⟩
  · rw [h.live.answer, Ne, latest_eq_none_iff]
    intro hnone
    exact hnone first.contents (by simp [Saved.contents]) (hby_first.key_eq.trans hkey.1)
  · rw [(h.loaded hentries).answer, latest_eq_none_iff]
    intro contents hcontents hfirst
    -- under the name of the files only the second definition is left
    have hlatest := h.latest_of_loaded hentries hcontents
    have hslot : slot flowCrates second.contents = slot flowCrates contents := by
      obtain ⟨hmem, -⟩ := mem_of_latest hlatest
      rcases List.mem_pair.mp hmem with rfl | rfl
      · rw [hby_second.slot_eq, hby_first.slot_eq]
        rfl
      · rfl
    have hlast : latest (slot flowCrates) ([first.contents] ++ [second.contents])
        (slot flowCrates contents) = some second.contents := by
      rw [latest_concat, if_pos hslot]
    obtain rfl := Option.some.inj (hlatest.symm.trans hlast)
    rw [hby_second.key_eq, hkey.2] at hfirst
    exact absurd hfirst (by decide)

end ulpf_cli.serve.state
