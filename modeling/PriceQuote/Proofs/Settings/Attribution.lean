import Mathlib
import PriceQuote.Command.Basic
import PriceQuote.Proofs.Command.Report
import PriceQuote.Proofs.Settings.Layers
import PriceQuote.Proofs.Settings.Lookup
import PriceQuote.Proofs.Settings.Template
import PriceQuote.Proofs.Toml.Present

/-!
# Where settings are told to come from

A variable is always told where it supplies a setting. The file is told by its text before any
variable is put in, so that it is told rightly exactly where that text defines a setting just as the
filled-in text does.

* `IsSupplied`: the layer that supplies a setting;
* `IsWritten`, `IsLoaded`: the file defines a setting before and after variables are put in;
* `IsPlain`, `isWritten_iff_isLoaded`: files for which that makes no difference;
* `attributions_supplied_iff`: what is told is right exactly as above.
-/

namespace PriceQuote

namespace Settings

variable {host : Host} {path : Option String} {settings : Settings} {key : Key}

/-! ## Where settings come from -/

/-- The layer that supplies a setting. -/
inductive IsSupplied (host : Host) (path : Option String) (settings : Settings) (key : Key) :
    Source → Prop
  | environment {name text : String} {value : key.Value} (hgiven : key.GivenBy host name text)
    (hreads : key.Reads text value) (hvalue : settings.value? key = some value) :
    IsSupplied host path settings key (.environment name)
  | file {file filled : String} {patch : Patch} (hnot : key.NotGiven host)
    (hchosen : IsChosen host path file) (hfills : Fills host file filled)
    (hparse : Patch.ofToml filled = .ok patch) (hset : patch.value? key ≠ none)
    (hvalue : settings.value? key = patch.value? key) :
    IsSupplied host path settings key (.file file)
  | default (hnot : key.NotGiven host)
    (hfile : ∀ layer, (LoadOptions.ofPath path).HasFile host layer → layer key = none)
    (hvalue : settings.value? key = defaults key) : IsSupplied host path settings key .default

/-- The file defines a setting before any variable is put in, read as a text of no certain form. -/
def IsWritten (host : Host) (path : Option String) (key : Key) : Prop :=
  ∃ file text document free, IsChosen host path file ∧ host.readText file = .ok text ∧
    Toml.document? text = some document ∧ Toml.freeForm? document = some free ∧ key.IsIn free

/-- The layer of the file has a value for a setting. -/
def IsLoaded (host : Host) (path : Option String) (key : Key) : Prop :=
  ∃ layer, (LoadOptions.ofPath path).HasFile host layer ∧ layer key ≠ none

/-! ## What is told -/

/-- A variable is told where it counts. -/
theorem source_of_givenBy {name text : String} (h : key.GivenBy host name text) :
    source host path key = .environment name := by
  simp only [source, fieldSource]
  rw [find?_nonBlank, Key.given?_eq_some_iff.mpr h]
  rfl

/-- Of the other settings, those that the file defines before any variable is put in are told to
come from it. -/
theorem source_of_notGiven (path : Option String) (h : key.NotGiven host) :
    (IsWritten host path key ∧
      ∃ file, IsChosen host path file ∧ source host path key = .file file) ∨
    (¬ IsWritten host path key ∧ source host path key = .default) := by
  simp only [source, fieldSource]
  rw [find?_nonBlank, Key.given?_eq_none_iff.mpr h]
  dsimp only [Option.map_none]
  split
  · rename_i hany
    obtain ⟨free, hfree, hin⟩ := (Option.any_eq_true _ _).mp hany
    obtain ⟨file, text, document, hchosen, htext, hdocument, hfree⟩ :=
      writtenDocument?_eq_some_iff.mp hfree
    have hin := containsPath_iff.mp hin
    refine .inl ⟨⟨file, text, document, free, hchosen, htext, hdocument, hfree, hin⟩, file,
      hchosen, ?_⟩
    rw [detectFile?_eq, file?_eq_some_iff.mpr hchosen]
    rfl
  · rename_i hany
    refine .inr ⟨?_, rfl⟩
    rintro ⟨file, text, document, free, hchosen, htext, hdocument, hfree, hin⟩
    refine hany ?_
    rw [writtenDocument?_eq_some_iff.mpr ⟨file, text, document, hchosen, htext, hdocument, hfree⟩]
    exact containsPath_iff.mpr hin

/-! ## What supplies a setting -/

theorem LoadOptions.HasFile.unique {options : LoadOptions} {layer layer' : Layer}
    (h : options.HasFile host layer) (h' : options.HasFile host layer') : layer = layer' := by
  obtain ⟨patch, rfl⟩ : ∃ patch : Patch, patch.value? = layer :=
    (Patch.exists_value? layer).imp fun _ => funext
  obtain ⟨patch', rfl⟩ : ∃ patch : Patch, patch.value? = layer' :=
    (Patch.exists_value? layer').imp fun _ => funext
  have hok := (ofFile_eq_ok_iff_hasFile.mpr h).symm.trans (ofFile_eq_ok_iff_hasFile.mpr h')
  rw [Except.ok.inj hok]

section

variable (h : load host (.ofPath path) = .ok settings)

include h

/-- Where only a file is asked for, settings come from the environment, the file and the defaults. -/
theorem exists_layers : ∃ file environment : Layer, (LoadOptions.ofPath path).HasFile host file ∧
    (∀ key : Key, key.Holds host (environment key)) ∧
    ∀ key, settings.value? key = (environment key <|> file key <|> defaults key) := by
  obtain ⟨file, environment, hfile, henvironment, hvalue⟩ :=
    layered_eq_ok_iff.mp (load_eq_ok_iff.mp h).1
  refine ⟨file, environment, hfile, henvironment, fun key => ?_⟩
  have hnone : (LoadOptions.ofPath path).overrides.value? key = none := by cases key <;> rfl
  rw [hvalue key, hnone]
  rfl

theorem exists_value?_of_givenBy {name text : String} (hgiven : key.GivenBy host name text) :
    ∃ x, key.Reads text x ∧ settings.value? key = some x := by
  obtain ⟨file, environment, -, henvironment, hvalue⟩ := exists_layers h
  obtain ⟨x, hx, henvironment⟩ :=
    (Key.holds_of_given?_eq_some (Key.given?_eq_some_iff.mpr hgiven)).mp (henvironment key)
  refine ⟨x, hx, ?_⟩
  rw [hvalue key, henvironment]
  rfl

theorem value?_of_notGiven (hnot : key.NotGiven host) {layer : Layer}
    (hfile : (LoadOptions.ofPath path).HasFile host layer) :
    settings.value? key = (layer key <|> defaults key) := by
  obtain ⟨file, environment, hfile', henvironment, hvalue⟩ := exists_layers h
  obtain rfl := hfile.unique hfile'
  have henvironment : environment key = none :=
    (Key.holds_of_given?_eq_none (Key.given?_eq_none_iff.mpr hnot)).mp (henvironment key)
  rw [hvalue key, henvironment]
  rfl

theorem exists_hasFile : ∃ layer, (LoadOptions.ofPath path).HasFile host layer := by
  obtain ⟨file, -, hfile, -⟩ := exists_layers h
  exact ⟨file, hfile⟩

theorem isSupplied_environment_iff {name : String} :
    IsSupplied host path settings key (.environment name) ↔
      ∃ text, key.GivenBy host name text := by
  constructor
  · rintro ⟨hgiven, -⟩
    exact ⟨_, hgiven⟩
  · rintro ⟨text, hgiven⟩
    obtain ⟨x, hreads, hvalue⟩ := exists_value?_of_givenBy h hgiven
    exact .environment hgiven hreads hvalue

/-- The chosen file supplies a setting where no variable does and its layer has a value. -/
theorem isSupplied_file_iff {file : String} :
    IsSupplied host path settings key (.file file) ↔
      key.NotGiven host ∧ IsChosen host path file ∧ IsLoaded host path key := by
  constructor
  · rintro (_ | ⟨hnot, hchosen, hfills, hparse, hset, -⟩)
    exact ⟨hnot, hchosen, _, .parsed hchosen hfills hparse, hset⟩
  · rintro ⟨hnot, hchosen, layer, hfile, hset⟩
    have hvalue := value?_of_notGiven h hnot hfile
    cases hfile with
    | nothing hnone => exact absurd rfl hset
    | parsed hchosen' hfills hparse =>
      obtain rfl := hchosen.unique hchosen'
      refine .file hnot hchosen hfills hparse hset ?_
      obtain ⟨x, hx⟩ := Option.ne_none_iff_exists'.mp hset
      rw [hvalue, hx]
      rfl

theorem isSupplied_default_iff :
    IsSupplied host path settings key .default ↔
      key.NotGiven host ∧ ¬ IsLoaded host path key := by
  constructor
  · rintro (_ | _ | ⟨hnot, hfile, -⟩)
    exact ⟨hnot, fun ⟨layer, hlayer, hset⟩ => hset (hfile layer hlayer)⟩
  · rintro ⟨hnot, hnotLoaded⟩
    have hfile : ∀ layer, (LoadOptions.ofPath path).HasFile host layer → layer key = none := by
      intro layer hlayer
      by_contra hset
      exact hnotLoaded ⟨layer, hlayer, hset⟩
    obtain ⟨layer, hlayer⟩ := exists_hasFile h
    refine .default hnot hfile ?_
    rw [value?_of_notGiven h hnot hlayer, hfile layer hlayer]
    rfl

/-- Each setting is supplied by one layer. -/
theorem exists_isSupplied (key : Key) : ∃ source, IsSupplied host path settings key source ∧
    ∀ other, IsSupplied host path settings key other → other = source := by
  obtain ⟨name, text, hgiven⟩ | hnot := key.givenBy_or_notGiven host
  · refine ⟨.environment name, (isSupplied_environment_iff h).mpr ⟨text, hgiven⟩, ?_⟩
    intro other hother
    cases hother with
    | environment hother => rw [(hother.unique hgiven).1]
    | file hnot => exact absurd hgiven (hnot _ _)
    | default hnot => exact absurd hgiven (hnot _ _)
  by_cases hloaded : IsLoaded host path key
  · have hfile : ∃ file, IsChosen host path file := by
      obtain ⟨layer, hlayer, hset⟩ := hloaded
      cases hlayer with
      | nothing => exact absurd rfl hset
      | parsed hchosen => exact ⟨_, hchosen⟩
    obtain ⟨file, hchosen⟩ := hfile
    refine ⟨.file file, (isSupplied_file_iff h).mpr ⟨hnot, hchosen, hloaded⟩, ?_⟩
    intro other hother
    cases hother with
    | environment hgiven => exact absurd hgiven (hnot _ _)
    | file _ hother => rw [hother.unique hchosen]
    | default _ hnone =>
      obtain ⟨layer, hlayer, hset⟩ := hloaded
      exact absurd (hnone layer hlayer) hset
  · refine ⟨.default, (isSupplied_default_iff h).mpr ⟨hnot, hloaded⟩, ?_⟩
    intro other hother
    cases hother with
    | environment hgiven => exact absurd hgiven (hnot _ _)
    | file _ hchosen hfills hparse hset =>
      exact absurd ⟨_, .parsed hchosen hfills hparse, hset⟩ hloaded
    | default => rfl

/-- What is told of a setting is right where a variable counts, and else exactly where the file
defines the setting before variables are put in just as it does after. -/
theorem isSupplied_source_iff (key : Key) :
    IsSupplied host path settings key (source host path key) ↔
      (∃ name text, key.GivenBy host name text) ∨
        (IsWritten host path key ↔ IsLoaded host path key) := by
  obtain ⟨name, text, hgiven⟩ | hnot := key.givenBy_or_notGiven host
  · rw [source_of_givenBy hgiven, isSupplied_environment_iff h]
    exact iff_of_true ⟨text, hgiven⟩ (.inl ⟨name, text, hgiven⟩)
  · have hnone : ¬ ∃ name text, key.GivenBy host name text := fun ⟨_, _, hgiven⟩ =>
      hnot _ _ hgiven
    rw [or_iff_right hnone]
    obtain ⟨hwritten, file, hchosen, hsource⟩ | ⟨hwritten, hsource⟩ :=
      source_of_notGiven path hnot
    · rw [hsource, isSupplied_file_iff h, iff_true_left hwritten]
      exact ⟨fun h => h.2.2, fun hloaded => ⟨hnot, hchosen, hloaded⟩⟩
    · rw [hsource, isSupplied_default_iff h, iff_false_left hwritten]
      exact ⟨fun h => h.2, fun hloaded => ⟨hnot, hloaded⟩⟩

end

/-! ## Plain files -/

/-- A file names no variable, it is read as the same document where nothing is laid down about its
form, and its sections are tables. -/
def IsPlain (host : Host) (file : String) : Prop :=
  ∃ text document, host.readText file = .ok text ∧ Template.IsLiteral text ∧
    Toml.document? text = some document ∧ Toml.freeForm? document = some document ∧
      ∀ (key : Key) (inner : Document), child? key.table document = some inner →
        ∃ entries closed, inner = .table entries closed

/-- What is under a key of something present is present. -/
theorem isPresent_child? {key : String} {document inner : Document} (h : document.IsPresent)
    (hinner : child? key document = some inner) : inner.IsPresent := by
  cases document with
  | table entries closed =>
    have hfield : (Document.table entries closed).field? 0 key = some inner := hinner
    exact Document.allLeaves_field? h hfield
  | _ => cases hinner

/-- A setting stands in its section under its name if that is a table. -/
theorem Key.isIn_iff_document? {document : Document}
    (htables : ∀ inner, child? key.table document = some inner →
      ∃ entries closed, inner = .table entries closed) :
    key.IsIn document ↔ ∃ entry, key.document? document = some entry := by
  constructor
  · rintro ⟨inner, entry, hinner, hentry⟩
    obtain ⟨entries, closed, rfl⟩ := htables inner hinner
    exact ⟨entry, Option.bind_eq_some_iff.mpr ⟨_, hinner, hentry⟩⟩
  · rintro ⟨entry, h⟩
    obtain ⟨inner, hinner, hentry⟩ := Option.bind_eq_some_iff.mp h
    obtain ⟨entries, closed, rfl⟩ := htables inner hinner
    exact ⟨_, entry, hinner, hentry⟩

/-- A document whose sections are tables sets what is in it, as long as nothing there is `null`. -/
theorem Key.IsSetIn.ne_none_iff {document : Document} {value : Option key.Value}
    (h : key.IsSetIn document value) (hpresent : document.IsPresent)
    (htables : ∀ inner, child? key.table document = some inner →
      ∃ entries closed, inner = .table entries closed) : value ≠ none ↔ key.IsIn document := by
  unfold IsSetIn Reader.ReadsIfFound at h
  rw [isIn_iff_document? htables]
  split at h
  · rename_i entry hentry
    refine iff_of_true ?_ ⟨entry, hentry⟩
    rintro rfl
    obtain rfl := Reader.optional_eq_none_iff.mp h
    obtain ⟨inner, hinner, hentry⟩ := Option.bind_eq_some_iff.mp hentry
    obtain ⟨entries, closed, rfl⟩ := htables inner hinner
    have hentry : child? key.name (.table entries closed) = some .null := hentry
    exact isPresent_child? (isPresent_child? hpresent hinner) hentry rfl
  · rename_i hentry
    refine iff_of_false (fun hne => hne h) ?_
    rintro ⟨entry, hsome⟩
    rw [hentry] at hsome
    cases hsome

/-- A plain file defines the same settings before and after variables are put in. -/
theorem isWritten_iff_isLoaded (h : load host (.ofPath path) = .ok settings)
    (hplain : ∀ file, IsChosen host path file → IsPlain host file) (key : Key) :
    IsWritten host path key ↔ IsLoaded host path key := by
  obtain ⟨layer, hlayer⟩ := exists_hasFile h
  have hloaded : IsLoaded host path key ↔ layer key ≠ none := by
    constructor
    · rintro ⟨other, hother, hset⟩
      exact hlayer.unique hother ▸ hset
    · exact fun hset => ⟨layer, hlayer, hset⟩
  rw [hloaded]
  cases hlayer with
  | nothing hnone =>
    refine iff_of_false ?_ fun hset => hset rfl
    rintro ⟨file, -, -, -, hchosen, -⟩
    exact hnone file hchosen
  | parsed hchosen hfills hparse =>
    obtain ⟨text, document, htext, hliteral, hdocument, hfree, htables⟩ := hplain _ hchosen
    obtain ⟨text', htext', hfill⟩ := hfills
    cases htext.symm.trans htext'
    cases (Template.fill_of_isLiteral hliteral).symm.trans hfill
    obtain ⟨document', hdocument', -, hset⟩ := Patch.isSetIn_of_ofToml hparse
    cases hdocument.symm.trans hdocument'
    rw [(hset key).ne_none_iff (Toml.isPresent_document? hdocument) (htables key)]
    constructor
    · rintro ⟨file, text', document', free, hchosen', htext', hdocument', hfree', hin⟩
      obtain rfl := hchosen.unique hchosen'
      cases htext.symm.trans htext'
      cases hdocument.symm.trans hdocument'
      cases hfree.symm.trans hfree'
      exact hin
    · exact fun hin => ⟨_, _, _, _, hchosen, htext, hdocument, hfree, hin⟩

/-! ## What is told of all settings -/

theorem source_eq_environment_iff {name : String} :
    source host path key = .environment name ↔ ∃ text, key.GivenBy host name text := by
  constructor
  · intro h
    obtain ⟨name', text, hgiven⟩ | hnot := key.givenBy_or_notGiven host
    · cases (source_of_givenBy hgiven).symm.trans h
      exact ⟨text, hgiven⟩
    · obtain ⟨-, file, -, hfile⟩ | ⟨-, hdefault⟩ := source_of_notGiven path hnot
      · cases h.symm.trans hfile
      · cases h.symm.trans hdefault
  · rintro ⟨text, hgiven⟩
    exact source_of_givenBy hgiven

/-- A file that is told is the one that is chosen. -/
theorem isChosen_of_source {file : String} (h : source host path key = .file file) :
    IsChosen host path file := by
  obtain ⟨name, text, hgiven⟩ | hnot := key.givenBy_or_notGiven host
  · cases h.symm.trans (source_of_givenBy hgiven)
  · obtain ⟨-, chosen, hchosen, hfile⟩ | ⟨-, hdefault⟩ := source_of_notGiven path hnot
    · cases h.symm.trans hfile
      exact hchosen
    · cases h.symm.trans hdefault

/-- A row of the report tells a setting with its value and its layer. -/
structure Tells (row : Json) (entry : Attribution) : Prop where
  value : row.field? "value" = some (.string entry.value)
  environment : ∀ name, row.field? "source" = some (.string ("env (" ++ name ++ ")")) ↔
    entry.source = .environment name
  file : ∀ file, row.field? "source" = some (.string ("file (" ++ file ++ ")")) ↔
    entry.source = .file file
  default : row.field? "source" = some (.string "default") ↔ entry.source = .default

/-- Each layer is told by a text of its own. -/
theorem Source.text_inj {source other : Source} : source.text = other.text ↔ source = other := by
  constructor
  · intro h
    -- Texts of different kinds differ in their first letter.
    have hfirst : source.text.toList.head? = other.text.toList.head? :=
      congrArg (·.toList.head?) h
    cases source <;> cases other <;>
      first
        | rfl
        | simpa [text, toString] using h
        | exact absurd hfirst (by simp [text, toString])
  · rintro rfl
    rfl

def Attribution.row (entry : Attribution) : Json :=
  .object [("key", .string entry.key.path), ("value", .string entry.value),
    ("source", .string entry.source.text)]

theorem tells_row (entry : Attribution) : Tells entry.row entry := by
  have hsource : ∀ source : Source, entry.row.field? "source" = some (.string source.text) ↔
      entry.source = source := by
    intro source
    rw [← Source.text_inj]
    show some (Json.string entry.source.text) = _ ↔ _
    simp
  exact ⟨rfl, fun name => hsource (.environment name), fun file => hsource (.file file),
    hsource .default⟩

/-- What the report of settings has for data. -/
theorem run_config_of_load (h : load host (.ofPath path) = .ok settings) {Time : Type} [Wire Time]
    (stamp : Stamp Time) : (Command.config.run host (.ofPath path) stamp).toJson.field? "data" =
      some (.array ((settings.attributions host path).map Attribution.row)) := by
  rw [Command.Report.field?_data, Command.run, Command.tellSettings, h]
  rfl

/-- What is told of loaded settings, entry by entry. Each setting has one layer that supplies it. A
variable is told where it supplies a setting, and a file that is told is the one that was read. The
layer told is the one that supplies the setting where a variable does, and else exactly where the
text of the file defines the setting before variables are put in just as it does after; a plain file
does so throughout. -/
theorem attributions_supplied_iff (h : load host (.ofPath path) = .ok settings) :
    (∀ {Time : Type} [Wire Time] (stamp : Stamp Time), ∃ rows,
      (Command.config.run host (.ofPath path) stamp).toJson.field? "data" = some (.array rows) ∧
        rows.map (·.field? "key") = ["server.bind_address", "server.port",
          "server.graceful_shutdown_secs", "server.max_configurations", "pricing.catalog_path",
          "pricing.rules_path", "logging.level", "logging.format"].map (some <| .string ·) ∧
        List.Forall₂ Tells rows (settings.attributions host path)) ∧
    (settings.attributions host path).map (·.key) = Key.every ∧
    (∀ key, ∃ source, IsSupplied host path settings key source ∧
      ∀ other, IsSupplied host path settings key other → other = source) ∧
    (∀ entry ∈ settings.attributions host path,
      (∀ name, entry.source = .environment name ↔
        IsSupplied host path settings entry.key (.environment name)) ∧
      (∀ file, entry.source = .file file → IsChosen host path file) ∧
      (IsSupplied host path settings entry.key entry.source ↔
        (∃ name text, entry.key.GivenBy host name text) ∨
          (IsWritten host path entry.key ↔ IsLoaded host path entry.key))) ∧
    ((∀ file, IsChosen host path file → IsPlain host file) →
      ∀ entry ∈ settings.attributions host path,
        IsSupplied host path settings entry.key entry.source) := by
  have hsource : ∀ entry ∈ settings.attributions host path,
      entry.source = source host path entry.key := by
    intro entry hentry
    obtain ⟨key, -, rfl⟩ := List.mem_map.mp hentry
    rfl
  refine ⟨fun stamp => ?_, rfl, exists_isSupplied h, fun entry hentry => ?_,
    fun hplain entry hentry => ?_⟩
  · refine ⟨_, run_config_of_load h stamp, rfl, ?_⟩
    exact List.forall₂_map_left_iff.mpr (List.forall₂_same.mpr fun entry _ => tells_row entry)
  · rw [hsource entry hentry]
    refine ⟨fun name => ?_, fun file => isChosen_of_source, isSupplied_source_iff h entry.key⟩
    rw [source_eq_environment_iff, isSupplied_environment_iff h]
  · rw [hsource entry hentry, isSupplied_source_iff h]
    exact .inr (isWritten_iff_isLoaded h hplain entry.key)

/-- A host with one file in its working directory and one variable. -/
def hostWith (text : String) (name value : String) : Host where
  entry? path := if path = "pricebook.toml" then some (.file text.toUTF8) else none
  environment other := if other = name then some value else none

/-- A settings file that says what the port is. -/
def plainHost : Host :=
  hostWith "[server]\nport = 9090\n" "P" "9090"

/-- A settings file that says that the port is the value of a variable. -/
def filledHost : Host :=
  hostWith "[server]\nport = ${P}\n" "P" "9090"

theorem isPlain_plainHost : IsPlain plainHost "pricebook.toml" := by
  refine ⟨"[server]\nport = 9090\n",
    .table [(some "server", .table [(some "port", .number (.integer 9090))] true)] true,
    by decide +kernel, ?_, by cbv, ?_, ?_⟩
  · unfold Template.IsLiteral
    decide +kernel
  · simp [Toml.freeForm?, Toml.freeFormEntries?, Toml.isMarked, Toml.dateTimeKey]
  · intro key inner h
    obtain ⟨front, back, hentries, -⟩ := List.lookup_eq_some_iff.mp h
    have hmem : (some key.table, inner) ∈ front ++ (some key.table, inner) :: back :=
      List.mem_append_right front List.mem_cons_self
    rw [← hentries, List.mem_singleton] at hmem
    exact ⟨_, _, (Prod.mk.inj hmem).2⟩

/-- Where the file says what the port is, all settings are told to come from what supplies them. -/
theorem attributions_supplied_plain :
    load plainHost (.ofPath none) = .ok { Settings.default with port := 9090 } ∧
      ∀ entry ∈ attributions { Settings.default with port := 9090 } plainHost none,
        IsSupplied plainHost none { Settings.default with port := 9090 } entry.key
          entry.source := by
  have hload : load plainHost (.ofPath none) = .ok { Settings.default with port := 9090 } := by
    decide +kernel
  have hplain : ∀ file, IsChosen plainHost none file → IsPlain plainHost file := by
    intro file hchosen
    have hhere : IsChosen plainHost none "pricebook.toml" := .here (by decide +kernel)
    exact hchosen.unique hhere ▸ isPlain_plainHost
  exact ⟨hload, (attributions_supplied_iff hload).2.2.2.2 hplain⟩

/-- The file's text is no TOML before the variable is put in: the port that it supplies is told to
come from the defaults. -/
theorem attributions_of_filled_port :
    load filledHost (.ofPath none) = .ok { Settings.default with port := 9090 } ∧
      ⟨.port, "9090", .default⟩ ∈
        attributions { Settings.default with port := 9090 } filledHost none ∧
      IsSupplied filledHost none { Settings.default with port := 9090 } .port
        (.file "pricebook.toml") ∧
      ¬ IsSupplied filledHost none { Settings.default with port := 9090 } .port .default := by
  have hload : load filledHost (.ofPath none) = .ok { Settings.default with port := 9090 } := by
    decide +kernel
  have hnot : Key.port.NotGiven filledHost := Key.given?_eq_none_iff.mp (by decide +kernel)
  refine ⟨hload, by decide +kernel, ?_, ?_⟩
  · obtain ⟨layer, hlayer⟩ := exists_hasFile hload
    have hvalue := value?_of_notGiven hload hnot hlayer
    refine (isSupplied_file_iff hload).mpr ⟨hnot, .here (by decide +kernel), layer, hlayer, ?_⟩
    intro hnone
    rw [hnone] at hvalue
    exact absurd hvalue (by decide)
  · intro h
    cases h with
    | default _ _ hvalue => exact absurd hvalue (by decide)

end Settings

end PriceQuote
