import PriceQuote.Proofs.Document.Record
import PriceQuote.Proofs.Settings.Layer
import PriceQuote.Settings.Attribution

/-!
# The layer of the settings file

* `IsChosen`, `file?_eq_some_iff`, `detectFile?_eq`: the file that settings are read from, and that
  it is the one whose values are told;
* `Fills`, `ofFile_eq_ok_iff`: what a file's text comes to when its variables are filled in;
* `Key.document?`, `Key.IsSetIn`: where a setting stands in a document, and what it says there;
* `Patch.isSetIn_of_ofToml`: each setting is read from its own place.
-/

namespace PriceQuote.Settings

variable {host : Host}

/-! ## The file -/

/-- The file that settings are read from: the one that is asked for, or one of two. Each has to be
there. -/
inductive IsChosen (host : Host) : Option String → String → Prop
  | asked {file : String} (h : host.entry? file ≠ none) : IsChosen host (some file) file
  | here (h : host.entry? "pricebook.toml" ≠ none) : IsChosen host none "pricebook.toml"
  | nested (hnot : host.entry? "pricebook.toml" = none)
    (h : host.entry? "config/pricebook.toml" ≠ none) : IsChosen host none "config/pricebook.toml"

theorem pathExists_iff {path : String} : host.pathExists path = true ↔ host.entry? path ≠ none :=
  Option.isSome_iff_ne_none

theorem pathExists_eq_false_iff {path : String} :
    host.pathExists path = false ↔ host.entry? path = none :=
  Option.isSome_eq_false_iff.trans Option.isNone_iff_eq_none

/-- Looking for the file anew comes to the same. -/
theorem detectFile?_eq (path : Option String) : detectFile? host path = file? host path := by
  unfold detectFile? file?
  cases path with
  | some path => rw [candidates, List.find?_singleton]
  | none =>
    rw [candidates, defaultPath, List.find?_cons, List.find?_singleton]
    cases host.pathExists "pricebook.toml" <;> rfl

theorem file?_eq_some_iff {path : Option String} {file : String} :
    file? host path = some file ↔ IsChosen host path file := by
  rw [← detectFile?_eq]
  unfold detectFile?
  constructor
  · intro h
    split at h
    · split at h
      · cases h
        exact .asked (pathExists_iff.mp ‹_›)
      · cases h
    · split at h
      · cases h
        exact .here (pathExists_iff.mp ‹_›)
      · rename_i hnot
        split at h
        · cases h
          exact .nested (pathExists_eq_false_iff.mp (Bool.eq_false_iff.mpr hnot))
            (pathExists_iff.mp ‹_›)
        · cases h
  · rintro (h | h | ⟨hnot, h⟩)
    · exact if_pos (pathExists_iff.mpr h)
    · exact if_pos (pathExists_iff.mpr h)
    · dsimp only
      rw [pathExists_eq_false_iff.mpr hnot, pathExists_iff.mpr h]
      rfl

theorem IsChosen.unique {path : Option String} {file file' : String}
    (h : IsChosen host path file) (h' : IsChosen host path file') : file = file' :=
  Option.some.inj ((file?_eq_some_iff.mpr h).symm.trans (file?_eq_some_iff.mpr h'))

theorem file?_eq_none_iff {path : Option String} :
    file? host path = none ↔ ∀ file, ¬ IsChosen host path file := by
  simp only [Option.eq_none_iff_forall_ne_some, ne_eq, file?_eq_some_iff]

/-! ## Its text -/

/-- A file is read, and this is its text with its variables filled in. -/
def Fills (host : Host) (file filled : String) : Prop :=
  ∃ text, host.readText file = .ok text ∧ Template.fill host.environment text = .ok filled

/-- The values of a file are those that its text defines when its variables are filled in. -/
theorem ofFile_eq_ok_iff {file : String} {patch : Patch} :
    Patch.ofFile host file = .ok patch ↔
      ∃ filled, Fills host file filled ∧ Patch.ofToml filled = .ok patch := by
  unfold Patch.ofFile Fills
  simp only [bind_ok_iff, mapError_ok_iff]
  constructor
  · rintro ⟨text, htext, filled, hfilled, h⟩
    exact ⟨filled, ⟨text, htext, hfilled⟩, h⟩
  · rintro ⟨filled, ⟨text, htext, hfilled⟩, h⟩
    exact ⟨text, htext, filled, hfilled, h⟩

/-! ## Its document -/

namespace Key

def table : Key → String
  | .bindAddress | .port | .shutdownSeconds | .maxConfigurations => "server"
  | .catalogPath | .rulesPath => "pricing"
  | .logLevel | .logFormat => "logging"

def name : Key → String
  | .bindAddress => "bind_address"
  | .port => "port"
  | .shutdownSeconds => "graceful_shutdown_secs"
  | .maxConfigurations => "max_configurations"
  | .catalogPath => "catalog_path"
  | .rulesPath => "rules_path"
  | .logLevel => "level"
  | .logFormat => "format"

/-- The place of a setting in its section, where that is written as a sequence. -/
def place : Key → Nat
  | .bindAddress | .catalogPath | .logLevel => 0
  | .port | .rulesPath | .logFormat => 1
  | .shutdownSeconds => 2
  | .maxConfigurations => 3

/-- Where a setting stands in a document: in its section, under its name or at its place. -/
def document? (key : Key) (document : Document) : Option Document :=
  (child? key.table document).bind (Document.field? key.place key.name)

/-- How the value of a setting is read. -/
def read : (key : Key) → Reader key.Value
  | .bindAddress | .catalogPath | .rulesPath | .logLevel => Reader.text
  | .port => (Wire.read : Reader UInt16)
  | .shutdownSeconds | .maxConfigurations => (Wire.read : Reader UInt64)
  | .logFormat => Reader.oneOf LogFormat.ofLabel?

/-- What a document has for a setting: what is read from where the setting stands, and nothing where
there is nothing. -/
def IsSetIn (key : Key) (document : Document) (value : Option key.Value) : Prop :=
  key.read.ReadsIfFound (.top .toml) (key.document? document) value

end Key

namespace Patch

open Reader (ReadsIfFound)

/-- What is read from a section is read from the places of its settings, if there is a section. -/
theorem readsIfFound_bind {α β : Type} {scope : Scope} {section? : Option Document}
    {readSection : Reader α} {values : Option α} {read : Reader β} {value? : α → Option β}
    {inner? : Document → Option Document}
    (hsection : readSection.ReadsIfFound scope section? values)
    (hentry : ∀ document values, readSection scope document = .ok values →
      read.ReadsIfFound scope (inner? document) (value? values))
    (hnull : inner? .null = none) :
    read.ReadsIfFound scope (section?.bind inner?) (values.bind value?) := by
  cases values with
  | some values =>
    cases section? with
    | none => cases hsection
    | some document => exact hentry document values (Reader.optional_eq_some_iff.mp hsection).2
  | none =>
    cases section? with
    | none => rfl
    | some document =>
      cases document with
      | null =>
        rw [Option.bind_some, hnull]
        rfl
      | _ =>
        obtain ⟨-, -, ⟨⟩⟩ := map_ok_iff.mp hsection

/-- A record is read from TOML as its fields are read from where they stand. -/
theorem yields_of_read_toml {α : Type} {shape : Shape α} {document : Document} {value : α}
    (h : shape.read (.top .toml) document = .ok value) :
    ∃ positional locate, shape.Yields (.top .toml) positional locate value ∧
      ∀ place key, (locate place key).map (·.2) = document.field? place key := by
  obtain ⟨inner, positional, locate, hinner, h⟩ := Shape.yields_of_read h
  cases hinner
  exact ⟨positional, locate, h⟩

theorem readsIfFound_server {document : Document}
    {values : Option String × Option UInt16 × Option UInt64 × Option UInt64}
    (h : serverShape.read (.top .toml) document = .ok values) :
    Reader.text.ReadsIfFound (.top .toml) (document.field? 0 "bind_address") values.1 ∧
      ReadsIfFound (Wire.read) (.top .toml) (document.field? 1 "port") values.2.1 ∧
      ReadsIfFound Wire.read (.top .toml) (document.field? 2 "graceful_shutdown_secs")
        values.2.2.1 ∧
      ReadsIfFound Wire.read (.top .toml) (document.field? 3 "max_configurations")
        values.2.2.2 := by
  obtain ⟨positional, locate, h, hlocate⟩ := yields_of_read_toml h
  simp only [← hlocate]
  simp only [serverShape, Shape.yields_seq_iff, Shape.yields_map_iff] at h
  obtain ⟨_, ⟨_, ⟨_, ⟨address, haddress, rfl⟩, port, hport, rfl⟩, shutdown, hshutdown, rfl⟩, most,
    hmost, rfl⟩ := h
  exact ⟨Shape.readsIfFound_of_yields haddress, Shape.readsIfFound_of_yields hport,
    Shape.readsIfFound_of_yields hshutdown, Shape.readsIfFound_of_yields hmost⟩

theorem readsIfFound_pricing {document : Document} {values : Option String × Option String}
    (h : pricingShape.read (.top .toml) document = .ok values) :
    ReadsIfFound Reader.text (.top .toml) (document.field? 0 "catalog_path") values.1 ∧
      ReadsIfFound Reader.text (.top .toml) (document.field? 1 "rules_path") values.2 := by
  obtain ⟨positional, locate, h, hlocate⟩ := yields_of_read_toml h
  simp only [← hlocate]
  simp only [pricingShape, Shape.yields_seq_iff, Shape.yields_map_iff] at h
  obtain ⟨_, ⟨catalog, hcatalog, rfl⟩, rules, hrules, rfl⟩ := h
  exact ⟨Shape.readsIfFound_of_yields hcatalog, Shape.readsIfFound_of_yields hrules⟩

theorem readsIfFound_logging {document : Document} {values : Option String × Option LogFormat}
    (h : loggingShape.read (.top .toml) document = .ok values) :
    ReadsIfFound Reader.text (.top .toml) (document.field? 0 "level") values.1 ∧
      ReadsIfFound Wire.read (.top .toml) (document.field? 1 "format") values.2 := by
  obtain ⟨positional, locate, h, hlocate⟩ := yields_of_read_toml h
  simp only [← hlocate]
  simp only [loggingShape, Shape.yields_seq_iff, Shape.yields_map_iff] at h
  obtain ⟨_, ⟨level, hlevel, rfl⟩, format, hformat, rfl⟩ := h
  exact ⟨Shape.readsIfFound_of_yields hlevel, Shape.readsIfFound_of_yields hformat⟩

/-- Each setting is read from its own place in the document. -/
theorem isSetIn_of_read {entries : List (Option String × Document)} {closed : Bool} {patch : Patch}
    (h : shape.read (.top .toml) (.table entries closed) = .ok patch) (key : Key) :
    key.IsSetIn (.table entries closed) (patch.value? key) := by
  obtain ⟨positional, locate, h, hlocate⟩ := yields_of_read_toml h
  simp only [shape, Shape.yields_seq_iff, Shape.yields_map_iff] at h
  obtain ⟨_, ⟨_, ⟨server, hserver, rfl⟩, pricing, hpricing, rfl⟩, logging, hlogging, rfl⟩ := h
  replace hserver := Shape.readsIfFound_of_yields hserver
  replace hpricing := Shape.readsIfFound_of_yields hpricing
  replace hlogging := Shape.readsIfFound_of_yields hlogging
  rw [hlocate] at hserver hpricing hlogging
  cases key with
  | bindAddress => exact readsIfFound_bind hserver (fun _ _ h => (readsIfFound_server h).1) rfl
  | port => exact readsIfFound_bind hserver (fun _ _ h => (readsIfFound_server h).2.1) rfl
  | shutdownSeconds =>
    exact readsIfFound_bind hserver (fun _ _ h => (readsIfFound_server h).2.2.1) rfl
  | maxConfigurations =>
    exact readsIfFound_bind hserver (fun _ _ h => (readsIfFound_server h).2.2.2) rfl
  | catalogPath => exact readsIfFound_bind hpricing (fun _ _ h => (readsIfFound_pricing h).1) rfl
  | rulesPath => exact readsIfFound_bind hpricing (fun _ _ h => (readsIfFound_pricing h).2) rfl
  | logLevel => exact readsIfFound_bind hlogging (fun _ _ h => (readsIfFound_logging h).1) rfl
  | logFormat => exact readsIfFound_bind hlogging (fun _ _ h => (readsIfFound_logging h).2) rfl

/-- The values that a TOML text defines are those of its document, each from its own place. -/
theorem isSetIn_of_ofToml {text : String} {patch : Patch} (h : ofToml text = .ok patch) :
    ∃ document, Toml.document? text = some document ∧
      shape.read (.top .toml) document = .ok patch ∧
      ∀ key : Key, key.IsSetIn document (patch.value? key) := by
  unfold ofToml at h
  split at h
  · rename_i document hdocument
    refine ⟨document, hdocument, h, ?_⟩
    simp only [Toml.document?, Option.bind_eq_bind, Option.bind_eq_some_iff, Option.pure_def,
      Option.some.injEq] at hdocument
    obtain ⟨_, -, _, -, rfl⟩ := hdocument
    exact isSetIn_of_read h
  · cases h

end Patch

end PriceQuote.Settings
