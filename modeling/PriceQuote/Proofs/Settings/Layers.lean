import PriceQuote.Proofs.Settings.Defaults
import PriceQuote.Proofs.Settings.File

/-!
# All layers of settings

Each setting has the value of the first layer that has one: what the program asks for, the
environment, the settings file, the defaults.

* `LoadOptions.HasFile`: the layer of the settings file;
* `IsLayered`, `layered_eq_ok_iff`: settings whose values come from the layers;
* `IsUsable`, `problem?_eq_none_iff`: settings that can be used;
* `load_layers`: what loads, and where nothing does.
-/

namespace PriceQuote.Settings

variable {host : Host} {options : LoadOptions} {settings : Settings}

/-! ## The file -/

/-- The layer of the settings file, if there has to be none or is one. -/
inductive LoadOptions.HasFile (host : Host) (options : LoadOptions) : Layer → Prop
  | nothing (hnone : ∀ file, ¬ IsChosen host options.path file)
    (hrequire : options.requireFile = false) : HasFile host options fun _ => none
  | parsed {file filled : String} {patch : Patch} (hchosen : IsChosen host options.path file)
    (hfills : Fills host file filled) (hparse : Patch.ofToml filled = .ok patch) :
    HasFile host options patch.value?

/-- Why there is no such layer. -/
inductive LoadOptions.LacksFile (host : Host) (options : LoadOptions) : Prop
  | missing (hnone : ∀ file, ¬ IsChosen host options.path file)
    (hrequire : options.requireFile = true)
  | unreadable {file : String} {cause : Unreadable} (hchosen : IsChosen host options.path file)
    (h : host.readText file = .error cause)
  | unfilled {file text : String} {problem : Template.Problem}
    (hchosen : IsChosen host options.path file) (htext : host.readText file = .ok text)
    (h : Template.fill host.environment text = .error problem)
  | unparsed {file filled : String} {fault : Fault} (hchosen : IsChosen host options.path file)
    (hfills : Fills host file filled) (h : Patch.ofToml filled = .error fault)

/-- The layer of the settings file is the one that is there. -/
theorem ofFile_eq_ok_iff_hasFile {patch : Patch} :
    ofFile host options = .ok patch ↔ options.HasFile host patch.value? := by
  unfold ofFile
  constructor
  · intro h
    split at h
    · rename_i file hfile
      obtain ⟨filled, hfills, hparse⟩ := ofFile_eq_ok_iff.mp h
      exact .parsed (file?_eq_some_iff.mp hfile) hfills hparse
    · rename_i hnone
      split at h
      · cases h
      · rename_i hrequire
        cases h
        have hempty : Patch.empty.value? = fun _ => none := by
          funext key
          cases key <;> rfl
        rw [hempty]
        exact .nothing (file?_eq_none_iff.mp hnone) (Bool.eq_false_iff.mpr hrequire)
  · intro h
    generalize hlayer : patch.value? = layer at h
    cases h with
    | nothing hnone hrequire =>
      obtain rfl : patch = .empty := Patch.ext_value? fun key => by
        rw [hlayer]
        cases key <;> rfl
      rw [file?_eq_none_iff.mpr hnone, hrequire]
      rfl
    | parsed hchosen hfills hparse =>
      obtain rfl := Patch.ext_value? (congrFun hlayer)
      rw [file?_eq_some_iff.mpr hchosen]
      exact ofFile_eq_ok_iff.mpr ⟨_, hfills, hparse⟩

theorem ofFile_eq_error_iff : (∃ error, ofFile host options = .error error) ↔
    options.LacksFile host := by
  unfold ofFile
  constructor
  · intro h
    split at h
    · rename_i file hfile
      have hchosen := file?_eq_some_iff.mp hfile
      simp only [Patch.ofFile, bind_error_iff, mapError_error_iff, mapError_ok_iff] at h
      obtain ⟨_, h⟩ | ⟨text, htext, ⟨_, h⟩ | ⟨filled, hfill, _, h⟩⟩ := h
      · exact .unreadable hchosen h
      · exact .unfilled hchosen htext h
      · exact .unparsed hchosen ⟨text, htext, hfill⟩ h
    · rename_i hnone
      split at h
      · rename_i hrequire
        exact .missing (file?_eq_none_iff.mp hnone) hrequire
      · obtain ⟨_, ⟨⟩⟩ := h
  · intro h
    cases h with
    | missing hnone hrequire =>
      rw [file?_eq_none_iff.mpr hnone, hrequire]
      exact ⟨_, rfl⟩
    | unreadable hchosen h =>
      rw [file?_eq_some_iff.mpr hchosen]
      simp only [Patch.ofFile, bind_error_iff, mapError_error_iff]
      exact .inl ⟨_, h⟩
    | unfilled hchosen htext h =>
      rw [file?_eq_some_iff.mpr hchosen]
      simp only [Patch.ofFile, bind_error_iff, mapError_error_iff, mapError_ok_iff]
      exact .inr ⟨_, htext, .inl ⟨_, h⟩⟩
    | unparsed hchosen hfills h =>
      obtain ⟨text, htext, hfill⟩ := hfills
      rw [file?_eq_some_iff.mpr hchosen]
      simp only [Patch.ofFile, bind_error_iff, mapError_error_iff, mapError_ok_iff]
      exact .inr ⟨text, htext, .inr ⟨_, hfill, _, h⟩⟩

/-! ## The layers together -/

/-- Settings have the value of the first layer that has one, each on its own. -/
def IsLayered (host : Host) (options : LoadOptions) (settings : Settings) : Prop :=
  ∃ file environment : Layer, options.HasFile host file ∧
    (∀ key : Key, key.Holds host (environment key)) ∧
    ∀ key, settings.value? key =
      (options.overrides.value? key <|> environment key <|> file key <|> defaults key)

/-- The layers are put over each other. -/
theorem layered_eq_ok_iff : layered host options = .ok settings ↔
    IsLayered host options settings := by
  unfold layered
  simp only [bind_ok_iff, ofFile_eq_ok_iff_hasFile, ofEnvironment_eq_ok_iff]
  constructor
  · rintro ⟨file, hfile, environment, henvironment, h⟩
    cases h
    refine ⟨file.value?, environment.value?, hfile, henvironment, fun key => ?_⟩
    simp only [Overrides.value?_apply, value?_apply, value?_default]
  · rintro ⟨file, environment, hfile, henvironment, h⟩
    obtain ⟨file, rfl⟩ : ∃ patch : Patch, patch.value? = file :=
      (Patch.exists_value? file).imp fun _ => funext
    obtain ⟨environment, rfl⟩ : ∃ patch : Patch, patch.value? = environment :=
      (Patch.exists_value? environment).imp fun _ => funext
    refine ⟨file, hfile, environment, henvironment, congrArg Except.ok (ext_value? fun key => ?_)⟩
    rw [h key]
    simp only [Overrides.value?_apply, value?_apply, value?_default]

theorem layered_eq_error_iff : (∃ error, layered host options = .error error) ↔
    options.LacksFile host ∨
      ∃ (key : Key) (name text : String), key.GivenBy host name text ∧
        ∀ value, ¬ key.Reads text value := by
  unfold layered
  simp only [bind_error_iff, ofFile_eq_error_iff, ofEnvironment_eq_error_iff]
  constructor
  · rintro (hlacks | ⟨file, -, hvariable | ⟨environment, -, error, ⟨⟩⟩⟩)
    · exact .inl hlacks
    · exact .inr hvariable
  · intro h
    by_cases hlacks : options.LacksFile host
    · exact .inl hlacks
    · have hfile : ∃ file, ofFile host options = .ok file := by
        by_contra hnone
        exact hlacks (ofFile_eq_error_iff.mp (exists_error_iff.mpr hnone))
      obtain ⟨file, hfile⟩ := hfile
      exact .inr ⟨file, hfile, .inl (h.resolve_left hlacks)⟩

/-! ## Settings that can be used -/

/-- Settings can be used: the address is not white space throughout, the numbers are not zero, the
paths lead to files and there is such a level. -/
structure IsUsable (host : Host) (settings : Settings) : Prop where
  address : ∃ c ∈ settings.bindAddress.toList, c.toNat ∉ Text.whiteSpace
  port : settings.port ≠ 0
  shutdownSeconds : settings.shutdownSeconds ≠ 0
  maxConfigurations : settings.maxConfigurations ≠ 0
  catalogPath : ∀ path, settings.catalogPath = some path →
    ∃ content, host.entry? path = some (.file content)
  rulesPath : ∀ path, settings.rulesPath = some path →
    ∃ content, host.entry? path = some (.file content)
  logLevel : ∃ level ∈ ["trace", "debug", "info", "warn", "error"],
    Text.Bears settings.logLevel level

theorem isFile_iff {path : String} :
    host.isFile path = true ↔ ∃ content, host.entry? path = some (.file content) := by
  unfold Host.isFile
  rcases host.entry? path with _ | _ | _ | _ <;> simp

theorem isBadPath_eq_false_iff {path : Option String} : isBadPath host path = false ↔
    ∀ file, path = some file → ∃ content, host.entry? file = some (.file content) := by
  cases path <;> simp [isBadPath, isFile_iff]

theorem mem_levels_iff {text : String} : levels.contains (LogFormat.normalize text) = true ↔
    ∃ level ∈ ["trace", "debug", "info", "warn", "error"], Text.Bears text level := by
  have hword : ∀ level ∈ levels, level.toList.any Text.isBlank = false := by decide +kernel
  rw [List.contains_iff_mem]
  constructor
  · intro h
    exact ⟨_, h, (Text.lowerAscii_trim_eq_iff (hword _ h)).mp rfl⟩
  · rintro ⟨level, hlevel, hbears⟩
    rw [LogFormat.normalize, (Text.lowerAscii_trim_eq_iff (hword level hlevel)).mpr hbears]
    exact hlevel

/-- Settings without a problem are those that can be used. -/
theorem problem?_eq_none_iff : settings.problem? host = none ↔ settings.IsUsable host := by
  unfold problem?
  constructor
  · intro h
    split_ifs at h with haddress hport hshutdown hmost hcatalog hrules hlevel
    have hlevel : levels.contains (LogFormat.normalize settings.logLevel) = true := by
      simpa only [Bool.not_eq_true', Bool.not_eq_false] using hlevel
    exact ⟨Text.allBlank_eq_false_iff.mp (Bool.eq_false_iff.mpr haddress), hport, hshutdown, hmost,
      isBadPath_eq_false_iff.mp (Bool.eq_false_iff.mpr hcatalog),
      isBadPath_eq_false_iff.mp (Bool.eq_false_iff.mpr hrules), mem_levels_iff.mp hlevel⟩
  · intro h
    rw [Text.allBlank_eq_false_iff.mpr h.address, if_neg Bool.false_ne_true, if_neg h.port,
      if_neg h.shutdownSeconds, if_neg h.maxConfigurations,
      isBadPath_eq_false_iff.mpr h.catalogPath, isBadPath_eq_false_iff.mpr h.rulesPath,
      mem_levels_iff.mpr h.logLevel]
    rfl

/-! ## Loading -/

theorem load_eq_error_iff : (∃ error, load host options = .error error) ↔
    (∃ error, layered host options = .error error) ∨
      ∃ settings, IsLayered host options settings ∧ ¬ settings.IsUsable host := by
  unfold load
  rw [bind_error_iff]
  refine or_congr_right (exists_congr fun settings => ?_)
  rw [layered_eq_ok_iff, ← problem?_eq_none_iff]
  refine and_congr_right fun _ => ?_
  cases settings.problem? host with
  | none => exact iff_of_false (fun ⟨_, h⟩ => nomatch h) fun h => h rfl
  | some problem => exact iff_of_true ⟨_, rfl⟩ nofun

/-- Settings load exactly where they are layered and can be used. Nothing loads exactly where the
layer of the file is missing, a variable that counts says nothing of use, or what the layers come to
cannot be used. What a file has for a setting is read from the setting's own place in the document
of its text. -/
theorem load_layers (host : Host) (options : LoadOptions) :
    (∀ settings, load host options = .ok settings ↔
      IsLayered host options settings ∧ settings.IsUsable host) ∧
    ((∃ error, load host options = .error error) ↔ options.LacksFile host ∨
      (∃ (key : Key) (name text : String), key.GivenBy host name text ∧
        ∀ value, ¬ key.Reads text value) ∨
      ∃ settings, IsLayered host options settings ∧ ¬ settings.IsUsable host) ∧
    ∀ text patch, Patch.ofToml text = .ok patch → ∃ document,
      Toml.document? text = some document ∧
        ∀ key : Key, key.IsSetIn document (patch.value? key) := by
  refine ⟨fun settings => ?_, ?_, fun text patch h => ?_⟩
  · rw [load_eq_ok_iff, layered_eq_ok_iff, problem?_eq_none_iff]
  · rw [load_eq_error_iff, layered_eq_error_iff, or_assoc]
  · obtain ⟨document, hdocument, -, hset⟩ := Patch.isSetIn_of_ofToml h
    exact ⟨document, hdocument, hset⟩

end PriceQuote.Settings
