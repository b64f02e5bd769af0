import PriceQuote.Proofs.Fallible
import PriceQuote.Quote.Tables

/-!
# Where nothing is configured

Without a settings file and without variables there are only the defaults, and they can be used:

* `Host.Unconfigured`: there is neither a file nor a variable;
* `load_eq_ok_iff`, `load_of_unconfigured`: what loads, and that here it is the defaults;
* `Pricebook.load_default`: the pricebook that the defaults name is the standard one.
-/

namespace PriceQuote

/-- There is no settings file in any of the usual places, and no variable. -/
structure Host.Unconfigured (host : Host) : Prop where
  files : ∀ path ∈ Settings.candidates none, host.entry? path = none
  environment : ∀ name, host.environment name = none

namespace Settings

variable {host : Host}

theorem Key.given?_eq_none (h : host.Unconfigured) (key : Key) : key.given? host = none := by
  simp [given?, nonBlank?, h.environment]

theorem ofEnvironment_of_unconfigured (h : host.Unconfigured) :
    ofEnvironment host = .ok .empty := by
  simp only [ofEnvironment, numberOf?, formatOf?, Key.text?, Key.given?_eq_none h]
  rfl

theorem ofFile_of_unconfigured (h : host.Unconfigured) :
    ofFile host (.ofPath none) = .ok .empty := by
  have hfile : file? host none = none := by
    simp only [file?, List.find?_eq_none, Host.pathExists, Option.isSome_iff_ne_none, ne_eq]
    exact fun path hpath hne => hne (h.files path hpath)
  simp only [ofFile, LoadOptions.ofPath, hfile]
  rfl

/-- The defaults can be used on any host, since they name no file. -/
theorem problem?_default (host : Host) : problem? .default host = none := by
  have haddress : Text.allBlank default.bindAddress = false := by decide +kernel
  have hlevel : levels.contains (LogFormat.normalize default.logLevel) = true := by decide +kernel
  rw [problem?, haddress, hlevel]
  rfl

theorem load_eq_ok_iff {options : LoadOptions} {settings : Settings} :
    load host options = .ok settings ↔
      layered host options = .ok settings ∧ settings.problem? host = none := by
  rw [load, bind_ok_iff]
  constructor
  · rintro ⟨settings', hlayered, h⟩
    split at h
    · rename_i hproblem
      cases h
      exact ⟨hlayered, hproblem⟩
    · cases h
  · rintro ⟨hlayered, hproblem⟩
    refine ⟨settings, hlayered, ?_⟩
    rw [hproblem]
    rfl

/-- The settings are the defaults. -/
theorem load_of_unconfigured (h : host.Unconfigured) : load host (.ofPath none) = .ok .default := by
  have hlayered : layered host (.ofPath none) = .ok .default := by
    rw [layered, ofFile_of_unconfigured h, ofEnvironment_of_unconfigured h]
    rfl
  exact load_eq_ok_iff.mpr ⟨hlayered, problem?_default host⟩

end Settings

/-- The pricebook that the defaults name is the standard one, on any host. -/
theorem Pricebook.load_default (host : Host) : load host .default = .ok .standard := rfl

end PriceQuote
