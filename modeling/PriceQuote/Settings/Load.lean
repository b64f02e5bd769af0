import PriceQuote.Settings.Key
import PriceQuote.Settings.Patch
import PriceQuote.Text.Numeral

/-!
# Loading settings

Settings come in layers, each of which replaces what it has values for: the defaults, a file, the
environment, and what the program itself asks for. The result has to be usable.

* `Overrides`: what a program asks for itself, for all settings but two;
* `Settings.file?`: the file that is read: the one asked for, else one of two that may be there;
* `Settings.ofEnvironment`: the values of environment variables;
* `Settings.layered`: all layers together;
* `Settings.load`: the same, as long as the settings can be used.
-/

namespace PriceQuote.Settings

/-- Values that come before all others. How long to wait for requests in progress and how many
configurations a request may hold cannot be asked for in this way. -/
structure Overrides where
  bindAddress : Option String
  port : Option UInt16
  logLevel : Option String
  logFormat : Option LogFormat
  catalogPath : Option String
  rulesPath : Option String

namespace Overrides

def empty : Overrides := ⟨none, none, none, none, none, none⟩

def apply (overrides : Overrides) (settings : Settings) : Settings :=
  { settings with
    bindAddress := overrides.bindAddress.getD settings.bindAddress
    port := overrides.port.getD settings.port
    logLevel := overrides.logLevel.getD settings.logLevel
    logFormat := overrides.logFormat.getD settings.logFormat
    catalogPath := overrides.catalogPath <|> settings.catalogPath
    rulesPath := overrides.rulesPath <|> settings.rulesPath }

end Overrides

/-- What a program asks for when it loads its settings. -/
structure LoadOptions where
  path : Option String
  /-- There has to be a file. -/
  requireFile : Bool
  overrides : Overrides

def LoadOptions.ofPath (path : Option String) : LoadOptions := ⟨path, false, .empty⟩

def defaultPath : String := "pricebook.toml"

/-- The settings files that are looked for: the one that is asked for and no other, else those that
may be there. -/
def candidates : Option String → List String
  | some path => [path]
  | none => [defaultPath, "config/pricebook.toml"]

/-- The file that settings are read from, if there is one. -/
def file? (host : Host) (path : Option String) : Option String :=
  (candidates path).find? host.pathExists

/-! ## The environment -/

/-- The number that the environment holds for a setting. -/
def numberOf? (host : Host) (greatest : Nat) (key : Key) : Except SettingsError (Option Nat) :=
  match key.given? host with
  | none => .ok none
  | some (name, value) =>
    match Text.unsigned? greatest value with
    | some n => .ok (some n)
    | none => .error (.badVariable name value)

/-- The log format that the environment holds. -/
def formatOf? (host : Host) : Except SettingsError (Option LogFormat) :=
  match Key.logFormat.text? host with
  | none => .ok none
  | some value =>
    match LogFormat.ofText? value with
    | some format => .ok (some format)
    | none => .error (.invalid (.unknownFormat (LogFormat.normalize value)))

/-- The values that the environment holds. -/
def ofEnvironment (host : Host) : Except SettingsError Patch := do
  let port ← numberOf? host (UInt16.size - 1) .port
  let shutdown ← numberOf? host (UInt64.size - 1) .shutdownSeconds
  let most ← numberOf? host (UInt64.size - 1) .maxConfigurations
  let format ← formatOf? host
  return {
    bindAddress := Key.bindAddress.text? host
    port := port.map UInt16.ofNat
    shutdownSeconds := shutdown.map UInt64.ofNat
    maxConfigurations := most.map UInt64.ofNat
    catalogPath := Key.catalogPath.text? host
    rulesPath := Key.rulesPath.text? host
    logLevel := Key.logLevel.text? host
    logFormat := format }

/-! ## All layers -/

/-- The values that the settings file holds, if there is one. -/
def ofFile (host : Host) (options : LoadOptions) : Except SettingsError Patch :=
  match file? host options.path with
  | some path => Patch.ofFile host path
  | none =>
    if options.requireFile then .error (.missing (options.path.getD defaultPath)) else .ok .empty

/-- The settings that all layers come to, usable or not. -/
def layered (host : Host) (options : LoadOptions) : Except SettingsError Settings := do
  let file ← ofFile host options
  let environment ← ofEnvironment host
  return options.overrides.apply (environment.apply (file.apply .default))

/-- The settings of a program. -/
def load (host : Host) (options : LoadOptions) : Except SettingsError Settings := do
  let settings ← layered host options
  match settings.problem? host with
  | none => return settings
  | some problem => .error (.invalid problem)

end PriceQuote.Settings
