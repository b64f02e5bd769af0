import PriceQuote.Document.Reader
import PriceQuote.Host.Basic
import PriceQuote.Settings.LogFormat
import PriceQuote.Settings.Template

/-!
# Settings

* `Settings`: the eight values a program is run with, and their defaults;
* `Settings.problem?`: the first reason why they cannot be used;
* `SettingsError`: why there are none.
-/

namespace PriceQuote

/-- The values a program is run with. -/
structure Settings where
  bindAddress : String
  port : UInt16
  shutdownSeconds : UInt64
  maxConfigurations : UInt64
  /-- Where the catalog is; the standard one is used where it is unset. -/
  catalogPath : Option String
  rulesPath : Option String
  logLevel : String
  logFormat : LogFormat
  deriving DecidableEq

namespace Settings

def default : Settings where
  bindAddress := "127.0.0.1"
  port := 8080
  shutdownSeconds := 15
  maxConfigurations := 100
  catalogPath := none
  rulesPath := none
  logLevel := "info"
  logFormat := .compact

def socketAddress (settings : Settings) : String :=
  settings.bindAddress ++ ":" ++ toString settings.port.toNat

/-- Why settings cannot be used. -/
inductive Problem where
  | blankAddress
  | zeroPort
  | zeroShutdown
  | zeroMaximum
  | notAFile (key path : String)
  | unknownLevel
  | unknownFormat (text : String)
  deriving DecidableEq

def Problem.message : Problem → String
  | .blankAddress => "server.bind_address must not be empty"
  | .zeroPort => "server.port must be greater than zero"
  | .zeroShutdown => "server.graceful_shutdown_secs must be greater than zero"
  | .zeroMaximum => "server.max_configurations must be greater than zero"
  | .notAFile key path => s!"{key} points to `{path}` which is not a readable file"
  | .unknownLevel => "logging.level must be one of trace|debug|info|warn|error"
  | .unknownFormat text =>
    s!"unsupported log format `{text}` (expected compact|pretty|json)"

def levels : List String :=
  ["trace", "debug", "info", "warn", "error"]

/-- A path leads to no file. -/
def isBadPath (host : Host) (path : Option String) : Bool :=
  path.any fun path => !host.isFile path

/-- The first reason why settings cannot be used. -/
def problem? (settings : Settings) (host : Host) : Option Problem :=
  if Text.allBlank settings.bindAddress then some .blankAddress
  else if settings.port = 0 then some .zeroPort
  else if settings.shutdownSeconds = 0 then some .zeroShutdown
  else if settings.maxConfigurations = 0 then some .zeroMaximum
  else if isBadPath host settings.catalogPath then
    some (.notAFile "pricing.catalog_path" (settings.catalogPath.getD ""))
  else if isBadPath host settings.rulesPath then
    some (.notAFile "pricing.rules_path" (settings.rulesPath.getD ""))
  else if !levels.contains (LogFormat.normalize settings.logLevel) then some .unknownLevel
  else none

end Settings

/-- Why there are no settings. -/
inductive SettingsError where
  | unreadable (path : String) (cause : Unreadable)
  | unparsable (path : String) (fault : Fault)
  | missing (path : String)
  | unset (name : String)
  | unterminated
  | badVariable (name value : String)
  | invalid (problem : Settings.Problem)
  deriving DecidableEq

def SettingsError.message : SettingsError → String
  | .unreadable path cause => s!"could not read config file `{path}`: {cause.message}"
  | .unparsable path fault => s!"could not parse config file `{path}`: {fault.message}"
  | .missing path => s!"required config file was not found: `{path}`"
  | .unset name => s!"environment variable interpolation failed for `{name}`"
  | .unterminated => "unterminated environment interpolation expression"
  | .badVariable name value => s!"invalid environment override for `{name}`: `{value}`"
  | .invalid problem => s!"configuration validation failed: {problem.message}"

end PriceQuote
