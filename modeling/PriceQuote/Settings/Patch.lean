import PriceQuote.Settings.Basic
import PriceQuote.Toml.Text

/-!
# Settings from a file

A settings file is a TOML text with the tables `server`, `pricing` and `logging`; it may name
environment variables anywhere. `Settings.Patch` holds what it defines.
-/

namespace PriceQuote.Settings

/-- Values for some of the settings. -/
structure Patch where
  bindAddress : Option String
  port : Option UInt16
  shutdownSeconds : Option UInt64
  maxConfigurations : Option UInt64
  catalogPath : Option String
  rulesPath : Option String
  logLevel : Option String
  logFormat : Option LogFormat
  deriving DecidableEq

namespace Patch

def empty : Patch := ⟨none, none, none, none, none, none, none, none⟩

/-- Replaces the settings that a patch has values for. -/
def apply (patch : Patch) (settings : Settings) : Settings where
  bindAddress := patch.bindAddress.getD settings.bindAddress
  port := patch.port.getD settings.port
  shutdownSeconds := patch.shutdownSeconds.getD settings.shutdownSeconds
  maxConfigurations := patch.maxConfigurations.getD settings.maxConfigurations
  catalogPath := patch.catalogPath <|> settings.catalogPath
  rulesPath := patch.rulesPath <|> settings.rulesPath
  logLevel := patch.logLevel.getD settings.logLevel
  logFormat := patch.logFormat.getD settings.logFormat

/-! ## Reading -/

/-- A value of a table that may be left out of it. -/
def entry? {α : Type} [Wire α] (key : String) : Shape (Option α) :=
  .optionalByKey key Wire.read

def serverShape :
    Shape (Option String × Option UInt16 × Option UInt64 × Option UInt64) :=
  (fun address port shutdown most => (address, port, shutdown, most)) <$>
    entry? "bind_address" <*> entry? "port" <*> entry? "graceful_shutdown_secs" <*>
    entry? "max_configurations"

def pricingShape : Shape (Option String × Option String) :=
  Prod.mk <$> entry? "catalog_path" <*> entry? "rules_path"

def loggingShape : Shape (Option String × Option LogFormat) :=
  Prod.mk <$> entry? "level" <*> entry? "format"

def shape : Shape Patch :=
  (fun server pricing logging =>
    { bindAddress := server.bind (·.1)
      port := server.bind (·.2.1)
      shutdownSeconds := server.bind (·.2.2.1)
      maxConfigurations := server.bind (·.2.2.2)
      catalogPath := pricing.bind (·.1)
      rulesPath := pricing.bind (·.2)
      logLevel := logging.bind (·.1)
      logFormat := logging.bind (·.2) }) <$>
    .optionalByKey "server" serverShape.read <*> .optionalByKey "pricing" pricingShape.read <*>
    .optionalByKey "logging" loggingShape.read

/-- The values that a TOML text defines. -/
def ofToml (s : String) : Except Fault Patch :=
  match Toml.document? s with
  | some document => shape.read (.top .toml) document
  | none => .error .malformed

/-- The values that a settings file defines. -/
def ofFile (host : Host) (path : String) : Except SettingsError Patch := do
  let text ← (host.readText path).mapError (.unreadable path)
  let filled ← (Template.fill host.environment text).mapError fun problem => match problem with
    | .unset name => .unset name
    | .unterminated => .unterminated
  (ofToml filled).mapError (.unparsable path)

end Patch

end PriceQuote.Settings
