import PriceQuote.Host.Basic
import PriceQuote.Text.Blank

/-!
# The settings one by one

Each setting has environment variables that come before the settings file.

* `Key`: the settings, in the order in which they are told;
* `Key.given?`: the variable that defines a setting, with its value. Blank values are as good as
  none, and of two variables the first that says something counts.
-/

namespace PriceQuote.Settings

/-- The settings there are. -/
inductive Key where
  | bindAddress
  | port
  | shutdownSeconds
  | maxConfigurations
  | catalogPath
  | rulesPath
  | logLevel
  | logFormat
  deriving DecidableEq

/-- The value of a variable that says something. -/
def nonBlank? (host : Host) (name : String) : Option String :=
  (host.environment name).filter fun value => !Text.allBlank value

namespace Key

def every : List Key :=
  [.bindAddress, .port, .shutdownSeconds, .maxConfigurations, .catalogPath, .rulesPath, .logLevel,
    .logFormat]

def variableNames : Key → List String
  | .bindAddress => ["PRICEBOOK_SERVER_BIND_ADDRESS"]
  | .port => ["PRICEBOOK_SERVER_PORT"]
  | .shutdownSeconds => ["PRICEBOOK_SERVER_GRACEFUL_SHUTDOWN_SECS"]
  | .maxConfigurations => ["PRICEBOOK_SERVER_MAX_CONFIGURATIONS"]
  | .catalogPath => ["PRICEBOOK_PRICING_CATALOG_PATH"]
  | .rulesPath => ["PRICEBOOK_PRICING_RULES_PATH"]
  | .logLevel => ["PRICEBOOK_LOGGING_LEVEL", "PRICEBOOK_LOG_LEVEL"]
  | .logFormat => ["PRICEBOOK_LOGGING_FORMAT", "PRICEBOOK_LOG_FORMAT"]

/-- The variable that defines a setting, with its value. -/
def given? (host : Host) (key : Key) : Option (String × String) :=
  key.variableNames.findSome? fun name => (nonBlank? host name).map (name, ·)

/-- What a variable says of a setting. -/
def text? (host : Host) (key : Key) : Option String :=
  (key.given? host).map (·.2)

end Key

end PriceQuote.Settings
