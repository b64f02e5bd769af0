import PriceQuote.Settings.Load
import PriceQuote.Toml.FreeForm

/-!
# Where settings come from

Each setting is told with its value and the layer that it comes from: an environment variable, the
file or the defaults. All of it is looked up anew, on other ways than those on which settings are
loaded:

* `detectFile?`: the settings file;
* `writtenDocument?`: its document before any variable is put in, read as a text of no certain form;
* `fieldSource`: the layer of a setting. The second name of a variable comes of the first by
  `Text.replace`, and the file counts where `containsPath` finds the setting in its document.
-/

namespace PriceQuote

namespace Text

/-- The characters behind the next `skip`, with every occurrence of `part` replaced, from left to
right. -/
def replaceFrom (part new : List Char) : Nat → List Char → List Char
  | _, [] => []
  | skip + 1, _ :: rest => replaceFrom part new skip rest
  | 0, c :: rest =>
    if part.isPrefixOf (c :: rest) then new ++ replaceFrom part new (part.length - 1) rest
    else c :: replaceFrom part new 0 rest

/-- A text with every occurrence of a part, which is not empty, replaced. -/
def replace (s part new : String) : String :=
  String.ofList (replaceFrom part.toList new.toList 0 s.toList)

end Text

namespace Settings

/-- The layer that a value comes from. -/
inductive Source where
  | environment (name : String)
  | file (path : String)
  | default
  deriving DecidableEq

def Source.text : Source → String
  | .environment name => s!"env ({name})"
  | .file path => s!"file ({path})"
  | .default => "default"

/-! ## The file -/

/-- The settings file: the one that is asked for and no other, else one of two that may be there. -/
def detectFile? (host : Host) : Option String → Option String
  | some path => if host.pathExists path then some path else none
  | none =>
    if host.pathExists "pricebook.toml" then some "pricebook.toml"
    else if host.pathExists "config/pricebook.toml" then some "config/pricebook.toml"
    else none

/-- The document of a file as it was written, if it can be read so. -/
def writtenDocument? (host : Host) (file : Option String) : Option Document := do
  match host.readText (← file) with
  | .ok text => Toml.freeForm? (← Toml.document? text)
  | .error _ => none

/-- The document under a key of a table. -/
def child? (key : String) : Document → Option Document
  | .table entries _ => entries.lookup (some key)
  | _ => none

/-- There is something in a document behind keys, which are told with points between them. -/
def containsPath (document : Document) (path : String) : Bool :=
  (((path.toList.splitOn '.').map String.ofList).foldlM (fun inner key => child? key inner)
    document).isSome

/-! ## The layer of a setting -/

/-- The layer that a setting comes from, given its path in the file and its variable: the variable or
its second name, if one of them says something, else the file if it has the setting. -/
def fieldSource (host : Host) (path name : String) (document : Option Document)
    (file : Option String) : Source :=
  let second := Text.replace name "_LOGGING_" "_LOG_"
  match [name, second].find? fun name => (nonBlank? host name).isSome with
  | some name => .environment name
  | none =>
    if document.any (containsPath · path) then .file (file.getD "config file") else .default

def valueText (settings : Settings) : Key → String
  | .bindAddress => settings.bindAddress
  | .port => toString settings.port.toNat
  | .shutdownSeconds => toString settings.shutdownSeconds.toNat
  | .maxConfigurations => toString settings.maxConfigurations.toNat
  | .catalogPath => settings.catalogPath.getD "<standard catalog>"
  | .rulesPath => settings.rulesPath.getD "<standard rules>"
  | .logLevel => settings.logLevel
  | .logFormat => settings.logFormat.label

/-- The path of a setting in the settings file, which it is told under. -/
def Key.path : Key → String
  | .bindAddress => "server.bind_address"
  | .port => "server.port"
  | .shutdownSeconds => "server.graceful_shutdown_secs"
  | .maxConfigurations => "server.max_configurations"
  | .catalogPath => "pricing.catalog_path"
  | .rulesPath => "pricing.rules_path"
  | .logLevel => "logging.level"
  | .logFormat => "logging.format"

/-- The variable that is looked up for a setting before its second name. -/
def Key.variableName : Key → String
  | .bindAddress => "PRICEBOOK_SERVER_BIND_ADDRESS"
  | .port => "PRICEBOOK_SERVER_PORT"
  | .shutdownSeconds => "PRICEBOOK_SERVER_GRACEFUL_SHUTDOWN_SECS"
  | .maxConfigurations => "PRICEBOOK_SERVER_MAX_CONFIGURATIONS"
  | .catalogPath => "PRICEBOOK_PRICING_CATALOG_PATH"
  | .rulesPath => "PRICEBOOK_PRICING_RULES_PATH"
  | .logLevel => "PRICEBOOK_LOGGING_LEVEL"
  | .logFormat => "PRICEBOOK_LOGGING_FORMAT"

/-- A setting with its value and its layer. -/
structure Attribution where
  key : Key
  value : String
  source : Source
  deriving DecidableEq

/-- The layer that a setting is told to come from. -/
def source (host : Host) (path : Option String) (key : Key) : Source :=
  let file := detectFile? host path
  fieldSource host key.path key.variableName (writtenDocument? host file) file

/-- Every setting with its layer. -/
def attributions (settings : Settings) (host : Host) (path : Option String) : List Attribution :=
  Key.every.map fun key => ⟨key, settings.valueText key, source host path key⟩

end Settings

end PriceQuote
