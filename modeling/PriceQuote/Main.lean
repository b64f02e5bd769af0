import PriceQuote.Command.Line
import PriceQuote.Json.Printer
import Std.Time.Format

/-!
# The command line program

Looks at what a command may look at, runs it and prints its report. What a command needs is found
out in two steps: the settings file, with the environment variables that it names, tells where the
catalog and the rule table are.
-/

namespace PriceQuote.Program

open Settings (LoadOptions Key)

/-- What a path leads to. What is there but cannot be read counts as a directory. -/
def look (path : String) : IO (Option Entry) := do
  let place ← try pure (some (← IO.FS.realPath path)) catch _ => pure none
  match place with
  | none => return none
  | some place =>
    try
      let content ← IO.FS.readBinFile path
      match (← place.metadata).type with
      | .file => return some (.file content)
      | _ => return some (.device content)
    catch _ => return some .directory

/-- What some paths lead to. -/
def lookAll (paths : List String) : IO (List (String × Entry)) :=
  paths.filterMapM fun path => return (← look path).map (path, ·)

def environmentOf (names : List String) : IO (List (String × String)) :=
  names.filterMapM fun name => return (← IO.getEnv name).map (name, ·)

/-- The host that shows what was looked at. -/
def seen (entries : List (String × Entry)) (environment : List (String × String)) : Host :=
  ⟨fun path => entries.lookup path, fun name => environment.lookup name⟩

/-- The environment variables that settings may come from. -/
def variableNames (host : Host) (path : Option String) : List String :=
  let inFile := match (Settings.file? host path).map host.readText with
    | some (.ok text) => Template.names text
    | _ => []
  Key.every.flatMap Key.variableNames ++ inFile

/-- The files that a command looks at besides the settings file. -/
def filesOf (host : Host) (options : LoadOptions) (command : Command) : List String :=
  let tables := match Settings.layered host options with
    | .ok settings => settings.catalogPath.toList ++ settings.rulesPath.toList
    | .error _ => []
  match command with
  | .quote file => file :: tables
  | _ => tables

/-- The host as far as a command looks at it. -/
def hostFor (options : LoadOptions) (command : Command) : IO Host := do
  let settings ← lookAll (Settings.candidates options.path)
  let environment ← environmentOf (variableNames (seen settings []) options.path)
  let files ← lookAll (filesOf (seen settings environment) options command)
  return seen (settings ++ files) environment

def now : IO Timestamp := do
  let wall := Std.Time.WallTime.ofTimestamp (← Std.Time.Timestamp.now) .zero
  let here := Std.Time.PlainDateTime.ofWallTime wall
  let day : Day :=
    ⟨here.date.year.toInt, here.date.month.val.toNat, here.date.day.val.toNat⟩
  let second := here.time.hour.val * 3600 + here.time.minute.val * 60 + here.time.second.val
  return ⟨day, second.toNat, here.time.nanosecond.val.toNat⟩

def hexByte (byte : UInt8) : String :=
  String.ofList [Nat.digitChar (byte.toNat / 16), Nat.digitChar (byte.toNat % 16)]

def newId : IO String := do
  let bytes := (← IO.getRandomBytes 16).toList
  let marked := bytes.modify 6 (fun byte => (byte &&& 0x0f) ||| 0x40)
  let marked := marked.modify 8 (fun byte => (byte &&& 0x3f) ||| 0x80)
  return "Q-" ++ String.join (marked.map hexByte)

def usage : String :=
  "Usage: pricebook [--config PATH] COMMAND\n\n" ++
  "Commands:\n" ++
  "  catalog [--category CATEGORY]\n" ++
  "  rules [--category CATEGORY]\n" ++
  "  validate --product PRODUCT [--option OPTION]...\n" ++
  "  quote --file FILE\n" ++
  "  config\n" ++
  "  help [COMMAND]"

def run (words : List String) : IO UInt32 := do
  match Command.Line.ofWords words with
  | .run config command =>
    let options := LoadOptions.ofPath config
    let host ← hostFor options command
    let stamp : Stamp Timestamp := ⟨← newId, ← now⟩
    let report := command.run host options stamp
    IO.println report.toJson.toText
    return UInt32.ofNat report.exitCode
  | .help =>
    IO.println usage
    return 0
  | .misuse =>
    IO.eprintln usage
    return 2

end PriceQuote.Program

def main (words : List String) : IO UInt32 :=
  PriceQuote.Program.run words
