/-!
# The host a program runs on

A program sees files, by their paths, and environment variables, by their names. `Host` is what is
there when it starts; nothing changes while it runs.
-/

namespace PriceQuote

/-- What is found under a path. -/
inductive Entry where
  | directory
  | file (content : ByteArray)
  /-- Something else, such as a device, with what reading it gives. -/
  | device (content : ByteArray)

/-- The files and the environment of a program. -/
structure Host where
  entry? : String → Option Entry
  environment : String → Option String

/-- Why a file cannot be read as text. -/
inductive Unreadable where
  | missing
  | isDirectory
  | notText
  deriving DecidableEq

def Unreadable.message : Unreadable → String
  | .missing => "no such file"
  | .isDirectory => "is a directory"
  | .notText => "content is not UTF-8"

namespace Host

def pathExists (host : Host) (path : String) : Bool :=
  (host.entry? path).isSome

def isFile (host : Host) (path : String) : Bool :=
  match host.entry? path with
  | some (.file _) => true
  | _ => false

def readBytes (host : Host) (path : String) : Except Unreadable ByteArray :=
  match host.entry? path with
  | none => .error .missing
  | some .directory => .error .isDirectory
  | some (.file content) => .ok content
  | some (.device content) => .ok content

def readText (host : Host) (path : String) : Except Unreadable String := do
  match String.fromUTF8? (← host.readBytes path) with
  | some text => .ok text
  | none => .error .notText

end Host

end PriceQuote
