import PriceQuote.Command.Basic

/-!
# Command lines

The words of a command line are read from the left, and the first that fits nowhere decides: the
options of the whole program, the name of a command, its options. Every option takes a value, either
behind an equals sign or as the next word, which then must not look like an option. Help may be
asked for anywhere.

* `Word`: what a word looks like;
* `scan`: the options in front of a command's name or of the end;
* `Line.ofWords`: what a command line asks for.
-/

namespace PriceQuote.Command

/-- The options there are. -/
inductive Argument where
  | config
  | category
  | product
  | addOn
  | file
  deriving DecidableEq

namespace Argument

def name : Argument → String
  | .config => "config"
  | .category => "category"
  | .product => "product"
  | .addOn => "option"
  | .file => "file"

/-- An option may be given several times. -/
def isRepeatable : Argument → Bool
  | .addOn => true
  | _ => false

/-- The value of an option may be empty. A path may not. -/
def allowsEmpty : Argument → Bool
  | .config => false
  | .file => false
  | _ => true

end Argument

/-- What a word of a command line looks like. -/
inductive Word where
  /-- The mark behind which there are no more options. -/
  | escape
  | long (name : String) (value : Option String)
  | short (letters : List Char)
  | plain (text : String)

/-- What the characters of a word look like. -/
def Word.ofChars : List Char → Word
  | ['-', '-'] => .escape
  | '-' :: '-' :: rest =>
    let name := String.ofList (rest.takeWhile (· ≠ '='))
    match rest.dropWhile (· ≠ '=') with
    | [] => .long name none
    | _ :: value => .long name (some (String.ofList value))
  | ['-'] => .plain "-"
  | '-' :: letters => .short letters
  | cs => .plain (String.ofList cs)

def Word.ofText (s : String) : Word := .ofChars s.toList

/-- Options with their values, the last one first. -/
abbrev Values := List (Argument × String)

/-- One more option with its value, unless it was given before or has no such value. -/
def accept? (values : Values) (option : Argument) (value : String) : Option Values :=
  if !option.isRepeatable && values.any (·.1 = option) then none
  else if value = "" && !option.allowsEmpty then none
  else some ((option, value) :: values)

/-- Options that have been read. A value in a word of its own is looked at only when the next option
or the end of the line comes. -/
structure Progress where
  accepted : Values
  pending : Option (Argument × String)

namespace Progress

def start : Progress := ⟨[], none⟩

/-- The options that have been read, if all of them are acceptable. -/
def settle? (progress : Progress) : Option Values :=
  match progress.pending with
  | none => some progress.accepted
  | some (option, value) => accept? progress.accepted option value

end Progress

/-- What reading options came to. -/
inductive Scan where
  | finished (values : Values)
  | command (progress : Progress) (name : String) (rest : List String)
  | help
  | misuse

/-- The end of the line, if all options are acceptable. -/
def Scan.finish (progress : Progress) : Scan :=
  match progress.settle? with
  | some values => .finished values
  | none => .misuse

/-- The wish for help, if all options in front of it are acceptable. -/
def Scan.helpBehind (progress : Progress) : Scan :=
  if progress.settle?.isSome then .help else .misuse

/-- Reads options, up to one of the given names of commands or to the end. -/
def scan (options : List Argument) (commands : List String) (progress : Progress) :
    List String → Scan
  | [] => .finish progress
  | word :: rest =>
    match Word.ofText word with
    | .plain name => if commands.contains name then .command progress name rest else .misuse
    | .escape => if rest.isEmpty then .finish progress else .misuse
    | .short letters => if letters.head? = some 'h' then .helpBehind progress else .misuse
    | .long name value =>
      if name = "help" ∧ value.isNone then .helpBehind progress
      else
        match options.find? (·.name = name), value, progress.settle?, rest with
        | some option, some value, some values, rest =>
          match accept? values option value with
          | some values => scan options commands ⟨values, none⟩ rest
          | none => .misuse
        | some option, none, some values, next :: rest =>
          match Word.ofText next with
          | .plain _ => scan options commands ⟨values, some (option, next)⟩ rest
          | _ => .misuse
        | _, _, _, _ => .misuse

/-- What a command line asks for. -/
inductive Line where
  | run (config : Option String) (command : Command)
  | help
  | misuse
  deriving DecidableEq

def valueOf? (option : Argument) (values : Values) : Option String :=
  values.lookup option

def optionsOf : String → List Argument
  | "catalog" => [.config, .category]
  | "rules" => [.config, .category]
  | "validate" => [.config, .product, .addOn]
  | "quote" => [.config, .file]
  | _ => [.config]

/-- The command of a name with the given options, if all that it needs is there. -/
def ofValues? (name : String) (values : Values) : Option Command :=
  match name with
  | "catalog" => some (.catalog (valueOf? .category values))
  | "rules" => some (.rules (valueOf? .category values))
  | "validate" => (valueOf? .product values).map fun product =>
      .validate product ((values.filter (·.1 = .addOn)).reverse.map (·.2))
  | "quote" => (valueOf? .file values).map .quote
  | "config" => some .config
  | _ => none

def commandNames : List String := ["catalog", "rules", "validate", "quote", "config"]

def helpName : String := "help"

/-- The words behind `help` may name one command. -/
def helpLine : List String → Line
  | [] => .help
  | [name] => if commandNames.contains name || name = helpName then .help else .misuse
  | _ => .misuse

/-- A command with its options and those in front of its name. Options behind the name win. -/
def Line.ofOptions (name : String) (outer inner : Values) : Line :=
  match ofValues? name inner with
  | some command => .run (valueOf? .config inner <|> valueOf? .config outer) command
  | none => .misuse

/-- What the words behind a program's name ask for. -/
def Line.ofWords (words : List String) : Line :=
  match scan [.config] (helpName :: commandNames) .start words with
  | .command progress name rest =>
    if name = helpName then helpLine rest
    else
      match scan (optionsOf name) [] .start rest, progress.settle? with
      | .help, _ => .help
      | .finished inner, some outer => .ofOptions name outer inner
      | _, _ => .misuse
  | .help => .help
  | _ => .misuse

end PriceQuote.Command
