import PriceQuote.Json.Basic
import PriceQuote.Binary64.Text

/-!
# Writing JSON

`Json.toText` writes a value on one line without blanks. A float has the shortest text that reads
back; one that is no number of JSON is written `null`.
-/

namespace PriceQuote.Json

def hexDigit (n : Nat) : Char :=
  if n < 10 then Char.ofNat (48 + n) else Char.ofNat (87 + n)

/-- A character inside quotes: quotes, backslashes and control characters are escaped. -/
def escape (c : Char) : String :=
  if c == '"' then "\\\""
  else if c == '\\' then "\\\\"
  else if c == '\n' then "\\n"
  else if c == '\r' then "\\r"
  else if c == '\t' then "\\t"
  else if c == '\x08' then "\\b"
  else if c == '\x0c' then "\\f"
  else if c < ' ' then
    "\\u00" ++ String.ofList [hexDigit (c.toNat / 16), hexDigit (c.toNat % 16)]
  else c.toString

def quote (s : String) : String :=
  s.foldl (fun written c => written ++ escape c) "\"" ++ "\""

def floatText (x : Binary64) : String :=
  if x.isFinite then x.toText else "null"

mutual

def toText : Json → String
  | .null => "null"
  | .bool value => if value then "true" else "false"
  | .integer value => toString value
  | .float value => floatText value
  | .string value => quote value
  | .array [] => "[]"
  | .array (item :: items) => "[" ++ item.toText ++ itemsText items ++ "]"
  | .object [] => "{}"
  | .object ((key, value) :: fields) =>
    r"{" ++ quote key ++ ":" ++ value.toText ++ fieldsText fields ++ r"}"

/-- The text of the items behind the first. -/
def itemsText : List Json → String
  | [] => ""
  | item :: items => "," ++ item.toText ++ itemsText items

/-- The text of the fields behind the first. -/
def fieldsText : List (String × Json) → String
  | [] => ""
  | (key, value) :: fields => "," ++ quote key ++ ":" ++ value.toText ++ fieldsText fields

end

end PriceQuote.Json
