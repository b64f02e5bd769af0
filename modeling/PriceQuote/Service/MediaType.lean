/-!
# Media types

A media type is a type and a subtype, perhaps with a suffix behind the subtype's last plus sign, and
parameters. `isJson` says whether it names JSON: `application/json`, or a subtype with the suffix
`json`, in letters of either case.
-/

namespace PriceQuote.Service.MediaType

/-- A character of the words that media types are made of. -/
def isTokenChar (c : Char) : Bool :=
  c.isAlphanum || "!#$%&'*+-.^_`|~".toList.contains c

/-- A character that may stand in quotes. -/
def isQuotable (c : Char) : Bool :=
  ' ' ≤ c && c < '\x7f'

/-- What a parameter is read as next. -/
inductive Part where
  | name (begun : Bool)
  | value (begun : Bool)
  | quoted (begun : Bool)
  | behind

def areParameters : Part → List Char → Bool
  | .name begun, [] => !begun
  | .value _, [] => true
  | .quoted _, [] => false
  | .behind, [] => true
  | .name false, ' ' :: rest => areParameters (.name false) rest
  | .name begun, c :: rest =>
    if c = '=' then begun && areParameters (.value false) rest
    else isTokenChar c && areParameters (.name true) rest
  | .value begun, c :: rest =>
    if c = '"' then !begun && areParameters (.quoted false) rest
    else if c = ';' then begun && areParameters (.name false) rest
    else isTokenChar c && areParameters (.value true) rest
  | .quoted begun, c :: rest =>
    if c = '"' && begun then areParameters .behind rest
    else isQuotable c && areParameters (.quoted true) rest
  | .behind, c :: rest =>
    if c = ';' then areParameters (.name false) rest
    else c = ' ' && areParameters .behind rest

/-- A subtype names JSON: by what stands before its last plus sign or by what stands behind it. A
plus sign at the beginning divides nothing. -/
def isJsonSubtype (subtype : List Char) : Bool :=
  let suffix := (subtype.reverse.takeWhile (· ≠ '+')).reverse
  let stem := subtype.take (subtype.length - suffix.length - 1)
  subtype = "json".toList || (!stem.isEmpty && (stem = "json".toList || suffix = "json".toList))

def isJson (s : String) : Bool :=
  let cs := s.toList
  let kind := cs.takeWhile (· ≠ '/')
  match cs.dropWhile (· ≠ '/') with
  | [] => false
  | _ :: rest =>
    let subtype := rest.takeWhile (· ≠ ';')
    kind.all isTokenChar && subtype.all isTokenChar &&
      kind.map Char.toLower = "application".toList && isJsonSubtype (subtype.map Char.toLower) &&
      match rest.dropWhile (· ≠ ';') with
      | [] => true
      | _ :: parameters => areParameters (.name false) parameters

end PriceQuote.Service.MediaType
