import PriceQuote.Text.Numeral
import PriceQuote.Text.Utf8

/-!
# Addresses of requests

* `Uri.ofText`: the path and the query of an address;
* `percentDecode`: bytes written as `%XX` become what they stand for, all else stays;
* `pathSegment?`: the text of one segment of a path;
* `formFields`: the fields of a query, in which a plus sign stands for a blank.
-/

namespace PriceQuote.Service

/-- What of an address a service looks at. -/
structure Uri where
  path : String
  query : Option String
  deriving DecidableEq

namespace Uri

/-- The part behind the scheme and the host, where an address has them. -/
def withoutHost (cs : List Char) : List Char :=
  match cs with
  | '/' :: _ => cs
  | _ =>
    match cs.dropWhile (· ≠ ':') with
    | ':' :: '/' :: '/' :: rest =>
      match rest.dropWhile fun c => c ≠ '/' ∧ c ≠ '?' with
      | '/' :: more => '/' :: more
      | more => '/' :: more
    | _ => cs

/-- The path and the query of an address. What follows a number sign is for the reader alone. -/
def ofText (s : String) : Uri :=
  let cs := withoutHost (s.toList.takeWhile (· ≠ '#'))
  ⟨String.ofList (cs.takeWhile (· ≠ '?')),
    match cs.dropWhile (· ≠ '?') with
    | [] => none
    | _ :: query => some (String.ofList query)⟩

end Uri

/-- The value of a byte that stands for a hexadecimal digit. -/
def hexByte? (byte : UInt8) : Option Nat :=
  Text.hexDigit? (Char.ofNat byte.toNat)

/-- Puts in what `%XX` stands for. A percent sign that two digits do not follow stays. -/
def percentDecode : List UInt8 → List UInt8
  | [] => []
  | 0x25 :: high :: low :: rest =>
    match hexByte? high, hexByte? low with
    | some a, some b => UInt8.ofNat (a * 16 + b) :: percentDecode rest
    | _, _ => 0x25 :: percentDecode (high :: low :: rest)
  | byte :: rest => byte :: percentDecode rest

def bytesOf (s : String) : List UInt8 :=
  s.toUTF8.toList

/-- The text of a segment of a path, if it is UTF-8. -/
def pathSegment? (s : String) : Option String :=
  String.fromUTF8? ⟨(percentDecode (bytesOf s)).toArray⟩

/-- The text of a key or value of a query. -/
def formText (s : String) : String :=
  Text.Utf8.decodeLossy
    (percentDecode ((bytesOf s).map fun byte => if byte = 0x2b then 0x20 else byte))

def formField (s : String) : String × String :=
  let cs := s.toList
  (formText (String.ofList (cs.takeWhile (· ≠ '='))),
    formText (String.ofList ((cs.dropWhile (· ≠ '=')).drop 1)))

def formFields (query : String) : List (String × String) :=
  (((query.toList.splitOn '&').map String.ofList).filter (· ≠ "")).map formField

end PriceQuote.Service
