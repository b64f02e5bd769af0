/-!
# Blank text

White space is Unicode's `White_Space` property, 25 code points, and not only the ASCII part of it:

* `isBlank`: the property of one character;
* `trim`: a text without the white space at its two ends;
* `allBlank`: a text that says nothing, the empty one included.
-/

namespace PriceQuote.Text

/-- A character has Unicode's `White_Space` property. -/
def isBlank (c : Char) : Bool :=
  ('\t' ≤ c && c ≤ '\r') || c == ' ' || c == '\u0085' || c == '\u00a0' || c == '\u1680' ||
    ('\u2000' ≤ c && c ≤ '\u200a') || c == '\u2028' || c == '\u2029' || c == '\u202f' ||
    c == '\u205f' || c == '\u3000'

/-- A text without the white space at its two ends. -/
def trim (s : String) : String :=
  String.ofList ((s.toList.dropWhile isBlank).reverse.dropWhile isBlank).reverse

/-- A text holds white space only. -/
def allBlank (s : String) : Bool :=
  s.toList.all isBlank

/-- The letters `A` to `Z` become small; every other character stays. -/
def lowerAscii (s : String) : String :=
  s.map Char.toLower

end PriceQuote.Text
