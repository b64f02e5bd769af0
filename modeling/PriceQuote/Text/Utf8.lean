/-!
# Reading UTF-8

Bytes are read from the left. Where they are not well formed, the longest piece that could still
have begun a character counts as one fault, and reading goes on behind it:

* `characters`: the characters of a byte sequence, a fault being `none`;
* `decodeLossy`: every fault becomes U+FFFD.
-/

namespace PriceQuote.Text.Utf8

/-- Reads `count` continuation bytes, the first of them between `low` and `high`, onto the bits
already read. The bytes behind the last one that fits are returned beside the code point. -/
def continuation : Nat → UInt8 → UInt8 → Nat → List UInt8 → Option Nat × List UInt8
  | 0, _, _, bits, rest => (some bits, rest)
  | _ + 1, _, _, _, [] => (none, [])
  | count + 1, low, high, bits, byte :: rest =>
    if low ≤ byte && byte ≤ high then
      continuation count 0x80 0xbf (bits * 64 + byte.toNat % 64) rest
    else (none, byte :: rest)

theorem length_continuation (count : Nat) (low high : UInt8) (bits : Nat) (bytes : List UInt8) :
    (continuation count low high bits bytes).2.length ≤ bytes.length := by
  induction count generalizing low high bits bytes with
  | zero => simp [continuation]
  | succ count ih =>
    cases bytes with
    | nil => simp [continuation]
    | cons byte rest =>
      simp only [continuation]
      split
      · exact Nat.le_succ_of_le (ih _ _ _ _)
      · simp

/-- The rest of the character whose first byte is given. The second byte has a narrower range after
`E0`, `ED`, `F0` and `F4`, which keeps out overlong forms, surrogates and numbers past U+10FFFF. -/
def afterLead (lead : UInt8) (rest : List UInt8) : Option Nat × List UInt8 :=
  if lead < 0x80 then (some lead.toNat, rest)
  else if lead < 0xc2 then (none, rest)
  else if lead < 0xe0 then continuation 1 0x80 0xbf (lead.toNat % 32) rest
  else if lead < 0xf0 then
    continuation 2 (if lead == 0xe0 then 0xa0 else 0x80) (if lead == 0xed then 0x9f else 0xbf)
      (lead.toNat % 16) rest
  else if lead < 0xf5 then
    continuation 3 (if lead == 0xf0 then 0x90 else 0x80) (if lead == 0xf4 then 0x8f else 0xbf)
      (lead.toNat % 8) rest
  else (none, rest)

theorem length_afterLead (lead : UInt8) (rest : List UInt8) :
    (afterLead lead rest).2.length ≤ rest.length := by
  unfold afterLead
  repeat' split
  all_goals first | exact Nat.le_refl _ | exact length_continuation _ _ _ _ _

/-- The characters of a byte sequence, where `none` stands for a piece that is not well formed. -/
def characters : List UInt8 → List (Option Char)
  | [] => []
  | lead :: rest =>
    (afterLead lead rest).1.map Char.ofNat :: characters (afterLead lead rest).2
termination_by bytes => bytes.length
decreasing_by exact Nat.lt_succ_of_le (length_afterLead lead rest)

/-- The text of a byte sequence, with U+FFFD for every piece that is not well formed. -/
def decodeLossy (bytes : List UInt8) : String :=
  String.ofList ((characters bytes).map (·.getD '\ufffd'))

end PriceQuote.Text.Utf8
