import PriceQuote.Document.Shape

/-!
# Tagged alternatives

A value of one of several shapes is a table that names the shape under `type`, or a sequence that
begins with the name. All of it is looked through before the name is followed, so that any fault of
the text in it counts, under keys that are of no use too.

* `Tagged.name`: the name that a tag stands for;
* `Tagged.read`: the value.
-/

namespace PriceQuote.Tagged

/-- The key under which a table names its shape. -/
def tagKey : String := "type"

/-- The name a tag stands for. Inside of what was looked through before, a JSON tag may also be
the place of the name among all names. -/
def name (names : List String) (scope : Scope) : Document → Except Fault String
  | .text (some s) => .ok s
  | .number (.integer n) =>
    if scope.settled = true ∧ scope.origin ≠ .toml ∧ 0 ≤ n then
      match names[n.toNat]? with
      | some s => .ok s
      | none => .error .mismatch
    else .error .mismatch
  | _ => .error .mismatch

/-- The document under the only entry that is a tag. -/
def onlyTag (entries : List (Option String × Document)) : Except Fault Document :=
  match entries.filter fun entry => entry.1 = some tagKey with
  | [(_, tag)] => .ok tag
  | _ => .error .mismatch

/-- Reads one of several shapes, given by name. -/
def read {α : Type} (names : List String) (shape? : String → Option (Shape α)) : Reader α :=
  fun scope document => do
    if !scope.settled then
      let _ ← Reader.freeForm scope document
    match document with
    | .table entries _ =>
      match shape? (← name names scope (← onlyTag entries)) with
      | some shape =>
        shape.readTable scope.settle (entries.filter fun entry => entry.1 ≠ some tagKey) true
      | none => .error .mismatch
    | .sequence (tag :: items) _ =>
      match shape? (← name names scope tag) with
      | some shape => shape.readSequence scope.settle items true
      | none => .error .mismatch
    | _ => .error .mismatch

end PriceQuote.Tagged
