import PriceQuote.Proofs.Binary64.Finite
import PriceQuote.Proofs.Document.Record

/-!
# Leaves of documents

* `Document.AllLeaves`: what holds of everything in a document that is no sequence or table, and so
  of every document inside of it (`allLeaves_field?`);
* `Document.IsFinite`: all numbers are finite;
* `Json.InRange`, `isFinite_ofJson`: so they are where whole numbers have 64 bits and all others are
  finite.
-/

namespace PriceQuote

namespace Document

variable {p : Document → Prop}

mutual

/-- Something holds of everything in a document that is neither a sequence nor a table. -/
def AllLeaves (p : Document → Prop) : Document → Prop
  | .sequence items _ => AllItems p items
  | .table entries _ => AllEntries p entries
  | leaf => p leaf

def AllItems (p : Document → Prop) : List Document → Prop
  | [] => True
  | item :: items => AllLeaves p item ∧ AllItems p items

def AllEntries (p : Document → Prop) : List (Option String × Document) → Prop
  | [] => True
  | (_, value) :: entries => AllLeaves p value ∧ AllEntries p entries

end

theorem allItems_iff {items : List Document} :
    AllItems p items ↔ ∀ item ∈ items, AllLeaves p item := by
  induction items with
  | nil => simp [AllItems]
  | cons item items ih => rw [AllItems, ih, List.forall_mem_cons]

theorem allEntries_iff {entries : List (Option String × Document)} :
    AllEntries p entries ↔ ∀ entry ∈ entries, AllLeaves p entry.2 := by
  induction entries with
  | nil => simp [AllEntries]
  | cons entry entries ih => rw [AllEntries, ih, List.forall_mem_cons]

/-- What holds of all leaves of a document holds of those where a field of a record stands. -/
theorem allLeaves_field? {document inner : Document} (h : document.AllLeaves p) {place : Nat}
    {key : String} (hinner : document.field? place key = some inner) : inner.AllLeaves p := by
  cases document with
  | table entries closed =>
    obtain ⟨front, back, rfl, -⟩ := List.lookup_eq_some_iff.mp hinner
    exact allEntries_iff.mp h (some key, inner) (List.mem_append_right _ List.mem_cons_self)
  | sequence items closed => exact allItems_iff.mp h inner (List.mem_of_getElem? hinner)
  | _ => cases hinner

end Document

/-! ## Numbers -/

/-- A number is finite when it is read as a number of any form. -/
def Numeric.IsFinite : Numeric → Prop
  | .integer n => (Binary64.ofInt n).isFinite = true
  | .float x => x.isFinite = true
  | .outOfRange => True

/-- A document that is a number is a finite one. -/
def Document.IsFiniteLeaf : Document → Prop
  | .number n => n.IsFinite
  | _ => True

/-- All numbers of a document are finite. -/
def Document.IsFinite (document : Document) : Prop :=
  document.AllLeaves Document.IsFiniteLeaf

namespace Json

mutual

/-- Whole numbers have 64 bits, and all others are finite. -/
def InRange : Json → Prop
  | .integer n => n.natAbs ≤ Nat.pow 2 64
  | .float x => x.isFinite = true
  | .array items => ItemsInRange items
  | .object fields => FieldsInRange fields
  | _ => True

def ItemsInRange : List Json → Prop
  | [] => True
  | item :: items => item.InRange ∧ ItemsInRange items

def FieldsInRange : List (String × Json) → Prop
  | [] => True
  | (_, value) :: fields => value.InRange ∧ FieldsInRange fields

end

open Document (ofJson ofJsonItems ofJsonFields)

mutual

theorem isFinite_ofJson : ∀ json : Json, json.InRange → (ofJson json).IsFinite
  | .null, _ | .bool _, _ | .string _, _ => trivial
  | .integer _, h => Binary64.isFinite_ofInt h
  | .float _, h => h
  | .array items, h => allItems_ofJsonItems items h
  | .object fields, h => allEntries_ofJsonFields fields h

theorem allItems_ofJsonItems : ∀ items, ItemsInRange items →
    Document.AllItems Document.IsFiniteLeaf (ofJsonItems items)
  | [], _ => trivial
  | item :: items, h => ⟨isFinite_ofJson item h.1, allItems_ofJsonItems items h.2⟩

theorem allEntries_ofJsonFields : ∀ fields, FieldsInRange fields →
    Document.AllEntries Document.IsFiniteLeaf (ofJsonFields fields)
  | [], _ => trivial
  | (_, value) :: fields, h => ⟨isFinite_ofJson value h.1, allEntries_ofJsonFields fields h.2⟩

end

end Json

end PriceQuote
