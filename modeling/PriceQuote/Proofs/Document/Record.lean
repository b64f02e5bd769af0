import Mathlib.Data.List.Basic
import PriceQuote.Proofs.Fallible
import PriceQuote.Wire.Basic

/-!
# Records in JSON objects

A record is read from a JSON object by looking its fields up: neither their order nor fields under
other keys matter, as long as no key comes twice.

* `Shape.Yields`, `yields_map_iff`, `yields_seq_iff`, `yields_field_iff`: what the fields of a
  record are read as, field by field;
* `Shape.inObject`, `Shape.ReadsFrom`: what they are read as in an object;
* `readTable_iff`, `read_object_iff`: reading a record from an object comes to nothing else;
* `yields_of_read`: nor does reading it from whatever else it can be read from;
* `exists_of_yields_required`, `exists_of_yields_optional`: what a field was read from.
-/

namespace PriceQuote

namespace Document

/-! ## Objects as documents -/

theorem ofJsonItems_eq_map (items : List Json) : ofJsonItems items = items.map ofJson := by
  induction items with
  | nil => rfl
  | cons item items ih => rw [ofJsonItems, ih, List.map_cons]

/-- Where a field of a record stands in a document: under its key in a table, and at its place in a
sequence. -/
def field? (place : Nat) (key : String) : Document → Option Document
  | .table entries _ => entries.lookup (some key)
  | .sequence items _ => items[place]?
  | _ => none

theorem isWhole_ofJson (value : Json) : (ofJson value).isWhole = true := by
  cases value <;> rfl

end Document

/-- A value that may be missing is read from what may not be there. -/
def Reader.ReadsIfFound {α : Type} (read : Reader α) (scope : Scope) (found : Option Document)
    (value : Option α) : Prop :=
  match found with
  | some document => optional read scope document = .ok value
  | none => value = none

/-- A value that may be missing is there where it is read from something else than `null`. -/
theorem Reader.optional_eq_some_iff {α : Type} {read : Reader α} {scope : Scope}
    {document : Document} {value : α} : optional read scope document = .ok (some value) ↔
      document ≠ .null ∧ read scope document = .ok value := by
  cases document with
  | null => exact ⟨nofun, fun h => absurd rfl h.1⟩
  | _ =>
    show (read scope _).map some = .ok (some value) ↔ _
    simp [map_ok_iff]

theorem Reader.optional_eq_none_iff {α : Type} {read : Reader α} {scope : Scope}
    {document : Document} : optional read scope document = .ok none ↔ document = .null := by
  cases document with
  | null => exact iff_of_true rfl rfl
  | _ =>
    show (read scope _).map some = .ok none ↔ _
    simp [map_ok_iff]

theorem Outcome.eq_good_of_conclude {α : Type} {flaw : Option (Nat × Fault)} {outcome : Outcome α}
    {value : α} (h : outcome.conclude flaw = .ok value) : outcome = .good value := by
  cases outcome <;> cases flaw <;> simp_all [conclude]

open Document (ofJson ofJsonFields)

namespace Shape

/-- A key is looked up in a table from its first entry on. -/
theorem locateKey_eq_lookup (key : String) (start : Nat)
    (entries : List (Option String × Document)) :
    (locateKey key start entries).map (·.2) = entries.lookup (some key) := by
  induction entries generalizing start with
  | nil => rfl
  | cons entry entries ih =>
    rw [locateKey, List.lookup_cons]
    by_cases h : entry.1 = some key
    · simp [h]
    · rw [if_neg h, ih, beq_false_of_ne (Ne.symm h)]

theorem lookup_ofJsonFields (key : String) (fields : List (String × Json)) :
    (ofJsonFields fields).lookup (some key) = (fields.lookup key).map ofJson := by
  induction fields with
  | nil => rfl
  | cons field fields ih =>
    rw [ofJsonFields, List.lookup_cons, List.lookup_cons, ih]
    by_cases h : key = field.1
    · simp [h]
    · rw [beq_false_of_ne h, beq_false_of_ne fun he => h (Option.some.inj he)]

/-- An object without repeated keys has no fault of its own. -/
theorem tableFlaw_ofJsonFields (keys : List String) (index : Nat) (seen : List String)
    (fields : List (String × Json)) (hnodup : (fields.map (·.1)).Nodup)
    (hseen : ∀ field ∈ fields, field.1 ∉ seen) :
    tableFlaw keys true index seen (ofJsonFields fields) = none := by
  induction fields generalizing index seen with
  | nil => rfl
  | cons field fields ih =>
    obtain ⟨hhead, htail⟩ := List.nodup_cons.mp hnodup
    have hfresh : seen.contains field.1 = false := by
      simpa using hseen field List.mem_cons_self
    have hlater : ∀ other ∈ fields, other.1 ∉ field.1 :: seen := fun other hother => by
      rw [List.mem_cons, not_or]
      refine ⟨fun he => hhead ?_, hseen other (List.mem_cons_of_mem _ hother)⟩
      exact List.mem_map.mpr ⟨other, hother, he⟩
    rw [ofJsonFields, tableFlaw, hfresh, Document.isWhole_ofJson]
    split
    · exact ih (index + 1) (field.1 :: seen) htail hlater
    · exact ih (index + 1) seen htail fun other hother =>
        (hseen other (List.mem_cons_of_mem _ hother))

/-! ## Fields -/

section

variable {α β : Type} {scope : Scope} {positional : Bool} {locate : Locate}

/-- The fields of a record are read as this value from where they are. -/
def Yields (shape : Shape α) (scope : Scope) (positional : Bool) (locate : Locate) (value : α) :
    Prop :=
  shape.fields scope positional locate = .good value

theorem yields_pure_iff {x value : α} :
    (Pure.pure x : Shape α).Yields scope positional locate value ↔ x = value := by
  show Outcome.good x = .good value ↔ _
  rw [Outcome.good.injEq]

theorem yields_map_iff {f : α → β} {a : Shape α} {value : β} :
    (f <$> a).Yields scope positional locate value ↔
      ∃ x, a.Yields scope positional locate x ∧ f x = value := by
  show (Outcome.good f).apply (a.fields scope positional locate) = .good value ↔ _
  unfold Yields
  cases a.fields scope positional locate <;> simp [Outcome.apply]

theorem yields_seq_iff {f : Shape (α → β)} {a : Shape α} {value : β} :
    (f <*> a).Yields scope positional locate value ↔
      ∃ g, f.Yields scope positional locate g ∧
        ∃ x, a.Yields scope positional (fun place => locate (f.keys.length + place)) x ∧
          g x = value := by
  show (f.fields scope positional locate).apply (a.fields scope positional _) = .good value ↔ _
  unfold Yields
  cases f.fields scope positional locate <;> cases a.fields scope positional _ <;>
    simp [Outcome.apply]
  split <;> simp

/-- A field is read from what is there, and has a value for when nothing is. -/
theorem yields_field_iff {key : String} {read : Reader α} {absent omitted : Option α} {value : α} :
    (field key read absent omitted).Yields scope positional locate value ↔
      match (locate 0 key).map (·.2) with
      | some document => read scope document = .ok value
      | none => (if positional then omitted else absent) = some value := by
  unfold Yields field
  dsimp only
  cases locate 0 key with
  | none =>
    dsimp only [Option.map_none]
    cases (if positional then omitted else absent) <;> simp [Outcome.ofDefault]
  | some entry =>
    dsimp only [Option.map_some]
    cases read scope entry.2 <;> simp [Outcome.ofResult]

theorem exists_of_yields_required {key : String} {read : Reader α} {value : α}
    (h : (required key read).Yields scope positional locate value) :
    ∃ document, (locate 0 key).map (·.2) = some document ∧ read scope document = .ok value := by
  rw [required, yields_field_iff] at h
  split at h
  · exact ⟨_, ‹_›, h⟩
  · cases positional <;> cases h

theorem exists_of_yields_optional {key : String} {read : Reader α} {value : α}
    (h : (optional key read).Yields scope positional locate (some value)) :
    ∃ document, (locate 0 key).map (·.2) = some document ∧ read scope document = .ok value := by
  rw [optional, yields_field_iff] at h
  split at h
  · exact ⟨_, ‹_›, (Reader.optional_eq_some_iff.mp h).2⟩
  · cases positional <;> cases h

theorem readsIfFound_of_yields {key : String} {read : Reader α} {value : Option α}
    (h : (optionalByKey key read).Yields scope positional locate value) :
    read.ReadsIfFound scope ((locate 0 key).map (·.2)) value := by
  rw [optionalByKey, yields_field_iff] at h
  unfold Reader.ReadsIfFound
  split at h
  · exact h
  · cases positional with
    | true => cases h
    | false => exact (Option.some.inj h).symm

end

variable {α β : Type} {fields : List (String × Json)}

/-- Where the fields of a record stand in an object: under their keys. -/
def inObject (fields : List (String × Json)) : Locate :=
  fun _ key => locateKey key 0 (ofJsonFields fields)

/-- A field is read from what is under its key, and has its value for tables where there is
nothing. -/
theorem yields_inObject_iff {scope : Scope} {key : String} {read : Reader α}
    {absent omitted : Option α} {value : α} :
    (field key read absent omitted).Yields scope false (inObject fields) value ↔
      match fields.lookup key with
      | some json => read scope (ofJson json) = .ok value
      | none => absent = some value := by
  rw [yields_field_iff, inObject, locateKey_eq_lookup, lookup_ofJsonFields]
  cases fields.lookup key <;> rfl

/-- Two parts of a record are both read from the fields of an object. -/
theorem Yields.seq {scope : Scope} {f : Shape (α → β)} {g : α → β} {a : Shape α} {x : α}
    (hf : f.Yields scope false (inObject fields) g)
    (ha : a.Yields scope false (inObject fields) x) :
    (f <*> a).Yields scope false (inObject fields) (g x) :=
  yields_seq_iff.mpr ⟨g, hf, x, ha, rfl⟩

theorem Yields.map {scope : Scope} {f : α → β} {a : Shape α} {x : α}
    (h : a.Yields scope false (inObject fields) x) :
    (f <$> a).Yields scope false (inObject fields) (f x) :=
  yields_map_iff.mpr ⟨x, h, rfl⟩

/-- The fields of a record are read from those of an object as this value. -/
def ReadsFrom (shape : Shape α) (fields : List (String × Json)) (value : α) : Prop :=
  shape.Yields (.top .json) false (fun _ key => locateKey key 0 (ofJsonFields fields)) value

theorem readsFrom_map_iff {f : α → β} {a : Shape α} {value : β} :
    (f <$> a).ReadsFrom fields value ↔ ∃ x, a.ReadsFrom fields x ∧ f x = value :=
  yields_map_iff

theorem readsFrom_seq_iff {f : Shape (α → β)} {a : Shape α} {value : β} :
    (f <*> a).ReadsFrom fields value ↔
      ∃ g, f.ReadsFrom fields g ∧ ∃ x, a.ReadsFrom fields x ∧ g x = value :=
  yields_seq_iff

theorem readsFrom_field_iff {key : String} {read : Reader α} {absent omitted : Option α}
    {value : α} : (field key read absent omitted).ReadsFrom fields value ↔
      match fields.lookup key with
      | some json => read (.top .json) (ofJson json) = .ok value
      | none => absent = some value :=
  yields_inObject_iff

/-! ## Records -/

/-- A record is read from an object without repeated keys as what its fields are read as. -/
theorem readTable_iff {shape : Shape α} {scope : Scope} {value : α}
    (h : (fields.map (·.1)).Nodup) :
    shape.readTable scope (ofJsonFields fields) true = .ok value ↔
      shape.Yields scope false (inObject fields) value := by
  unfold readTable Yields inObject
  rw [tableFlaw_ofJsonFields shape.keys 0 [] fields h fun _ _ => List.not_mem_nil]
  cases shape.fields scope false _ <;> simp [Outcome.conclude]

theorem read_object_iff {shape : Shape α} {value : α} (h : (fields.map (·.1)).Nodup) :
    shape.read (.top .json) (ofJson (.object fields)) = .ok value ↔
      shape.ReadsFrom fields value :=
  readTable_iff h

/-- Whatever a record is read from, its fields are read as what it is from where they stand. -/
theorem yields_of_read {shape : Shape α} {scope : Scope} {document : Document} {value : α}
    (h : shape.read scope document = .ok value) :
    ∃ inner positional locate, scope.inside = .ok inner ∧
      shape.Yields inner positional locate value ∧
      ∀ place key, (locate place key).map (·.2) = document.field? place key := by
  cases document with
  | table entries closed =>
    obtain ⟨inner, hinner, h⟩ := bind_ok_iff.mp h
    exact ⟨inner, _, _, hinner, Outcome.eq_good_of_conclude h,
      fun _ key => locateKey_eq_lookup key 0 entries⟩
  | sequence items closed =>
    obtain ⟨inner, hinner, h⟩ := bind_ok_iff.mp h
    refine ⟨inner, _, _, hinner, Outcome.eq_good_of_conclude h, fun place _ => ?_⟩
    rw [Option.map_map]
    exact Option.map_id'
  | _ => cases h

end Shape

end PriceQuote
