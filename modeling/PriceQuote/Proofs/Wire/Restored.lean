import PriceQuote.Proofs.Document.Record
import PriceQuote.Proofs.Json.Written
import PriceQuote.Wire.Catalog
import PriceQuote.Wire.Rule

/-!
# Values that are restored

A value is restored when what is written of it is read as the value. A record is when each of its
fields is, a list when each of its items is, and a number when it is finite.

* `Wire.Restored`, `restored_list_iff`, `restored_binary64_iff`;
* `lookup_put`, `lookup_putSome`, `lookup_putFields`: what is written under a key;
* `readsFrom_field_iff`, `readsFrom_field?_iff`, `readsFrom_freeFields`: what the fields of a record
  are read as from what was written;
* `restored_record_iff`: a record is restored if its fields are read as they were.
-/

namespace PriceQuote.Wire

open Document (ofJson)

section

variable {α : Type} [Wire α]

/-- What is written of a value is read as the value. -/
def Restored (value : α) : Prop :=
  (read : Reader α) (.top .json) (ofJson (encode value).asWritten) = .ok value

/-! ## Single values -/

theorem restored_string (text : String) : Restored text := rfl

theorem restored_productId (id : ProductId) : Restored id := rfl

theorem restored_addOnId (id : AddOnId) : Restored id := rfl

theorem restored_ruleId (id : RuleId) : Restored id := rfl

theorem natural_ofNat {n greatest : Nat} (h : n ≤ greatest) (scope : Scope) :
    Reader.natural greatest scope (.number (.integer n)) = .ok n := by
  show (if (0 : Int) ≤ n ∧ (n : Int) ≤ greatest then Except.ok (n : Int)
    else .error Fault.mismatch).map Int.toNat = .ok n
  rw [if_pos (by omega)]
  exact congrArg Except.ok (Int.toNat_natCast n)

theorem restored_uint32 (n : UInt32) : Restored n := by
  show (Reader.natural _ (.top .json) (.number (.integer n.toNat))).map UInt32.ofNat = .ok n
  rw [natural_ofNat (by have := n.toNat_lt; simp only [UInt32.size]; omega)]
  exact congrArg Except.ok UInt32.ofNat_toNat

theorem restored_binary64_iff {x : Binary64} : Restored x ↔ x.isFinite = true := by
  show Reader.binary64 (.top .json) (ofJson (if x.isFinite then .float x else .null)) = .ok x ↔ _
  cases x.isFinite with
  | true => exact ⟨fun _ => rfl, fun _ => rfl⟩
  | false => exact ⟨nofun, nofun⟩

theorem restored_list_iff {values : List α} :
    Restored values ↔ ∀ value ∈ values, Restored value := by
  have hitems : ofJson (encode values).asWritten =
      .sequence (values.map fun value => ofJson (encode value).asWritten) true := by
    show Document.sequence (Document.ofJsonItems (Json.itemsAsWritten (values.map encode))) true = _
    rw [Json.itemsAsWritten_eq_map, Document.ofJsonItems_eq_map, List.map_map, List.map_map]
    rfl
  have hread : (read : Reader (List α)) (.top .json) (ofJson (encode values).asWritten) =
      (values.map fun value => ofJson (encode value).asWritten).mapM
        ((read : Reader α) (.top .json)) := by
    rw [hitems]
    show (List.mapM ((read : Reader α) (.top .json)) _ >>= Document.close true) = _
    cases List.mapM ((read : Reader α) (.top .json)) _ <;> rfl
  rw [Restored, hread, mapM_ok_iff, List.forall₂_map_left_iff, List.forall₂_same]
  rfl

/-! ## Written fields -/

variable {key : String} {entries : List (String × Json)}

theorem lookup_fieldsAsWritten (key : String) (entries : List (String × Json)) :
    (Json.fieldsAsWritten entries).lookup key = (entries.lookup key).map Json.asWritten := by
  induction entries with
  | nil => rfl
  | cons entry entries ih =>
    rw [Json.fieldsAsWritten, List.lookup_cons, List.lookup_cons, ih]
    cases key == entry.1 <;> rfl

theorem lookup_singleton {β : Type} (key name : String) (value : β) :
    [(name, value)].lookup key = if key = name then some value else none := by
  rw [List.lookup_cons]
  by_cases h : key = name
  · simp [h]
  · rw [beq_false_of_ne h, if_neg h, List.lookup_nil]

@[simp]
theorem lookup_put (key name : String) (value : α) :
    (put name value).lookup key = if key = name then some (encode value) else none := by
  rw [put, lookup_singleton]

@[simp]
theorem lookup_putSome (key name : String) (value : Option α) :
    (putSome name value).lookup key = if key = name then value.map encode else none := by
  cases value with
  | none => simp [putSome]
  | some value => rw [putSome, lookup_singleton, Option.map_some]

@[simp]
theorem lookup_putList (key name : String) (values : List α) :
    (putList name values).lookup key =
      if key = name ∧ values ≠ [] then some (encode values) else none := by
  unfold putList
  cases values with
  | nil => simp
  | cons value values => simp [lookup_singleton]

@[simp]
theorem lookup_putFields (key name : String) (fields : List (String × Json)) :
    (putFields name fields).lookup key =
      if key = name ∧ fields ≠ [] then some (.object fields) else none := by
  unfold putFields
  cases fields with
  | nil => simp
  | cons field fields => simp [lookup_singleton]

@[simp]
theorem lookup_fieldOf {β : Type} (f : β → Json) (key name : String) (value : Option β) :
    (Json.fieldOf f name value).lookup key = if key = name then value.map f else none := by
  cases value with
  | none => simp [Json.fieldOf]
  | some value => rw [Json.fieldOf, lookup_singleton, Option.map_some]

theorem keys_putSome_sublist (name : String) (value : Option α) :
    ((putSome name value).map (·.1)).Sublist [name] := by
  cases value with
  | none => exact List.nil_sublist _
  | some value => exact List.Sublist.refl _

theorem keys_putList_sublist (name : String) (values : List α) :
    ((putList name values).map (·.1)).Sublist [name] := by
  cases values with
  | nil => exact List.nil_sublist _
  | cons value values => exact List.Sublist.refl _

theorem keys_putFields_sublist (name : String) (fields : List (String × Json)) :
    ((putFields name fields).map (·.1)).Sublist [name] := by
  cases fields with
  | nil => exact List.nil_sublist _
  | cons field fields => exact List.Sublist.refl _

theorem keys_fieldOf_sublist {β : Type} (f : β → Json) (name : String) (value : Option β) :
    ((Json.fieldOf f name value).map (·.1)).Sublist [name] := by
  cases value with
  | none => exact List.nil_sublist _
  | some value => exact List.Sublist.refl _

theorem keys_append_sublist {entries' : List (String × Json)} {names names' : List String}
    (h : (entries.map (·.1)).Sublist names) (h' : (entries'.map (·.1)).Sublist names') :
    ((entries ++ entries').map (·.1)).Sublist (names ++ names') := by
  rw [List.map_append]
  exact h.append h'

/-! ## Fields that are read -/

/-- A field that was written is read as it was if it is restored. -/
theorem readsFrom_field_iff {value : α} (h : entries.lookup key = some (encode value)) :
    (field key).ReadsFrom (Json.fieldsAsWritten entries) value ↔ Restored value := by
  rw [field, Shape.required, Shape.readsFrom_field_iff, lookup_fieldsAsWritten, h]
  rfl

theorem readsFrom_fieldOr_iff {value absent : α} (h : entries.lookup key = some (encode value)) :
    (fieldOr key absent).ReadsFrom (Json.fieldsAsWritten entries) value ↔ Restored value := by
  rw [fieldOr, Shape.defaulted, Shape.readsFrom_field_iff, lookup_fieldsAsWritten, h]
  rfl

/-- A field that was written where it has a value is read as it was if the value is restored, as
long as values of its type are not read from `null`. -/
theorem readsFrom_field?_iff {value : Option α} (h : entries.lookup key = value.map encode)
    (hnull : ∀ value : α, (read : Reader α) (.top .json) .null ≠ .ok value) :
    (field? key).ReadsFrom (Json.fieldsAsWritten entries) value ↔
      ∀ value' ∈ value, Restored value' := by
  rw [field?, Shape.optional, Shape.readsFrom_field_iff, lookup_fieldsAsWritten, h]
  cases value with
  | none => simp
  | some value =>
    simp only [Option.map_some, Option.mem_some_iff, forall_eq']
    refine Reader.optional_eq_some_iff.trans (and_iff_right_of_imp fun hread => ?_)
    rintro hdocument
    exact hnull value (hdocument ▸ hread)

theorem readsFrom_freeFields {fields : List (String × Json)}
    (h : entries.lookup key = if fields ≠ [] then some (.object fields) else none)
    (hcanonical : (Json.object fields).IsCanonical) :
    (freeFields key).ReadsFrom (Json.fieldsAsWritten entries) fields := by
  rw [freeFields, Shape.defaulted, Shape.readsFrom_field_iff, lookup_fieldsAsWritten, h]
  by_cases hempty : fields = []
  · simp [hempty]
  · rw [if_pos hempty, Option.map_some]
    show Reader.fields (.top .json) (ofJson (Json.object fields).asWritten) = .ok fields
    rw [Json.asWritten_of_isCanonical _ hcanonical]
    exact Json.fields_ofJson rfl hcanonical

end

/-- A record that is written under keys of its own and in their order is restored if its fields are
read as they were. -/
theorem restored_record_iff {α : Type} [Wire α] {shape : Shape α} {entries : List (String × Json)}
    {value : α} (hread : (read : Reader α) = shape.read) (hencode : encode value = .object entries)
    (hkeys : (entries.map (·.1)).Sublist shape.keys) (hnodup : shape.keys.Nodup) :
    Restored value ↔ shape.ReadsFrom (Json.fieldsAsWritten entries) value := by
  rw [Restored, hread, hencode]
  refine Shape.read_object_iff ?_
  rw [Json.keys_fieldsAsWritten]
  exact hkeys.nodup hnodup

end PriceQuote.Wire
