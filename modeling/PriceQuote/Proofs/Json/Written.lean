import Mathlib.Data.List.Induction
import Mathlib.Data.String.Basic
import Mathlib.Order.Basic
import PriceQuote.Document.Reader
import PriceQuote.Json.Printer
import PriceQuote.Proofs.Fallible

/-!
# What is written of a value, and what is read of it

JSON has no text for a number that is not finite, so `null` is written in its place.

* `asWritten`, `toText_asWritten`: a value with `null` in place of such numbers, which has the same
  text;
* `IsCanonical`: there are no such numbers, and fields are sorted by key, each key once;
* `freeForm_ofJson`, `fields_ofJson`: what is canonical is read as what it is;
* `exists_freeForm_ofJson`: anything can be read;
* `isCanonical_of_freeForm`, `isCanonical_of_fields`: whatever is read is canonical.
-/

namespace PriceQuote.Json

/-! ## Numbers without a text -/

mutual

/-- A value as it is written: without numbers that are not finite. -/
def asWritten : Json → Json
  | .null => .null
  | .bool value => .bool value
  | .integer value => .integer value
  | .float value => if value.isFinite then .float value else .null
  | .string value => .string value
  | .array items => .array (itemsAsWritten items)
  | .object fields => .object (fieldsAsWritten fields)

def itemsAsWritten : List Json → List Json
  | [] => []
  | item :: items => item.asWritten :: itemsAsWritten items

def fieldsAsWritten : List (String × Json) → List (String × Json)
  | [] => []
  | (key, value) :: fields => (key, value.asWritten) :: fieldsAsWritten fields

end

mutual

/-- A value has the text of what is written of it. -/
theorem toText_asWritten : ∀ value : Json, value.asWritten.toText = value.toText
  | .null | .bool _ | .integer _ | .string _ => rfl
  | .float value => by
    rw [asWritten]
    split
    · rfl
    · rename_i h
      rw [toText, toText, floatText, if_neg h]
  | .array [] => rfl
  | .array (item :: items) => by
    rw [asWritten, itemsAsWritten, toText, toText, toText_asWritten item, itemsText_asWritten items]
  | .object [] => rfl
  | .object ((key, value) :: fields) => by
    rw [asWritten, fieldsAsWritten, toText, toText, toText_asWritten value,
      fieldsText_asWritten fields]

theorem itemsText_asWritten : ∀ items, itemsText (itemsAsWritten items) = itemsText items
  | [] => rfl
  | item :: items => by
    rw [itemsAsWritten, itemsText, itemsText, toText_asWritten item, itemsText_asWritten items]

theorem fieldsText_asWritten : ∀ fields, fieldsText (fieldsAsWritten fields) = fieldsText fields
  | [] => rfl
  | (key, value) :: fields => by
    rw [fieldsAsWritten, fieldsText, fieldsText, toText_asWritten value,
      fieldsText_asWritten fields]

end

theorem itemsAsWritten_eq_map (items : List Json) :
    itemsAsWritten items = items.map asWritten := by
  induction items with
  | nil => rfl
  | cons item items ih => rw [itemsAsWritten, ih, List.map_cons]

theorem keys_fieldsAsWritten (fields : List (String × Json)) :
    (fieldsAsWritten fields).map (·.1) = fields.map (·.1) := by
  induction fields with
  | nil => rfl
  | cons field fields ih => rw [fieldsAsWritten, List.map_cons, List.map_cons, ih]

/-! ## Values that are read as they are -/

mutual

/-- All numbers are finite, and the fields of objects are sorted by key, each key once. -/
def IsCanonical : Json → Prop
  | .float value => value.isFinite = true
  | .array items => AreCanonical items
  | .object fields => (fields.map (·.1)).Pairwise (· < ·) ∧ HoldCanonical fields
  | _ => True

def AreCanonical : List Json → Prop
  | [] => True
  | item :: items => item.IsCanonical ∧ AreCanonical items

/-- The values of fields are canonical. -/
def HoldCanonical : List (String × Json) → Prop
  | [] => True
  | (_, value) :: fields => value.IsCanonical ∧ HoldCanonical fields

end

mutual

/-- What is canonical is written as it is. -/
theorem asWritten_of_isCanonical : ∀ value : Json, value.IsCanonical → value.asWritten = value
  | .null, _ | .bool _, _ | .integer _, _ | .string _, _ => rfl
  | .float _, h => if_pos h
  | .array items, h => congrArg Json.array (itemsAsWritten_of_areCanonical items h)
  | .object fields, h => congrArg Json.object (fieldsAsWritten_of_holdCanonical fields h.2)

theorem itemsAsWritten_of_areCanonical : ∀ items, AreCanonical items →
    itemsAsWritten items = items
  | [], _ => rfl
  | item :: items, h => by
    rw [itemsAsWritten, asWritten_of_isCanonical item h.1,
      itemsAsWritten_of_areCanonical items h.2]

theorem fieldsAsWritten_of_holdCanonical : ∀ fields, HoldCanonical fields →
    fieldsAsWritten fields = fields
  | [], _ => rfl
  | (key, value) :: fields, h => by
    rw [fieldsAsWritten, asWritten_of_isCanonical value h.1,
      fieldsAsWritten_of_holdCanonical fields h.2]

end

/-! ## Sorted fields -/

section

variable {α : Type}

theorem insertField_of_last (key : String) (value : α) (fields : List (String × α))
    (h : ∀ field ∈ fields, field.1 < key) :
    insertField key value fields = fields ++ [(key, value)] := by
  induction fields with
  | nil => rfl
  | cons field fields ih =>
    have hlt := h field List.mem_cons_self
    rw [insertField, if_neg (lt_asymm hlt), if_neg (ne_of_gt hlt),
      ih fun other hother => h other (List.mem_cons_of_mem _ hother), List.cons_append]

theorem sortFields_of_sorted (fields : List (String × α))
    (h : (fields.map (·.1)).Pairwise (· < ·)) : sortFields fields = fields := by
  induction fields using List.reverseRecOn with
  | nil => rfl
  | append_singleton fields field ih =>
    rw [List.map_append, List.pairwise_append] at h
    obtain ⟨hfields, -, hlast⟩ := h
    unfold sortFields at ih ⊢
    rw [List.foldl_append, ih hfields, List.foldl_cons, List.foldl_nil]
    refine insertField_of_last _ _ _ fun other hother => ?_
    exact hlast _ (List.mem_map_of_mem hother) _ (by simp)

theorem mem_insertField {key : String} {value : α} {fields : List (String × α)}
    {field : String × α} (h : field ∈ insertField key value fields) :
    field = (key, value) ∨ field ∈ fields := by
  induction fields with
  | nil => exact .inl (List.mem_singleton.mp h)
  | cons other fields ih =>
    rw [insertField] at h
    split at h
    · exact List.mem_cons.mp h
    · split at h
      · exact (List.mem_cons.mp h).imp_right (List.mem_cons_of_mem _)
      · obtain rfl | h := List.mem_cons.mp h
        · exact .inr List.mem_cons_self
        · exact (ih h).imp_right (List.mem_cons_of_mem _)

theorem sorted_insertField (key : String) (value : α) {fields : List (String × α)}
    (h : (fields.map (·.1)).Pairwise (· < ·)) :
    ((insertField key value fields).map (·.1)).Pairwise (· < ·) := by
  induction fields with
  | nil => exact List.pairwise_singleton _ _
  | cons other fields ih =>
    obtain ⟨hhead, htail⟩ := List.pairwise_cons.mp h
    rw [insertField]
    split
    · rename_i hlt
      refine List.pairwise_cons.mpr ⟨fun name hname => ?_, h⟩
      obtain rfl | hname := List.mem_cons.mp hname
      · exact hlt
      · exact lt_trans hlt (hhead name hname)
    · rename_i hnot
      split
      · rename_i heq
        exact List.pairwise_cons.mpr ⟨heq ▸ hhead, htail⟩
      · rename_i hne
        refine List.pairwise_cons.mpr ⟨fun name hname => ?_, ih htail⟩
        obtain ⟨field, hfield, rfl⟩ := List.mem_map.mp hname
        obtain rfl | hfield := mem_insertField hfield
        · exact lt_of_le_of_ne (not_lt.mp hnot) (Ne.symm hne)
        · exact hhead _ (List.mem_map_of_mem hfield)

/-- Sorting sorts, and adds nothing. -/
theorem sorted_sortFields (fields : List (String × α)) :
    ((sortFields fields).map (·.1)).Pairwise (· < ·) ∧
      ∀ field ∈ sortFields fields, field ∈ fields := by
  induction fields using List.reverseRecOn with
  | nil => exact ⟨List.Pairwise.nil, fun _ h => h⟩
  | append_singleton fields field ih =>
    unfold sortFields at ih ⊢
    rw [List.foldl_append, List.foldl_cons, List.foldl_nil]
    refine ⟨sorted_insertField _ _ ih.1, fun other hother => ?_⟩
    rw [List.mem_append]
    obtain rfl | hother := mem_insertField hother
    · exact .inr List.mem_cons_self
    · exact .inl (ih.2 other hother)

end

theorem holdCanonical_iff {fields : List (String × Json)} :
    HoldCanonical fields ↔ ∀ field ∈ fields, field.2.IsCanonical := by
  induction fields with
  | nil => simp [HoldCanonical]
  | cons field fields ih => rw [HoldCanonical, ih, List.forall_mem_cons]

/-- Sorting keeps what is under the keys canonical. -/
theorem isCanonical_ofFields {fields : List (String × Json)} (h : HoldCanonical fields) :
    (Json.object (sortFields fields)).IsCanonical := by
  obtain ⟨hsorted, hmem⟩ := sorted_sortFields fields
  exact ⟨hsorted, holdCanonical_iff.mpr fun field hfield =>
    holdCanonical_iff.mp h field (hmem field hfield)⟩

/-! ## Reading -/

open Reader (freeForm freeFormItems freeFormEntries)
open Document (ofJson ofJsonItems ofJsonFields)

/-- JSON values may be nested to any depth. -/
theorem inside_json {scope : Scope} (h : scope.origin = .json) : scope.inside = .ok scope := by
  unfold Scope.inside
  rw [if_neg]
  rintro ⟨htext, -⟩
  rw [h] at htext
  cases htext

mutual

/-- What is canonical is read as what it is. -/
theorem freeForm_ofJson {scope : Scope} (hscope : scope.origin = .json) :
    ∀ value : Json, value.IsCanonical → freeForm scope (ofJson value) = .ok value
  | .null, _ | .bool _, _ | .integer _, _ | .string _, _ => rfl
  | .float value, h => by
    rw [ofJson, freeForm, if_pos (show value.isFinite = true from h)]
  | .array items, h => by
    rw [ofJson, freeForm, inside_json hscope]
    show (freeFormItems scope (ofJsonItems items) >>= fun items =>
      Document.close true (array items)) = _
    rw [freeFormItems_ofJsonItems hscope items h]
    rfl
  | .object fields, h => by
    rw [ofJson, freeForm, inside_json hscope]
    show (freeFormEntries scope (ofJsonFields fields) >>= fun fields =>
      Document.close true (ofFields fields)) = _
    rw [freeFormEntries_ofJsonFields hscope fields h.2]
    show Except.ok (object (sortFields fields)) = _
    rw [sortFields_of_sorted fields h.1]

theorem freeFormItems_ofJsonItems {scope : Scope} (hscope : scope.origin = .json) :
    ∀ items, AreCanonical items → freeFormItems scope (ofJsonItems items) = .ok items
  | [], _ => rfl
  | item :: items, h => by
    rw [ofJsonItems, freeFormItems, freeForm_ofJson hscope item h.1,
      freeFormItems_ofJsonItems hscope items h.2]
    rfl

theorem freeFormEntries_ofJsonFields {scope : Scope} (hscope : scope.origin = .json) :
    ∀ fields, HoldCanonical fields → freeFormEntries scope (ofJsonFields fields) = .ok fields
  | [], _ => rfl
  | (key, value) :: fields, h => by
    rw [ofJsonFields, freeFormEntries, freeForm_ofJson hscope value h.1,
      freeFormEntries_ofJsonFields hscope fields h.2]
    rfl

end

mutual

/-- Any JSON value can be looked through. -/
theorem exists_freeForm_ofJson {scope : Scope} (hscope : scope.origin = .json) :
    ∀ value : Json, ∃ result, freeForm scope (ofJson value) = .ok result
  | .null | .bool _ | .integer _ | .float _ | .string _ => ⟨_, rfl⟩
  | .array items => by
    obtain ⟨results, hresults⟩ := exists_freeFormItems_ofJsonItems hscope items
    rw [ofJson, freeForm, inside_json hscope]
    exact ⟨_, bind_ok_iff.mpr ⟨_, rfl, bind_ok_iff.mpr ⟨results, hresults, rfl⟩⟩⟩
  | .object fields => by
    obtain ⟨results, hresults⟩ := exists_freeFormEntries_ofJsonFields hscope fields
    rw [ofJson, freeForm, inside_json hscope]
    exact ⟨_, bind_ok_iff.mpr ⟨_, rfl, bind_ok_iff.mpr ⟨results, hresults, rfl⟩⟩⟩

theorem exists_freeFormItems_ofJsonItems {scope : Scope} (hscope : scope.origin = .json) :
    ∀ items : List Json, ∃ results, freeFormItems scope (ofJsonItems items) = .ok results
  | [] => ⟨_, rfl⟩
  | item :: items => by
    obtain ⟨result, hresult⟩ := exists_freeForm_ofJson hscope item
    obtain ⟨results, hresults⟩ := exists_freeFormItems_ofJsonItems hscope items
    exact ⟨_, bind_ok_iff.mpr ⟨result, hresult, bind_ok_iff.mpr ⟨results, hresults, rfl⟩⟩⟩

theorem exists_freeFormEntries_ofJsonFields {scope : Scope} (hscope : scope.origin = .json) :
    ∀ fields : List (String × Json), ∃ results,
      freeFormEntries scope (ofJsonFields fields) = .ok results
  | [] => ⟨_, rfl⟩
  | (key, value) :: fields => by
    obtain ⟨result, hresult⟩ := exists_freeForm_ofJson hscope value
    obtain ⟨results, hresults⟩ := exists_freeFormEntries_ofJsonFields hscope fields
    exact ⟨_, bind_ok_iff.mpr ⟨result, hresult, bind_ok_iff.mpr ⟨results, hresults, rfl⟩⟩⟩

end

theorem fields_ofJson {scope : Scope} (hscope : scope.origin = .json)
    {fields : List (String × Json)} (h : (object fields).IsCanonical) :
    Reader.fields scope (ofJson (object fields)) = .ok fields := by
  rw [ofJson, Reader.fields, inside_json hscope]
  show (freeFormEntries scope (ofJsonFields fields) >>= fun fields =>
    Document.close true (sortFields fields)) = .ok fields
  rw [freeFormEntries_ofJsonFields hscope fields h.2]
  exact congrArg Except.ok (sortFields_of_sorted fields h.1)

/-- What a step that closes a sequence or table comes to. -/
theorem close_eq_ok_iff {α : Type} {closed : Bool} {value value' : α} :
    Document.close closed value = .ok value' ↔ closed = true ∧ value = value' := by
  cases closed <;> simp [Document.close]

mutual

/-- Whatever is read is canonical. -/
theorem isCanonical_of_freeForm {scope : Scope} : ∀ (document : Document) {value : Json},
    freeForm scope document = .ok value → value.IsCanonical
  | .null, _, h | .bool _, _, h | .number (.integer _), _, h | .text (some _), _, h => by
    rw [freeForm] at h
    cases h
    trivial
  | .number (.float x), _, h => by
    rw [freeForm] at h
    cases h
    split
    · assumption
    · trivial
  | .number .outOfRange, _, h | .text none, _, h | .fault, _, h => by
    rw [freeForm] at h
    cases h
  | .sequence items closed, _, h => by
    rw [freeForm] at h
    obtain ⟨inner, -, h⟩ := bind_ok_iff.mp h
    obtain ⟨values, hvalues, h⟩ := bind_ok_iff.mp h
    obtain ⟨-, rfl⟩ := close_eq_ok_iff.mp h
    exact areCanonical_of_freeFormItems items hvalues
  | .table entries closed, _, h => by
    rw [freeForm] at h
    obtain ⟨inner, -, h⟩ := bind_ok_iff.mp h
    obtain ⟨fields, hfields, h⟩ := bind_ok_iff.mp h
    obtain ⟨-, rfl⟩ := close_eq_ok_iff.mp h
    exact isCanonical_ofFields (holdCanonical_of_freeFormEntries entries hfields)

theorem areCanonical_of_freeFormItems {scope : Scope} : ∀ (items : List Document)
    {values : List Json}, freeFormItems scope items = .ok values → AreCanonical values
  | [], _, h => by
    cases h
    trivial
  | item :: items, _, h => by
    rw [freeFormItems] at h
    obtain ⟨value, hvalue, h⟩ := bind_ok_iff.mp h
    obtain ⟨values, hvalues, h⟩ := bind_ok_iff.mp h
    cases h
    exact ⟨isCanonical_of_freeForm item hvalue, areCanonical_of_freeFormItems items hvalues⟩

theorem holdCanonical_of_freeFormEntries {scope : Scope} :
    ∀ (entries : List (Option String × Document)) {fields : List (String × Json)},
      freeFormEntries scope entries = .ok fields → HoldCanonical fields
  | [], _, h => by
    cases h
    trivial
  | (none, _) :: _, _, h => by
    rw [freeFormEntries] at h
    cases h
  | (some key, document) :: entries, _, h => by
    rw [freeFormEntries] at h
    obtain ⟨value, hvalue, h⟩ := bind_ok_iff.mp h
    obtain ⟨fields, hfields, h⟩ := bind_ok_iff.mp h
    cases h
    exact ⟨isCanonical_of_freeForm document hvalue,
      holdCanonical_of_freeFormEntries entries hfields⟩

end

theorem isCanonical_of_fields {scope : Scope} {document : Document}
    {fields : List (String × Json)} (h : Reader.fields scope document = .ok fields) :
    (object fields).IsCanonical := by
  cases document with
  | table entries closed =>
    obtain ⟨inner, -, h⟩ := bind_ok_iff.mp h
    obtain ⟨unsorted, hread, h⟩ := bind_ok_iff.mp h
    obtain ⟨-, rfl⟩ := close_eq_ok_iff.mp h
    exact isCanonical_ofFields (holdCanonical_of_freeFormEntries entries hread)
  | _ => cases h

end PriceQuote.Json
