import Mathlib.Data.List.Forall2
import PriceQuote.Wire.Quote

/-!
# Layouts

What is written of a value is the same value to a reader when the keys of its structures stand in
another order and others that the structure does not know stand among them. Free-form values are
taken as they are.

* `Layout`: where the structures of a JSON value are, and which keys each of them knows;
* `Layout.Varies`: a JSON value against another that differs from it only so;
* `HoldsVaried`, `Varies.of_record`, `Varies.of_tagged`: what is found under the known keys then;
* `Layout.product` and others: the layouts of what travels.
-/

namespace PriceQuote

/-- Where the structures of a JSON value are. A structure has the keys that it knows, and layouts of
what is under some of them; what is under the others is free. -/
inductive Layout where
  | free
  | list (item : Layout)
  | record (keys : List String) (inner : List (String × Layout))
  | tagged (keys : String → List String) (inner : List (String × Layout))
  | condition

namespace Layout

open Wire

/-- The layout of what is under a key. -/
def under (inner : List (String × Layout)) (key : String) : Layout :=
  (inner.lookup key).getD .free

/-- The keys of the condition with a certain name. -/
def conditionKeys (name : String) : List String :=
  ((conditionShape? (fun _ _ => .error .mismatch) name).map (·.keys)).getD []

def adjustmentKeys (name : String) : List String :=
  ((adjustmentShape? name).map (·.keys)).getD []

/-- The layouts of what conditions hold. -/
def conditionInner : List (String × Layout) :=
  [("conditions", .list .condition), ("condition", .condition)]

mutual

/-- A value and what becomes of it when the keys of its structures are put into another order and
others that a structure does not know are added to it. -/
inductive Varies : Layout → Json → Json → Prop
  | refl {layout : Layout} {json : Json} : Varies layout json json
  | list {item : Layout} {items items' : List Json} (h : ItemsVary item items items') :
    Varies (.list item) (.array items) (.array items')
  | record {keys : List String} {inner : List (String × Layout)}
    {fields varied extra fields' : List (String × Json)} (hvaried : FieldsVary inner fields varied)
    (hextra : ∀ field ∈ extra, field.1 ∉ keys) (hperm : fields'.Perm (varied ++ extra))
    (hnodup : (fields'.map (·.1)).Nodup) :
    Varies (.record keys inner) (.object fields) (.object fields')
  | tagged {keys : String → List String} {inner : List (String × Layout)} {name : String}
    {fields fields' : List (String × Json)}
    (htag : fields.lookup Tagged.tagKey = some (.string name))
    (h : Varies (.record (Tagged.tagKey :: keys name) inner) (.object fields) (.object fields')) :
    Varies (.tagged keys inner) (.object fields) (.object fields')
  | condition {json json' : Json} (h : Varies (.tagged conditionKeys conditionInner) json json') :
    Varies .condition json json'

/-- Something becomes of the items of a list. -/
inductive ItemsVary : Layout → List Json → List Json → Prop
  | nil {item : Layout} : ItemsVary item [] []
  | cons {item : Layout} {json json' : Json} {items items' : List Json} (h : Varies item json json')
    (hitems : ItemsVary item items items') : ItemsVary item (json :: items) (json' :: items')

/-- Something becomes of what is under the keys of a structure. -/
inductive FieldsVary : List (String × Layout) → List (String × Json) → List (String × Json) → Prop
  | nil {inner : List (String × Layout)} : FieldsVary inner [] []
  | cons {inner : List (String × Layout)} {key : String} {json json' : Json}
    {fields fields' : List (String × Json)} (h : Varies (under inner key) json json')
    (hfields : FieldsVary inner fields fields') :
    FieldsVary inner ((key, json) :: fields) ((key, json') :: fields')

end

/-! ## What is found -/

/-- Under keys that appear once, a key is looked up as what stands under it. -/
theorem lookup_eq_some_iff_mem {α : Type} {fields : List (String × α)} {key : String} {value : α}
    (h : (fields.map (·.1)).Nodup) : fields.lookup key = some value ↔ (key, value) ∈ fields := by
  induction fields with
  | nil => simp
  | cons field fields ih =>
    obtain ⟨hhead, htail⟩ := List.nodup_cons.mp h
    rw [List.lookup_cons, List.mem_cons]
    by_cases hkey : key = field.1
    · have hnot : (key, value) ∉ fields := fun hmem =>
        hhead (List.mem_map.mpr ⟨_, hmem, hkey⟩)
      rw [or_iff_left hnot, hkey, beq_self_eq_true]
      simp [Prod.ext_iff, eq_comm]
    · have hne : (key, value) ≠ field := fun he => hkey (congrArg Prod.fst he)
      rw [or_iff_right hne, beq_false_of_ne hkey]
      exact ih htail

theorem lookup_perm {α : Type} {fields fields' : List (String × α)} (hperm : fields.Perm fields')
    (h : (fields.map (·.1)).Nodup) (key : String) : fields.lookup key = fields'.lookup key := by
  have h' : (fields'.map (·.1)).Nodup := (hperm.map _).nodup_iff.mp h
  ext value
  rw [lookup_eq_some_iff_mem h, lookup_eq_some_iff_mem h', hperm.mem_iff]

theorem FieldsVary.lookup {inner : List (String × Layout)} {fields varied : List (String × Json)}
    (h : FieldsVary inner fields varied) (key : String) :
    Option.Rel (under inner key).Varies (fields.lookup key) (varied.lookup key) := by
  induction fields generalizing varied with
  | nil =>
    cases h
    exact .none
  | cons field fields ih =>
    cases h with
    | cons hvaries hfields =>
      rename_i name json json' varied
      rw [List.lookup_cons, List.lookup_cons]
      by_cases hkey : key = name
      · subst hkey
        rw [beq_self_eq_true]
        exact .some hvaries
      · rw [beq_false_of_ne hkey]
        exact ih hfields

theorem FieldsVary.refl {inner : List (String × Layout)} :
    ∀ fields : List (String × Json), FieldsVary inner fields fields
  | [] => .nil
  | _ :: fields => .cons .refl (FieldsVary.refl fields)

theorem ItemsVary.forall₂ {item : Layout} {items items' : List Json}
    (h : ItemsVary item items items') : List.Forall₂ item.Varies items items' := by
  induction items generalizing items' with
  | nil =>
    cases h
    exact .nil
  | cons json items ih =>
    cases h with
    | cons hvaries hitems => exact .cons hvaries (ih hitems)

/-- Fields hold under the keys of a structure what has become of others. -/
structure HoldsVaried (keys : List String) (inner : List (String × Layout))
    (fields fields' : List (String × Json)) : Prop where
  nodup : (fields'.map (·.1)).Nodup
  lookup : ∀ key ∈ keys, Option.Rel (under inner key).Varies (fields.lookup key)
    (fields'.lookup key)

section

variable {keys : List String} {inner : List (String × Layout)} {fields : List (String × Json)}

theorem HoldsVaried.refl (h : (fields.map (·.1)).Nodup) : HoldsVaried keys inner fields fields where
  nodup := h
  lookup key _ := by
    cases fields.lookup key with
    | none => exact .none
    | some json => exact .some .refl

theorem Varies.of_free {json json' : Json} (h : Varies .free json json') : json' = json := by
  cases h
  rfl

theorem Varies.of_list {item : Layout} {items : List Json} {json : Json}
    (h : Varies (.list item) (.array items) json) :
    ∃ items', json = .array items' ∧ List.Forall₂ item.Varies items items' := by
  cases h with
  | refl => exact ⟨items, rfl, List.forall₂_same.mpr fun _ _ => .refl⟩
  | list h => exact ⟨_, rfl, h.forall₂⟩

theorem Varies.of_record {json : Json} (h : Varies (.record keys inner) (.object fields) json)
    (hnodup : (fields.map (·.1)).Nodup) :
    ∃ fields', json = .object fields' ∧ HoldsVaried keys inner fields fields' := by
  cases h with
  | refl => exact ⟨fields, rfl, .refl hnodup⟩
  | record hvaried hextra hperm hnodup' =>
    rename_i varied extra fields'
    refine ⟨fields', rfl, hnodup', fun key hkey => ?_⟩
    have hnone : extra.lookup key = none := by
      rw [List.lookup_eq_none_iff]
      intro field hfield
      have hne : key ≠ field.1 := fun he => hextra field hfield (he ▸ hkey)
      simpa using hne
    rw [lookup_perm hperm hnodup', List.lookup_append, hnone, Option.or_none]
    exact hvaried.lookup key

theorem Varies.of_tagged {keys : String → List String} {name : String} {json : Json}
    (h : Varies (.tagged keys inner) (.object fields) json) (hnodup : (fields.map (·.1)).Nodup)
    (htag : fields.lookup Tagged.tagKey = some (.string name)) :
    ∃ fields', json = .object fields' ∧
      HoldsVaried (Tagged.tagKey :: keys name) inner fields fields' := by
  cases h with
  | refl => exact ⟨fields, rfl, .refl hnodup⟩
  | tagged htag' h =>
    obtain rfl : name = _ := Json.string.inj (Option.some.inj (htag.symm.trans htag'))
    exact h.of_record hnodup

theorem Varies.of_condition {json json' : Json} (h : Varies .condition json json') :
    Varies (.tagged conditionKeys conditionInner) json json' := by
  cases h with
  | refl => exact .refl
  | condition h => exact h

end

/-! ## Layouts of what travels -/

def addOn : Layout :=
  .record addOnShape.keys []

def product : Layout :=
  .record productShape.keys [("options", .list addOn)]

def advisory : Layout :=
  .record advisoryShape.keys []

def validation : Layout :=
  .record validationShape.keys [("errors", .list (.record issueShape.keys [])),
    ("warnings", .list (.record issueShape.keys []))]

def batch : Layout :=
  .record batchShape.keys
    [("items", .list (.record itemValidationShape.keys [("result", validation)]))]

def configuration : Layout :=
  .record configurationShape.keys []

def request : Layout :=
  .record requestShape.keys [("configurations", .list configuration)]

def itemPricing : Layout :=
  .record itemPricingShape.keys [("appliedRules", .list (.record appliedRuleShape.keys []))]

def lineItem : Layout :=
  .record lineItemShape.keys [("selectedOptions", .list (.record selectedAddOnShape.keys [])),
    ("discounts", .list (.record discountShape.keys []))]

def quote : Layout :=
  .record (quoteShape : Shape (Quote String)).keys [("items", .list lineItem),
    ("metadata", .record metadataShape.keys [])]

def adjustment : Layout :=
  .tagged adjustmentKeys []

def rule : Layout :=
  .record ruleShape.keys [("when", .condition), ("adjust", adjustment)]

def summary : Layout :=
  .record summaryShape.keys []

end Layout

end PriceQuote
