import Mathlib.Tactic.Common
import PriceQuote.Proofs.Document.Leaves
import PriceQuote.Proofs.Wire.Layout
import PriceQuote.Proofs.Wire.Restored

/-!
# Values that travel

A type travels when its values are read back from whatever becomes of what is written of them, as
long as they are proper, and when all that is read is proper. What is proper differs from type to
type: numbers are finite, and free-form values are such as are read.

* `Wire.Travels`: a type travels;
* `Travels.list`, `Travels.record`: so do lists and records of what travels;
* `yields_field`, `yields_field?`, `yields_freeFields`: the fields of a record that was written;
* `proper_of_field`, `proper_of_field?`, `proper_of_freeFields`: the fields of one that is read.
-/

namespace PriceQuote.Wire

open Document (ofJson ofJsonItems ofJsonFields)
open Layout (HoldsVaried)

/-- What is written of a proper value is read as the value whatever becomes of it, and whatever is
read is proper. -/
structure Travels (α : Type) [Wire α] (layout : Layout) (proper : α → Prop) : Prop where
  restores : ∀ {value : α}, proper value → ∀ {scope : Scope} {json : Json}, scope.origin = .json →
    layout.Varies (encode value).asWritten json →
      (read : Reader α) scope (ofJson json) = .ok value
  proper_of_read : ∀ {scope : Scope} {document : Document} {value : α}, document.IsFinite →
    (read : Reader α) scope document = .ok value → proper value

section

variable {α : Type} [Wire α] {layout : Layout} {proper : α → Prop}

/-! ## Single values -/

/-- A type of single values travels if they are read from what is written of them. -/
theorem Travels.of_free
    (hread : ∀ {value : α}, proper value → ∀ {scope : Scope}, scope.origin = .json →
      (read : Reader α) scope (ofJson (encode value).asWritten) = .ok value)
    (hproper : ∀ {scope : Scope} {document : Document} {value : α}, document.IsFinite →
      (read : Reader α) scope document = .ok value → proper value) :
    Travels α .free proper where
  restores hvalue _ _ hscope hvaries := by
    rw [hvaries.of_free]
    exact hread hvalue hscope
  proper_of_read := hproper

theorem Travels.free (h : Travels α layout proper) : Travels α .free proper :=
  .of_free (fun hvalue _ hscope => h.restores hvalue hscope .refl) h.proper_of_read

theorem travels_string : Travels String .free fun _ => True :=
  .of_free (fun _ _ _ => rfl) fun _ _ => trivial

theorem travels_productId : Travels ProductId .free fun _ => True :=
  .of_free (fun _ _ _ => rfl) fun _ _ => trivial

theorem travels_addOnId : Travels AddOnId .free fun _ => True :=
  .of_free (fun _ _ _ => rfl) fun _ _ => trivial

theorem travels_ruleId : Travels RuleId .free fun _ => True :=
  .of_free (fun _ _ _ => rfl) fun _ _ => trivial

theorem travels_bool : Travels Bool .free fun _ => True :=
  .of_free (fun _ _ _ => rfl) fun _ _ => trivial

theorem travels_ruleCategory : Travels RuleCategory .free fun _ => True := by
  refine .of_free (fun {category} _ _ _ => ?_) fun _ _ => trivial
  cases category <;> rfl

theorem natural_le {n greatest : Nat} {scope : Scope} {document : Document}
    (h : Reader.natural greatest scope document = .ok n) : n ≤ greatest := by
  obtain ⟨m, hm, rfl⟩ := map_ok_iff.mp h
  unfold Reader.integer at hm
  split at hm
  · split at hm
    · cases hm
      omega
    · cases hm
  · cases hm

theorem travels_uint32 : Travels UInt32 .free fun _ => True := by
  refine .of_free (fun {n} _ scope _ => ?_) fun _ _ => trivial
  show (Reader.natural _ scope (.number (.integer n.toNat))).map UInt32.ofNat = .ok n
  rw [natural_ofNat (by have := n.toNat_lt; simp only [UInt32.size]; omega)]
  exact congrArg Except.ok UInt32.ofNat_toNat

theorem travels_uint64 : Travels UInt64 .free fun _ => True := by
  refine .of_free (fun {n} _ scope _ => ?_) fun _ _ => trivial
  show (Reader.natural _ scope (.number (.integer n.toNat))).map UInt64.ofNat = .ok n
  rw [natural_ofNat (by have := n.toNat_lt; simp only [UInt64.size]; omega)]
  exact congrArg Except.ok UInt64.ofNat_toNat

theorem travels_int32 : Travels Int32 .free fun _ => True := by
  refine .of_free (fun {n} _ scope _ => ?_) fun _ _ => trivial
  show (if Int32.minValue.toInt ≤ n.toInt ∧ n.toInt ≤ Int32.maxValue.toInt then
    Except.ok n.toInt else .error Fault.mismatch).map Int32.ofInt = .ok n
  rw [if_pos ⟨n.minValue_le_toInt, n.toInt_le⟩]
  exact congrArg Except.ok n.ofInt_toInt

theorem travels_binary64 : Travels Binary64 .free fun x => x.isFinite = true := by
  refine .of_free (fun {x} hx scope _ => ?_) fun {scope document x} hfinite h => ?_
  · show Reader.binary64 scope (ofJson (if x.isFinite then .float x else .null)) = .ok x
    rw [if_pos hx]
    rfl
  · replace h : Reader.binary64 scope document = .ok x := h
    unfold Reader.binary64 at h
    split at h
    · exact Except.ok.inj h ▸ hfinite
    · exact Except.ok.inj h ▸ hfinite
    · cases h

theorem travels_json : Travels Json .free Json.IsCanonical := by
  refine .of_free (fun {json} hjson scope hscope => ?_) fun {scope document json} _ h => ?_
  · show Reader.freeForm scope (ofJson json.asWritten) = .ok json
    rw [Json.asWritten_of_isCanonical json hjson]
    exact Json.freeForm_ofJson hscope json hjson
  · exact Json.isCanonical_of_freeForm document h

/-! ## Lists -/

theorem encode_list (values : List α) :
    (encode values).asWritten = .array (values.map fun value => (encode value).asWritten) := by
  show Json.array (Json.itemsAsWritten (values.map encode)) = _
  rw [Json.itemsAsWritten_eq_map, List.map_map]
  rfl

omit [Wire α] in
theorem list_ofJson {read : Reader α} {scope : Scope} {items : List Json} {values : List α}
    (hscope : scope.origin = .json) (h : (ofJsonItems items).mapM (read scope) = .ok values) :
    Reader.list read scope (ofJson (.array items)) = .ok values := by
  show (scope.inside >>= fun scope => (ofJsonItems items).mapM (read scope) >>= fun values =>
    Document.close true values) = .ok values
  rw [Json.inside_json hscope]
  exact bind_ok_iff.mpr ⟨scope, rfl, bind_ok_iff.mpr ⟨values, h, rfl⟩⟩

omit [Wire α] in
theorem exists_of_mem_list {read : Reader α} {scope : Scope} {document : Document} {values : List α}
    (h : Reader.list read scope document = .ok values) {value : α} (hvalue : value ∈ values) :
    ∃ items closed, document = .sequence items closed ∧
      ∃ inner, ∃ item ∈ items, read inner item = .ok value := by
  cases document with
  | sequence items closed =>
    obtain ⟨inner, -, h⟩ := bind_ok_iff.mp h
    obtain ⟨values', hitems, h⟩ := bind_ok_iff.mp h
    obtain ⟨-, rfl⟩ := Json.close_eq_ok_iff.mp h
    obtain ⟨item, hitem, hread⟩ := exists_of_mem_mapM hitems hvalue
    exact ⟨items, closed, rfl, inner, item, hitem, hread⟩
  | _ => cases h

theorem Travels.mapM_read (h : Travels α layout proper) {values : List α}
    (hvalues : ∀ value ∈ values, proper value) {scope : Scope} (hscope : scope.origin = .json)
    {items : List Json}
    (hvaries :
      List.Forall₂ layout.Varies (values.map fun value => (encode value).asWritten) items) :
    (ofJsonItems items).mapM ((read : Reader α) scope) = .ok values := by
  rw [mapM_ok_iff, Document.ofJsonItems_eq_map, List.forall₂_map_left_iff]
  induction values generalizing items with
  | nil =>
    cases hvaries
    exact .nil
  | cons value values ih =>
    obtain ⟨hvalue, hvalues⟩ := List.forall_mem_cons.mp hvalues
    cases hvaries with
    | cons hhead htail => exact .cons (h.restores hvalue hscope hhead) (ih hvalues htail)

/-- Lists travel if their items do. -/
theorem Travels.list (h : Travels α layout proper) :
    Travels (List α) (.list layout) fun values => ∀ value ∈ values, proper value where
  restores {values} hvalues scope json hscope hvaries := by
    rw [encode_list] at hvaries
    obtain ⟨items, rfl, hitems⟩ := hvaries.of_list
    exact list_ofJson hscope (h.mapM_read hvalues hscope hitems)
  proper_of_read hfinite hread value hvalue := by
    obtain ⟨items, closed, rfl, inner, item, hitem, hread⟩ := exists_of_mem_list hread hvalue
    exact h.proper_of_read (Document.allItems_iff.mp hfinite item hitem) hread

theorem Travels.list_free (h : Travels α .free fun _ => True) :
    Travels (List α) .free fun _ => True :=
  .of_free (fun _ _ hscope => h.list.restores (fun _ _ => trivial) hscope .refl)
    fun _ _ => trivial

end

/-! ## Fields that are read from what was written -/

section

variable {α : Type} {keys : List String} {inner : List (String × Layout)} {layout : Layout}
  {scope : Scope} {key : String} {entries fields : List (String × Json)}

/-- A field is read from what has become of what was written of it. -/
theorem yields_of_varies {read : Reader α} {absent omitted : Option α} {value : α} {json : Json}
    (h : HoldsVaried keys inner (Json.fieldsAsWritten entries) fields)
    (hentry : entries.lookup key = some json)
    (hread : ∀ json', fields.lookup key = some json' → layout.Varies json.asWritten json' →
      read scope (ofJson json') = .ok value)
    (hlayout : Layout.under inner key = layout := by rfl) (hkey : key ∈ keys := by decide) :
    (Shape.field key read absent omitted).Yields scope false (Shape.inObject fields) value := by
  have hfound := h.lookup key hkey
  rw [lookup_fieldsAsWritten, hentry, Option.map_some, hlayout] at hfound
  rw [Shape.yields_inObject_iff]
  generalize hlookup : fields.lookup key = found at hfound
  cases hfound with
  | some hvaries => exact hread _ hlookup hvaries

/-- A field that was not written has the value that stands for it. -/
theorem yields_of_absent {read : Reader α} {absent omitted : Option α} {value : α}
    (h : HoldsVaried keys inner (Json.fieldsAsWritten entries) fields)
    (hentry : entries.lookup key = none) (habsent : absent = some value)
    (hkey : key ∈ keys := by decide) :
    (Shape.field key read absent omitted).Yields scope false (Shape.inObject fields) value := by
  have hfound := h.lookup key hkey
  rw [lookup_fieldsAsWritten, hentry, Option.map_none] at hfound
  rw [Shape.yields_inObject_iff]
  generalize fields.lookup key = found at hfound ⊢
  cases hfound
  exact habsent

variable [Wire α] {proper : α → Prop}

/-- A field that is always written. -/
theorem yields_field {value : α} (ht : Travels α layout proper) (hvalue : proper value)
    (hscope : scope.origin = .json)
    (h : HoldsVaried keys inner (Json.fieldsAsWritten entries) fields)
    (hlayout : Layout.under inner key = layout := by rfl) (hkey : key ∈ keys := by decide)
    (hentry : entries.lookup key = some (encode value) := by
      simp [List.lookup_append, List.lookup_cons]) :
    (field key : Shape α).Yields scope false (Shape.inObject fields) value :=
  yields_of_varies h hentry (fun _ _ => ht.restores hvalue hscope) hlayout hkey

theorem yields_fieldOr {value absent : α} (ht : Travels α layout proper) (hvalue : proper value)
    (hscope : scope.origin = .json)
    (h : HoldsVaried keys inner (Json.fieldsAsWritten entries) fields)
    (hlayout : Layout.under inner key = layout := by rfl) (hkey : key ∈ keys := by decide)
    (hentry : entries.lookup key = some (encode value) := by
      simp [List.lookup_append, List.lookup_cons]) :
    (fieldOr key absent).Yields scope false (Shape.inObject fields) value :=
  yields_of_varies h hentry (fun _ _ => ht.restores hvalue hscope) hlayout hkey

theorem yields_listOr {values : List α} (ht : Travels (List α) layout fun _ => True)
    (hscope : scope.origin = .json)
    (h : HoldsVaried keys inner (Json.fieldsAsWritten entries) fields)
    (hlayout : Layout.under inner key = layout := by rfl) (hkey : key ∈ keys := by decide)
    (hentry : entries.lookup key = if values ≠ [] then some (encode values) else none := by
      simp [List.lookup_append, List.lookup_cons]) :
    (fieldOr key []).Yields scope false (Shape.inObject fields) values := by
  by_cases hempty : values = []
  · rw [if_neg (not_not_intro hempty)] at hentry
    exact yields_of_absent h hentry (congrArg some hempty.symm) hkey
  · rw [if_pos hempty] at hentry
    exact yields_of_varies h hentry (fun _ _ => ht.restores trivial hscope) hlayout hkey

/-- A field that is written where it has a value, as long as none is read from `null`. -/
theorem yields_field? {value : Option α} (ht : Travels α layout proper)
    (hnull : ∀ x : α, (read : Reader α) scope .null ≠ .ok x) (hvalue : ∀ x ∈ value, proper x)
    (hscope : scope.origin = .json)
    (h : HoldsVaried keys inner (Json.fieldsAsWritten entries) fields)
    (hlayout : Layout.under inner key = layout := by rfl) (hkey : key ∈ keys := by decide)
    (hentry : entries.lookup key = value.map encode := by
      simp [List.lookup_append, List.lookup_cons]) :
    (field? key : Shape (Option α)).Yields scope false (Shape.inObject fields) value := by
  cases value with
  | none => exact yields_of_absent h hentry rfl hkey
  | some x =>
    refine yields_of_varies h hentry (fun json' _ hvaries => ?_) hlayout hkey
    have hread := ht.restores (hvalue x rfl) hscope hvaries
    refine Reader.optional_eq_some_iff.mpr ⟨fun hjson => ?_, hread⟩
    exact hnull x (hjson ▸ hread)

omit [Wire α] in
theorem yields_freeFields {values : List (String × Json)}
    (hvalues : (Json.object values).IsCanonical) (hscope : scope.origin = .json)
    (h : HoldsVaried keys inner (Json.fieldsAsWritten entries) fields)
    (hlayout : Layout.under inner key = .free := by rfl) (hkey : key ∈ keys := by decide)
    (hentry : entries.lookup key = if values ≠ [] then some (.object values) else none := by
      simp [List.lookup_append, List.lookup_cons]) :
    (freeFields key).Yields scope false (Shape.inObject fields) values := by
  by_cases hempty : values = []
  · rw [if_neg (not_not_intro hempty)] at hentry
    exact yields_of_absent h hentry (congrArg some hempty.symm) hkey
  · rw [if_pos hempty] at hentry
    refine yields_of_varies h hentry (fun json' _ hvaries => ?_) hlayout hkey
    rw [hvaries.of_free, Json.asWritten_of_isCanonical _ hvalues]
    exact Json.fields_ofJson hscope hvalues

end

/-! ## Fields that are proper -/

section

variable {α : Type} [Wire α] {layout : Layout} {proper : α → Prop} {scope : Scope}
  {positional : Bool} {locate : Locate} {key : String}

/-- Numbers are finite wherever a field of a record may stand. -/
def AreFinite (locate : Locate) : Prop :=
  ∀ place key document, (locate place key).map (·.2) = some document → document.IsFinite

theorem proper_of_field {value : α} (h : Travels α layout proper) (hfinite : AreFinite locate)
    (hread : (field key : Shape α).Yields scope positional locate value) : proper value := by
  obtain ⟨document, hdocument, hread⟩ := Shape.exists_of_yields_required hread
  exact h.proper_of_read (hfinite 0 key document hdocument) hread

theorem proper_of_fieldOr {value absent : α} (h : Travels α layout proper)
    (hfinite : AreFinite locate) (habsent : proper absent)
    (hread : (fieldOr key absent).Yields scope positional locate value) : proper value := by
  rw [fieldOr, Shape.defaulted, Shape.yields_field_iff] at hread
  split at hread
  · rename_i document hdocument
    exact h.proper_of_read (hfinite 0 key document hdocument) hread
  · cases positional <;> exact Option.some.inj hread ▸ habsent

theorem proper_of_field? {value : Option α} (h : Travels α layout proper)
    (hfinite : AreFinite locate)
    (hread : (field? key : Shape (Option α)).Yields scope positional locate value) :
    ∀ x ∈ value, proper x := by
  rintro x rfl
  obtain ⟨document, hdocument, hread⟩ := Shape.exists_of_yields_optional hread
  exact h.proper_of_read (hfinite 0 key document hdocument) hread

omit [Wire α] in
theorem proper_of_freeFields {values : List (String × Json)}
    (hread : (freeFields key).Yields scope positional locate values) :
    (Json.object values).IsCanonical := by
  rw [freeFields, Shape.defaulted, Shape.yields_field_iff] at hread
  split at hread
  · exact Json.isCanonical_of_fields hread
  · cases positional <;> exact Option.some.inj hread ▸ ⟨List.Pairwise.nil, trivial⟩

end

/-! ## Records -/

section

variable {α : Type}

/-- Records travel if their fields are read from what becomes of what was written of them, and if
what their fields are read as is proper. -/
theorem Travels.record [Wire α] {shape : Shape α} {keys : List String}
    {inner : List (String × Layout)} {proper : α → Prop} {entries : α → List (String × Json)}
    (hread : (read : Reader α) = shape.read)
    (hencode : ∀ value, encode value = .object (entries value))
    (hkeys : ∀ value, ((entries value).map (·.1)).Sublist keys) (hnodup : keys.Nodup)
    (hyields : ∀ {value}, proper value → ∀ {scope fields}, scope.origin = .json →
      HoldsVaried keys inner (Json.fieldsAsWritten (entries value)) fields →
        shape.Yields scope false (Shape.inObject fields) value)
    (hproper : ∀ {scope positional locate value}, AreFinite locate →
      shape.Yields scope positional locate value → proper value) :
    Travels α (.record keys inner) proper where
  restores {value} hvalue scope json hscope hvaries := by
    rw [hencode] at hvaries
    have hkeys : ((Json.fieldsAsWritten (entries value)).map (·.1)).Nodup := by
      rw [Json.keys_fieldsAsWritten]
      exact (hkeys value).nodup hnodup
    obtain ⟨fields, rfl, hholds⟩ := hvaries.of_record hkeys
    rw [hread]
    show (scope.inside >>= fun scope => shape.readTable scope (ofJsonFields fields) true) =
      .ok value
    rw [Json.inside_json hscope]
    exact (Shape.readTable_iff hholds.nodup).mpr (hyields hvalue hscope hholds)
  proper_of_read {scope document value} hfinite hvalue := by
    rw [hread] at hvalue
    obtain ⟨inner, positional, locate, -, hyields, hlocate⟩ := Shape.yields_of_read hvalue
    refine hproper (fun place key document' hdocument => ?_) hyields
    exact Document.allLeaves_field? hfinite ((hlocate place key).symm.trans hdocument)

end

end PriceQuote.Wire
