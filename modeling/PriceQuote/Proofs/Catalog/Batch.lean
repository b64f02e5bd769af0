import PriceQuote.Catalog.Validation
import PriceQuote.Proofs.Distinct

/-!
# Validating several configurations

What a batch tells of its configurations, whatever the catalog:

* `AllValidate`, `validateBatch_isValid_iff`: a batch is valid when each configuration validates;
* `ListsInvalid`, `listsInvalid_failures`: its failures are the configurations that do not, each
  once and in order, under the place it has in the request;
* `exists_failure`, `errors_ne_nil_of_not_valid`: where one does not, some failure tells of one,
  and has errors to tell of;
* `find?_isSome_of_validate`, `find?_id`: the product of a configuration that validates is there,
  and has the id it was looked up by.
-/

namespace PriceQuote

namespace Catalog

/-! ## Products -/

theorem find?_id {catalog : Catalog} {id : ProductId} {product : Product}
    (h : catalog.find? id = some product) : product.id = id := by
  simpa using List.find?_some h

theorem find?_isSome_of_validate {catalog : Catalog} {id : ProductId} {selected : List AddOnId}
    (h : (catalog.validate id selected).isValid = true) :
    ∃ product, catalog.find? id = some product := by
  unfold validate at h
  cases hf : catalog.find? id with
  | some product => exact ⟨product, rfl⟩
  | none =>
    rw [hf] at h
    simp [Validation.ofIssues] at h

theorem isValid_eq_isEmpty (catalog : Catalog) (id : ProductId) (selected : List AddOnId) :
    (catalog.validate id selected).isValid = (catalog.validate id selected).errors.isEmpty := by
  unfold validate
  cases catalog.find? id with
  | none => rfl
  | some product => rfl

theorem errors_ne_nil_of_not_valid {catalog : Catalog} {id : ProductId} {selected : List AddOnId}
    (h : (catalog.validate id selected).isValid = false) :
    (catalog.validate id selected).errors ≠ [] := by
  rw [isValid_eq_isEmpty] at h
  simpa using h

/-! ## Batches -/

/-- A batch has an item for each configuration, at its place. -/
theorem mem_items_validateBatch_iff (catalog : Catalog) (configurations : List Configuration)
    (item : ItemValidation) :
    item ∈ (catalog.validateBatch configurations).items ↔
      ∃ configuration, configurations[item.index]? = some configuration ∧
        item = catalog.validateItem configuration item.index := by
  simp only [validateBatch, List.mem_map, Prod.exists, List.mem_zipIdx_iff_getElem?]
  constructor
  · rintro ⟨configuration, index, h, rfl⟩
    exact ⟨configuration, h, rfl⟩
  · rintro ⟨configuration, h, e⟩
    exact ⟨configuration, item.index, h, e.symm⟩

theorem items_validateBatch_pairwise (catalog : Catalog) (configurations : List Configuration) :
    (catalog.validateBatch configurations).items.Pairwise fun a b => a.index < b.index := by
  simp only [validateBatch, List.pairwise_map]
  exact pairwise_zipIdx configurations

/-- Each of some configurations validates. -/
def AllValidate (catalog : Catalog) (configurations : List Configuration) : Prop :=
  ∀ configuration ∈ configurations,
    (catalog.validate configuration.productId configuration.selected).isValid = true

instance (catalog : Catalog) (configurations : List Configuration) :
    Decidable (catalog.AllValidate configurations) :=
  inferInstanceAs (Decidable (∀ configuration ∈ configurations, _ = true))

theorem allValidate_singleton_iff {catalog : Catalog} {item : Configuration} :
    catalog.AllValidate [item] ↔ (catalog.validate item.productId item.selected).isValid = true :=
  List.forall_mem_singleton

/-- A batch is valid when each of its configurations validates. -/
theorem validateBatch_isValid_iff (catalog : Catalog) (configurations : List Configuration) :
    (catalog.validateBatch configurations).isValid = true ↔
      catalog.AllValidate configurations := by
  have hall : (catalog.validateBatch configurations).isValid =
      (catalog.validateBatch configurations).items.all fun item => item.result.isValid := rfl
  rw [hall, List.all_eq_true]
  constructor
  · intro h configuration hc
    obtain ⟨index, hi⟩ := List.mem_iff_getElem?.mp hc
    exact h (catalog.validateItem configuration index)
      ((mem_items_validateBatch_iff ..).mpr ⟨configuration, hi, rfl⟩)
  · intro h item hitem
    obtain ⟨configuration, hi, e⟩ := (mem_items_validateBatch_iff ..).mp hitem
    rw [e]
    exact h configuration (List.mem_of_getElem? hi)

/-- The list tells of the configurations that do not validate, and of nothing else: of each once
and in order, with its place, its product and what validating it finds. -/
structure ListsInvalid (catalog : Catalog) (configurations : List Configuration)
    (failures : List ItemValidation) : Prop where
  ascending : failures.Pairwise fun a b => a.index < b.index
  mem_iff : ∀ item, item ∈ failures ↔
    ∃ configuration, configurations[item.index]? = some configuration ∧
      item.productId = configuration.productId ∧
      item.result = catalog.validate configuration.productId configuration.selected ∧
      item.result.isValid = false

/-- The failures of a batch are the configurations that do not validate. -/
theorem listsInvalid_failures (catalog : Catalog) (configurations : List Configuration) :
    catalog.ListsInvalid configurations (catalog.validateBatch configurations).failures where
  ascending := (catalog.items_validateBatch_pairwise configurations).sublist List.filter_sublist
  mem_iff item := by
    simp only [Batch.failures, List.mem_filter, mem_items_validateBatch_iff, Bool.not_eq_true']
    constructor
    · rintro ⟨⟨configuration, hi, e⟩, hv⟩
      exact ⟨configuration, hi, congrArg ItemValidation.productId e,
        congrArg ItemValidation.result e, hv⟩
    · rintro ⟨configuration, hi, hp, hr, hv⟩
      refine ⟨⟨configuration, hi, ?_⟩, hv⟩
      cases item
      subst hp hr
      rfl

/-- Where not every configuration validates, some failure tells of one. -/
theorem exists_failure {catalog : Catalog} {configurations : List Configuration}
    (h : ¬ catalog.AllValidate configurations) :
    ∃ item ∈ (catalog.validateBatch configurations).failures,
      ∃ configuration ∈ configurations, item.result =
        catalog.validate configuration.productId configuration.selected ∧
      (catalog.validate configuration.productId configuration.selected).isValid = false := by
  simp only [AllValidate, not_forall, Bool.not_eq_true] at h
  obtain ⟨configuration, hmem, hinvalid⟩ := h
  obtain ⟨index, hindex⟩ := List.mem_iff_getElem?.mp hmem
  refine ⟨catalog.validateItem configuration index, ?_, configuration, hmem, rfl, hinvalid⟩
  exact ((listsInvalid_failures catalog configurations).mem_iff _).mpr
    ⟨configuration, hindex, rfl, rfl, hinvalid⟩

end Catalog

end PriceQuote
