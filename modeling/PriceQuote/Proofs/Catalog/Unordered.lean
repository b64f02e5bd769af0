import PriceQuote.Catalog.Standard
import PriceQuote.Proofs.Catalog.Batch

/-!
# A selection as a set

Validation goes through the selected ids one after the other, but of two selections with the same
ids, in whatever order and however often, it finds the same:

* `Product.selection_perm`: the selected add-ons are the same but for their order;
* `Product.violations_perm`: so is what is wrong, pass by pass;
* `Catalog.advice_of_same_ids`: the advice is the same, in the same order;
* `Catalog.validate_of_same_ids`: so is the result, the order of its errors aside.
-/

namespace PriceQuote

variable {selected selected' : List AddOnId}

theorem contains_of_same_ids (h : ∀ id, id ∈ selected ↔ id ∈ selected') (id : AddOnId) :
    selected.contains id = selected'.contains id := by
  rw [Bool.eq_iff_iff, List.contains_iff_mem, List.contains_iff_mem, h]

namespace Product

variable (product : Product)

theorem selection_perm (h : ∀ id, id ∈ selected ↔ id ∈ selected') :
    (product.selection selected).Perm (product.selection selected') :=
  (eraseDups_perm h).filterMap product.addOn?

/-- With the same ids selected the same is wrong: each pass goes through the product's add-ons, or
through the selected ones in some order, and asks what else is selected. -/
theorem violations_perm (h : ∀ id, id ∈ selected ↔ id ∈ selected') :
    (product.violations selected).Perm (product.violations selected') := by
  have hchosen : ∀ id, selected.eraseDups.contains id = selected'.eraseDups.contains id := by
    intro id
    rw [contains_eraseDups, contains_eraseDups, contains_of_same_ids h]
  have hselection := product.selection_perm h
  unfold violations
  simp only [hchosen]
  apply List.Perm.append
  · apply List.Perm.append
    · exact ((eraseDups_perm h).filter _).map _ |>.append_left _
    · exact hselection.flatMap_right _
  · exact hselection.flatMap_right _

end Product

namespace Catalog

theorem advice_of_same_ids (catalog : Catalog) (product : Product)
    (h : ∀ id, id ∈ selected ↔ id ∈ selected') :
    catalog.advice product selected = catalog.advice product selected' := by
  simp only [advice, contains_of_same_ids h]

/-- Validation sees a selection as a set: of two selections of a product with the same ids both are
valid or neither is, the same is advised against, and the same errors are found, perhaps in another
order. -/
theorem validate_of_same_ids (catalog : Catalog) (id : ProductId)
    (h : ∀ addOn, addOn ∈ selected ↔ addOn ∈ selected') :
    let result := catalog.validate id selected
    let result' := catalog.validate id selected'
    result.isValid = result'.isValid ∧ result.warnings = result'.warnings ∧
      result.errors.Perm result'.errors := by
  intro result result'
  obtain ⟨hwarnings, herrors⟩ :
      result.warnings = result'.warnings ∧ result.errors.Perm result'.errors := by
    unfold result result' validate
    cases catalog.find? id with
    | none => exact ⟨rfl, .refl _⟩
    | some product =>
      refine ⟨?_, (product.violations_perm h).map _⟩
      simp only [validateSelection, Validation.ofIssues, advice_of_same_ids catalog product h]
  refine ⟨?_, hwarnings, herrors⟩
  show (catalog.validate id selected).isValid = (catalog.validate id selected').isValid
  rw [isValid_eq_isEmpty, isValid_eq_isEmpty]
  exact herrors.isEmpty_eq

/-- A virtual machine with an add-on that is unknown, one that lacks another and two that exclude
each other, selected in two orders, one of them with a repeat. -/
theorem validate_of_same_ids_reversed :
    let selected : List AddOnId := [⟨"backup"⟩, ⟨"linux"⟩, ⟨"windows"⟩, ⟨"gift-wrap"⟩]
    let selected' : List AddOnId :=
      [⟨"windows"⟩, ⟨"gift-wrap"⟩, ⟨"linux"⟩, ⟨"windows"⟩, ⟨"backup"⟩]
    (∀ addOn, addOn ∈ selected ↔ addOn ∈ selected') ∧
    (standard.validate ⟨"compute-standard"⟩ selected).errors.Perm
      (standard.validate ⟨"compute-standard"⟩ selected').errors := by
  intro selected selected'
  have h : ∀ addOn, addOn ∈ selected ↔ addOn ∈ selected' := by
    intro addOn
    simp only [selected, selected', List.mem_cons, List.not_mem_nil, or_false]
    tauto
  exact ⟨h, (validate_of_same_ids standard ⟨"compute-standard"⟩ h).2.2⟩

end Catalog

end PriceQuote
