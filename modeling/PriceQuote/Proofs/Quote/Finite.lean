import PriceQuote.Proofs.Binary64.Finite
import PriceQuote.Proofs.Catalog.Checked
import PriceQuote.Proofs.Quote.Amounts
import PriceQuote.Proofs.Quote.Listing

/-!
# Quotes whose numbers are all finite

Prices in a catalog that was checked are finite, but products and sums of them may not be: nothing
is checked behind a unit price. Where it goes wrong it shows in the end, since nothing finite comes
of what is not:

* `LineItem.IsFinite`, `Quote.IsFinite`: all numbers of a position, and of a quote, are finite;
* `Catalog.hasFinitePrices_of_check`: the prices of a checked catalog are;
* `Pricebook.isFinite_iff`: a quote is if its total, what all discounts come to and each discount
  are.
-/

namespace PriceQuote

open Binary64 (zero)
open Money (roundToCents)

/-- Every number of a position is finite. -/
structure LineItem.IsFinite (line : LineItem) : Prop where
  basePrice : line.basePrice.isFinite = true
  selected : ∀ addOn ∈ line.selected, addOn.price.isFinite = true
  subtotal : line.subtotal.isFinite = true
  discounts : ∀ discount ∈ line.discounts, discount.amount.isFinite = true
  total : line.total.isFinite = true

/-- Every number of a quote is finite. -/
structure Quote.IsFinite {Time : Type} (quote : Quote Time) : Prop where
  items : ∀ line ∈ quote.items, line.IsFinite
  subtotal : quote.subtotal.isFinite = true
  totalDiscounts : quote.totalDiscounts.isFinite = true
  tax : ∀ tax ∈ quote.tax, tax.isFinite = true
  total : quote.total.isFinite = true
  taxRate : ∀ rate ∈ quote.metadata.taxRate, rate.isFinite = true

/-! ## Catalogs -/

/-- The prices of a product and its add-ons are finite. -/
structure Product.HasFinitePrices (product : Product) : Prop where
  basePrice : product.basePrice.isFinite = true
  addOns : ∀ addOn ∈ product.addOns, addOn.price.isFinite = true

namespace Catalog

/-- The prices of a checked catalog are finite. -/
theorem hasFinitePrices_of_check {products : List Product} {advisories : List Advisory}
    {catalog : Catalog} (h : check products advisories = .ok catalog) :
    ∀ product ∈ catalog.products, product.HasFinitePrices := by
  obtain ⟨hsound, rfl⟩ := check_eq_ok_iff.mp h
  exact fun product hproduct =>
    ⟨(hsound.prices product hproduct).finite, (hsound.addOns product hproduct).prices⟩

end Catalog

namespace Pricebook

theorem isFinite_selected {product : Product} (h : product.HasFinitePrices) (item : Configuration)
    (pricing : ItemPricing) :
    ∀ addOn ∈ (lineItem product item pricing).selected, addOn.price.isFinite = true := by
  rw [lineItem_selected]
  intro addOn haddOn
  obtain ⟨addOn, hmem, rfl⟩ := List.mem_map.mp haddOn
  obtain ⟨id, -, hfound⟩ := List.mem_filterMap.mp hmem
  exact h.addOns addOn (List.mem_of_find?_eq_some hfound)

section

variable {Time : Type} {catalog : Catalog} {rules : List (PriceRule Binary64)}
  {stamp : Stamp Time} {request : QuoteRequest} {quote : Quote Time}

/-- What a quote repeats of its stamp and its request. -/
theorem repeated_of_quote {book : Pricebook} (h : book.quote stamp request = .ok quote) :
    quote.createdAt = stamp.createdAt ∧
      quote.metadata.customFields = request.customFields.getD [] := by
  obtain ⟨-, lines, -, rfl⟩ := quote_eq_ok_iff.mp h
  exact ⟨rfl, rfl⟩

theorem sums_of_quote (h : Pricebook.quote ⟨catalog, rules⟩ stamp request = .ok quote) :
    quote.subtotal = Binary64.sum (quote.items.map (·.subtotal)) ∧
    quote.totalDiscounts = quote.subtotal - Binary64.sum (quote.items.map (·.total)) ∧
    quote.metadata.taxRate = request.taxRate := by
  obtain ⟨-, lines, -, rfl⟩ := quote_eq_ok_iff.mp h
  exact ⟨rfl, rfl, rfl⟩

theorem isFinite_repeated (hprices : ∀ product ∈ catalog.products, product.HasFinitePrices)
    (h : Pricebook.quote ⟨catalog, rules⟩ stamp request = .ok quote) {line : LineItem}
    (hline : line ∈ quote.items) : line.basePrice.isFinite = true ∧
      ∀ addOn ∈ line.selected, addOn.price.isFinite = true := by
  obtain ⟨item, -, hitem⟩ := exists_of_mem_items h hline
  obtain ⟨product, hproduct, rfl⟩ := quoteItem_eq_ok_iff.mp hitem
  have hfinite := hprices product (List.mem_of_find?_eq_some hproduct)
  exact ⟨hfinite.basePrice, isFinite_selected hfinite item _⟩

theorem isFinite_tax {limit : Nat} (hshape : request.shapeProblem? limit = none)
    (h : Pricebook.quote ⟨catalog, rules⟩ stamp request = .ok quote)
    (hbefore : (Binary64.sum (quote.items.map (·.total))).isFinite = true)
    (htotal : quote.total.isFinite = true) : ∀ tax ∈ quote.tax, tax.isFinite = true := by
  rw [tax_of_quote h]
  rw [total_of_quote h] at htotal
  cases hrate : request.taxRate with
  | none => simp
  | some rate =>
    rw [hrate] at htotal
    obtain ⟨hzero, hle⟩ := tax_le_total (zero_le_beforeTax h) hbefore
      (request.isTaxRate_of_shapeProblem? hshape hrate)
    simpa using Binary64.isFinite_of_le hzero hle htotal

/-- A quote for a well-formed request from a catalog with finite prices has finite numbers only,
if its total, what all discounts come to and each discount are finite. -/
theorem isFinite_iff (hprices : ∀ product ∈ catalog.products, product.HasFinitePrices)
    {limit : Nat} (hshape : request.shapeProblem? limit = none)
    (h : Pricebook.quote ⟨catalog, rules⟩ stamp request = .ok quote) :
    quote.IsFinite ↔ quote.total.isFinite = true ∧ quote.totalDiscounts.isFinite = true ∧
      ∀ line ∈ quote.items, ∀ discount ∈ line.discounts, discount.amount.isFinite = true := by
  obtain ⟨hsubtotal, hdifference, hrate⟩ := sums_of_quote h
  refine ⟨fun hfinite => ⟨hfinite.total, hfinite.totalDiscounts,
    fun line hline => (hfinite.items line hline).discounts⟩,
      fun ⟨htotal, hdiscounts, hamounts⟩ => ?_⟩
  rw [hdifference] at hdiscounts
  obtain ⟨hbefore, hafter⟩ := Binary64.isFinite_of_sub hdiscounts
  have hitems : ∀ line ∈ quote.items, line.subtotal.isFinite = true ∧ line.total.isFinite = true :=
    fun line hline =>
      ⟨Binary64.isFinite_of_sum (hsubtotal ▸ hbefore) _ (List.mem_map_of_mem hline),
        Binary64.isFinite_of_sum hafter _ (List.mem_map_of_mem hline)⟩
  exact {
    items := fun line hline =>
      let repeated := isFinite_repeated hprices h hline
      ⟨repeated.1, repeated.2, (hitems line hline).1, hamounts line hline, (hitems line hline).2⟩
    subtotal := hbefore
    totalDiscounts := hdifference ▸ hdiscounts
    tax := isFinite_tax hshape h hafter htotal
    total := htotal
    taxRate := fun rate hmem => (request.isTaxRate_of_shapeProblem? hshape (hrate ▸ hmem)).1 }

end

end Pricebook

end PriceQuote
