import PriceQuote.Proofs.Quote.Independence
import PriceQuote.Proofs.Quote.Listing

/-!
# Add-ons that are selected repeatedly

An id that is selected again is looked at once: by validation, by the price, by the conditions of
declared rules and by the positions of a quote, each of which has its own way to leave repeats out.
So a request may be stripped of them:

* `Configuration.withoutRepeats`, `QuoteRequest.withoutRepeats`: each selected id at its first
  place;
* `validate_eraseDups`, `validateBatch_withoutRepeats`: validation finds the same;
* `priceItem_withoutRepeats`, `quoteItem_withoutRepeats`: prices and positions are the same;
* `quote_withoutRepeats`: all of it together, whatever stamps the two quotes get.
-/

namespace PriceQuote

/-- The same configuration with each selected id kept at its first place only. -/
def Configuration.withoutRepeats (item : Configuration) : Configuration :=
  { item with selected := item.selected.eraseDups }

/-- The same request with each selected id kept at its first place only. -/
def QuoteRequest.withoutRepeats (request : QuoteRequest) : QuoteRequest :=
  { request with configurations := request.configurations.map .withoutRepeats }

/-- The same quote under another id and time. -/
def Quote.restamp {Time : Type} (quote : Quote Time) (stamp : Stamp Time) : Quote Time :=
  { quote with id := stamp.id, createdAt := stamp.createdAt }

/-! ## Validation -/

theorem Product.violations_eraseDups (product : Product) (selected : List AddOnId) :
    product.violations selected.eraseDups = product.violations selected := by
  simp only [Product.violations, eraseDups_eraseDups, Product.selection_eraseDups]

namespace Catalog

theorem advice_eraseDups (catalog : Catalog) (product : Product) (selected : List AddOnId) :
    catalog.advice product selected.eraseDups = catalog.advice product selected := by
  simp only [advice, contains_eraseDups]

/-- Validating a selection finds the same without repeats. -/
theorem validate_eraseDups (catalog : Catalog) (id : ProductId) (selected : List AddOnId) :
    catalog.validate id selected.eraseDups = catalog.validate id selected := by
  unfold validate validateSelection
  simp only [Product.violations_eraseDups, advice_eraseDups]

theorem validateBatch_withoutRepeats (catalog : Catalog) (configurations : List Configuration) :
    catalog.validateBatch (configurations.map .withoutRepeats) =
      catalog.validateBatch configurations := by
  have hitem : ∀ item index, catalog.validateItem (Configuration.withoutRepeats item) index =
      catalog.validateItem item index := fun item index => by
    simp only [validateItem, Configuration.withoutRepeats, validate_eraseDups]
  simp only [validateBatch, List.zipIdx_map, List.map_map, Function.comp_def, Prod.map_fst,
    Prod.map_snd, id_eq, hitem]

end Catalog

namespace Pricebook

variable {catalog : Catalog} {rules : List Rule}

/-! ## Prices -/

theorem sameFor_withoutRepeats (request : QuoteRequest) :
    request.withoutRepeats.SameFor request where
  customerTier := rfl
  region := rfl
  customFields := rfl
  products id := by
    simp only [QuoteRequest.withoutRepeats, List.map_map]
    rfl

/-- Declared rules see an item alike without repeats. -/
theorem context_withoutRepeats (book : Pricebook) (product : Product) (item : Configuration)
    (request : QuoteRequest) :
    (book.context product item.withoutRepeats request.withoutRepeats).Alike
      (book.context product item request) where
  product := rfl
  catalog := rfl
  selected _ := List.mem_eraseDups
  quantity := rfl
  requested := (sameFor_withoutRepeats request).products
  customerTier := rfl
  region := rfl
  customFields := rfl

theorem basePrice_withoutRepeats (product : Product) (item : Configuration) :
    basePrice product item.withoutRepeats = basePrice product item := by
  simp only [basePrice, Product.unitPrice, Product.addOnsTotal, Configuration.withoutRepeats,
    Product.selection_eraseDups]

theorem priceWith_withoutRepeats (product : Product) (item : Configuration)
    (request : QuoteRequest) :
    priceWith ⟨catalog, rules.map .ofRule⟩ product item.withoutRepeats request.withoutRepeats =
      priceWith ⟨catalog, rules.map .ofRule⟩ product item request := by
  simp only [priceWith, basePrice_withoutRepeats,
    applyRules_congr (context_withoutRepeats _ product item request)]

/-- The price of an item is the same without repeats. -/
theorem priceItem_withoutRepeats (item : Configuration) (request : QuoteRequest) :
    priceItem ⟨catalog, rules.map .ofRule⟩ item.withoutRepeats request.withoutRepeats =
      priceItem ⟨catalog, rules.map .ofRule⟩ item request := by
  simp only [priceItem, priceWith_withoutRepeats]
  rfl

/-! ## Positions and quotes -/

theorem lineItem_withoutRepeats (product : Product) (item : Configuration)
    (pricing : ItemPricing) :
    lineItem product item.withoutRepeats pricing = lineItem product item pricing := by
  have hselected : item.withoutRepeats.selected.foldl (listAddOn product) [] =
      item.selected.foldl (listAddOn product) [] := by
    rw [foldl_listAddOn, foldl_listAddOn, Configuration.withoutRepeats, Product.selection_eraseDups]
  rw [lineItem, hselected]
  rfl

theorem quoteItem_withoutRepeats (request : QuoteRequest) (item : Configuration) :
    quoteItem ⟨catalog, rules.map .ofRule⟩ request.withoutRepeats item.withoutRepeats =
      quoteItem ⟨catalog, rules.map .ofRule⟩ request item := by
  simp only [quoteItem, priceWith_withoutRepeats, lineItem_withoutRepeats]
  rfl

/-- Quotes for one request differ by their stamps only. -/
theorem quote_restamp {Time : Type} (book : Pricebook) (stamp stamp' : Stamp Time)
    (request : QuoteRequest) :
    book.quote stamp' request = (book.quote stamp request).map (·.restamp stamp') := by
  simp only [quote]
  cases (book.catalog.validateBatch request.configurations).isValid with
  | false => rfl
  | true => cases request.configurations.mapM (book.quoteItem request) <;> rfl

/-- Repeated ids do not matter: a request without them is validated, priced and quoted as the
request itself, item by item and as a whole, and refused for the same reasons. Of two quotes only
the stamps differ. -/
theorem quote_withoutRepeats (catalog : Catalog) (rules : List Rule) (request : QuoteRequest) :
    let book : Pricebook := ⟨catalog, rules.map .ofRule⟩
    (∀ id selected, catalog.validate id selected.eraseDups = catalog.validate id selected) ∧
    catalog.validateBatch request.withoutRepeats.configurations =
      catalog.validateBatch request.configurations ∧
    (∀ item : Configuration,
      book.priceItem item.withoutRepeats request.withoutRepeats = book.priceItem item request) ∧
    ∀ {Time : Type} (stamp stamp' : Stamp Time), book.quote stamp' request.withoutRepeats =
      (book.quote stamp request).map (·.restamp stamp') := by
  intro book
  refine ⟨catalog.validate_eraseDups, catalog.validateBatch_withoutRepeats _,
    fun item => priceItem_withoutRepeats item request, fun stamp stamp' => ?_⟩
  have hbatch : catalog.validateBatch request.withoutRepeats.configurations =
      catalog.validateBatch request.configurations := catalog.validateBatch_withoutRepeats _
  have hitems : request.withoutRepeats.configurations.mapM
      (book.quoteItem request.withoutRepeats) =
        request.configurations.mapM (book.quoteItem request) := by
    rw [QuoteRequest.withoutRepeats, List.mapM_map]
    exact congrArg (request.configurations.mapM ·) (funext (quoteItem_withoutRepeats request))
  rw [← quote_restamp]
  unfold quote
  rw [hbatch, hitems]
  rfl

end Pricebook

end PriceQuote
