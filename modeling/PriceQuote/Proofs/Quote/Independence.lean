import PriceQuote.Proofs.Quote.Outcome
import PriceQuote.Proofs.Rule.Requested
import PriceQuote.Quote.Tables

/-!
# What the price of an item depends on

With declared rules the price of an item depends on the other items of a request only through which
products these name. So does its position in a quote:

* `Configuration.SamePriced`, `QuoteRequest.SameFor`: items and requests that make no difference;
* `priceItem_congr`, `quoteItem_congr`: prices and positions are the same for them;
* `price_independent_of_siblings`: the same, with the positions found in whole quotes.
-/

namespace PriceQuote

/-- Two items ask for the same: they may differ in their further values. -/
structure Configuration.SamePriced (item item' : Configuration) : Prop where
  productId : item.productId = item'.productId
  selected : item.selected = item'.selected
  quantity : item.quantity = item'.quantity

/-- Two requests are the same for the price of an item: of the same customer, and for the same
products, however often, in whichever order and in whatever configuration. Tax is no part of it. -/
structure QuoteRequest.SameFor (request request' : QuoteRequest) : Prop where
  customerTier : request.customerTier = request'.customerTier
  region : request.region = request'.region
  customFields : request.customFields = request'.customFields
  products : ∀ id, id ∈ request.configurations.map (·.productId) ↔
    id ∈ request'.configurations.map (·.productId)

namespace Pricebook

variable {catalog : Catalog} {rules : List Rule} {request request' : QuoteRequest}
  {item item' : Configuration}

/-- What rules may look at is alike. -/
theorem context_alike (book : Pricebook) (product : Product) (hitem : item.SamePriced item')
    (hrequest : request.SameFor request') :
    (book.context product item request).Alike (book.context product item' request') where
  product := rfl
  catalog := rfl
  selected id := by simp only [context, hitem.selected]
  quantity := hitem.quantity
  requested := hrequest.products
  customerTier := hrequest.customerTier
  region := hrequest.region
  customFields := hrequest.customFields

theorem priceWith_congr (product : Product) (hitem : item.SamePriced item')
    (hrequest : request.SameFor request') :
    priceWith ⟨catalog, rules.map .ofRule⟩ product item request =
      priceWith ⟨catalog, rules.map .ofRule⟩ product item' request' := by
  have hbase : basePrice product item = basePrice product item' := by
    rw [basePrice, hitem.selected, hitem.quantity, basePrice]
  simp only [priceWith, hbase, applyRules_congr (context_alike _ product hitem hrequest)]

/-- Items that ask for the same have the same price, or are refused alike. -/
theorem priceItem_congr (hitem : item.SamePriced item') (hrequest : request.SameFor request') :
    priceItem ⟨catalog, rules.map .ofRule⟩ item request =
      priceItem ⟨catalog, rules.map .ofRule⟩ item' request' := by
  unfold priceItem
  rw [hitem.productId]
  simp only [priceWith_congr _ hitem hrequest]

theorem quoteItem_congr (hitem : item.SamePriced item') (hrequest : request.SameFor request') :
    quoteItem ⟨catalog, rules.map .ofRule⟩ request item =
      quoteItem ⟨catalog, rules.map .ofRule⟩ request' item' := by
  unfold quoteItem
  rw [hitem.productId]
  simp only [priceWith_congr _ hitem hrequest, lineItem, hitem.selected, hitem.quantity]

theorem getElem?_items_of_quote {Time : Type} {book : Pricebook} {stamp : Stamp Time}
    {quote : Quote Time} (h : book.quote stamp request = .ok quote) {i : Nat}
    (hi : request.configurations[i]? = some item) :
    ∃ line, quote.items[i]? = some line ∧ book.quoteItem request item = .ok line := by
  have hitems := items_of_quote h
  obtain ⟨hlt, rfl⟩ := List.getElem?_eq_some_iff.mp hi
  have hlt' : i < quote.items.length := hitems.length_eq ▸ hlt
  exact ⟨quote.items[i], List.getElem?_eq_getElem hlt',
    (List.forall₂_iff_get.mp hitems).2 i hlt hlt'⟩

/-- Of the other items of a request the price of an item depends only on which products they name:
items that ask for the same, for the same products and the same customer, have the same price or
are refused alike, and have the same position in every quote. -/
theorem price_independent_of_siblings (catalog : Catalog) (rules : List Rule)
    {request request' : QuoteRequest} {item item' : Configuration}
    (hitem : item.SamePriced item') (hrequest : request.SameFor request') :
    let book : Pricebook := ⟨catalog, rules.map .ofRule⟩
    book.priceItem item request = book.priceItem item' request' ∧
    ∀ {Time : Type} (stamp stamp' : Stamp Time) (quote quote' : Quote Time) (i j : Nat),
      book.quote stamp request = .ok quote → book.quote stamp' request' = .ok quote' →
      request.configurations[i]? = some item → request'.configurations[j]? = some item' →
      quote.items[i]? = quote'.items[j]? := by
  intro book
  refine ⟨priceItem_congr hitem hrequest, fun stamp stamp' quote quote' i j hq hq' hi hj => ?_⟩
  obtain ⟨line, hline, hposition⟩ := getElem?_items_of_quote hq hi
  obtain ⟨line', hline', hposition'⟩ := getElem?_items_of_quote hq' hj
  rw [quoteItem_congr hitem hrequest, hposition'] at hposition
  cases hposition
  rw [hline, hline']

/-- A virtual machine in a request for a database too, the other way round and twice, with other
quantities, add-ons and tax. -/
theorem price_independent_of_siblings_reordered :
    let vm : Configuration := ⟨⟨"compute-standard"⟩, [⟨"linux"⟩], 3, []⟩
    let database (quantity : UInt32) (selected : List AddOnId) : Configuration :=
      ⟨⟨"database-postgres"⟩, selected, quantity, []⟩
    let request : QuoteRequest := ⟨[vm, database 1 []], some "enterprise", none, none, none⟩
    let request' : QuoteRequest :=
      ⟨[database 7 [⟨"encryption-at-rest"⟩], { vm with customization := [("note", .null)] }, vm,
        database 2 []], some "enterprise", none, none, some 1⟩
    vm.SamePriced { vm with customization := [("note", .null)] } ∧ request.SameFor request' ∧
    Pricebook.standard.priceItem vm request =
      Pricebook.standard.priceItem { vm with customization := [("note", .null)] } request' := by
  intro vm database request request'
  have hitem : vm.SamePriced { vm with customization := [("note", .null)] } := ⟨rfl, rfl, rfl⟩
  have hrequest : request.SameFor request' := ⟨rfl, rfl, rfl, fun id => by
    simp only [request, request', vm, database, List.map_cons, List.map_nil, List.mem_cons,
      List.not_mem_nil, or_false]
    tauto⟩
  exact ⟨hitem, hrequest,
    (price_independent_of_siblings Catalog.standard Rule.standard hitem hrequest).1⟩

end Pricebook

end PriceQuote
