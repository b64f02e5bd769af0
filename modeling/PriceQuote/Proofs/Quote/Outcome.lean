import PriceQuote.Proofs.Catalog.Batch
import PriceQuote.Proofs.Fallible
import PriceQuote.Quote.Pricebook

/-!
# What quoting comes to

A quote looks at its request twice: once to validate every configuration, once to price each. The
second pass looks every product up again, and finds it wherever the first one found nothing wrong,
so that a quote is complete or refused as a whole:

* `quote_of_valid`, `quote_of_not_valid`, `quote_eq_ok_iff`: the two outcomes of a quote;
* `quote_all_or_nothing`: a quote has one position for each configuration, in order, or its refusal
  lists the configurations that do not validate.
-/

namespace PriceQuote

namespace Pricebook

/-! ## Positions -/

theorem product_eq_ok_iff {book : Pricebook} {id : ProductId} {product : Product} :
    book.product id = .ok product ↔ book.catalog.find? id = some product := by
  unfold Pricebook.product
  cases book.catalog.find? id <;> simp

theorem quoteItem_eq_ok_iff {book : Pricebook} {request : QuoteRequest} {item : Configuration}
    {line : LineItem} :
    book.quoteItem request item = .ok line ↔ ∃ product, book.catalog.find? item.productId =
      some product ∧ line = lineItem product item (book.priceWith product item request) := by
  simp only [quoteItem, bind_ok_iff, product_eq_ok_iff, pure, Except.pure, Except.ok.injEq,
    @eq_comm _ line]

/-- A configuration that validates has a position. -/
theorem exists_quoteItem {book : Pricebook} {item : Configuration} (request : QuoteRequest)
    (h : (book.catalog.validate item.productId item.selected).isValid = true) :
    ∃ line, book.quoteItem request item = .ok line := by
  obtain ⟨product, hp⟩ := Catalog.find?_isSome_of_validate h
  exact ⟨_, quoteItem_eq_ok_iff.mpr ⟨product, hp, rfl⟩⟩

theorem quoteItem_asked {book : Pricebook} {request : QuoteRequest} {item : Configuration}
    {line : LineItem} (h : book.quoteItem request item = .ok line) :
    (line.productId, line.quantity) = (item.productId, item.quantity) := by
  obtain ⟨product, hp, rfl⟩ := quoteItem_eq_ok_iff.mp h
  simp only [lineItem, Catalog.find?_id hp]

/-! ## Quotes -/

section

variable {Time : Type} {book : Pricebook} {request : QuoteRequest}

/-- Where every configuration validates, a quote sums up the position of each. -/
theorem quote_of_valid (stamp : Stamp Time)
    (h : book.catalog.AllValidate request.configurations) :
    ∃ lines, request.configurations.mapM (book.quoteItem request) = .ok lines ∧
      book.quote stamp request = .ok (total stamp request lines) := by
  obtain ⟨lines, hl⟩ := exists_mapM_ok fun item hi => exists_quoteItem request (h item hi)
  refine ⟨lines, hl, ?_⟩
  have hv := (book.catalog.validateBatch_isValid_iff request.configurations).mpr h
  simp only [quote, hv, hl, Bool.not_true, Bool.false_eq_true, ↓reduceIte]
  rfl

/-- Where some configuration does not validate, the refusal has the failures of the batch. -/
theorem quote_of_not_valid (stamp : Stamp Time)
    (h : ¬ book.catalog.AllValidate request.configurations) :
    book.quote stamp request =
      let batch := book.catalog.validateBatch request.configurations
      .error (.invalid s!"Configuration validation failed: {batch.summary}" batch.failures) := by
  rw [← book.catalog.validateBatch_isValid_iff, Bool.not_eq_true] at h
  simp only [quote, h, Bool.not_false, ↓reduceIte]

/-- What a quote for a request is: the sum of the positions of its configurations, all of which
validate. -/
theorem quote_eq_ok_iff {stamp : Stamp Time} {quote : Quote Time} :
    book.quote stamp request = .ok quote ↔ book.catalog.AllValidate request.configurations ∧
      ∃ lines, request.configurations.mapM (book.quoteItem request) = .ok lines ∧
        quote = total stamp request lines := by
  by_cases hv : book.catalog.AllValidate request.configurations
  · obtain ⟨lines, hl, hq⟩ := quote_of_valid stamp hv
    rw [hq, hl]
    simp only [Except.ok.injEq, exists_eq_left', hv, true_and, @eq_comm _ quote]
  · rw [quote_of_not_valid stamp hv]
    simp only [reduceCtorEq, hv, false_and]

theorem items_of_quote {stamp : Stamp Time} {quote : Quote Time}
    (h : book.quote stamp request = .ok quote) :
    List.Forall₂ (fun item line => book.quoteItem request item = .ok line)
      request.configurations quote.items := by
  obtain ⟨-, lines, hl, rfl⟩ := quote_eq_ok_iff.mp h
  exact mapM_ok_iff.mp hl

theorem exists_of_mem_items {stamp : Stamp Time} {quote : Quote Time}
    (h : book.quote stamp request = .ok quote) {line : LineItem} (hline : line ∈ quote.items) :
    ∃ item ∈ request.configurations, book.quoteItem request item = .ok line := by
  obtain ⟨-, lines, hl, rfl⟩ := quote_eq_ok_iff.mp h
  exact exists_of_mem_mapM hl hline

theorem items_of_quote_singleton {stamp : Stamp Time} {quote : Quote Time} {item : Configuration}
    (h : book.quote stamp request = .ok quote) (hitem : request.configurations = [item]) :
    ∃ line, quote.items = [line] ∧ book.quoteItem request item = .ok line := by
  have hitems := items_of_quote h
  rw [hitem] at hitems
  obtain ⟨line, rest, hline, hrest, hlines⟩ := List.forall₂_cons_left_iff.mp hitems
  rw [List.forall₂_nil_left_iff.mp hrest] at hlines
  exact ⟨line, hlines, hline⟩

end

/-- A quote succeeds exactly when every configuration validates, and then has one position for
each, in order, with its product and quantity. Otherwise it is refused for the configurations that
do not validate, and for no other reason: that a product is not found does not come up. -/
theorem quote_all_or_nothing {Time : Type} (book : Pricebook) (stamp : Stamp Time)
    (request : QuoteRequest) :
    ((∃ quote, book.quote stamp request = .ok quote) ↔
      book.catalog.AllValidate request.configurations) ∧
    (∀ quote, book.quote stamp request = .ok quote →
      quote.items.map (fun line => (line.productId, line.quantity)) =
        request.configurations.map fun item => (item.productId, item.quantity)) ∧
    (∀ refusal, book.quote stamp request = .error refusal →
      ∃ message failures, refusal = .invalid message failures ∧
        book.catalog.ListsInvalid request.configurations failures) := by
  refine ⟨⟨?_, ?_⟩, ?_, ?_⟩
  · rintro ⟨quote, h⟩
    by_contra hv
    rw [quote_of_not_valid stamp hv] at h
    cases h
  · intro hv
    obtain ⟨lines, -, hq⟩ := quote_of_valid stamp hv
    exact ⟨_, hq⟩
  · intro quote h
    have hask := (items_of_quote h).imp fun _ _ => quoteItem_asked
    rw [← List.forall₂_eq_eq_eq, List.forall₂_map_left_iff, List.forall₂_map_right_iff]
    exact hask.flip
  · intro refusal h
    by_cases hv : book.catalog.AllValidate request.configurations
    · obtain ⟨lines, -, hq⟩ := quote_of_valid stamp hv
      rw [hq] at h
      cases h
    · rw [quote_of_not_valid stamp hv] at h
      cases h
      exact ⟨_, _, rfl, book.catalog.listsInvalid_failures request.configurations⟩

end Pricebook

end PriceQuote
