import PriceQuote.Proofs.Quote.Problems
import PriceQuote.Proofs.Service.Outcome

/-!
# Asking for a price before asking for a quote

A price is told without a quote, by steps of its own: one configuration is checked, validated and
priced. A quote goes the same way for all of its configurations, and comes to the same:

* `LineItem.Shows`: a position of a quote with the price that is told of it;
* `shows_of_quoteItem`: every position shows the price of its configuration;
* `shapeProblem?_of_isTaxRate`: an admissible tax rate is no reason to refuse a request;
* `Response.TellsPrice`: an answer that tells a price;
* `calculatePricing_previews_createQuote`: a price is told exactly when there would be a quote, and
  it is the price in that quote.
-/

namespace PriceQuote

/-- A position of a quote shows a price: the same before and after discounts, with the rules that
made the difference. -/
structure LineItem.Shows (line : LineItem) (pricing : ItemPricing) : Prop where
  subtotal : line.subtotal = pricing.basePrice
  total : line.total = pricing.finalPrice
  discounts : line.discounts =
    pricing.applied.map fun rule => ⟨rule.ruleId, rule.ruleName, rule.discount⟩

namespace Pricebook

theorem shows_of_quoteItem {book : Pricebook} {request : QuoteRequest} {item : Configuration}
    {line : LineItem} (h : book.quoteItem request item = .ok line) :
    ∃ pricing, book.priceItem item request = .ok pricing ∧ line.Shows pricing := by
  obtain ⟨product, hproduct, rfl⟩ := quoteItem_eq_ok_iff.mp h
  refine ⟨book.priceWith product item request, ?_, ⟨rfl, rfl, rfl⟩⟩
  rw [priceItem, product_eq_ok_iff.mpr hproduct]
  rfl

theorem priceItem_taxRate (book : Pricebook) (item : Configuration) (request : QuoteRequest)
    (rate : Option Binary64) :
    book.priceItem item { request with taxRate := rate } = book.priceItem item request := rfl

end Pricebook

/-- With an admissible tax rate, or none, a request has the problems of its configurations. -/
theorem QuoteRequest.shapeProblem?_of_isTaxRate {request : QuoteRequest} (limit : Nat)
    (h : request.taxRate.all isTaxRate = true) :
    request.shapeProblem? limit = configurationsProblem? request.configurations limit := by
  rw [shapeProblem?, if_pos h]
  cases configurationsProblem? request.configurations limit <;> rfl

namespace Service

/-- What is told of a price: its amounts and the rules that made the difference. -/
structure Response.TellsPrice (answer : Response) (line : LineItem) : Prop where
  status : answer.status = 200
  basePrice : answer.field? "basePrice" = some (.float line.subtotal)
  finalPrice : answer.field? "finalPrice" = some (.float line.total)
  appliedRules : answer.field? "appliedRules" = some (.array (line.discounts.map fun discount =>
    .object [("ruleId", .string discount.ruleId.text), ("ruleName", .string discount.ruleName),
      ("discountAmount", .float discount.amount)]))

/-- A price that a position shows is told with what is in the position. -/
theorem tellsPrice_of_shows {line : LineItem} {pricing : ItemPricing} (h : line.Shows pricing)
    (item : Configuration) : Response.TellsPrice ⟨200, .json (pricingJson item pricing)⟩ line where
  status := rfl
  basePrice := by
    rw [h.subtotal]
    rfl
  finalPrice := by
    rw [h.total]
    rfl
  appliedRules := by
    rw [h.discounts, List.map_map]
    rfl

/-- A price is told exactly when a quote for that one configuration would be made for the same
customer, with whichever admissible tax rate, and it is the price in the quote's only position.
In any quote each position shows the price of its configuration. -/
theorem calculatePricing_previews_createQuote (service : Service) :
    (∀ {Time : Type} (stamp : Stamp Time) (request : QuoteRequest) (quote : Quote Time),
      service.book.quote stamp request = .ok quote → List.Forall₂ (fun item line =>
        ∃ pricing, service.book.priceItem item request = .ok pricing ∧ line.Shows pricing)
          request.configurations quote.items) ∧
    ∀ {Time : Type} [Wire Time] (occasion : Occasion Time) (correlationId : String)
      (body : PricingBody) (rate : Option Binary64),
      (∀ x, rate = some x → ∃ v, x.value? = some v ∧ 0 ≤ v ∧ v ≤ 1) →
      let request : QuoteRequest := {
        configurations := [body.configuration]
        customerTier := body.customerTier
        region := body.region
        customFields := body.customFields
        taxRate := rate }
      let told := service.calculatePricing correlationId body
      let answer := service.createQuote occasion request
      (told.status = 200 ↔ answer.status = 200) ∧
      (answer.status = 200 → ∃ quote line,
        service.book.quote occasion.stamp request = .ok quote ∧
        answer = ⟨200, .json (Wire.encode quote)⟩ ∧ quote.items = [line] ∧
        told.TellsPrice line) := by
  refine ⟨fun stamp request quote h => ?_, fun occasion correlationId body rate hrate => ?_⟩
  · exact (Pricebook.items_of_quote h).imp fun item line => Pricebook.shows_of_quoteItem
  · intro request told answer
    have hadmissible : request.taxRate.all isTaxRate = true :=
      (Option.all_eq_true _ _).mpr fun x hx => isTaxRate_iff.mpr (hrate x hx)
    have hshape : request.shapeProblem? service.limit =
        configurationsProblem? [body.configuration] service.limit :=
      QuoteRequest.shapeProblem?_of_isTaxRate service.limit hadmissible
    refine ⟨?_, fun hanswer => ?_⟩
    · rw [calculatePricing_status_iff, createQuote_status_iff, hshape]
    · obtain ⟨hproblem, hvalid⟩ := createQuote_status_iff.mp hanswer
      obtain ⟨pricing, hprice, htold⟩ :=
        calculatePricing_of_valid correlationId (hshape ▸ hproblem) hvalid
      obtain ⟨lines, -, hquote⟩ := Pricebook.quote_of_valid occasion.stamp hvalid
      obtain ⟨line, hitems, hline⟩ := Pricebook.items_of_quote_singleton hquote rfl
      obtain ⟨shown, hshown, hshows⟩ := Pricebook.shows_of_quoteItem hline
      have hsame : service.book.priceItem body.configuration request = .ok pricing :=
        (service.book.priceItem_taxRate body.configuration body.request rate).trans hprice
      cases hshown.symm.trans hsame
      refine ⟨_, line, hquote, createQuote_of_quote hproblem hquote, hitems, ?_⟩
      rw [show told = _ from htold]
      exact tellsPrice_of_shows hshows body.configuration

/-- Ten virtual machines with storage, for an enterprise in a region that is taxed. -/
theorem calculatePricing_previews_createQuote_machines :
    let service : Service := ⟨.standard, 100⟩
    let body : PricingBody :=
      ⟨⟨⟨"compute-standard"⟩, [⟨"ssd-storage"⟩], 10, []⟩, some "enterprise", some "eu-central",
        none⟩
    let request : QuoteRequest :=
      ⟨[body.configuration], some "enterprise", some "eu-central", none, some 0.19⟩
    (∃ v, (0.19 : Binary64).value? = some v ∧ 0 ≤ v ∧ v ≤ 1) ∧
    (service.createQuote ⟨"", "", ""⟩ request).status = 200 ∧ ∃ quote line,
      service.book.quote ⟨"", ""⟩ request = .ok quote ∧ quote.items = [line] ∧
      (service.calculatePricing "" body).TellsPrice line ∧
      List.Forall₂ (fun item line => ∃ pricing,
        service.book.priceItem item request = .ok pricing ∧ line.Shows pricing)
          request.configurations quote.items := by
  intro service body request
  have hrate : ∃ v, (0.19 : Binary64).value? = some v ∧ 0 ≤ v ∧ v ≤ 1 :=
    isTaxRate_iff.mp (by decide +kernel)
  have hanswer : (service.createQuote ⟨"", "", ""⟩ request).status = 200 :=
    createQuote_status_iff.mpr ⟨by decide +kernel, by decide +kernel⟩
  obtain ⟨quote, line, hquote, -, hitems, htold⟩ :=
    ((calculatePricing_previews_createQuote service).2 ⟨"", "", ""⟩ "" body (some 0.19)
      fun x hx => Option.some.inj hx ▸ hrate).2 hanswer
  exact ⟨hrate, hanswer, quote, line, hquote, hitems, htold,
    (calculatePricing_previews_createQuote service).1 ⟨"", ""⟩ request quote hquote⟩

end Service

end PriceQuote
