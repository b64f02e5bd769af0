import PriceQuote.Proofs.Quote.Outcome
import PriceQuote.Service.Answer

/-!
# What the service answers about configurations

For each kind of request the answers it can have, by what the request is like:

* `validateOne_of_blank`, `validateOne_of_named`, `validateOne_status_iff`: asking whether a
  configuration is valid;
* `validateBatch_of_malformed`, `validateBatch_of_shaped`, `validateBatch_status_iff`: asking
  whether several are;
* `calculatePricing_of_malformed`, `calculatePricing_of_invalid`, `calculatePricing_of_valid`,
  `calculatePricing_status_iff`: asking for a price;
* `createQuote_of_malformed`, `createQuote_of_refused`, `createQuote_of_quote`,
  `createQuote_status_iff`: asking for a quote.
-/

namespace PriceQuote

namespace Service

/-! ## Statuses and fields -/

def Response.field? (key : String) (response : Response) : Option Json :=
  match response.content with
  | .json value => value.field? key
  | _ => none

@[simp]
theorem Response.error_message (status : Nat) (message : String) (details : Option Json)
    (correlationId : String) :
    (error status message details correlationId).field? "error" = some (.string message) := rfl

@[simp]
theorem Response.error_details (status : Nat) (message : String) (details : Option Json)
    (correlationId : String) :
    (error status message details correlationId).field? "details" = details := by
  cases details <;> rfl

@[simp]
theorem Response.error_correlationId (status : Nat) (message : String) (details : Option Json)
    (correlationId : String) :
    (error status message details correlationId).field? "correlationId" =
      some (.string correlationId) := by
  cases details <;> rfl

@[simp]
theorem Response.malformed_status (correlationId message : String) :
    (malformed correlationId message).status = 400 := rfl

@[simp]
theorem Response.invalid_status (correlationId : String) (details : Json) :
    (invalid correlationId details).status = 400 := rfl

@[simp]
theorem Response.ok_status {α : Type} [Wire α] (value : α) : (ok value).status = 200 := rfl

/-- No refusal is answered as if all were well. -/
theorem Response.ofRefusal_status_ne (correlationId : String) (refusal : Refusal) :
    (ofRefusal correlationId refusal).status ≠ 200 := by
  cases refusal with
  | unknownProduct id =>
    show 404 ≠ 200
    decide
  | invalid message failures =>
    show 400 ≠ 200
    decide

/-! ## Validations -/

section

variable {service : Service} (correlationId : String)

theorem validateOne_of_blank {body : SelectionBody}
    (h : Text.allBlank body.productId.text = true) :
    service.validateOne correlationId body =
      .malformed correlationId "productId must not be blank" := by
  rw [validateOne, if_pos h]

theorem validateOne_of_named {body : SelectionBody}
    (h : Text.allBlank body.productId.text = false) :
    service.validateOne correlationId body =
      let result := service.book.catalog.validate body.productId body.selected
      if result.isValid then .ok result else .invalid correlationId (Wire.encode result) := by
  rw [validateOne, h, if_neg Bool.false_ne_true]

theorem validateOne_status_iff {body : SelectionBody} :
    (service.validateOne correlationId body).status = 200 ↔
      Text.allBlank body.productId.text = false ∧
        (service.book.catalog.validate body.productId body.selected).isValid = true := by
  cases h : Text.allBlank body.productId.text with
  | true => simp [validateOne_of_blank correlationId h]
  | false =>
    rw [validateOne_of_named correlationId h]
    dsimp only
    split <;> simp [*]

theorem validateBatch_of_malformed {body : BatchBody} {problem : ShapeProblem}
    (h : configurationsProblem? body.configurations service.limit = some problem) :
    service.validateBatch correlationId body = .malformed correlationId problem.message := by
  simp only [validateBatch, h]
  rfl

theorem validateBatch_of_shaped {body : BatchBody}
    (h : configurationsProblem? body.configurations service.limit = none) :
    service.validateBatch correlationId body =
      let result := service.book.catalog.validateBatch body.configurations
      if result.isValid then .ok result else .invalid correlationId (Wire.encode result) := by
  simp only [validateBatch, h]
  rfl

theorem validateBatch_status_iff {body : BatchBody} :
    (service.validateBatch correlationId body).status = 200 ↔
      configurationsProblem? body.configurations service.limit = none ∧
        service.book.catalog.AllValidate body.configurations := by
  rw [← Catalog.validateBatch_isValid_iff]
  cases h : configurationsProblem? body.configurations service.limit with
  | some problem => simp [validateBatch_of_malformed correlationId h]
  | none =>
    rw [validateBatch_of_shaped correlationId h]
    dsimp only
    split <;> simp [*]

end

/-! ## Prices -/

section

variable {service : Service} (correlationId : String) {body : PricingBody}

theorem calculatePricing_of_malformed {problem : ShapeProblem}
    (h : configurationsProblem? [body.configuration] service.limit = some problem) :
    service.calculatePricing correlationId body = .malformed correlationId problem.message := by
  simp only [calculatePricing, h]
  rfl

theorem calculatePricing_of_invalid
    (h : configurationsProblem? [body.configuration] service.limit = none)
    (hvalid : ¬ service.book.catalog.AllValidate [body.configuration]) :
    service.calculatePricing correlationId body =
      .invalid correlationId (Wire.encode (service.book.catalog.validate
        body.configuration.productId body.configuration.selected)) := by
  have hinvalid : (service.book.catalog.validate body.configuration.productId
      body.configuration.selected).isValid = false := by
    simpa [Catalog.AllValidate] using hvalid
  simp only [calculatePricing, h, hinvalid]
  rfl

theorem calculatePricing_of_valid
    (h : configurationsProblem? [body.configuration] service.limit = none)
    (hvalid : service.book.catalog.AllValidate [body.configuration]) :
    ∃ pricing, service.book.priceItem body.configuration body.request = .ok pricing ∧
      service.calculatePricing correlationId body =
        ⟨200, .json (pricingJson body.configuration pricing)⟩ := by
  have hone := hvalid _ List.mem_cons_self
  obtain ⟨product, hproduct⟩ := Catalog.find?_isSome_of_validate hone
  have hprice : service.book.priceItem body.configuration body.request =
      .ok (service.book.priceWith product body.configuration body.request) := by
    rw [Pricebook.priceItem, Pricebook.product_eq_ok_iff.mpr hproduct]
    rfl
  refine ⟨_, hprice, ?_⟩
  simp only [calculatePricing, h, hone, hprice]
  rfl

/-- A price is told of what is well formed and validates. -/
theorem calculatePricing_status_iff : (service.calculatePricing correlationId body).status = 200 ↔
    configurationsProblem? [body.configuration] service.limit = none ∧
      service.book.catalog.AllValidate [body.configuration] := by
  cases h : configurationsProblem? [body.configuration] service.limit with
  | some problem => simp [calculatePricing_of_malformed correlationId h]
  | none =>
    by_cases hvalid : service.book.catalog.AllValidate [body.configuration]
    · obtain ⟨pricing, -, htold⟩ := calculatePricing_of_valid correlationId h hvalid
      simp [htold, hvalid]
    · simp [calculatePricing_of_invalid correlationId h hvalid, hvalid]

end

/-! ## Quotes -/

section

variable {Time : Type} [Wire Time] {service : Service} {occasion : Occasion Time}
  {request : QuoteRequest}

theorem createQuote_of_malformed {problem : ShapeProblem}
    (h : request.shapeProblem? service.limit = some problem) :
    service.createQuote occasion request = .malformed occasion.correlationId problem.message := by
  simp only [createQuote, h]
  rfl

theorem createQuote_of_refused {refusal : Refusal} (h : request.shapeProblem? service.limit = none)
    (hquote : service.book.quote occasion.stamp request = .error refusal) :
    service.createQuote occasion request = .ofRefusal occasion.correlationId refusal := by
  simp only [createQuote, h, hquote]
  rfl

theorem createQuote_of_quote {quote : Quote Time} (h : request.shapeProblem? service.limit = none)
    (hquote : service.book.quote occasion.stamp request = .ok quote) :
    service.createQuote occasion request = .ok quote := by
  simp only [createQuote, h, hquote]
  rfl

theorem createQuote_status_iff : (service.createQuote occasion request).status = 200 ↔
    request.shapeProblem? service.limit = none ∧
      service.book.catalog.AllValidate request.configurations := by
  cases h : request.shapeProblem? service.limit with
  | some problem => simp [createQuote_of_malformed h]
  | none =>
    by_cases hvalid : service.book.catalog.AllValidate request.configurations
    · obtain ⟨lines, -, hquote⟩ := Pricebook.quote_of_valid occasion.stamp hvalid
      simp [createQuote_of_quote h hquote, hvalid]
    · have hquote := Pricebook.quote_of_not_valid occasion.stamp hvalid
      rw [createQuote_of_refused h hquote]
      simp [Response.ofRefusal_status_ne, hvalid]

end

end Service

end PriceQuote
