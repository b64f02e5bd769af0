import PriceQuote.Proofs.Binary64.Order
import PriceQuote.Proofs.Quote.Outcome
import PriceQuote.Proofs.Rule.Run
import PriceQuote.Quote.Tables

/-!
# Amounts of a quote

Rules may take a price below zero on its way, or make something of it that is no number. In the end
none of this is left:

* `zero_le_finalPrice`, `isFinite_finalPrice`: the price after any rules;
* `zero_le_beforeTax`: the sum of a quote before tax;
* `amounts_not_negative`: prices, tax and totals are numbers that are not below zero, and tax is a
  part of the total.
-/

namespace PriceQuote

open Binary64 (zero)
open Money (roundToCents)

/-! ## Prices -/

section

variable (rules : List (PriceRule Binary64)) (context : PricingContext)

/-- No rules take a price below zero. -/
theorem zero_le_finalPrice (basePrice : Binary64) :
    zero.le (applyRules rules context basePrice).finalPrice = true :=
  Binary64.zero_le_atLeastZero _

/-- Rules leave a finite price finite. -/
theorem isFinite_finalPrice {basePrice : Binary64} (h : basePrice.isFinite = true) :
    (applyRules rules context basePrice).finalPrice.isFinite = true := by
  have hbase : Money.Arithmetic.isFinite basePrice = true := h
  have hrun := isFinite_runRules context
    (inOrder (rules.filter fun rule => rule.applies context)) hbase
  exact Binary64.isFinite_atLeastZero hrun

end

/-! ## Tax -/

theorem QuoteRequest.isTaxRate_of_shapeProblem? {request : QuoteRequest} {limit : Nat}
    (h : request.shapeProblem? limit = none) {rate : Binary64}
    (hrate : request.taxRate = some rate) : rate.isFinite = true ∧ zero.le rate = true := by
  have hall : request.taxRate.all isTaxRate = true := by
    unfold shapeProblem? at h
    cases hproblem : configurationsProblem? request.configurations limit with
    | some problem =>
      rw [hproblem] at h
      cases h
    | none =>
      rw [hproblem] at h
      by_contra hnot
      rw [if_neg hnot] at h
      cases h
  rw [hrate, Option.all_some, isTaxRate, Bool.and_eq_true, Bool.and_eq_true] at hall
  exact hall.1

namespace Pricebook

section

variable {Time : Type} {book : Pricebook} {stamp : Stamp Time} {request : QuoteRequest}
  {quote : Quote Time}

theorem zero_le_beforeTax (h : book.quote stamp request = .ok quote) :
    zero.le (Binary64.sum (quote.items.map (·.total))) = true := by
  refine Binary64.zero_le_sum fun x hx => ?_
  obtain ⟨line, hline, rfl⟩ := List.mem_map.mp hx
  obtain ⟨item, -, hitem⟩ := exists_of_mem_items h hline
  obtain ⟨product, -, rfl⟩ := quoteItem_eq_ok_iff.mp hitem
  exact zero_le_finalPrice book.rules (book.context product item request) _

theorem tax_of_quote (h : book.quote stamp request = .ok quote) :
    quote.tax = request.taxRate.map fun rate =>
      roundToCents (Binary64.sum (quote.items.map (·.total)) * rate) := by
  obtain ⟨-, lines, -, rfl⟩ := quote_eq_ok_iff.mp h
  simp only [total, Option.map_map]
  rfl

theorem total_of_quote (h : book.quote stamp request = .ok quote) :
    quote.total = roundToCents (match request.taxRate with
      | some rate => Binary64.sum (quote.items.map (·.total)) +
          Binary64.sum (quote.items.map (·.total)) * rate
      | none => Binary64.sum (quote.items.map (·.total))) := by
  obtain ⟨-, lines, -, rfl⟩ := quote_eq_ok_iff.mp h
  cases hrate : request.taxRate <;> simp only [total, hrate] <;> rfl

/-- Tax on a finite sum that is not below zero is part of what comes to pay. -/
theorem tax_le_total {beforeTax rate : Binary64} (hsum : zero.le beforeTax = true)
    (hfinite : beforeTax.isFinite = true) (hrate : rate.isFinite = true ∧ zero.le rate = true) :
    let tax := roundToCents (beforeTax * rate)
    zero.le tax = true ∧ tax.le (roundToCents (beforeTax + beforeTax * rate)) = true := by
  have htax : zero.le (beforeTax * rate) = true :=
    Binary64.zero_le_mul hsum hrate.2 hfinite hrate.1
  exact ⟨Binary64.zero_le_roundToCents htax,
    Binary64.roundToCents_le_roundToCents (Binary64.le_add_left hsum htax)⟩

end

/-- No price that rules leave is below zero or no number, and from a finite price they leave a
finite one, whatever they do on the way. Of a quote for a well-formed request whose sum before tax
is finite, tax and total are numbers that are not below zero, and tax is not above the total. -/
theorem amounts_not_negative :
    (∀ (rules : List (PriceRule Binary64)) (context : PricingContext) (basePrice : Binary64),
      let price := (applyRules rules context basePrice).finalPrice
      price ≠ .nan ∧ price.lt zero = false ∧
        (basePrice.isFinite = true → price.isFinite = true)) ∧
    ∀ {Time : Type} (book : Pricebook) (stamp : Stamp Time) (request : QuoteRequest) (limit : Nat)
      (quote : Quote Time), request.shapeProblem? limit = none →
      book.quote stamp request = .ok quote →
      (Binary64.sum (quote.items.map (·.total))).isFinite = true →
      quote.tax.isSome = request.taxRate.isSome ∧
      (∀ tax, quote.tax = some tax →
        tax ≠ .nan ∧ zero.le tax = true ∧ tax.le quote.total = true) ∧
      quote.total ≠ .nan ∧ zero.le quote.total = true := by
  refine ⟨fun rules context basePrice => ?_,
    fun book stamp request limit quote hshape h hfinite => ?_⟩
  · have hprice := zero_le_finalPrice rules context basePrice
    exact ⟨Binary64.ne_nan_of_zero_le hprice, Binary64.lt_zero_of_zero_le hprice,
      isFinite_finalPrice rules context⟩
  · have hsum := zero_le_beforeTax h
    rw [tax_of_quote h, total_of_quote h]
    cases hrate : request.taxRate with
    | none =>
      have htotal := Binary64.zero_le_roundToCents hsum
      refine ⟨rfl, fun tax htax => ?_, Binary64.ne_nan_of_zero_le htotal, htotal⟩
      cases htax
    | some rate =>
      have hadmissible := request.isTaxRate_of_shapeProblem? hshape hrate
      obtain ⟨hzero, hle⟩ := tax_le_total hsum hfinite hadmissible
      have htotal := Binary64.le_trans hzero hle
      refine ⟨rfl, fun tax htax => ?_, Binary64.ne_nan_of_zero_le htotal, htotal⟩
      obtain rfl := Option.some.inj htax
      exact ⟨Binary64.ne_nan_of_zero_le hzero, hzero, hle⟩

/-- A taxed virtual machine from which more is taken off than it costs. -/
theorem amounts_not_negative_giveaway :
    let giveaway : Rule := ⟨⟨"giveaway"⟩, "Giveaway", "", .promotional, 1, .always, .flatOff 1000⟩
    let book : Pricebook := ⟨.standard, [.ofRule giveaway]⟩
    let vm : Configuration := ⟨⟨"compute-standard"⟩, [⟨"linux"⟩], 1, []⟩
    let request : QuoteRequest := ⟨[vm], none, none, none, some 0.19⟩
    ∃ product quote, book.catalog.find? vm.productId = some product ∧
      (applyRules book.rules (book.context product vm request) 25).finalPrice.isFinite = true ∧
      request.shapeProblem? 100 = none ∧ book.quote ⟨"", ()⟩ request = .ok quote ∧
      (Binary64.sum (quote.items.map (·.total))).isFinite = true ∧
      ∃ tax, quote.tax = some tax ∧ zero.le tax = true ∧ tax.le quote.total = true := by
  intro giveaway book vm request
  have hvalid : book.catalog.AllValidate request.configurations := by decide +kernel
  obtain ⟨product, hproduct⟩ := Catalog.find?_isSome_of_validate (hvalid vm List.mem_cons_self)
  have hprice := (amounts_not_negative.1 book.rules (book.context product vm request) 25).2.2
    (by decide +kernel)
  have hshape : request.shapeProblem? 100 = none := by decide +kernel
  obtain ⟨lines, hlines, hquote⟩ := quote_of_valid ⟨"", ()⟩ hvalid
  have hsum : (request.configurations.mapM (book.quoteItem request)).toOption.all
      (fun lines => (Binary64.sum (lines.map (·.total))).isFinite) = true := by decide +kernel
  rw [hlines] at hsum
  obtain ⟨-, htax, -⟩ := amounts_not_negative.2 book _ request 100 _ hshape hquote hsum
  exact ⟨product, _, hproduct, hprice, hshape, hquote, hsum, _, rfl, (htax _ rfl).2⟩

end Pricebook

end PriceQuote
