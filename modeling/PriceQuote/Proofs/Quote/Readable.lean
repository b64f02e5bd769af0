import PriceQuote.Document.OfJsonText
import PriceQuote.Proofs.Wire.Quote

/-!
# Quotes that can be read back

A quote is written as JSON, which has no text for a number that is not finite. So a quote can be
read back when all of its numbers are finite, and that is not so for every quote: prices that are
finite one by one may be too large together, or in cents.

* `QuoteRequest.HasCanonicalFields`, `hasCanonicalFields_of_read`: the free-form values of a request
  that was read;
* `quote_readable_iff`: which quotes can be read back;
* `Product.dear`, `quote_of_dear_product`: a product whose quotes cannot.
-/

namespace PriceQuote

/-! ## Free-form values of requests -/

/-- The free-form values of a request are such as are read. -/
def QuoteRequest.HasCanonicalFields (request : QuoteRequest) : Prop :=
  ∀ fields ∈ request.customFields, (Json.object fields).IsCanonical

/-- A request that was read, from whatever it was, has such values. -/
theorem QuoteRequest.hasCanonicalFields_of_read {scope : Scope} {document : Document}
    {request : QuoteRequest} (h : Wire.requestShape.read scope document = .ok request) :
    request.HasCanonicalFields := by
  obtain ⟨configurations, tier, region, fields?, rate⟩ := request
  obtain ⟨inner, positional, locate, -, h, -⟩ := Shape.yields_of_read h
  simp only [Wire.requestShape, Shape.yields_seq_iff, Shape.yields_map_iff, existsAndEq, and_true,
    QuoteRequest.mk.injEq] at h
  obtain ⟨⟨-, hfields⟩, -⟩ := h
  rintro fields rfl
  obtain ⟨document, -, hread⟩ := Shape.exists_of_yields_optional hfields
  exact Json.isCanonical_of_fields hread

/-! ## Quotes -/

/-- A product whose price is finite, and too large to be counted in cents. -/
def Product.dear : Product :=
  ⟨⟨"seat"⟩, "Seat", "", 1e307, "licenses", [], []⟩

theorem Catalog.check_eq_ok {products : List Product} {advisories : List Advisory}
    (h : violation? [] products = none) :
    check products advisories = .ok ⟨products, advisories⟩ := by
  rw [check, h]

/-- What is written of a quote can be read back exactly when all numbers of the quote are finite, if
it is a quote for a well-formed request from a checked catalog, with whichever rules. All numbers
are finite if the total, what all discounts come to and each discount are. -/
theorem quote_readable_iff {products : List Product} {advisories : List Advisory}
    {catalog : Catalog} (hcheck : Catalog.check products advisories = .ok catalog)
    (rules : List (PriceRule Binary64)) {request : QuoteRequest} {limit : Nat}
    (hshape : request.shapeProblem? limit = none) (hfields : request.HasCanonicalFields)
    {Time : Type} [Wire Time] {stamp : Stamp Time} (htime : Wire.Restored stamp.createdAt)
    {quote : Quote Time} (h : Pricebook.quote ⟨catalog, rules⟩ stamp request = .ok quote) :
    (Wire.Restored quote ↔ quote.IsFinite) ∧
    (quote.IsFinite ↔ quote.total.isFinite = true ∧ quote.totalDiscounts.isFinite = true ∧
      ∀ line ∈ quote.items, ∀ discount ∈ line.discounts, discount.amount.isFinite = true) := by
  obtain ⟨hcreated, hrepeated⟩ := Pricebook.repeated_of_quote h
  refine ⟨Wire.restored_quote_iff (hcreated ▸ htime) ?_,
    Pricebook.isFinite_iff (Catalog.hasFinitePrices_of_check hcheck) hshape h⟩
  rw [hrepeated]
  cases hcustom : request.customFields with
  | none => exact ⟨List.Pairwise.nil, trivial⟩
  | some fields => exact hfields fields hcustom

/-- Three seats at an ordinary price, ordered with a note. -/
theorem quote_readable_iff_seats :
    let seat : Product := { Product.dear with basePrice := 12.5 }
    let request : QuoteRequest :=
      ⟨[⟨⟨"seat"⟩, [], 3, []⟩], none, none, some [("note", .string "urgent")], some 0.19⟩
    Catalog.check [seat] [] = .ok ⟨[seat], []⟩ ∧ request.shapeProblem? 100 = none ∧
      request.HasCanonicalFields ∧ Wire.Restored "today" ∧
      ∃ quote : Quote String,
        Pricebook.quote ⟨⟨[seat], []⟩, []⟩ ⟨"q-1", "today"⟩ request = .ok quote ∧
        quote.total.isFinite = true ∧ Wire.Restored quote := by
  intro seat request
  have hcheck : Catalog.check [seat] [] = .ok ⟨[seat], []⟩ :=
    Catalog.check_eq_ok (by decide +kernel)
  have hshape : request.shapeProblem? 100 = none := by decide +kernel
  have hread : Wire.requestShape.read (.top .json) (Document.ofJson (.object
      [("configurations", .array [.object [("productId", .string "seat"),
        ("quantity", .integer 3)]]), ("customFields", .object [("note", .string "urgent")]),
        ("taxRate", .float 0.19)])) = .ok request := rfl
  have hfields : request.HasCanonicalFields := QuoteRequest.hasCanonicalFields_of_read hread
  have htime : Wire.Restored "today" := Wire.restored_string _
  have hquote : (Pricebook.quote ⟨⟨[seat], []⟩, []⟩ ⟨"q-1", "today"⟩ request).toOption.any
      (fun quote : Quote String => quote.total.isFinite && quote.totalDiscounts.isFinite &&
        quote.items.all fun line => line.discounts.all fun discount =>
          discount.amount.isFinite) = true := by
    decide +kernel
  obtain ⟨quote, hmade, hquote⟩ := (Option.any_eq_true _ _).mp hquote
  simp only [Bool.and_eq_true, List.all_eq_true] at hquote
  obtain ⟨⟨htotal, hdiscounts⟩, hamounts⟩ := hquote
  have hmade := toOption_eq_some_iff.mp hmade
  obtain ⟨hrestored, hfinite⟩ := quote_readable_iff hcheck [] hshape hfields htime hmade
  exact ⟨hcheck, hshape, hfields, htime, quote, hmade, htotal,
    hrestored.mpr (hfinite.mpr ⟨htotal, hdiscounts, hamounts⟩)⟩

/-- A well-formed request, a checked catalog and no rules, and yet a quote without a total: what is
written of it cannot be read. -/
theorem quote_of_dear_product :
    let request : QuoteRequest := ⟨[⟨⟨"seat"⟩, [], 1, []⟩], none, none, none, none⟩
    ∃ catalog, Catalog.check [.dear] [] = .ok catalog ∧ request.shapeProblem? 100 = none ∧
      ∃ quote : Quote String, Pricebook.quote ⟨catalog, []⟩ ⟨"q-1", "today"⟩ request = .ok quote ∧
        quote.total.isFinite = false ∧ ∀ quote' : Quote String,
          Wire.read (.top .json) (Document.ofJson (Wire.encode quote).asWritten) ≠ .ok quote' := by
  intro request
  have hcheck : Catalog.check [.dear] [] = .ok ⟨[.dear], []⟩ :=
    Catalog.check_eq_ok (by decide +kernel)
  have hquote : (Pricebook.quote ⟨⟨[.dear], []⟩, []⟩ ⟨"q-1", "today"⟩ request).toOption.any
      (fun quote : Quote String => !quote.total.isFinite &&
        ((Wire.read : Reader (Quote String)) (.top .json)
          (Document.ofJson (Wire.encode quote).asWritten)).toOption.isNone) = true := by
    decide +kernel
  obtain ⟨quote, hmade, hquote⟩ := (Option.any_eq_true _ _).mp hquote
  rw [Bool.and_eq_true, Bool.not_eq_true', Option.isNone_iff_eq_none] at hquote
  refine ⟨_, hcheck, by decide +kernel, quote, toOption_eq_some_iff.mp hmade, hquote.1, ?_⟩
  intro quote' hread
  rw [toOption_eq_some_iff.mpr hread] at hquote
  cases hquote.2

end PriceQuote
