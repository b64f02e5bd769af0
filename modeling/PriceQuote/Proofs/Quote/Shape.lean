import Mathlib.Data.List.Basic
import PriceQuote.Quote.Request

/-!
# Requests that are looked at

A request is looked at when nothing is wrong with its shape:

* `Configuration.IsOrder`: a configuration names a product and asks for one unit at least;
* `configurationsProblem?_eq_none_iff`: the lists of configurations that are accepted;
* `shapeProblem?_eq_none_iff`: the requests that are accepted.
-/

namespace PriceQuote

/-- A configuration that names a product and asks for one unit of it at least. -/
structure Configuration.IsOrder (configuration : Configuration) : Prop where
  named : Text.allBlank configuration.productId.text = false
  units : configuration.quantity ≠ 0

theorem Configuration.problem?_eq_none_iff {configuration : Configuration} {index : Nat} :
    configuration.problem? index = none ↔ configuration.IsOrder := by
  constructor
  · intro h
    unfold problem? at h
    split at h
    · cases h
    · rename_i hnamed
      split at h
      · cases h
      · rename_i hunits
        exact ⟨eq_false_of_ne_true hnamed, hunits⟩
  · rintro ⟨hnamed, hunits⟩
    rw [problem?, hnamed, if_neg Bool.false_ne_true, if_neg hunits]

/-- Accepted are some configurations, not too many, each of which is an order. -/
theorem configurationsProblem?_eq_none_iff {configurations : List Configuration} {limit : Nat} :
    configurationsProblem? configurations limit = none ↔ configurations ≠ [] ∧
      configurations.length ≤ limit ∧ ∀ item ∈ configurations, item.IsOrder := by
  have hitems : (∀ item index, (item, index) ∈ configurations.zipIdx → item.IsOrder) ↔
      ∀ item ∈ configurations, item.IsOrder := by
    constructor
    · intro h item hitem
      obtain ⟨index, hindex⟩ := List.mem_iff_getElem?.mp hitem
      exact h item index (List.mem_zipIdx_iff_getElem?.mpr hindex)
    · intro h item index hmem
      exact h item (List.mem_of_getElem? (List.mem_zipIdx_iff_getElem?.mp hmem))
  unfold configurationsProblem?
  by_cases hempty : configurations = []
  · simp [hempty]
  · by_cases hmany : limit < configurations.length
    · simp [hempty, hmany, Nat.not_le.mpr hmany]
    · simp only [List.isEmpty_iff, hempty, hmany, ↓reduceIte, List.findSome?_eq_none_iff,
        Prod.forall, Configuration.problem?_eq_none_iff, hitems, Nat.le_of_not_lt hmany, ne_eq,
        not_false_eq_true, true_and]

/-- An order can be asked for alone wherever one configuration is accepted. -/
theorem configurationsProblem?_singleton {item : Configuration} {limit : Nat} (hlimit : 0 < limit)
    (h : item.IsOrder) : configurationsProblem? [item] limit = none :=
  configurationsProblem?_eq_none_iff.mpr ⟨List.cons_ne_nil _ _, hlimit, by simpa using h⟩

theorem QuoteRequest.shapeProblem?_eq_none_iff {request : QuoteRequest} {limit : Nat} :
    request.shapeProblem? limit = none ↔
      configurationsProblem? request.configurations limit = none ∧
        request.taxRate.all isTaxRate = true := by
  unfold shapeProblem?
  cases configurationsProblem? request.configurations limit with
  | some problem => simp
  | none => cases request.taxRate.all isTaxRate <;> simp

end PriceQuote
