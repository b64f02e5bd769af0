import PriceQuote.Binary64.Decimal
import PriceQuote.Rule.Basic

/-!
# The standard rules

The rules in use where no rule table is configured: discounts for large quantities and for some
customers, bundles, and the prices of regions.
-/

namespace PriceQuote.Rule

/-- The rules, in the order of their declaration. -/
def standard : List Rule :=
  [ { id := ⟨"volume-discount-20"⟩
      name := "Volume discount (20%)"
      description := "20% off line items with 10 or more units"
      category := .volume
      priority := 10
      condition := .quantityAtLeast 10
      adjustment := .percentOff 20 },
    { id := ⟨"volume-discount-10"⟩
      name := "Volume discount (10%)"
      description := "10% off line items with 5 to 9 units"
      category := .volume
      priority := 11
      condition := .all [.quantityAtLeast 5, .quantityBelow 10]
      adjustment := .percentOff 10 },
    { id := ⟨"support-comp-enterprise"⟩
      name := "Complimentary priority support"
      description :=
        "Enterprise customers ordering 3 or more units get one unit of Priority Support free"
      category := .promotional
      priority := 15
      condition := .all
        [.customerTier "enterprise", .quantityAtLeast 3, .addOnSelected ⟨"priority-support"⟩]
      adjustment := .compAddOn ⟨"priority-support"⟩ },
    { id := ⟨"tier-enterprise"⟩
      name := "Enterprise discount"
      description := "15% off for enterprise customers"
      category := .customerTier
      priority := 20
      condition := .customerTier "enterprise"
      adjustment := .percentOff 15 },
    { id := ⟨"tier-startup"⟩
      name := "Startup discount"
      description := "25% off for startup program members"
      category := .customerTier
      priority := 21
      condition := .customerTier "startup"
      adjustment := .percentOff 25 },
    { id := ⟨"bundle-compute-database"⟩
      name := "Compute and database bundle"
      description := "5% off when compute and database products are quoted together"
      category := .bundle
      priority := 30
      condition := .bundleCategories ["compute", "database"]
      adjustment := .percentOff 5 },
    { id := ⟨"bundle-multi-product"⟩
      name := "Multi-product bundle"
      description := "3% off when three or more distinct products are quoted together"
      category := .bundle
      priority := 31
      condition := .minDistinctProducts 3
      adjustment := .percentOff 3 },
    { id := ⟨"region-us-east"⟩
      name := "US East baseline"
      description := "Baseline region; prices are unchanged"
      category := .regional
      priority := 40
      condition := .region "us-east"
      adjustment := .none },
    { id := ⟨"region-eu-central"⟩
      name := "EU Central premium"
      description := "8% premium for eu-central"
      category := .regional
      priority := 41
      condition := .region "eu-central"
      adjustment := .percentSurcharge 8 },
    { id := ⟨"region-ap-southeast"⟩
      name := "AP Southeast premium"
      description := "12% premium for ap-southeast"
      category := .regional
      priority := 42
      condition := .region "ap-southeast"
      adjustment := .percentSurcharge 12 },
    { id := ⟨"region-sa-east"⟩
      name := "SA East multiplier"
      description := "Prices in sa-east are multiplied by 1.15"
      category := .regional
      priority := 43
      condition := .region "sa-east"
      adjustment := .multiplier 1.15 } ]

end PriceQuote.Rule
