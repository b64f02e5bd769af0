import PriceQuote.Document.Tagged
import PriceQuote.Rule.Category
import PriceQuote.Wire.Catalog

/-!
# Rules on the wire

Conditions and adjustments are tagged alternatives. A condition holds others inside, so it is read
down to the depth of its document.
-/

namespace PriceQuote.Wire

instance : Wire RuleId where
  encode id := .string id.text
  read scope d := (Reader.text scope d).map RuleId.mk

instance : Wire RuleCategory where
  encode category := .string category.label
  read := Reader.oneOf RuleCategory.ofLabel?

def tagged (name : String) (fields : List (String × Json)) : Json :=
  .object ((Tagged.tagKey, .string name) :: fields)

/-! ## Conditions -/

def conditionNames : List String :=
  ["always", "quantity_at_least", "quantity_below", "customer_tier", "region", "product_category",
    "option_selected", "bundle_categories", "bundle_prefixes", "min_distinct_products",
    "min_selected_options", "custom_field_equals", "all", "any", "not"]

mutual

def encodeCondition : Condition → Json
  | .always => tagged "always" []
  | .quantityAtLeast value => tagged "quantity_at_least" (put "value" value)
  | .quantityBelow value => tagged "quantity_below" (put "value" value)
  | .customerTier value => tagged "customer_tier" (put "value" value)
  | .region value => tagged "region" (put "value" value)
  | .productCategory value => tagged "product_category" (put "value" value)
  | .addOnSelected addOn => tagged "option_selected" (put "option" addOn)
  | .bundleCategories categories => tagged "bundle_categories" (put "categories" categories)
  | .bundleStarts starts => tagged "bundle_prefixes" (put "prefixes" starts)
  | .minDistinctProducts value => tagged "min_distinct_products" (put "value" value)
  | .minSelectedAddOns value => tagged "min_selected_options" (put "value" value)
  | .customFieldEquals key value =>
    tagged "custom_field_equals" (put "key" key ++ put "value" value)
  | .all conditions => tagged "all" [("conditions", .array (encodeConditions conditions))]
  | .any conditions => tagged "any" [("conditions", .array (encodeConditions conditions))]
  | .not condition => tagged "not" [("condition", encodeCondition condition)]

def encodeConditions : List Condition → List Json
  | [] => []
  | condition :: conditions => encodeCondition condition :: encodeConditions conditions

end

/-- The fields of the condition with a certain name, the conditions inside being read by `inner`. -/
def conditionShape? (inner : Reader Condition) : String → Option (Shape Condition)
  | "always" => some (pure .always)
  | "quantity_at_least" => some (Condition.quantityAtLeast <$> field "value")
  | "quantity_below" => some (Condition.quantityBelow <$> field "value")
  | "customer_tier" => some (Condition.customerTier <$> field "value")
  | "region" => some (Condition.region <$> field "value")
  | "product_category" => some (Condition.productCategory <$> field "value")
  | "option_selected" => some (Condition.addOnSelected <$> field "option")
  | "bundle_categories" => some (Condition.bundleCategories <$> field "categories")
  | "bundle_prefixes" => some (Condition.bundleStarts <$> field "prefixes")
  | "min_distinct_products" => some (Condition.minDistinctProducts <$> field "value")
  | "min_selected_options" => some (Condition.minSelectedAddOns <$> field "value")
  | "custom_field_equals" => some (Condition.customFieldEquals <$> field "key" <*> field "value")
  | "all" => some (Condition.all <$> .required "conditions" (.list inner))
  | "any" => some (Condition.any <$> .required "conditions" (.list inner))
  | "not" => some (Condition.not <$> .required "condition" inner)
  | _ => none

/-- Reads conditions that are nested less than `depth` deep. -/
def readCondition : (depth : Nat) → Reader Condition
  | 0 => fun _ _ => .error .mismatch
  | depth + 1 => Tagged.read conditionNames (conditionShape? (readCondition depth))

instance : Wire Condition where
  encode := encodeCondition
  read scope d := readCondition (d.height + 1) scope d

/-! ## Adjustments -/

def adjustmentNames : List String :=
  ["percent_off", "percent_surcharge", "multiplier", "flat_off", "comp_option", "none"]

/-- The fields of the adjustment with a certain name. -/
def adjustmentShape? : String → Option (Shape Adjustment)
  | "percent_off" => some (Adjustment.percentOff <$> field "percent")
  | "percent_surcharge" => some (Adjustment.percentSurcharge <$> field "percent")
  | "multiplier" => some (Adjustment.multiplier <$> field "factor")
  | "flat_off" => some (Adjustment.flatOff <$> field "amount")
  | "comp_option" => some (Adjustment.compAddOn <$> field "option")
  | "none" => some (pure .none)
  | _ => none

instance : Wire Adjustment where
  encode
    | .percentOff percent => tagged "percent_off" (put "percent" percent)
    | .percentSurcharge percent => tagged "percent_surcharge" (put "percent" percent)
    | .multiplier factor => tagged "multiplier" (put "factor" factor)
    | .flatOff amount => tagged "flat_off" (put "amount" amount)
    | .compAddOn addOn => tagged "comp_option" (put "option" addOn)
    | .none => tagged "none" []
  read := Tagged.read adjustmentNames adjustmentShape?

/-! ## Rules -/

def ruleShape : Shape Rule :=
  Rule.mk <$> field "id" <*> field "name" <*> fieldOr "description" "" <*> field "category" <*>
    field "priority" <*> field "when" <*> field "adjust"

instance : Wire Rule where
  encode rule := .object <|
    put "id" rule.id ++ put "name" rule.name ++ put "description" rule.description ++
    put "category" rule.category ++ put "priority" rule.priority ++
    put "when" rule.condition ++ put "adjust" rule.adjustment
  read := ruleShape.read

def summaryShape : Shape RuleSummary :=
  RuleSummary.mk <$> field "id" <*> field "name" <*> field "description" <*> field "category" <*>
    field "priority"

instance : Wire RuleSummary where
  encode rule := .object <|
    put "id" rule.id ++ put "name" rule.name ++ put "description" rule.description ++
    put "category" rule.category ++ put "priority" rule.priority
  read := summaryShape.read

end PriceQuote.Wire
