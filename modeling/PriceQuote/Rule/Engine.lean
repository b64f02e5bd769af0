import PriceQuote.Rule.Context

/-!
# Applying rules

The rules that apply change the price one after the other, by ascending priority and, where that
is equal, in the order of their declaration.

* `PriceRule`: a rule as it is applied, whatever its test and its change; `PriceRule.ofRule` is the
  one that a declared rule stands for.
* `inOrder`: rules in the order of evaluation;
* `RuleRun.step`: one rule applied. A result that is not finite is dropped; a change that comes to
  no cent is made but not recorded.
* `applyRules`: all of them applied, the price being zero at least in the end.
-/

namespace PriceQuote

section

open Money (Arithmetic roundToCents)

/-- A rule as it is applied: what is told about it, a test and a change of prices. -/
structure PriceRule (N : Type) extends RuleSummary where
  applies : PricingContext → Bool
  transform : N → PricingContext → N

/-- The rule that a declaration stands for. -/
def PriceRule.ofRule {N : Type} [Arithmetic N] (rule : Rule) : PriceRule N where
  toRuleSummary := rule.summary
  applies context := rule.condition.holds context
  transform price context := rule.adjustment.apply context price

variable {N : Type}

/-- Puts a rule before the first one whose priority is not below its own. -/
def insertByPriority (rule : PriceRule N) : List (PriceRule N) → List (PriceRule N)
  | [] => [rule]
  | other :: rules =>
    if rule.priority ≤ other.priority then rule :: other :: rules
    else other :: insertByPriority rule rules

/-- Rules in the order of evaluation: by ascending priority, ties as declared. -/
def inOrder (rules : List (PriceRule N)) : List (PriceRule N) :=
  rules.foldr insertByPriority []

/-- What is told about rules, in the order of evaluation. -/
def describe (rules : List (PriceRule N)) : List RuleSummary :=
  (inOrder rules).map PriceRule.toRuleSummary

/-- A rule that changed a price. -/
structure AppliedRule (N : Type) where
  ruleId : RuleId
  ruleName : String
  /-- The price before it less the price after it. -/
  discount : N
  deriving DecidableEq

/-- A price on its way through the rules. -/
structure RuleRun (N : Type) where
  price : N
  applied : List (AppliedRule N)

/-- What the rules made of a price. -/
structure RuleOutcome (N : Type) where
  finalPrice : N
  applied : List (AppliedRule N)

variable [Arithmetic N]

def RuleRun.step (context : PricingContext) (run : RuleRun N) (rule : PriceRule N) : RuleRun N :=
  let next := rule.transform run.price context
  let change := run.price - next
  if !Arithmetic.isFinite next then run
  else if Arithmetic.isZero (roundToCents change) then ⟨next, run.applied⟩
  else ⟨next, run.applied ++ [⟨rule.id, rule.name, change⟩]⟩

/-- Applies rules in the given order to a price. -/
def runRules (context : PricingContext) (basePrice : N) (rules : List (PriceRule N)) :
    RuleRun N :=
  rules.foldl (RuleRun.step context) ⟨basePrice, []⟩

/-- Applies those of some rules that apply. -/
def applyRules (rules : List (PriceRule N)) (context : PricingContext) (basePrice : N) :
    RuleOutcome N :=
  let run := runRules context basePrice
    (inOrder (rules.filter fun rule => rule.applies context))
  ⟨Arithmetic.atLeastZero run.price, run.applied⟩

end

end PriceQuote
