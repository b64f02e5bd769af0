import PriceQuote.Proofs.Binary64.Neutral
import PriceQuote.Proofs.Rule.Run

/-!
# Rules that make no difference

A rule that does not apply, or that gives back the price it meets, may be declared anywhere among
others, under any priority. No price is another for it, and no record:

* `PriceRule.GoesByRank`, `goesByRank_ofRule`: declared rules make no difference between two zeros;
* `RuleRun.Agrees`, `Agrees.step`, `Agrees.foldl`: runs with prices at the same place and the same
  records go on like this;
* `step_agrees_self`: a rule that gives back the price of a run leaves the run as it is;
* `priceMet`, `applyRules_insert`: the price that a rule meets, and what comes of giving it back;
* `Adjustment.IsNeutral`, `Rule.IsInert`, `inert_rule_invisible`: declared rules that do so.
-/

namespace PriceQuote

open Money (Arithmetic roundToCents)
open Binary64 (eq_or_rank_zero isFinite_congr rank_sub_congr rank_mul_congr)

variable {context : PricingContext} {rule : PriceRule Binary64} {price price' : Binary64}

/-! ## Prices at the same place -/

/-- The rule changes prices at the same place to prices at the same place. -/
def PriceRule.GoesByRank (rule : PriceRule Binary64) (context : PricingContext) : Prop :=
  ∀ price price', price.rank = price'.rank →
    (rule.transform price context).rank = (rule.transform price' context).rank

/-- Declared rules multiply a price or take something off it, which goes by the place. -/
theorem goesByRank_ofRule (rule : Rule) (context : PricingContext) :
    (PriceRule.ofRule rule).GoesByRank context := by
  intro price price' h
  show (rule.adjustment.apply context price).rank = (rule.adjustment.apply context price').rank
  cases rule.adjustment with
  | percentOff percent => exact rank_mul_congr h _
  | percentSurcharge percent => exact rank_mul_congr h _
  | multiplier factor => exact rank_mul_congr h _
  | flatOff amount => exact rank_sub_congr h rfl
  | compAddOn addOn => exact rank_sub_congr h rfl
  | none => exact h

theorem PriceRule.rank_next_congr (hrule : rule.GoesByRank context)
    (h : price.rank = price'.rank) :
    (rule.next context price).rank = (rule.next context price').rank := by
  have htransform := hrule price price' h
  have hfinite : Arithmetic.isFinite (rule.transform price context) =
      Arithmetic.isFinite (rule.transform price' context) := isFinite_congr htransform
  unfold PriceRule.next
  rw [hfinite]
  split
  · exact htransform
  · exact h

theorem PriceRule.record?_eq_none (h : (price - rule.next context price).rank = some 0) :
    rule.record? context price = none := by
  have hzero : Arithmetic.isZero (roundToCents (price - rule.next context price)) = true :=
    Binary64.isZero_roundToCents h
  unfold PriceRule.record?
  rw [hzero, Bool.not_true, Bool.and_false, if_neg Bool.false_ne_true]

/-- A rule records the same at prices at the same place: the change is the same, or it is a zero
both times. -/
theorem PriceRule.record?_congr (hrule : rule.GoesByRank context)
    (h : price.rank = price'.rank) :
    rule.record? context price = rule.record? context price' := by
  have hchange := rank_sub_congr h (rank_next_congr hrule h)
  rcases eq_or_rank_zero hchange with heq | ⟨hzero, hzero'⟩
  · have hfinite : Arithmetic.isFinite (rule.transform price context) =
        Arithmetic.isFinite (rule.transform price' context) := isFinite_congr (hrule _ _ h)
    unfold PriceRule.record?
    rw [heq, hfinite]
  · rw [record?_eq_none hzero, record?_eq_none hzero']

/-! ## Runs that agree -/

/-- Two runs are at prices at the same place and have the same records. -/
structure RuleRun.Agrees (a b : RuleRun Binary64) : Prop where
  price : a.price.rank = b.price.rank
  applied : a.applied = b.applied

/-- Runs that agree still do after one more rule. -/
theorem RuleRun.Agrees.step {a b : RuleRun Binary64} (h : a.Agrees b)
    (hrule : rule.GoesByRank context) : (a.step context rule).Agrees (b.step context rule) := by
  rw [RuleRun.step_eq, RuleRun.step_eq]
  refine ⟨PriceRule.rank_next_congr hrule h.price, ?_⟩
  rw [h.applied, PriceRule.record?_congr hrule h.price]

theorem RuleRun.Agrees.foldl {rules : List (PriceRule Binary64)}
    (hrules : ∀ rule ∈ rules, rule.GoesByRank context) {a b : RuleRun Binary64}
    (h : a.Agrees b) :
    (rules.foldl (RuleRun.step context) a).Agrees (rules.foldl (RuleRun.step context) b) := by
  induction rules generalizing a b with
  | nil => exact h
  | cons rule rules ih =>
    obtain ⟨hrule, hrules⟩ := List.forall_mem_cons.mp hrules
    exact ih hrules (h.step hrule)

theorem PriceRule.rank_next_of_givesBack
    (h : (rule.transform price context).rank = price.rank) :
    (rule.next context price).rank = price.rank := by
  unfold PriceRule.next
  split
  · exact h
  · rfl

/-- Nothing is recorded of a rule that gives back the price: where the price is not finite, what is
given back is dropped, and else there is no change to record. -/
theorem PriceRule.record?_of_givesBack
    (h : (rule.transform price context).rank = price.rank) :
    rule.record? context price = none := by
  cases hprice : price.isFinite with
  | true =>
    exact record?_eq_none (Binary64.rank_sub_self hprice (rank_next_of_givesBack h).symm)
  | false =>
    have hdropped : Arithmetic.isFinite (rule.transform price context) = false :=
      (isFinite_congr h).trans hprice
    unfold PriceRule.record?
    rw [hdropped, Bool.false_and, if_neg Bool.false_ne_true]

theorem RuleRun.step_agrees_self {run : RuleRun Binary64}
    (h : (rule.transform run.price context).rank = run.price.rank) :
    (run.step context rule).Agrees run := by
  rw [RuleRun.step_eq, PriceRule.record?_of_givesBack h, Option.toList_none, List.append_nil]
  exact ⟨PriceRule.rank_next_of_givesBack h, rfl⟩

/-! ## Inserting a rule -/

/-- The price that a rule meets when it is declared between `front` and `rest`: what is left by the
rules that apply and are evaluated before it. -/
def priceMet (context : PricingContext) (basePrice : Binary64) (rule : PriceRule Binary64)
    (front rest : List (PriceRule Binary64)) : Binary64 :=
  (runRules context basePrice (inOrder (evaluatedBefore rule.priority
    (front.filter fun other => other.applies context)
    (rest.filter fun other => other.applies context)))).price

/-- Runs agree, with and without a rule that gives back the price it meets. -/
theorem runRules_insert {basePrice : Binary64} {front rest : List (PriceRule Binary64)}
    (hothers : ∀ other ∈ front ++ rest, other.GoesByRank context)
    (h : let met := (runRules context basePrice
        (inOrder (evaluatedBefore rule.priority front rest))).price
      (rule.transform met context).rank = met.rank) :
    (runRules context basePrice (inOrder (front ++ rule :: rest))).Agrees
      (runRules context basePrice (inOrder (front ++ rest))) := by
  have hwith : inOrder (front ++ ([rule] ++ rest)) =
      inOrder (evaluatedBefore rule.priority front rest) ++
        ([rule] ++ inOrder (evaluatedAfter rule.priority front rest)) :=
    inOrder_between (fun other hother => by rw [List.mem_singleton.mp hother]) front rest
  have hwithout : inOrder (front ++ ([] ++ rest)) =
      inOrder (evaluatedBefore rule.priority front rest) ++
        ([] ++ inOrder (evaluatedAfter rule.priority front rest)) :=
    inOrder_between (fun other hother => absurd hother List.not_mem_nil) front rest
  rw [List.singleton_append, List.singleton_append] at hwith
  rw [List.nil_append, List.nil_append] at hwithout
  have hlate : ∀ other ∈ inOrder (evaluatedAfter rule.priority front rest),
      other.GoesByRank context := by
    intro other hother
    apply hothers
    rw [(inOrder_perm _).mem_iff, evaluatedAfter, List.mem_append] at hother
    rw [List.mem_append]
    exact hother.imp List.mem_of_mem_filter List.mem_of_mem_filter
  rw [hwith, hwithout, runRules, runRules, List.foldl_append, List.foldl_append, List.foldl_cons]
  exact (RuleRun.step_agrees_self h).foldl hlate

/-- Among rules that go by the place, a rule that gives back the price it meets makes no
difference, nor does one that does not apply. -/
theorem applyRules_insert {basePrice : Binary64} {front rest : List (PriceRule Binary64)}
    (hothers : ∀ other ∈ front ++ rest, other.GoesByRank context)
    (h : rule.applies context = true →
      (rule.transform (priceMet context basePrice rule front rest) context).rank =
        (priceMet context basePrice rule front rest).rank) :
    applyRules (front ++ rule :: rest) context basePrice =
      applyRules (front ++ rest) context basePrice := by
  unfold applyRules
  rw [List.filter_append, List.filter_append, List.filter_cons]
  cases happlies : rule.applies context with
  | false => rfl
  | true =>
    have hchosen : ∀ other ∈ front.filter (fun other => other.applies context) ++
        rest.filter (fun other => other.applies context), other.GoesByRank context := by
      intro other hother
      apply hothers
      rw [List.mem_append] at hother ⊢
      exact hother.imp List.mem_of_mem_filter List.mem_of_mem_filter
    have hruns := runRules_insert hchosen (h happlies)
    have hprice := Binary64.atLeastZero_congr hruns.price
    simp only [↓reduceIte]
    rw [hruns.applied]
    exact congrArg (RuleOutcome.mk · _) hprice

/-! ## Declared rules -/

/-- The adjustment gives back every price. -/
inductive Adjustment.IsNeutral (context : PricingContext) : Adjustment → Prop
  | none : IsNeutral context .none
  | compAddOn {addOn : AddOnId} (h : context.product.addOn? addOn = Option.none) :
    IsNeutral context (.compAddOn addOn)
  | flatOff {amount : Binary64} (h : amount.same 0 = true) : IsNeutral context (.flatOff amount)
  | percentOff {percent : Binary64} (h : percent.same 0 = true) :
    IsNeutral context (.percentOff percent)
  | percentSurcharge {percent : Binary64} (h : percent.same 0 = true) :
    IsNeutral context (.percentSurcharge percent)
  | multiplier : IsNeutral context (.multiplier 1)

/-- What a neutral adjustment gives back is at the place of the price, also where that is infinite
or not a number. -/
theorem Adjustment.IsNeutral.rank_apply {adjustment : Adjustment}
    (h : adjustment.IsNeutral context) (price : Binary64) :
    (adjustment.apply context price).rank = price.rank := by
  cases h with
  | none => rfl
  | @compAddOn addOn hnone =>
    have hprice : (context.addOnPrice addOn).rank = some 0 := by
      rw [PricingContext.addOnPrice, hnone]
      rfl
    exact Binary64.rank_sub_zero price hprice
  | flatOff hzero => exact Binary64.rank_sub_zero price (Binary64.rank_of_same_zero hzero)
  | @percentOff percent hzero =>
    have hpart := Binary64.rank_zero_div_hundred (Binary64.rank_of_same_zero hzero)
    have hone : (1 : Binary64) - percent / Money.hundred = 1 :=
      Binary64.eq_one_of_rank (Binary64.rank_sub_zero 1 hpart)
    have happly : (Adjustment.percentOff percent).apply context price =
        price * (Money.one - percent / Money.hundred) := rfl
    rw [happly, Binary64.money_one, hone, Binary64.mul_one]
  | @percentSurcharge percent hzero =>
    have hpart := Binary64.rank_zero_div_hundred (Binary64.rank_of_same_zero hzero)
    have hone : (1 : Binary64) + percent / Money.hundred = 1 :=
      Binary64.eq_one_of_rank (Binary64.rank_add_zero 1 hpart)
    have happly : (Adjustment.percentSurcharge percent).apply context price =
        price * (Money.one + percent / Money.hundred) := rfl
    rw [happly, Binary64.money_one, hone, Binary64.mul_one]
  | multiplier =>
    have happly : ∀ factor, (Adjustment.multiplier factor).apply context price = price * factor :=
      fun _ => rfl
    rw [happly, Binary64.mul_one]

/-- The rule does nothing to a price: it does not apply, its adjustment gives back every price, or
it gives back this one, if need be with another sign of a zero. -/
inductive Rule.IsInert (context : PricingContext) (price : Binary64) (rule : Rule) : Prop
  | unmet (h : rule.condition.holds context = false)
  | neutral (h : rule.adjustment.IsNeutral context)
  | givesBack (h : (rule.adjustment.apply context price).rank = price.rank)

/-- A rule that does nothing to the price it meets is invisible: wherever it is declared among
others, and under whatever priority, they make the same of every price and record the same. -/
theorem inert_rule_invisible (front rest : List Rule) (rule : Rule) (context : PricingContext)
    (basePrice : Binary64)
    (h : rule.IsInert context
      (priceMet context basePrice (.ofRule rule) (front.map .ofRule) (rest.map .ofRule))) :
    applyRules ((front ++ rule :: rest).map .ofRule) context basePrice =
      applyRules ((front ++ rest).map .ofRule) context basePrice := by
  have hdeclared : ∀ other ∈ front.map PriceRule.ofRule ++ rest.map PriceRule.ofRule,
      other.GoesByRank context := by
    intro other hother
    rw [← List.map_append] at hother
    obtain ⟨declared, -, rfl⟩ := List.mem_map.mp hother
    exact goesByRank_ofRule declared context
  rw [List.map_append, List.map_cons, List.map_append]
  refine applyRules_insert hdeclared fun happlies => ?_
  cases h with
  | unmet hunmet =>
    have happlies : rule.condition.holds context = true := happlies
    rw [hunmet] at happlies
    exact absurd happlies Bool.false_ne_true
  | neutral hneutral => exact hneutral.rank_apply _
  | givesBack hback => exact hback

/-- An amount that is lost on the price it meets, which is doubled before, and no amount at all off
an infinite price. -/
theorem inert_rule_invisible_dust :
    let double : Rule := ⟨⟨"double"⟩, "Double", "", .regional, 5, .always, .multiplier 2⟩
    let half : Rule := ⟨⟨"half"⟩, "Half", "", .volume, 20, .quantityAtLeast 2, .percentOff 50⟩
    let flat (amount : Binary64) : Rule :=
      ⟨⟨"flat"⟩, "Flat", "", .promotional, 10, .always, .flatOff amount⟩
    let context : PricingContext := ⟨⟨⟨"seat"⟩, "Seat", "", 60, "licenses", [], []⟩,
      ⟨⟨"seat"⟩, [], 2, []⟩, [], ⟨[], []⟩, none, none, none⟩
    (flat 1e-9).IsInert context
      (priceMet context 1e16 (.ofRule (flat 1e-9)) ([half].map .ofRule) ([double].map .ofRule)) ∧
    applyRules ([half, flat 1e-9, double].map .ofRule) context (1e16 : Binary64) =
      applyRules ([half, double].map .ofRule) context 1e16 ∧
    applyRules ([half, flat 0, double].map .ofRule) context (Binary64.infinity false) =
      applyRules ([half, double].map .ofRule) context (Binary64.infinity false) := by
  intro double half flat context
  have hinert : (flat 1e-9).IsInert context
      (priceMet context 1e16 (.ofRule (flat 1e-9)) ([half].map .ofRule) ([double].map .ofRule)) :=
    .givesBack (by decide +kernel)
  have hneutral : (flat 0).adjustment.IsNeutral context := .flatOff (by decide +kernel)
  exact ⟨hinert, inert_rule_invisible [half] [double] (flat 1e-9) context 1e16 hinert,
    inert_rule_invisible [half] [double] (flat 0) context (Binary64.infinity false) (.neutral hneutral)⟩

end PriceQuote
