import PriceQuote.Proofs.Rule.Order

/-!
# The order of declaration

The order in which rules are declared matters only among rules of equal priority. Declarations may
be rearranged at will as long as those keep their order:

* `Rule.Rearranged`: such a rearrangement;
* `inOrder_of_rearranged`: the order of evaluation is the same;
* `rearranged_rules_agree`: so is what is told about the rules, and what they make of a price.
-/

namespace PriceQuote

/-- The same declarations in another order, in which those of equal priority follow one another as
before. -/
structure Rule.Rearranged (rules rules' : List Rule) : Prop where
  perm : rules'.Perm rules
  ties : ∀ priority, rules'.filter (fun rule => rule.priority == priority) =
    rules.filter fun rule => rule.priority == priority

section

variable {N : Type} [Money.Arithmetic N] {rules rules' : List Rule}

theorem filter_map_ofRule (rules : List Rule) (priority : Int32) :
    (rules.map (PriceRule.ofRule (N := N))).filter (fun rule => rule.priority == priority) =
      (rules.filter fun rule => rule.priority == priority).map .ofRule := by
  rw [List.filter_map]
  rfl

theorem inOrder_of_rearranged (h : Rule.Rearranged rules rules') :
    inOrder (rules.map (PriceRule.ofRule (N := N))) = inOrder (rules'.map .ofRule) :=
  inOrder_congr fun priority => by
    rw [filter_map_ofRule, filter_map_ofRule, h.ties]

/-- Declarations may be rearranged as long as those of equal priority keep their order: the same is
told about the rules, in the same order, and in every context they make the same of every price and
record the same. -/
theorem rearranged_rules_agree (h : Rule.Rearranged rules rules') :
    describe (rules.map (PriceRule.ofRule (N := N))) =
      describe (rules'.map (PriceRule.ofRule (N := N))) ∧
    ∀ (context : PricingContext) (basePrice : N),
      applyRules (rules.map .ofRule) context basePrice =
        applyRules (rules'.map .ofRule) context basePrice := by
  have horder : inOrder (rules.map (PriceRule.ofRule (N := N))) = inOrder (rules'.map .ofRule) :=
    inOrder_of_rearranged h
  refine ⟨?_, fun context basePrice => ?_⟩
  · rw [describe, horder, describe]
  · -- The rules that apply may be chosen after all are put in order.
    unfold applyRules
    rw [← filter_inOrder, ← filter_inOrder, horder]

end

/-- Two rules of one priority around one that comes before both. -/
theorem rearranged_rules_agree_premium :
    let voucher : Rule := ⟨⟨"voucher"⟩, "Voucher", "", .promotional, 10, .always, .flatOff 10⟩
    let half : Rule := ⟨⟨"half"⟩, "Half", "", .volume, 10, .quantityAtLeast 2, .percentOff 50⟩
    let premium : Rule := ⟨⟨"premium"⟩, "Premium", "", .regional, -5, .region "north",
      .percentSurcharge 8⟩
    let context : PricingContext := ⟨⟨⟨"seat"⟩, "Seat", "", 60, "licenses", [], []⟩,
      ⟨⟨"seat"⟩, [], 2, []⟩, [], ⟨[], []⟩, none, some "north", none⟩
    Rule.Rearranged [voucher, premium, half] [premium, voucher, half] ∧
    describe ([voucher, premium, half].map (PriceRule.ofRule (N := Binary64))) =
      describe ([premium, voucher, half].map (PriceRule.ofRule (N := Binary64))) ∧
    applyRules ([voucher, premium, half].map .ofRule) context (120 : Binary64) =
      applyRules ([premium, voucher, half].map .ofRule) context 120 := by
  intro voucher half premium context
  have h : Rule.Rearranged [voucher, premium, half] [premium, voucher, half] := by
    refine ⟨.swap voucher premium [half], fun priority => ?_⟩
    by_cases hpremium : premium.priority = priority
    · subst hpremium
      rfl
    · have hdropped : (premium.priority == priority) = false := beq_eq_false_iff_ne.mpr hpremium
      simp only [List.filter_cons, hdropped, Bool.false_eq_true, ↓reduceIte]
  obtain ⟨hdescribe, happly⟩ := rearranged_rules_agree (N := Binary64) h
  exact ⟨h, hdescribe, happly context 120⟩

end PriceQuote
