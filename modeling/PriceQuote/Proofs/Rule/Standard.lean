import PriceQuote.Proofs.Rule.Inert
import PriceQuote.Rule.Standard

/-!
# The standard rules, side by side

Of the standard rules some exclude one another: a quantity is in one band, and a customer's tier and
a region are one text each. So much is said of whole tables:

* `length_filter_le_one`: of what excludes one another at most one is chosen;
* `length_holding_le_one`: so it is with tests of one text for different values;
* `length_eq_add_ofCategory`: rules are as many as there are of each category together;
* `standardApplying`, `ids_volume_standardApplying`, `exists_recorded_standard`: the standard rules
  that apply, those of them that go by the quantity, and those that leave records;
* `standard_rules_exclusive`: the standard rules that apply, and those that are recorded.
-/

namespace PriceQuote

variable {N : Type} {context : PricingContext}

/-! ## Rules that exclude one another -/

/-- Of entries that are not chosen together at most one is chosen. -/
theorem length_filter_le_one {α : Type} {p : α → Bool} {xs : List α}
    (h : xs.Pairwise fun a b => ¬ (p a = true ∧ p b = true)) : (xs.filter p).length ≤ 1 := by
  have hchosen : ∀ x ∈ xs.filter p, p x = true := fun x hx => (List.mem_filter.mp hx).2
  have hapart := h.filter p
  match hfilter : xs.filter p with
  | [] => exact Nat.zero_le 1
  | [_] => exact Nat.le_refl 1
  | a :: b :: rest =>
    rw [hfilter] at hchosen hapart
    have ha := hchosen a List.mem_cons_self
    have hb := hchosen b (List.mem_cons_of_mem a List.mem_cons_self)
    exact absurd ⟨ha, hb⟩ ((List.pairwise_cons.mp hapart).1 b List.mem_cons_self)

/-- Of rules that ask for different values of one text, at most one applies. -/
theorem length_holding_le_one {rules : List Rule} {test : String → Condition}
    {values : List String} {text : Option String}
    (hconditions : rules.map (·.condition) = values.map test)
    (htest : ∀ value, (test value).holds context = (text == some value)) (h : values.Nodup) :
    (rules.filter fun rule => rule.condition.holds context).length ≤ 1 := by
  have happart : (values.map test).Pairwise fun a b =>
      ¬ (a.holds context = true ∧ b.holds context = true) := by
    refine List.pairwise_map.mpr (h.imp fun {value other} hne => ?_)
    rw [htest, htest, beq_iff_eq, beq_iff_eq]
    rintro ⟨rfl, hother⟩
    exact hne (Option.some.inj hother)
  rw [← hconditions] at happart
  exact length_filter_le_one (List.pairwise_map.mp happart)

/-! ## Categories -/

def ofCategory (category : RuleCategory) (rules : List (PriceRule N)) : List (PriceRule N) :=
  rules.filter fun rule => rule.category == category

theorem ofCategory_sublist {rules rules' : List (PriceRule N)} (h : rules.Sublist rules')
    (category : RuleCategory) : (ofCategory category rules).Sublist (ofCategory category rules') :=
  h.filter _

theorem length_eq_add_ofCategory (rules : List (PriceRule N)) :
    rules.length = (ofCategory .volume rules).length + (ofCategory .customerTier rules).length +
      (ofCategory .bundle rules).length + (ofCategory .regional rules).length +
      (ofCategory .promotional rules).length := by
  induction rules with
  | nil => rfl
  | cons rule rules ih =>
    rw [List.length_cons, ih]
    simp only [ofCategory, List.filter_cons]
    cases rule.category <;> simp <;> omega

/-! ## The standard rules -/

/-- The standard rules that apply, as they are declared. -/
def standardApplying [Money.Arithmetic N] (context : PricingContext) : List (PriceRule N) :=
  (Rule.standard.map .ofRule).filter fun rule => rule.applies context

section

variable [Money.Arithmetic N]

theorem ofCategory_standardApplying (category : RuleCategory) (context : PricingContext) :
    ofCategory category (standardApplying (N := N) context) =
      ((Rule.standard.filter fun rule => rule.category == category).filter fun rule =>
        rule.condition.holds context).map .ofRule := by
  rw [ofCategory, standardApplying, List.filter_map, List.filter_map, List.filter_filter,
    List.filter_filter]
  exact congrArg _ (List.filter_congr fun rule _ => Bool.and_comm _ _)

/-- A quantity is in one band. -/
theorem ids_volume_standardApplying (context : PricingContext) :
    (ofCategory .volume (standardApplying (N := N) context)).map (·.id) =
      if context.item.quantity < 5 then []
      else if context.item.quantity < 10 then [⟨"volume-discount-10"⟩]
      else [⟨"volume-discount-20"⟩] := by
  have hbands : (Rule.standard.filter fun rule => rule.category == .volume).map
      (fun rule => (rule.id, rule.condition)) =
        [(⟨"volume-discount-20"⟩, .quantityAtLeast 10),
          (⟨"volume-discount-10"⟩, .all [.quantityAtLeast 5, .quantityBelow 10])] := rfl
  have hids : (ofCategory .volume (standardApplying (N := N) context)).map (·.id) =
      (((Rule.standard.filter fun rule => rule.category == .volume).map
        fun rule => (rule.id, rule.condition)).filter fun band =>
          band.2.holds context).map (·.1) := by
    rw [ofCategory_standardApplying, List.map_map, List.filter_map, List.map_map]
    rfl
  rw [hids, hbands]
  by_cases hlow : context.item.quantity < 5
  · have h5 : ¬ 5 ≤ context.item.quantity := UInt32.not_le.mpr hlow
    have h10 : ¬ 10 ≤ context.item.quantity := fun h => h5 (UInt32.le_trans (by decide) h)
    simp [Condition.holds, Condition.allHold, hlow, h5, h10]
  · have h5 : 5 ≤ context.item.quantity := UInt32.not_lt.mp hlow
    by_cases hhigh : context.item.quantity < 10
    · have h10 : ¬ 10 ≤ context.item.quantity := UInt32.not_le.mpr hhigh
      simp [Condition.holds, Condition.allHold, hlow, hhigh, h5, h10]
    · have h10 : 10 ≤ context.item.quantity := UInt32.not_lt.mp hhigh
      simp [Condition.holds, Condition.allHold, hlow, hhigh, h10]

theorem length_customerTier_standardApplying (context : PricingContext) :
    (ofCategory .customerTier (standardApplying (N := N) context)).length ≤ 1 := by
  rw [ofCategory_standardApplying, List.length_map]
  have hconditions : (Rule.standard.filter fun rule =>
      rule.category == .customerTier).map (·.condition) =
        ["enterprise", "startup"].map .customerTier := rfl
  exact length_holding_le_one hconditions (fun _ => rfl) (by decide)

theorem length_regional_standardApplying (context : PricingContext) :
    (ofCategory .regional (standardApplying (N := N) context)).length ≤ 1 := by
  rw [ofCategory_standardApplying, List.length_map]
  have hconditions : (Rule.standard.filter fun rule =>
      rule.category == .regional).map (·.condition) =
        ["us-east", "eu-central", "ap-southeast", "sa-east"].map .region := rfl
  exact length_holding_le_one hconditions (fun _ => rfl) (by decide)

/-- The standard rules are declared by ascending priority, so that they are evaluated as
declared. -/
theorem standardApplying_pairwise (context : PricingContext) :
    (standardApplying (N := N) context).Pairwise fun a b => a.priority < b.priority := by
  have hdeclared : Rule.standard.Pairwise fun a b => a.priority < b.priority := by
    decide +kernel
  have hrules : (Rule.standard.map (PriceRule.ofRule (N := N))).Pairwise fun a b =>
      a.priority < b.priority := List.pairwise_map.mpr hdeclared
  exact hrules.filter _

/-- How many of the standard rules of a category apply at most. -/
theorem length_ofCategory_standardApplying_le (category : RuleCategory)
    (context : PricingContext) :
    (ofCategory category (standardApplying (N := N) context)).length ≤
      match category with
      | .volume | .customerTier | .promotional | .regional => 1
      | .bundle => 2 := by
  have hdeclared : ∀ {most : Nat},
      (Rule.standard.filter fun rule => rule.category == category).length ≤ most →
        (ofCategory category (standardApplying (N := N) context)).length ≤ most := by
    intro most h
    rw [ofCategory_standardApplying, List.length_map]
    exact Nat.le_trans (List.length_filter_le _ _) h
  cases category with
  | volume =>
    have hids := congrArg List.length (ids_volume_standardApplying (N := N) context)
    rw [List.length_map] at hids
    rw [hids]
    split
    · exact Nat.zero_le 1
    · split <;> exact Nat.le_refl 1
  | customerTier => exact length_customerTier_standardApplying context
  | regional => exact length_regional_standardApplying context
  | bundle => exact hdeclared (by decide +kernel)
  | promotional => exact hdeclared (by decide +kernel)

/-- No more than six of the standard rules apply together. -/
theorem length_standardApplying_le (context : PricingContext) :
    (standardApplying (N := N) context).length ≤ 6 := by
  have hmost := fun category => length_ofCategory_standardApplying_le (N := N) category context
  rw [length_eq_add_ofCategory]
  exact Nat.add_le_add (Nat.add_le_add (Nat.add_le_add (Nat.add_le_add (hmost .volume)
    (hmost .customerTier)) (hmost .bundle)) (hmost .regional)) (hmost .promotional)

end

/-- The rule of the region whose prices are the base prices is never recorded. -/
theorem ruleId_ne_us_east {basePrice : Binary64} {applied : AppliedRule Binary64}
    (h : applied ∈ (applyRules (Rule.standard.map .ofRule) context basePrice).applied) :
    applied.ruleId ≠ ⟨"region-us-east"⟩ := by
  intro hid
  obtain ⟨rule, hrule, -, price, hrecord⟩ := exists_record_of_mem_applied h
  obtain ⟨declared, hdeclared, rfl⟩ := List.mem_map.mp hrule
  have hname : declared.id = ⟨"region-us-east"⟩ :=
    (congrArg Prod.fst (PriceRule.record?_names hrecord)).symm.trans hid
  have hbaseline : ∀ rule ∈ Rule.standard, rule.id = ⟨"region-us-east"⟩ →
      rule.adjustment = .none := by
    decide +kernel
  have hgives : (PriceRule.ofRule declared).transform price context = price := by
    show declared.adjustment.apply context price = price
    rw [hbaseline declared hdeclared hname, Adjustment.apply]
  rw [PriceRule.record?_of_givesBack (by rw [hgives])] at hrecord
  cases hrecord

/-- What is recorded of the standard rules is of rules that apply, in the order of their
declaration. -/
theorem exists_recorded_standard (context : PricingContext) (basePrice : Binary64) :
    ∃ recorded : List (PriceRule Binary64), recorded.Sublist (standardApplying context) ∧
      (applyRules (Rule.standard.map .ofRule) context basePrice).applied.map
          (fun applied => (applied.ruleId, applied.ruleName)) =
        recorded.map fun rule => (rule.id, rule.name) := by
  have hascending : (standardApplying (N := Binary64) context).Pairwise NotAfter :=
    (standardApplying_pairwise context).imp Int32.le_of_lt
  have hsub := runRules_applied_sublist context basePrice (inOrder (standardApplying context))
  rw [inOrder_of_pairwise hascending] at hsub
  obtain ⟨recorded, hrecorded, hnames⟩ := List.sublist_map_iff.mp hsub
  refine ⟨recorded, hrecorded, ?_⟩
  rw [← hnames, ← inOrder_of_pairwise hascending]
  rfl

/-- The standard rules that apply are of one volume band, one tier and one region at most: the band
is that of the quantity. So what is recorded of them, whatever the price, ascends by priority, is one
rule of each of these categories at most and six in all, and never the rule of the region whose
prices are the base prices. A record names one rule, as no two have the same id. -/
theorem standard_rules_exclusive (context : PricingContext) (basePrice : Binary64) :
    let matching : List (PriceRule Binary64) :=
      (Rule.standard.map .ofRule).filter fun rule => rule.applies context
    let outcome := applyRules (Rule.standard.map .ofRule) context basePrice
    (Rule.standard.map (·.id)).Nodup ∧
    ((ofCategory .volume matching).map (·.id) =
      if context.item.quantity < 5 then []
      else if context.item.quantity < 10 then [⟨"volume-discount-10"⟩]
      else [⟨"volume-discount-20"⟩]) ∧
    (ofCategory .customerTier matching).length ≤ 1 ∧
    (ofCategory .regional matching).length ≤ 1 ∧
    (∃ recorded : List (PriceRule Binary64), recorded.Sublist matching ∧
      outcome.applied.map (fun applied => (applied.ruleId, applied.ruleName)) =
        recorded.map (fun rule => (rule.id, rule.name)) ∧
      recorded.Pairwise (fun a b => a.priority < b.priority) ∧
      ∀ category ∈ [RuleCategory.volume, .customerTier, .regional],
        (ofCategory category recorded).length ≤ 1) ∧
    (∀ applied ∈ outcome.applied, applied.ruleId ≠ ⟨"region-us-east"⟩) ∧
    outcome.applied.length ≤ 6 := by
  intro matching outcome
  obtain ⟨recorded, hrecorded, hnames⟩ := exists_recorded_standard context basePrice
  refine ⟨by decide +kernel, ids_volume_standardApplying context,
    length_customerTier_standardApplying context, length_regional_standardApplying context,
    ⟨recorded, hrecorded, hnames, (standardApplying_pairwise context).sublist hrecorded, ?_⟩,
    fun applied happlied => ruleId_ne_us_east happlied, ?_⟩
  · intro category hcategory
    refine Nat.le_trans (ofCategory_sublist hrecorded category).length_le
      (Nat.le_trans (length_ofCategory_standardApplying_le category context) ?_)
    simp only [List.mem_cons, List.not_mem_nil, or_false] at hcategory
    rcases hcategory with rfl | rfl | rfl <;> exact Nat.le_refl 1
  · have hlength : outcome.applied.length = recorded.length := by
      have hlengths := congrArg List.length hnames
      rwa [List.length_map, List.length_map] at hlengths
    rw [hlength]
    exact Nat.le_trans hrecorded.length_le (length_standardApplying_le context)

end PriceQuote
