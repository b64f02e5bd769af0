import PriceQuote.Proofs.Money.Exact
import PriceQuote.Proofs.Rule.Run

/-!
# Discounts that add up

Where nothing is rounded, what is taken off a price is what its records say, but for changes that
come to no cent:

* `PriceRule.abs_sub_lt_of_record?_eq_none`: a rule without a record makes a change of less than half
  a cent;
* `RuleRun.Tally`, `Tally.record`, `Tally.unrecorded`: what records miss, after one more rule;
* `exists_tally`, `runRules_reconciles`: after the first so many rules of a run, and after all;
* `discounts_reconcile`: in the outcome of applying rules.
-/

namespace PriceQuote

open Money (Arithmetic)

variable {context : PricingContext}

/-! ## One rule -/

/-- A change that is not recorded is one of less than half a cent. -/
theorem PriceRule.abs_sub_lt_of_record?_eq_none {rule : PriceRule Exact} {price next : ℚ}
    (hnext : rule.next context (.finite price) = .finite next)
    (h : rule.record? context (.finite price) = none) : |price - next| < 1 / 200 := by
  unfold PriceRule.record? at h
  rw [hnext, Exact.finite_sub_finite] at h
  by_cases hfinite : Arithmetic.isFinite (rule.transform (.finite price) context) = true
  · rw [hfinite, Bool.true_and] at h
    refine Exact.isZero_roundToCents_iff.mp ?_
    by_contra hcent
    rw [Bool.not_eq_true] at hcent
    simp [hcent] at h
  · rw [PriceRule.next, if_neg hfinite] at hnext
    rw [Exact.finite.inj hnext, sub_self, abs_zero]
    norm_num

/-! ## What records leave unexplained -/

/-- A run has come from a base price to a rational one and has recorded rational amounts. These miss
what the price fell by no more than `slack` for each of `silent` rules. -/
structure RuleRun.Tally (run : RuleRun Exact) (basePrice price : ℚ) (amounts : List ℚ)
    (slack : ℚ) (silent : Nat) : Prop where
  price_eq : run.price = .finite price
  discounts_eq : run.applied.map (·.discount) = amounts.map .finite
  missed_le : |basePrice - price - amounts.sum| ≤ slack * silent

namespace RuleRun.Tally

variable {run run' : RuleRun Exact} {basePrice price next slack : ℚ} {amounts : List ℚ}
  {silent : Nat}

theorem start (basePrice slack : ℚ) :
    RuleRun.Tally ⟨.finite basePrice, []⟩ basePrice basePrice [] slack 0 where
  price_eq := rfl
  discounts_eq := rfl
  missed_le := by simp

/-- A record tells the change that the rule makes. -/
theorem record (h : run.Tally basePrice price amounts slack silent) {applied : AppliedRule Exact}
    (hprice : run'.price = .finite next) (happlied : run'.applied = run.applied ++ [applied])
    (hdiscount : applied.discount = .finite (price - next)) :
    run'.Tally basePrice next (amounts ++ [price - next]) slack silent where
  price_eq := hprice
  discounts_eq := by
    rw [happlied, List.map_append, List.map_append, h.discounts_eq, List.map_singleton,
      List.map_singleton, hdiscount]
  missed_le := by
    have hsum : basePrice - next - (amounts ++ [price - next]).sum =
        basePrice - price - amounts.sum := by
      rw [List.sum_append, List.sum_singleton]
      ring
    rw [hsum]
    exact h.missed_le

/-- A change without a record is missed. -/
theorem unrecorded (h : run.Tally basePrice price amounts slack silent)
    (hprice : run'.price = .finite next) (happlied : run'.applied = run.applied)
    (hchange : |price - next| ≤ slack) :
    run'.Tally basePrice next amounts slack (silent + 1) where
  price_eq := hprice
  discounts_eq := by rw [happlied, h.discounts_eq]
  missed_le :=
    calc |basePrice - next - amounts.sum|
        = |(basePrice - price - amounts.sum) + (price - next)| := by congr 1; ring
      _ ≤ |basePrice - price - amounts.sum| + |price - next| := abs_add_le _ _
      _ ≤ slack * silent + slack := add_le_add h.missed_le hchange
      _ = slack * ((silent + 1 : Nat) : ℚ) := by push_cast; ring

end RuleRun.Tally

/-! ## Runs -/

section

variable {rules : List (PriceRule Exact)} {basePrice slack : ℚ} {price : Nat → ℚ}

/-- Where no rule that adds no record changes the price by more than `slack`, the records of the
first so many rules miss no more than that for each of these. -/
theorem exists_tally
    (hprice : ∀ k, (runRules context (.finite basePrice) (rules.take k)).price = .finite (price k))
    (hslack : ∀ k < rules.length,
      (runRules context (.finite basePrice) (rules.take (k + 1))).applied =
        (runRules context (.finite basePrice) (rules.take k)).applied →
      |price k - price (k + 1)| ≤ slack) (k : Nat) (hk : k ≤ rules.length) :
    ∃ amounts silent, amounts.length + silent = k ∧
      (runRules context (.finite basePrice) (rules.take k)).Tally basePrice (price k) amounts slack
        silent := by
  induction k with
  | zero =>
    have hstart : basePrice = price 0 := Exact.finite.inj (hprice 0)
    rw [← hstart]
    exact ⟨[], 0, rfl, .start basePrice slack⟩
  | succ k ih =>
    obtain ⟨amounts, silent, hcount, htally⟩ := ih (Nat.le_of_succ_le hk)
    obtain ⟨rule, hrule⟩ : ∃ rule, rules[k]? = some rule := ⟨_, List.getElem?_eq_getElem hk⟩
    have hstep := runRules_take_succ context (.finite basePrice) hrule
    cases hrecord : rule.record? context (.finite (price k)) with
    | none =>
      have happlied := RuleRun.step_applied_eq_iff.mpr ((hprice k).symm ▸ hrecord)
      rw [← hstep] at happlied
      exact ⟨amounts, silent + 1, by omega,
        htally.unrecorded (hprice (k + 1)) happlied (hslack k hk happlied)⟩
    | some applied =>
      rw [RuleRun.step_eq, hprice k, hrecord, Option.toList_some] at hstep
      have hnext : rule.next context (.finite (price k)) = .finite (price (k + 1)) := by
        rw [← hprice (k + 1), hstep]
      have hdiscount : applied.discount = .finite (price k - price (k + 1)) := by
        rw [PriceRule.eq_of_record? hrecord, hnext, Exact.finite_sub_finite]
      refine ⟨amounts ++ [price k - price (k + 1)], silent, ?_,
        htally.record (hprice (k + 1)) (by rw [hstep]) hdiscount⟩
      rw [List.length_append, List.length_singleton]
      omega

theorem abs_sub_lt_of_applied_eq
    (hprice : ∀ k, (runRules context (.finite basePrice) (rules.take k)).price = .finite (price k))
    {k : Nat} (hk : k < rules.length)
    (h : (runRules context (.finite basePrice) (rules.take (k + 1))).applied =
      (runRules context (.finite basePrice) (rules.take k)).applied) :
    |price k - price (k + 1)| < 1 / 200 := by
  have hstep := runRules_take_succ context (.finite basePrice) (List.getElem?_eq_getElem hk)
  have hnone : rules[k].record? context (.finite (price k)) = none := by
    rw [hstep, RuleRun.step_applied_eq_iff, hprice k] at h
    exact h
  refine PriceRule.abs_sub_lt_of_record?_eq_none ?_ hnone
  rw [← hprice (k + 1), hstep, RuleRun.step_eq, hprice k]

end

/-- A run from a rational price meets rational prices only, and its records miss no more than half a
cent for each rule without one. They miss nothing if each of those leaves its price as it is. -/
theorem runRules_reconciles (context : PricingContext) (rules : List (PriceRule Exact))
    (basePrice : ℚ) :
    let run k := runRules context (Exact.finite basePrice) (rules.take k)
    ∃ (price : Nat → ℚ) (amounts : List ℚ) (silent : Nat),
      (∀ k, (run k).price = .finite (price k)) ∧
      amounts.length + silent = rules.length ∧
      (runRules context (.finite basePrice) rules).Tally basePrice (price rules.length) amounts
        (1 / 200) silent ∧
      ((∀ k < rules.length, (run (k + 1)).applied = (run k).applied → price (k + 1) = price k) →
        amounts.sum = basePrice - price rules.length) := by
  intro run
  obtain ⟨price, hprice⟩ : ∃ price : Nat → ℚ, ∀ k, (run k).price = .finite (price k) :=
    Classical.skolem.mp fun _ => Exact.isFinite_iff.mp (isFinite_runRules context _ rfl)
  obtain ⟨amounts, silent, hcount, htally⟩ := exists_tally hprice
    (fun k hk h => le_of_lt (abs_sub_lt_of_applied_eq hprice hk h)) rules.length (Nat.le_refl _)
  rw [List.take_length] at htally
  refine ⟨price, amounts, silent, hprice, hcount, htally, fun hstill => ?_⟩
  obtain ⟨amounts', silent', -, hexact⟩ := exists_tally hprice
    (fun k hk h => by rw [hstill k hk h, sub_self, abs_zero]) rules.length (Nat.le_refl _)
  rw [List.take_length] at hexact
  have hamounts : amounts = amounts' :=
    List.map_injective_iff.mpr (fun _ _ => Exact.finite.inj)
      (htally.discounts_eq.symm.trans hexact.discounts_eq)
  have hmissed : basePrice - price rules.length - amounts'.sum = 0 :=
    abs_nonpos_iff.mp (hexact.missed_le.trans_eq (zero_mul _))
  rw [hamounts]
  linarith

/-- Without rounding, recorded discounts are what a price falls by on its way through the rules that
apply, up to half a cent for each of these that has no record, and exactly so when each of those
leaves its price as it is. The price in the end is that at the end of the way, and the discounts add
up to what is between the base price and it. Where it would be below zero it is zero, and they
exceed the base price by what it lacks. -/
theorem discounts_reconcile (rules : List Rule) (context : PricingContext) (basePrice : ℚ) :
    let matching : List (PriceRule Exact) :=
      inOrder ((rules.map .ofRule).filter fun rule => rule.applies context)
    let run k := runRules context (Exact.finite basePrice) (matching.take k)
    let outcome := applyRules (rules.map .ofRule) context (Exact.finite basePrice)
    ∃ (price : Nat → ℚ) (unclamped total : ℚ) (amounts : List ℚ) (unrecorded : Nat),
      (∀ k, (run k).price = .finite (price k)) ∧
      (runRules context (Exact.finite basePrice) matching).price = .finite unclamped ∧
      outcome.finalPrice = .finite total ∧
      outcome.applied.map (·.discount) = amounts.map .finite ∧
      outcome.applied.length + unrecorded = matching.length ∧
      |basePrice - unclamped - amounts.sum| ≤ 1 / 200 * unrecorded ∧
      ((∀ k < matching.length, (run (k + 1)).applied = (run k).applied →
        price (k + 1) = price k) → amounts.sum = basePrice - unclamped) ∧
      (0 ≤ unclamped →
        total = unclamped ∧ |amounts.sum - (basePrice - total)| ≤ 1 / 200 * unrecorded) ∧
      (unclamped < 0 →
        total = 0 ∧ |(amounts.sum - basePrice) - -unclamped| ≤ 1 / 200 * unrecorded) := by
  intro matching run outcome
  obtain ⟨price, amounts, unrecorded, hprice, hcount, htally, hexact⟩ :=
    runRules_reconciles context matching basePrice
  have hdiscounts : outcome.applied.map (·.discount) = amounts.map .finite := htally.discounts_eq
  have hlength : outcome.applied.length = amounts.length := by
    simpa only [List.length_map] using congrArg List.length hdiscounts
  have htotal : outcome.finalPrice = .finite (max (price matching.length) 0) :=
    congrArg Arithmetic.atLeastZero htally.price_eq
  have hmissed : |amounts.sum - (basePrice - price matching.length)| ≤ 1 / 200 * unrecorded := by
    rw [abs_sub_comm]
    exact htally.missed_le
  refine ⟨price, price matching.length, _, amounts, unrecorded, hprice, htally.price_eq, htotal,
    hdiscounts, by rw [hlength, hcount], htally.missed_le, hexact, fun hnonneg => ?_,
    fun hneg => ⟨max_eq_right (le_of_lt hneg), ?_⟩⟩
  · rw [max_eq_left hnonneg]
    exact ⟨rfl, hmissed⟩
  · have hlacks : (amounts.sum - basePrice) - -price matching.length =
        amounts.sum - (basePrice - price matching.length) := by ring
    rw [hlacks]
    exact hmissed

end PriceQuote
