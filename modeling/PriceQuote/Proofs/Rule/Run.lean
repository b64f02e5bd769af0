import PriceQuote.Proofs.Fallible
import PriceQuote.Proofs.Rule.Order
import PriceQuote.Quote.Tables

/-!
# A price on its way through the rules

What a rule does to a price, said without the run that it is part of, and what a run makes of it:

* `PriceRule.next`, `PriceRule.record?`, `RuleRun.step_eq`: the price after a rule, and what is
  recorded of it;
* `runRules_take_succ`: runs go on rule by rule;
* `PricePath`, `foldl_step_of_path`: a run is the path of its prices, and its records are those of
  the rules at their places on the path;
* `isFinite_runRules`: a run that begins at a finite price ends at one;
* `applyRules_follows_describe`: rules are applied as `describe` tells them, leaving out those that
  do not apply.
-/

namespace PriceQuote

open Money (Arithmetic roundToCents)

section

variable {N : Type} [Arithmetic N] {context : PricingContext}

/-! ## One rule -/

/-- The price after a rule: what the rule makes of it, as long as that is finite. -/
def PriceRule.next (rule : PriceRule N) (context : PricingContext) (price : N) : N :=
  if Arithmetic.isFinite (rule.transform price context) then rule.transform price context
  else price

/-- What is recorded of a rule: the change it makes, unless that comes to no cent. -/
def PriceRule.record? (rule : PriceRule N) (context : PricingContext) (price : N) :
    Option (AppliedRule N) :=
  if Arithmetic.isFinite (rule.transform price context) &&
      !Arithmetic.isZero (roundToCents (price - rule.next context price)) then
    some ⟨rule.id, rule.name, price - rule.next context price⟩
  else none

/-- A step goes to the next price and adds the record of the rule, if there is one. -/
theorem RuleRun.step_eq (run : RuleRun N) (rule : PriceRule N) :
    run.step context rule = ⟨rule.next context run.price,
      run.applied ++ (rule.record? context run.price).toList⟩ := by
  unfold RuleRun.step PriceRule.record? PriceRule.next
  cases hf : Arithmetic.isFinite (rule.transform run.price context) with
  | false => simp [hf]
  | true =>
    cases hz : Arithmetic.isZero (roundToCents (run.price - rule.transform run.price context)) <;>
      simp [hf, hz]

/-- A step adds no record just where there is none of its rule. -/
theorem RuleRun.step_applied_eq_iff {run : RuleRun N}
    {rule : PriceRule N} :
    (run.step context rule).applied = run.applied ↔ rule.record? context run.price = none := by
  rw [RuleRun.step_eq]
  cases rule.record? context run.price <;> simp

theorem PriceRule.eq_of_record? {rule : PriceRule N} {price : N} {applied : AppliedRule N}
    (h : rule.record? context price = some applied) :
    applied = ⟨rule.id, rule.name, price - rule.next context price⟩ := by
  unfold PriceRule.record? at h
  split at h
  · cases h
    rfl
  · cases h

theorem PriceRule.record?_names {rule : PriceRule N} {price : N} {applied : AppliedRule N}
    (h : rule.record? context price = some applied) :
    (applied.ruleId, applied.ruleName) = (rule.id, rule.name) := by
  rw [PriceRule.eq_of_record? h]

/-! ## Runs -/

/-- Each price is followed by what the rule at its place makes of it. -/
def PricePath (context : PricingContext) (rules : List (PriceRule N)) (price : Nat → N) : Prop :=
  ∀ k rule, rules[k]? = some rule → price (k + 1) = rule.next context (price k)

theorem runRules_take_succ (context : PricingContext) (basePrice : N) {rules : List (PriceRule N)}
    {k : Nat} {rule : PriceRule N} (h : rules[k]? = some rule) :
    runRules context basePrice (rules.take (k + 1)) =
      (runRules context basePrice (rules.take k)).step context rule := by
  rw [runRules, List.take_add_one, h, Option.toList_some, List.foldl_append, List.foldl_cons,
    List.foldl_nil, ← runRules]

theorem pricePath_runRules (context : PricingContext) (basePrice : N)
    (rules : List (PriceRule N)) :
    PricePath context rules fun k => (runRules context basePrice (rules.take k)).price := by
  intro k rule h
  show (runRules context basePrice (rules.take (k + 1))).price = _
  rw [runRules_take_succ context basePrice h, RuleRun.step_eq]

/-- A run from a place of a path goes along it, and records what the rules do at their places. The
records made before stay in front. -/
theorem foldl_step_of_path {price : Nat → N} (rules : List (PriceRule N)) (start : Nat)
    (h : PricePath context rules fun k => price (start + k)) (applied : List (AppliedRule N)) :
    rules.foldl (RuleRun.step context) ⟨price start, applied⟩ =
      ⟨price (start + rules.length), applied ++ (rules.zipIdx start).filterMap fun entry =>
        entry.1.record? context (price entry.2)⟩ := by
  induction rules generalizing start applied with
  | nil => simp
  | cons rule rules ih =>
    have hhead : price (start + 1) = rule.next context (price start) := h 0 rule rfl
    have htail : PricePath context rules fun k => price (start + 1 + k) := fun k other hk => by
      simpa only [Nat.add_assoc, Nat.add_comm 1] using h (k + 1) other hk
    rw [List.foldl_cons, RuleRun.step_eq, ← hhead, ih (start + 1) htail, List.length_cons,
      List.zipIdx_cons, List.filterMap_cons, Nat.add_assoc, Nat.add_comm 1]
    cases rule.record? context (price start) <;> simp

/-- The run of some rules ends at the end of a path, and has the records of the path. -/
theorem runRules_of_path {price : Nat → N} {rules : List (PriceRule N)}
    (h : PricePath context rules price) :
    runRules context (price 0) rules = ⟨price rules.length,
      rules.zipIdx.filterMap fun entry => entry.1.record? context (price entry.2)⟩ := by
  have hpath : PricePath context rules fun k => price (0 + k) := by simpa using h
  simpa [runRules] using foldl_step_of_path rules 0 hpath []

/-- A rule leaves a finite price finite: what it makes of it counts only if it is finite too. -/
theorem PriceRule.isFinite_next (rule : PriceRule N) {price : N}
    (h : Arithmetic.isFinite price = true) :
    Arithmetic.isFinite (rule.next context price) = true := by
  unfold PriceRule.next
  split
  · assumption
  · exact h

/-- A run of rules leaves a finite price finite. -/
theorem isFinite_runRules (context : PricingContext) (rules : List (PriceRule N)) {basePrice : N}
    (h : Arithmetic.isFinite basePrice = true) :
    Arithmetic.isFinite (runRules context basePrice rules).price = true := by
  have hstart : Arithmetic.isFinite (⟨basePrice, []⟩ : RuleRun N).price = true := h
  refine List.foldlRecOn (motive := fun run => Arithmetic.isFinite run.price = true) rules
    (RuleRun.step context) hstart fun run hrun rule _ => ?_
  rw [RuleRun.step_eq]
  exact rule.isFinite_next hrun

/-- What some positions of a list are taken to, by name, is a sublist of the names of all. -/
theorem map_filterMap_sublist {α β γ : Type} {f : α → Option β} {g : β → γ} {name : α → γ}
    (h : ∀ x y, f x = some y → g y = name x) (xs : List α) :
    ((xs.filterMap f).map g).Sublist (xs.map name) := by
  induction xs with
  | nil => exact .slnil
  | cons x xs ih =>
    rw [List.filterMap_cons, List.map_cons]
    cases hx : f x with
    | none => exact ih.cons _
    | some y =>
      rw [List.map_cons, h x y hx]
      exact ih.cons_cons _

/-- The records of a run stand in the order of its rules, at most one for each. -/
theorem runRules_applied_sublist (context : PricingContext) (basePrice : N)
    (rules : List (PriceRule N)) :
    ((runRules context basePrice rules).applied.map fun a => (a.ruleId, a.ruleName)).Sublist
      (rules.map fun rule => (rule.id, rule.name)) := by
  have hpath := runRules_of_path (pricePath_runRules context basePrice rules)
  have hstart : (runRules context basePrice (rules.take 0)).price = basePrice := rfl
  rw [hstart] at hpath
  rw [hpath]
  have hnames : rules.map (fun rule => (rule.id, rule.name)) =
      rules.zipIdx.map fun entry => (entry.1.id, entry.1.name) := by
    conv_lhs => rw [← List.zipIdx_map_fst 0 rules, List.map_map]
    rfl
  rw [hnames]
  exact map_filterMap_sublist (fun _ _ => PriceRule.record?_names) _

/-- What is applied is recorded in the order of evaluation, each rule at most once. -/
theorem applyRules_applied_sublist (rules : List (PriceRule N)) (context : PricingContext)
    (basePrice : N) :
    ((applyRules rules context basePrice).applied.map fun a => (a.ruleId, a.ruleName)).Sublist
      ((describe rules).map fun told => (told.id, told.name)) := by
  rw [describe, List.map_map]
  refine (runRules_applied_sublist context basePrice _).trans ?_
  rw [← filter_inOrder]
  exact List.filter_sublist.map _

end

/-! ## Tables -/

/-- There is no duplicate when the ids are new and differ from one another. -/
theorem Rule.duplicate?_eq_none_iff {seen : List RuleId} {rules : List Rule} :
    Rule.duplicate? seen rules = none ↔
      (rules.map (·.id)).Nodup ∧ ∀ rule ∈ rules, rule.id ∉ seen := by
  induction rules generalizing seen with
  | nil => simp [Rule.duplicate?]
  | cons rule rules ih =>
    by_cases hseen : rule.id ∈ seen
    · simp [Rule.duplicate?, hseen]
    · simp only [Rule.duplicate?, List.contains_eq_mem, hseen, decide_false, Bool.false_eq_true,
        ↓reduceIte, ih, List.map_cons, List.nodup_cons, List.mem_map, List.mem_cons, not_exists,
        not_and, not_or, forall_eq_or_imp, not_false_eq_true, true_and]
      constructor
      · rintro ⟨hnd, h⟩
        exact ⟨⟨fun other ho e => (h other ho).1 e, hnd⟩, fun other ho => (h other ho).2⟩
      · rintro ⟨⟨hne, hnd⟩, h⟩
        exact ⟨hnd, fun other ho => ⟨fun e => hne other ho e, h other ho⟩⟩

theorem Rule.nodup_of_tableOfToml {toml : String} {table : List Rule}
    (h : Rule.tableOfToml toml = .ok table) : (table.map (·.id)).Nodup := by
  obtain ⟨rules, -, hrules⟩ := bind_ok_iff.mp h
  cases hd : Rule.duplicate? [] rules with
  | some id =>
    rw [hd] at hrules
    cases hrules
  | none =>
    rw [hd] at hrules
    cases hrules
    exact (Rule.duplicate?_eq_none_iff.mp hd).1

/-- Of rules whose ids differ none is recorded twice. -/
theorem nodup_applied_of_nodup {N : Type} [Arithmetic N] {rules : List (PriceRule N)}
    (h : (rules.map (·.id)).Nodup) (context : PricingContext) (basePrice : N) :
    ((applyRules rules context basePrice).applied.map (·.ruleId)).Nodup := by
  have hsub := (applyRules_applied_sublist rules context basePrice).map Prod.fst
  simp only [List.map_map, describe] at hsub
  exact (((inOrder_perm rules).map (·.id)).nodup_iff.mpr h).sublist hsub

/-! ## Applying rules -/

theorem applyRules_of_path {N : Type} [Arithmetic N] {rules : List (PriceRule N)}
    {context : PricingContext} {price : Nat → N}
    (h : PricePath context ((inOrder rules).filter fun rule => rule.applies context) price) :
    let matching := (inOrder rules).filter fun rule => rule.applies context
    applyRules rules context (price 0) = ⟨Arithmetic.atLeastZero (price matching.length),
      matching.zipIdx.filterMap fun entry => entry.1.record? context (price entry.2)⟩ := by
  simp only [applyRules, ← filter_inOrder, runRules_of_path h]

/-- What is recorded is the record of a rule that applies, at the price it meets. -/
theorem exists_record_of_mem_applied {N : Type} [Arithmetic N] {rules : List (PriceRule N)}
    {context : PricingContext} {basePrice : N} {applied : AppliedRule N}
    (h : applied ∈ (applyRules rules context basePrice).applied) :
    ∃ rule ∈ rules, rule.applies context = true ∧
      ∃ price, rule.record? context price = some applied := by
  have houtcome := applyRules_of_path (pricePath_runRules context basePrice
    ((inOrder rules).filter fun rule => rule.applies context))
  have hbase : (runRules context basePrice (((inOrder rules).filter fun rule =>
      rule.applies context).take 0)).price = basePrice := rfl
  rw [hbase] at houtcome
  rw [houtcome] at h
  obtain ⟨entry, hentry, hrecord⟩ := List.mem_filterMap.mp h
  have hmatching := List.mem_of_getElem? (List.mem_zipIdx_iff_getElem?.mp hentry)
  obtain ⟨hrule, happlies⟩ := List.mem_filter.mp hmatching
  exact ⟨entry.1, (inOrder_perm rules).mem_iff.mp hrule, happlies, _, hrecord⟩

/-- Rules are applied as `describe` tells them, leaving out those that do not apply: each finite
result is the next price, and each change that comes to a cent is recorded, unrounded, in the name
of its rule. Rules from a table are recorded once at most. -/
theorem applyRules_follows_describe (rules : List (PriceRule Binary64)) (context : PricingContext)
    (basePrice : Binary64) :
    let matching := (inOrder rules).filter fun rule => rule.applies context
    let outcome := applyRules rules context basePrice
    EvaluationOrder rules (inOrder rules) ∧
    describe rules = (inOrder rules).map PriceRule.toRuleSummary ∧
    inOrder (rules.filter fun rule => rule.applies context) = matching ∧
    (∃ price : Nat → Binary64,
      price 0 = basePrice ∧
      (∀ k rule, matching[k]? = some rule → price (k + 1) =
        if (rule.transform (price k) context).isFinite then rule.transform (price k) context
        else price k) ∧
      outcome.applied = matching.zipIdx.filterMap (fun (rule, k) =>
        if (rule.transform (price k) context).isFinite &&
            !(roundToCents (price k - price (k + 1))).same 0 then
          some ⟨rule.id, rule.name, price k - price (k + 1)⟩
        else none) ∧
      outcome.finalPrice =
        if Binary64.zero.lt (price matching.length) then price matching.length else .zero) ∧
    (outcome.applied.map fun a => (a.ruleId, a.ruleName)).Sublist
      ((describe rules).map fun told => (told.id, told.name)) ∧
    ∀ toml table, Rule.tableOfToml toml = .ok table → rules = table.map .ofRule →
      (outcome.applied.map (·.ruleId)).Nodup := by
  intro matching outcome
  have hpath := pricePath_runRules context basePrice matching
  have houtcome := applyRules_of_path hpath
  refine ⟨evaluationOrder_inOrder rules, rfl, (filter_inOrder _ rules).symm,
    ⟨fun k => (runRules context basePrice (matching.take k)).price, rfl, hpath, ?_, ?_⟩,
    applyRules_applied_sublist rules context basePrice, ?_⟩
  · show (applyRules rules context basePrice).applied = _
    refine (congrArg RuleOutcome.applied houtcome).trans ?_
    refine List.filterMap_congr fun entry hentry => ?_
    -- At its place on the path a rule goes on to the next price.
    have hnext := hpath entry.2 entry.1 (List.mem_zipIdx_iff_getElem?.mp hentry)
    simp only [hnext]
    rfl
  · exact congrArg RuleOutcome.finalPrice houtcome
  · rintro toml table htable rfl
    refine nodup_applied_of_nodup ?_ context basePrice
    have hids : (table.map PriceRule.ofRule).map (fun rule : PriceRule Binary64 => rule.id) =
        table.map (·.id) := by
      rw [List.map_map]
      rfl
    rw [hids]
    exact Rule.nodup_of_tableOfToml htable

end PriceQuote
