import PriceQuote.Proofs.Binary64.Value
import PriceQuote.Proofs.FirstFault
import PriceQuote.Proofs.Quote.Shape
import PriceQuote.Proofs.Text.Blank

/-!
# What is wrong with a request

A request is looked at when it is well formed. Of any other the first problem is told: that nothing
is asked for, then that too much is, then what is wrong with the first configuration that something
is wrong with, and the tax rate last.

* `Configuration.IsSound`, `QuoteRequest.IsSound`: configurations and requests that are well formed;
* `isTaxRate_iff`: tax rates are the numbers from zero to one;
* `Configuration.Breaks`, `configurationsProblem?_eq_some_iff`: where a pass over configurations
  stops;
* `QuoteRequest.Tells`, `message_shapeProblem?_iff`: what is wrong with a request first, as it is
  told;
* `shape_check_exact`: the requests that are looked at, and what is told of the others.
-/

namespace PriceQuote

/-! ## Well-formed requests -/

/-- A configuration names a product by more than white space, and asks for one unit at least. -/
structure Configuration.IsSound (item : Configuration) : Prop where
  named : ∃ c ∈ item.productId.text.toList, c.toNat ∉ Text.whiteSpace
  units : 1 ≤ item.quantity.toNat

/-- A request asks for something but not for too much, all of it well formed, at a tax rate from
zero to one, if there is one. -/
structure QuoteRequest.IsSound (request : QuoteRequest) (limit : Nat) : Prop where
  nonempty : request.configurations ≠ []
  length_le : request.configurations.length ≤ limit
  items : ∀ item ∈ request.configurations, item.IsSound
  taxRate : ∀ rate, request.taxRate = some rate → ∃ v, rate.value? = some v ∧ 0 ≤ v ∧ v ≤ 1

theorem Configuration.isOrder_iff {item : Configuration} : item.IsOrder ↔ item.IsSound := by
  have hunits : item.quantity ≠ 0 ↔ 1 ≤ item.quantity.toNat := by
    rw [ne_eq, ← UInt32.toNat_inj]
    exact Nat.one_le_iff_ne_zero.symm
  constructor
  · rintro ⟨hnamed, hquantity⟩
    exact ⟨Text.allBlank_eq_false_iff.mp hnamed, hunits.mp hquantity⟩
  · rintro ⟨hnamed, hquantity⟩
    exact ⟨Text.allBlank_eq_false_iff.mpr hnamed, hunits.mpr hquantity⟩

theorem isTaxRate_finite_iff {negative : Bool} {m : Magnitude} :
    isTaxRate (.finite negative m) = true ↔
      0 ≤ Binary64.signed negative m.units ∧ Binary64.signed negative m.units ≤ unitsPerOne := by
  have hone : (1 : Binary64).rank = some (unitsPerOne : Int) := by
    rw [Binary64.one_eq, Binary64.rank_finite, Binary64.units_oneUnits]
    rfl
  simp only [isTaxRate, Binary64.isFinite, Binary64.le, Binary64.rank_finite, Binary64.rank_zero,
    hone, Bool.true_and, Bool.and_eq_true, decide_eq_true_eq]

/-- Tax rates are the numbers from zero to one. -/
theorem isTaxRate_iff {rate : Binary64} :
    isTaxRate rate = true ↔ ∃ v, rate.value? = some v ∧ 0 ≤ v ∧ v ≤ 1 := by
  cases rate with
  | nan => exact iff_of_false Bool.false_ne_true fun ⟨_, h, _⟩ => nomatch h
  | infinity negative => exact iff_of_false Bool.false_ne_true fun ⟨_, h, _⟩ => nomatch h
  | finite negative m =>
    have hvalue : (∃ v, (Binary64.finite negative m).value? = some v ∧ 0 ≤ v ∧ v ≤ 1) ↔
        0 ≤ Binary64.valueOf negative m ∧ Binary64.valueOf negative m ≤ 1 := by
      simp only [Binary64.value?, Option.some.injEq, exists_eq_left']
    rw [isTaxRate_finite_iff, hvalue, Binary64.valueOf,
      le_div_iff₀ Binary64.unitsPerOne_cast_pos, zero_mul,
      div_le_one Binary64.unitsPerOne_cast_pos]
    norm_cast

/-! ## The first problem -/

/-- What is wrong with a configuration behind others: its product is looked at first. -/
inductive Configuration.Breaks (before : List Configuration) (item : Configuration) :
    ShapeProblem → Prop
  | blank (hblank : ∀ c ∈ item.productId.text.toList, c.toNat ∈ Text.whiteSpace) :
    Breaks before item (.blankProduct before.length)
  | zero (hnamed : ∃ c ∈ item.productId.text.toList, c.toNat ∉ Text.whiteSpace)
    (hzero : item.quantity.toNat = 0) : Breaks before item (.zeroQuantity before.length)

theorem Configuration.problem?_eq_some_iff {before : List Configuration} {item : Configuration}
    {problem : ShapeProblem} :
    item.problem? before.length = some problem ↔ item.Breaks before problem := by
  have hzero : item.quantity = 0 ↔ item.quantity.toNat = 0 := UInt32.toNat_inj.symm
  unfold Configuration.problem?
  constructor
  · intro h
    split at h
    · rename_i hblank
      cases h
      exact .blank (Text.allBlank_iff.mp hblank)
    · rename_i hnamed
      rw [Bool.not_eq_true, Text.allBlank_eq_false_iff] at hnamed
      split at h
      · rename_i hquantity
        cases h
        exact .zero hnamed (hzero.mp hquantity)
      · cases h
  · intro h
    cases h with
    | blank hblank => rw [if_pos (Text.allBlank_iff.mpr hblank)]
    | zero hnamed hquantity =>
      rw [Text.allBlank_eq_false_iff.mpr hnamed, if_neg Bool.false_ne_true,
        if_pos (hzero.mpr hquantity)]

/-- The pass over configurations, behind those that it has looked at. -/
def Configuration.problemBehind? (before items : List Configuration) : Option ShapeProblem :=
  (items.zipIdx before.length).findSome? fun (item, index) => item.problem? index

theorem Configuration.problemBehind?_cons (before : List Configuration) (item : Configuration)
    (rest : List Configuration) : problemBehind? before (item :: rest) =
      (item.problem? before.length).or (problemBehind? (before ++ [item]) rest) := by
  simp only [problemBehind?, List.zipIdx_cons, List.findSome?_cons, List.length_append,
    List.length_singleton]
  cases item.problem? before.length <;> rfl

theorem Configuration.firstFault_problemBehind? :
    FirstFault problemBehind? (fun items => ∀ item ∈ items, item.IsSound) Breaks where
  nil _ := rfl
  of_sound {before item} rest h := by
    have hitem : item.problem? before.length = none := by
      rw [problem?_eq_none_iff, isOrder_iff]
      exact h item (by simp)
    rw [problemBehind?_cons, hitem, Option.none_or]
  of_breaks {before item problem} rest h := by
    rw [problemBehind?_cons, problem?_eq_some_iff.mpr h, Option.some_or]
  sound_or_breaks {before} item h := by
    cases hproblem : item.problem? before.length with
    | none =>
      rw [problem?_eq_none_iff, isOrder_iff] at hproblem
      left
      intro item' hitem'
      rcases List.mem_append.mp hitem' with hitem' | hitem'
      · exact h item' hitem'
      · exact List.mem_singleton.mp hitem' ▸ hproblem
    | some problem => exact .inr ⟨problem, problem?_eq_some_iff.mp hproblem⟩
  sound_before h item hitem := h item (List.mem_append_left _ hitem)

/-- What is told of a request that is not well formed. What comes first here is told first: nothing
is asked for, too much is, something is wrong with a configuration but with none before it, whose
product is looked at before its quantity, or nothing is wrong but the tax rate. -/
inductive QuoteRequest.Tells (request : QuoteRequest) (limit : Nat) : String → Prop
  | empty (hempty : request.configurations = []) :
    Tells request limit "configurations must not be empty"
  | tooMany (hsome : request.configurations ≠ [])
    (hmany : limit < request.configurations.length) :
    Tells request limit s!"at most {limit} configurations are accepted per request"
  | blank {before after : List Configuration} {item : Configuration}
    (hfew : request.configurations.length ≤ limit)
    (hsplit : request.configurations = before ++ item :: after)
    (hbefore : ∀ earlier ∈ before, earlier.IsSound)
    (hblank : ∀ c ∈ item.productId.text.toList, c.toNat ∈ Text.whiteSpace) :
    Tells request limit s!"configurations[{before.length}].productId must not be blank"
  | zero {before after : List Configuration} {item : Configuration}
    (hfew : request.configurations.length ≤ limit)
    (hsplit : request.configurations = before ++ item :: after)
    (hbefore : ∀ earlier ∈ before, earlier.IsSound)
    (hnamed : ∃ c ∈ item.productId.text.toList, c.toNat ∉ Text.whiteSpace)
    (hzero : item.quantity.toNat = 0) :
    Tells request limit s!"configurations[{before.length}].quantity must be at least 1"
  | taxRate {rate : Binary64} (hsound : { request with taxRate := none }.IsSound limit)
    (hgiven : request.taxRate = some rate)
    (hrate : ¬ ∃ v, rate.value? = some v ∧ 0 ≤ v ∧ v ≤ 1) :
    Tells request limit "taxRate must be a number between 0 and 1"

/-! ## Exactness -/

section

variable {request : QuoteRequest} {limit : Nat}

/-- A request is well formed when its configurations are accepted and its tax rate is one. -/
theorem QuoteRequest.isSound_iff : request.IsSound limit ↔
    configurationsProblem? request.configurations limit = none ∧
      request.taxRate.all isTaxRate = true := by
  rw [configurationsProblem?_eq_none_iff]
  simp only [Configuration.isOrder_iff, Option.all_eq_true, isTaxRate_iff]
  constructor
  · rintro ⟨hsome, hfew, hitems, hrate⟩
    exact ⟨⟨hsome, hfew, hitems⟩, hrate⟩
  · rintro ⟨⟨hsome, hfew, hitems⟩, hrate⟩
    exact ⟨hsome, hfew, hitems, hrate⟩

/-- A list of configurations that is not accepted is empty, too long or stopped at somewhere. -/
theorem configurationsProblem?_eq_some_iff {configurations : List Configuration}
    {problem : ShapeProblem} : configurationsProblem? configurations limit = some problem ↔
      configurations = [] ∧ problem = .empty ∨
      configurations ≠ [] ∧ limit < configurations.length ∧ problem = .tooMany limit ∨
      configurations.length ≤ limit ∧ ∃ before item after,
        configurations = before ++ item :: after ∧ (∀ earlier ∈ before, earlier.IsSound) ∧
          item.Breaks before problem := by
  have hpass : Configuration.problemBehind? [] configurations = some problem ↔ _ :=
    Configuration.firstFault_problemBehind?.eq_some_iff (fun _ h => absurd h List.not_mem_nil)
  simp only [List.nil_append] at hpass
  rw [← hpass]
  unfold configurationsProblem?
  by_cases hempty : configurations = []
  · subst hempty
    simp only [List.isEmpty_nil, ↓reduceIte, Option.some.injEq, true_and, ne_eq, not_true_eq_false,
      false_and, Configuration.problemBehind?, List.zipIdx_nil, List.findSome?_nil, reduceCtorEq,
      and_false, or_false, eq_comm]
  · rw [if_neg (mt List.isEmpty_iff.mp hempty)]
    by_cases hmany : limit < configurations.length
    · simp only [hempty, ↓reduceIte, hmany, Option.some.injEq, false_and, ne_eq, not_false_eq_true,
        true_and, Nat.not_le.mpr hmany, or_false, false_or, eq_comm]
    · simp only [hempty, hmany, ↓reduceIte, Nat.le_of_not_lt hmany, ne_eq, not_false_eq_true,
        true_and, false_and, false_or, Configuration.problemBehind?, List.length_nil]

/-- What is told of a request is the first thing that is wrong with it. -/
theorem QuoteRequest.message_shapeProblem?_iff {text : String} :
    (request.shapeProblem? limit).map ShapeProblem.message = some text ↔
      request.Tells limit text := by
  rw [Option.map_eq_some_iff]
  constructor
  · rintro ⟨problem, h, rfl⟩
    unfold shapeProblem? at h
    split at h
    · rename_i other hitems
      obtain rfl : other = problem := Option.some.inj h
      rcases configurationsProblem?_eq_some_iff.mp hitems with
        ⟨hempty, rfl⟩ | ⟨hsome, hmany, rfl⟩ | ⟨hfew, before, item, after, hsplit, hbefore, hbreaks⟩
      · exact .empty hempty
      · exact .tooMany hsome hmany
      · cases hbreaks with
        | blank hblank => exact .blank hfew hsplit hbefore hblank
        | zero hnamed hzero => exact .zero hfew hsplit hbefore hnamed hzero
    · rename_i hitems
      split at h
      · cases h
      · rename_i hrate
        cases h
        cases hgiven : request.taxRate with
        | none => exact absurd (hgiven ▸ rfl) hrate
        | some rate =>
          refine .taxRate (isSound_iff.mpr ⟨hitems, rfl⟩) hgiven fun hsound => hrate ?_
          rw [hgiven]
          exact isTaxRate_iff.mpr hsound
  · intro h
    have hstop : ∀ {problem}, configurationsProblem? request.configurations limit = some problem →
        request.shapeProblem? limit = some problem := fun hitems => by rw [shapeProblem?, hitems]
    cases h with
    | empty hempty =>
      exact ⟨.empty, hstop (configurationsProblem?_eq_some_iff.mpr (.inl ⟨hempty, rfl⟩)), rfl⟩
    | tooMany hsome hmany =>
      exact ⟨.tooMany limit, hstop
        (configurationsProblem?_eq_some_iff.mpr (.inr (.inl ⟨hsome, hmany, rfl⟩))), rfl⟩
    | blank hfew hsplit hbefore hblank =>
      exact ⟨.blankProduct _, hstop (configurationsProblem?_eq_some_iff.mpr
        (.inr (.inr ⟨hfew, _, _, _, hsplit, hbefore, .blank hblank⟩))), rfl⟩
    | zero hfew hsplit hbefore hnamed hzero =>
      exact ⟨.zeroQuantity _, hstop (configurationsProblem?_eq_some_iff.mpr
        (.inr (.inr ⟨hfew, _, _, _, hsplit, hbefore, .zero hnamed hzero⟩))), rfl⟩
    | taxRate hsound hgiven hrate =>
      have hitems : configurationsProblem? request.configurations limit = none :=
        (isSound_iff.mp hsound).1
      refine ⟨.taxRate, ?_, rfl⟩
      rw [shapeProblem?, hitems, hgiven]
      exact if_neg fun h => hrate (isTaxRate_iff.mp h)

/-- A request is looked at exactly when it is well formed, and of any other it is told what is wrong
with it first. -/
theorem QuoteRequest.shape_check_exact (request : QuoteRequest) (limit : Nat) :
    (request.shapeProblem? limit = none ↔ request.IsSound limit) ∧
    ∀ text, (request.shapeProblem? limit).map ShapeProblem.message = some text ↔
      request.Tells limit text := by
  refine ⟨?_, fun text => message_shapeProblem?_iff⟩
  rw [shapeProblem?_eq_none_iff, isSound_iff]

end

end PriceQuote
