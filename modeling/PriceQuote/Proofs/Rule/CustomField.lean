import PriceQuote.Catalog.Standard
import PriceQuote.Proofs.Binary64.Nearest
import PriceQuote.Rule.Context

/-!
# Custom fields that are numbers

A condition on a custom field compares numbers of either kind. It does so by the binary64 numbers
that are nearest to them, which is by value where both are among these:

* `Json.Denotes`: the rational number that a JSON number is;
* `Json.exists_nearest`: what it is taken for;
* `Condition.holds_customFieldEquals_iff`, `custom_fields_compare_nearest`: which numbers a condition
  takes for equal;
* `custom_field_confuses_neighbours`: two that differ.
-/

namespace PriceQuote

open Binary64 (IsNearest)

/-- A JSON number is a rational number: it is a whole number of 64 bits, with a sign or without, or
a finite float. -/
inductive Json.Denotes : Json → ℚ → Prop where
  | integer (n : Int) (hlow : -(2 ^ 63) ≤ n) (hhigh : n < 2 ^ 64) : Denotes (.integer n) n
  | float (x : Binary64) (p : ℚ) (h : x.value? = some p) : Denotes (.float x) p

namespace Json

variable {a : Json} {p : ℚ}

/-- A JSON number is taken for the number that is nearest to it. -/
theorem exists_nearest (h : a.Denotes p) : ∃ x v, a.number? = some x ∧ x.IsNearest p v := by
  cases h with
  | integer n hlow hhigh =>
    have hbits : n.natAbs ≤ Nat.pow 2 64 := by
      simp only [Nat.pow_eq]
      omega
    obtain ⟨v, hnearest⟩ := Binary64.isNearest_ofInt hbits
    exact ⟨_, v, rfl, hnearest⟩
  | float x _ hx => exact ⟨x, p, rfl, Binary64.isNearest_of_value? hx⟩

theorem exists_value?_of_abs_le (h : a.Denotes p) (hp : |p| ≤ 2 ^ 53) :
    ∃ x : Binary64, x.value? = some p := by
  cases h with
  | integer n _ _ =>
    have hbits : ((n.natAbs : Nat) : ℚ) ≤ (Nat.pow 2 53 : Nat) := by
      rw [Nat.cast_natAbs, Int.cast_abs]
      exact hp.trans_eq (Nat.cast_pow 2 53).symm
    exact Binary64.exists_value?_intCast (Nat.cast_le.mp hbits)
  | float x _ hx => exact ⟨x, hx⟩

end Json

section

variable {context : PricingContext} {key : String} {a b : Json} {x y : Binary64} {p q v w : ℚ}

/-- A condition on a custom field that is a number compares the values of what it and the number
asked for are taken for. -/
theorem Condition.holds_customFieldEquals_iff (hfield : context.customField? key = some a)
    (ha : a.number? = some x) (hb : b.number? = some y) (hx : x.value? = some v)
    (hy : y.value? = some w) :
    (Condition.customFieldEquals key b).holds context = true ↔ v = w := by
  rw [Condition.holds, hfield, Option.any_some, sameValue, ha, hb]
  exact Binary64.same_iff_of_value? hx hy

/-- A condition on a custom field takes two numbers for equal when the binary64 numbers that are
nearest to them are. So it does not tell equal numbers apart, and tells those apart that differ if
both are values of binary64 numbers, as all of no more than 2⁵³ in size are. A number that is no
such value is taken for another. -/
theorem custom_fields_compare_nearest (hfield : context.customField? key = some a) (ha : a.Denotes p)
    (hb : b.Denotes q) :
    let holds := (Condition.customFieldEquals key b).holds context
    (∃ x y v w, a.number? = some x ∧ b.number? = some y ∧ x.IsNearest p v ∧ y.IsNearest q w ∧
      (holds = true ↔ v = w)) ∧
    (p = q → holds = true) ∧
    ((∃ x : Binary64, x.value? = some p) → (∃ y : Binary64, y.value? = some q) →
      (holds = true ↔ p = q)) ∧
    (|p| ≤ 2 ^ 53 → |q| ≤ 2 ^ 53 → (holds = true ↔ p = q)) ∧
    ((¬ ∃ x : Binary64, x.value? = some p) → ∃ c r, c.Denotes r ∧ r ≠ p ∧
      (Condition.customFieldEquals key c).holds context = true) := by
  intro holds
  obtain ⟨x, v, hx, hv⟩ := Json.exists_nearest ha
  obtain ⟨y, w, hy, hw⟩ := Json.exists_nearest hb
  have hiff : holds = true ↔ v = w :=
    Condition.holds_customFieldEquals_iff hfield hx hy hv.value?_eq hw.value?_eq
  have hvalues : (∃ x : Binary64, x.value? = some p) → (∃ y : Binary64, y.value? = some q) →
      (holds = true ↔ p = q) := by
    rintro ⟨x', hx'⟩ ⟨y', hy'⟩
    rw [hiff, hv.eq_of_value? hx', hw.eq_of_value? hy']
  refine ⟨⟨x, y, v, w, hx, hy, hv, hw, hiff⟩, ?_, hvalues, ?_, ?_⟩
  · rintro rfl
    exact hiff.mpr (hv.unique hw)
  · intro hp hq
    exact hvalues (Json.exists_value?_of_abs_le ha hp) (Json.exists_value?_of_abs_le hb hq)
  · intro hno
    refine ⟨.float x, v, .float x v hv.value?_eq, ?_, ?_⟩
    · rintro rfl
      exact hno ⟨x, hv.value?_eq⟩
    · exact (Condition.holds_customFieldEquals_iff hfield hx rfl hv.value?_eq hv.value?_eq).mpr rfl

end

/-- An order for five seats, where 5.0 are asked for. -/
theorem custom_fields_compare_nearest_seats :
    let seats : Configuration := ⟨⟨"compute-standard"⟩, [], 1, []⟩
    let context : PricingContext :=
      ⟨Catalog.offer "compute-standard" "Standard Compute" "" 50 "compute" [], seats, [seats],
        .standard, none, none, some [("seats", .integer 5)]⟩
    context.customField? "seats" = some (.integer 5) ∧ (Json.integer 5).Denotes 5 ∧
    (Json.float (.ofInt 5)).Denotes 5 ∧
    (Condition.customFieldEquals "seats" (.float (.ofInt 5))).holds context = true := by
  intro seats context
  have hfield : context.customField? "seats" = some (.integer 5) := rfl
  have hinteger : (Json.integer 5).Denotes 5 := .integer 5 (by decide) (by decide)
  have hfloat : (Json.float (.ofInt 5)).Denotes 5 := .float _ 5 (Binary64.value?_ofInt (by decide))
  exact ⟨hfield, hinteger, hfloat,
    (custom_fields_compare_nearest hfield hinteger hfloat).2.1 rfl⟩

/-- An order for 2⁵³ + 1 seats is taken for one of 2⁵³. -/
theorem custom_field_confuses_neighbours :
    let seats : Configuration := ⟨⟨"compute-standard"⟩, [], 1, []⟩
    let context : PricingContext :=
      ⟨Catalog.offer "compute-standard" "Standard Compute" "" 50 "compute" [], seats, [seats],
        .standard, none, none, some [("seats", .integer 9007199254740993)]⟩
    context.customField? "seats" = some (.integer 9007199254740993) ∧
    (Json.integer 9007199254740993).Denotes 9007199254740993 ∧
    (Json.integer 9007199254740992).Denotes 9007199254740992 ∧
    (9007199254740993 : ℚ) ≠ 9007199254740992 ∧
    (Condition.customFieldEquals "seats" (.integer 9007199254740992)).holds context = true := by
  intro seats context
  exact ⟨rfl, .integer 9007199254740993 (by decide) (by decide),
    .integer 9007199254740992 (by decide) (by decide), by norm_num, by decide +kernel⟩

end PriceQuote
