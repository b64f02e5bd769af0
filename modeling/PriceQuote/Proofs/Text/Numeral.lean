import PriceQuote.Text.Numeral

/-!
# Texts that are numbers

* `digits?_eq_some_iff`: what a run of digits is;
* `Names`, `unsigned?_eq_some_iff`: the number that a text names is the one that is read from it.
-/

namespace PriceQuote.Text

theorem digitsFrom_eq_ofDigitChars (start : Nat) (cs : List Char) :
    digitsFrom start cs = Nat.ofDigitChars 10 cs start := by
  induction cs generalizing start with
  | nil => rfl
  | cons c cs ih =>
    rw [Nat.ofDigitChars_cons, Nat.mul_comm]
    exact ih _

theorem digits?_eq_some_iff {cs : List Char} {n : Nat} : digits? cs = some n ↔
    cs ≠ [] ∧ (∀ c ∈ cs, c.isDigit = true) ∧ digitsFrom 0 cs = n := by
  unfold digits?
  rw [← List.all_eq_true]
  cases cs with
  | nil => simp
  | cons c cs => cases (c :: cs).all Char.isDigit <;> simp

/-- A text is made of digits, perhaps behind one plus sign, and their value is `n`. -/
def Names (s : String) (n : Nat) : Prop :=
  ∃ digits : List Char, (s.toList = digits ∨ s.toList = '+' :: digits) ∧ digits ≠ [] ∧
    (∀ c ∈ digits, c.isDigit = true) ∧ Nat.ofDigitChars 10 digits 0 = n

/-- The digits of a text are what is behind its plus sign, or all of it. -/
theorem names_iff {s : String} {n : Nat} : Names s n ↔
    digits? (match s.toList with | '+' :: rest => rest | cs => cs) = some n := by
  simp only [Names, digits?_eq_some_iff, digitsFrom_eq_ofDigitChars]
  split
  · rename_i rest hs
    rw [hs]
    constructor
    · rintro ⟨digits, rfl | h, hne, hdigits, hvalue⟩
      · -- A plus sign is no digit.
        exact absurd (hdigits '+' List.mem_cons_self) (by decide)
      · cases h
        exact ⟨hne, hdigits, hvalue⟩
    · exact fun h => ⟨rest, .inr rfl, h⟩
  · rename_i hplus
    constructor
    · rintro ⟨digits, rfl | h, hdigits⟩
      · exact hdigits
      · exact absurd h (hplus digits)
    · exact fun h => ⟨s.toList, .inl rfl, h⟩

/-- What is read from a text is the number that it names, if that is not too great. -/
theorem unsigned?_eq_some_iff {greatest : Nat} {s : String} {n : Nat} :
    unsigned? greatest s = some n ↔ Names s n ∧ n ≤ greatest :=
  Option.filter_eq_some_iff.trans (and_congr names_iff.symm decide_eq_true_iff)

end PriceQuote.Text
