import Mathlib.Data.List.TakeWhile
import Mathlib.Tactic.IntervalCases
import PriceQuote.Proofs.Fallible
import PriceQuote.Proofs.Text.Numeral
import PriceQuote.Timestamp.Text

/-!
# Timestamps are read as they are written

What is written of a timestamp is a row of numbers filled up with zeros, each with a mark behind it.
Each part of it is read up to its mark, whatever follows.

* `Day.ofNumbers?_next?`, `Day.ofNumbers?_previous?`: the days around a day;
* `takeNumber_append`, `takeYear_yearText`, `takeFraction_fractionText`: the parts of a text;
* `Timestamp.IsValid`: the timestamps there are;
* `ofText?_toText`: a valid timestamp is read from its text;
* `isValid_of_ofText?`: all that is read is valid.
-/

namespace PriceQuote

/-! ## Runs of digits -/

namespace Text

/-- The value of a run of digits has no more digits than the run. -/
theorem digitsFrom_lt {cs : List Char} (h : ∀ c ∈ cs, c.isDigit = true) :
    digitsFrom 0 cs < 10 ^ cs.length := by
  rw [digitsFrom_eq_ofDigitChars]
  induction cs with
  | nil => decide
  | cons c cs ih =>
    obtain ⟨hc, hcs⟩ := List.forall_mem_cons.mp h
    have hbound : c.toNat ≤ 57 := (Char.isDigit_iff_toNat.mp hc).2
    have hrest := ih hcs
    rw [Nat.ofDigitChars_cons, Nat.ofDigitChars_eq_ofDigitChars_zero, List.length_cons,
      Nat.pow_succ]
    have hfirst : 10 * 0 + (c.toNat - '0'.toNat) ≤ 9 := by
      show 10 * 0 + (c.toNat - 48) ≤ 9
      omega
    calc 10 ^ cs.length * (10 * 0 + (c.toNat - '0'.toNat)) + Nat.ofDigitChars 10 cs 0
        < 10 ^ cs.length * 9 + 10 ^ cs.length :=
          Nat.add_lt_add_of_le_of_lt (Nat.mul_le_mul_left _ hfirst) hrest
      _ = 10 ^ cs.length * 10 := by rw [← Nat.mul_succ]

theorem isBlank_of_isDigit {c : Char} (h : c.isDigit = true) : isBlank c = false := by
  obtain ⟨hleast, hgreatest⟩ := Char.isDigit_iff_toNat.mp h
  replace hleast : 48 ≤ c.toNat := hleast
  replace hgreatest : c.toNat ≤ 57 := hgreatest
  have hc : Char.ofNat c.toNat = c := Char.ofNat_toNat c
  generalize c.toNat = n at hleast hgreatest hc
  subst hc
  interval_cases n <;> rfl

end Text

/-! ## Days -/

namespace Day

theorem ofNumbers?_eq_some_iff {year : Int} {month day : Nat} {date : Day} :
    ofNumbers? year month day = some date ↔ inRange year = true ∧
      (1 ≤ month ∧ month ≤ 12) ∧ (1 ≤ day ∧ day ≤ daysIn year month) ∧
        date = ⟨year, month, day⟩ := by
  unfold ofNumbers?
  split
  · rename_i hall
    simp only [Bool.and_eq_true, decide_eq_true_eq, and_assoc] at hall
    obtain ⟨hyear, hleast, hmost, hfirst, hlast⟩ := hall
    exact ⟨fun h => ⟨hyear, ⟨hleast, hmost⟩, ⟨hfirst, hlast⟩, (Option.some.inj h).symm⟩,
      fun h => congrArg some h.2.2.2.symm⟩
  · rename_i hnot
    simp only [Bool.and_eq_true, decide_eq_true_eq, and_assoc] at hnot
    exact ⟨nofun, fun h => absurd ⟨h.1, h.2.1.1, h.2.1.2, h.2.2.1⟩ hnot⟩

theorem daysIn_bounds (year : Int) (month : Nat) :
    28 ≤ daysIn year month ∧ daysIn year month ≤ 31 := by
  unfold daysIn
  split_ifs <;> omega

theorem ofNumbers?_next? {date date' : Day}
    (h : ofNumbers? date.year date.month date.day = some date) (h' : date.next? = some date') :
    ofNumbers? date'.year date'.month date'.day = some date' := by
  obtain ⟨hyear, hmonth, hday, -⟩ := ofNumbers?_eq_some_iff.mp h
  rw [ofNumbers?_eq_some_iff]
  unfold next? at h'
  split at h'
  · obtain rfl := Option.some.inj h'
    exact ⟨hyear, hmonth, by dsimp only; omega, rfl⟩
  · split at h'
    · obtain rfl := Option.some.inj h'
      have hbounds := daysIn_bounds date.year (date.month + 1)
      exact ⟨hyear, by dsimp only; omega, by dsimp only; omega, rfl⟩
    · split at h'
      · obtain rfl := Option.some.inj h'
        have hbounds := daysIn_bounds (date.year + 1) 1
        exact ⟨‹_›, by dsimp only; omega, by dsimp only; omega, rfl⟩
      · cases h'

theorem ofNumbers?_previous? {date date' : Day}
    (h : ofNumbers? date.year date.month date.day = some date)
    (h' : date.previous? = some date') :
    ofNumbers? date'.year date'.month date'.day = some date' := by
  obtain ⟨hyear, hmonth, hday, -⟩ := ofNumbers?_eq_some_iff.mp h
  rw [ofNumbers?_eq_some_iff]
  unfold previous? at h'
  split at h'
  · obtain rfl := Option.some.inj h'
    exact ⟨hyear, hmonth, by dsimp only; omega, rfl⟩
  · split at h'
    · obtain rfl := Option.some.inj h'
      have hbounds := daysIn_bounds date.year (date.month - 1)
      exact ⟨hyear, by dsimp only; omega, by dsimp only; omega, rfl⟩
    · split at h'
      · obtain rfl := Option.some.inj h'
        have hlast : daysIn (date.year - 1) 12 = 31 := rfl
        exact ⟨‹_›, by dsimp only; omega, by dsimp only; omega, rfl⟩
      · cases h'

end Day

namespace Timestamp

open Text

/-! ## Numbers -/

theorem toList_padded (width n : Nat) : (padded width n).toList =
    List.replicate (width - (Nat.toDigits 10 n).length) '0' ++ Nat.toDigits 10 n := by
  rw [padded, String.toList_ofList]

/-- A number that is filled up with zeros is a run of digits for the number. -/
theorem digits?_padded (width n : Nat) : digits? (padded width n).toList = some n := by
  rw [toList_padded, digits?_eq_some_iff, digitsFrom_eq_ofDigitChars, Nat.ofDigitChars_append,
    Nat.ofDigitChars_replicate_zero, Nat.mul_zero, Nat.ofDigitChars_ten_toDigits]
  refine ⟨List.append_ne_nil_of_right_ne_nil _ Nat.toDigits_ne_nil, fun c hc => ?_, rfl⟩
  rcases List.mem_append.mp hc with hc | hc
  · rw [List.eq_of_mem_replicate hc]
    rfl
  · exact Nat.isDigit_of_mem_toDigits (by decide) (by decide) hc

theorem length_padded {width n : Nat} (hwidth : 0 < width) (h : n < 10 ^ width) :
    (padded width n).toList.length = width := by
  have hlength := (Nat.length_toDigits_le_iff (by decide : 1 < 10) hwidth).mpr h
  rw [toList_padded, List.length_append, List.length_replicate]
  omega

/-- A run of digits is taken up to what is no digit, or up to the greatest length. -/
theorem takeNumber_append {digits rest : List Char} {most n : Nat}
    (hdigits : digits? digits = some n)
    (h : digits.length = most ∨ digits.length ≤ most ∧ ∀ c ∈ rest.head?, c.isDigit = false) :
    takeNumber most (digits ++ rest) = some (n, rest) := by
  obtain ⟨hne, hall, -⟩ := digits?_eq_some_iff.mp hdigits
  have hblank : (digits ++ rest).dropWhile isBlank = digits ++ rest := by
    obtain ⟨c, cs, rfl⟩ := List.exists_cons_of_ne_nil hne
    have hc := isBlank_of_isDigit (hall c List.mem_cons_self)
    rw [List.cons_append, List.dropWhile_cons_of_neg (by simp [hc])]
  have htaken : ((digits ++ rest).take most).takeWhile Char.isDigit = digits := by
    have hstop : (rest.take (most - digits.length)).takeWhile Char.isDigit = [] := by
      rcases h with rfl | ⟨-, h⟩
      · simp
      · cases rest with
        | nil => simp
        | cons c rest =>
          have hc : c.isDigit = false := h c rfl
          cases most - digits.length with
          | zero => rfl
          | succ k => rw [List.take_succ_cons, List.takeWhile_cons_of_neg (by simp [hc])]
    rw [List.take_append, List.take_of_length_le (by omega), List.takeWhile_append_of_pos hall,
      hstop, List.append_nil]
  unfold takeNumber
  dsimp only
  rw [hblank, htaken, hdigits, Option.map_some, List.drop_left]

/-- A mark that is not blank is taken where it stands. -/
theorem takeMark_cons {mark : Char} (h : isBlank mark = false) (rest : List Char) :
    takeMark mark (mark :: rest) = some rest := by
  rw [takeMark, List.dropWhile_cons_of_neg (by simp [h])]
  exact if_pos rfl

theorem takeNumber_two {n : Nat} (h : n < 100) (rest : List Char) :
    takeNumber 2 ((padded 2 n).toList ++ rest) = some (n, rest) :=
  takeNumber_append (digits?_padded 2 n) (.inl (length_padded (by decide) h))

/-! ## Years -/

theorem exists_cons_of_digits? {digits : List Char} {n : Nat} (h : digits? digits = some n) :
    ∃ c cs, digits = c :: cs ∧ c.isDigit = true := by
  obtain ⟨hne, hall, -⟩ := digits?_eq_some_iff.mp h
  obtain ⟨c, cs, rfl⟩ := List.exists_cons_of_ne_nil hne
  exact ⟨c, cs, rfl, hall c List.mem_cons_self⟩

/-- A year without a sign is taken as one of four digits. -/
theorem takeYear_of_digits {digits : List Char} {n : Nat} (h : digits? digits = some n)
    (rest : List Char) :
    takeYear (digits ++ rest) =
      (takeNumber 4 (digits ++ rest)).map fun (n, rest) => (↑n, rest) := by
  obtain ⟨c, cs, rfl, hc⟩ := exists_cons_of_digits? h
  rw [takeYear, List.cons_append, List.dropWhile_cons_of_neg (by simp [isBlank_of_isDigit hc])]
  split
  · rename_i heq
    obtain ⟨rfl, -⟩ := List.cons.inj heq
    cases hc
  · rename_i heq
    obtain ⟨rfl, -⟩ := List.cons.inj heq
    cases hc
  · rfl

section

variable {digits rest : List Char} {n : Nat}

theorem takeNumber_of_sign (h : digits? digits = some n)
    (hrest : ∀ c ∈ rest.head?, c.isDigit = false) :
    (digits ++ rest).head?.any Char.isDigit = true ∧
      takeNumber (digits ++ rest).length (digits ++ rest) = some (n, rest) := by
  refine ⟨?_, takeNumber_append h (.inr ⟨by simp, hrest⟩)⟩
  obtain ⟨c, cs, rfl, hc⟩ := exists_cons_of_digits? h
  exact hc

theorem takeYear_minus (h : digits? digits = some n)
    (hrest : ∀ c ∈ rest.head?, c.isDigit = false) :
    takeYear ('-' :: (digits ++ rest)) = some (-(n : Int), rest) := by
  obtain ⟨hhead, hnumber⟩ := takeNumber_of_sign h hrest
  show (if (digits ++ rest).head?.any Char.isDigit = true then
    (takeNumber (digits ++ rest).length (digits ++ rest)).map fun (n, rest) => (-(n : Int), rest)
    else none) = _
  rw [if_pos hhead, hnumber]
  rfl

theorem takeYear_plus (h : digits? digits = some n)
    (hrest : ∀ c ∈ rest.head?, c.isDigit = false) :
    takeYear ('+' :: (digits ++ rest)) = some ((n : Int), rest) := by
  obtain ⟨hhead, hnumber⟩ := takeNumber_of_sign h hrest
  show (if (digits ++ rest).head?.any Char.isDigit = true then
    (takeNumber (digits ++ rest).length (digits ++ rest)).map fun (n, rest) => ((n : Int), rest)
    else none) = _
  rw [if_pos hhead, hnumber]
  rfl

end

/-- A year is taken up to the mark behind it. -/
theorem takeYear_yearText (year : Int) (rest : List Char) :
    takeYear ((yearText year).toList ++ '-' :: rest) = some (year, '-' :: rest) := by
  have hdigits := digits?_padded 4 year.natAbs
  have hmark : ∀ c ∈ ('-' :: rest).head?, c.isDigit = false := by
    rintro c hc
    obtain rfl := Option.some.inj hc
    rfl
  unfold yearText
  split
  · have hyear : (year.natAbs : Int) = year := by omega
    have hlength : (padded 4 year.natAbs).toList.length = 4 := length_padded (by decide) (by omega)
    rw [takeYear_of_digits hdigits, takeNumber_append hdigits (.inl hlength)]
    exact congrArg (fun year => some (year, '-' :: rest)) hyear
  · split
    · have hyear : -(year.natAbs : Int) = year := by omega
      have hsign : "-".toList = ['-'] := rfl
      rw [String.toList_append, hsign, List.append_assoc, List.singleton_append,
        takeYear_minus hdigits hmark, hyear]
    · have hyear : (year.natAbs : Int) = year := by omega
      have hsign : "+".toList = ['+'] := rfl
      rw [String.toList_append, hsign, List.append_assoc, List.singleton_append,
        takeYear_plus hdigits hmark, hyear]

/-! ## Decimals -/

/-- Decimals are taken up to what is no digit, and filled up to nanoseconds. -/
theorem takeFraction_point {digits rest : List Char} {n : Nat} (h : digits? digits = some n)
    (hlength : digits.length ≤ 9) (hrest : ∀ c ∈ rest.head?, c.isDigit = false) :
    takeFraction ('.' :: (digits ++ rest)) = some (10 ^ (9 - digits.length) * n, rest) := by
  obtain ⟨hne, hall, hvalue⟩ := digits?_eq_some_iff.mp h
  have hstop : rest.takeWhile Char.isDigit = [] := by
    cases rest with
    | nil => rfl
    | cons c rest => rw [List.takeWhile_cons_of_neg (by simp [hrest c rfl])]
  have htaken : (digits ++ rest).takeWhile Char.isDigit = digits := by
    rw [List.takeWhile_append_of_pos hall, hstop, List.append_nil]
  have hdropped : (digits ++ rest).dropWhile Char.isDigit = rest := by
    rw [List.dropWhile_append_of_pos hall]
    cases rest with
    | nil => rfl
    | cons c rest => rw [List.dropWhile_cons_of_neg (by simp [hrest c rfl])]
  have hnanos : digitsFrom 0 ((digits.take 9).rightpad 9 '0') = 10 ^ (9 - digits.length) * n := by
    rw [List.take_of_length_le hlength, List.rightpad, digitsFrom_eq_ofDigitChars,
      Nat.ofDigitChars_append, Nat.ofDigitChars_replicate_zero, ← digitsFrom_eq_ofDigitChars,
      hvalue]
  rw [takeFraction, htaken, hdropped, if_neg (by simpa using hne), hnanos]

/-- The decimals that are written are taken up to the mark behind them. -/
theorem takeFraction_fractionText {nanosecond : Nat} (h : nanosecond < nanosPerSecond)
    (rest : List Char) : takeFraction ((fractionText nanosecond).toList ++ 'Z' :: rest) =
      some (nanosecond, 'Z' :: rest) := by
  have hmark : ∀ c ∈ ('Z' :: rest).head?, c.isDigit = false := by
    rintro c hc
    obtain rfl := Option.some.inj hc
    rfl
  have hpoint : ∀ {width n : Nat}, 0 < width → width ≤ 9 → n < 10 ^ width →
      10 ^ (9 - width) * n = nanosecond →
        takeFraction (("." ++ padded width n).toList ++ 'Z' :: rest) =
          some (nanosecond, 'Z' :: rest) := by
    intro width n hwidth hmost hn hvalue
    have hlength := length_padded hwidth hn
    have hmark' : ".".toList = ['.'] := rfl
    rw [String.toList_append, hmark', List.append_assoc, List.singleton_append,
      takeFraction_point (digits?_padded width n) (by omega) hmark, hlength, hvalue]
  unfold nanosPerSecond at h
  unfold fractionText
  split
  · rename_i hzero
    rw [hzero]
    rfl
  · split
    · exact hpoint (by decide) (by decide) (by omega) (by omega)
    · split
      · exact hpoint (by decide) (by decide) (by omega) (by omega)
      · exact hpoint (by decide) (by decide) (by omega) (by omega)

/-! ## Timestamps -/

/-- A timestamp is of a day that timestamps are kept for and of a second of it. A leap second is the
last one of its minute. -/
structure IsValid (t : Timestamp) : Prop where
  date : Day.ofNumbers? t.date.year t.date.month t.date.day = some t.date
  second : t.second < 86400
  nanosecond : t.nanosecond < 2 * nanosPerSecond
  leap : nanosPerSecond ≤ t.nanosecond → t.second % 60 = 59

theorem toList_toText (t : Timestamp) : t.toText.toList =
    (yearText t.date.year).toList ++ '-' :: ((padded 2 t.date.month).toList ++ '-' ::
      ((padded 2 t.date.day).toList ++ 'T' :: ((padded 2 (t.second / 3600)).toList ++ ':' ::
        ((padded 2 (t.second / 60 % 60)).toList ++ ':' ::
          ((padded 2 (t.second % 60 + t.nanosecond / nanosPerSecond)).toList ++
            ((fractionText (t.nanosecond % nanosPerSecond)).toList ++ ['Z'])))))) := by
  simp [toText, String.toList_append]

theorem ofLocal?_zero (date : Day) {second : Nat} (nanosecond : Nat) (h : second < 86400) :
    ofLocal? date second nanosecond 0 = some ⟨date, second, nanosecond⟩ := by
  have hless : ¬(second - 0 : Int) < 0 := by omega
  have hmore : ¬(86400 : Int) ≤ second - 0 := by omega
  unfold ofLocal?
  rw [if_neg hless, if_neg hmore]
  rfl

/-- A valid timestamp is read from its text. -/
theorem ofText?_toText {t : Timestamp} (h : t.IsValid) : ofText? t.toText = some t := by
  obtain ⟨-, hmonth, hday, -⟩ := Day.ofNumbers?_eq_some_iff.mp h.date
  have hdays := Day.daysIn_bounds t.date.year t.date.month
  have hsecond := h.second
  have hnanos := h.nanosecond
  have hleap := h.leap
  unfold nanosPerSecond at hnanos hleap
  have hoffset : takeOffset (['Z'].dropWhile isBlank) = some (0, []) := rfl
  rw [ofText?, toList_toText]
  -- part by part, each up to the mark behind it
  refine bind_of_eq_some (takeYear_yearText _ _) ?_
  refine bind_of_eq_some (takeMark_cons rfl _) ?_
  refine bind_of_eq_some (takeNumber_two (by omega) _) ?_
  refine bind_of_eq_some (takeMark_cons rfl _) ?_
  refine bind_of_eq_some (takeNumber_two (by omega) _) ?_
  refine bind_of_eq_some rfl ?_
  refine bind_of_eq_some (takeNumber_two (by omega) _) ?_
  refine bind_of_eq_some (takeMark_cons rfl _) ?_
  refine bind_of_eq_some (takeNumber_two (by omega) _) ?_
  refine bind_of_eq_some (takeMark_cons rfl _) ?_
  refine bind_of_eq_some (takeNumber_two (by unfold nanosPerSecond; omega) _) ?_
  refine bind_of_eq_some (takeFraction_fractionText (Nat.mod_lt _ (by decide)) _) ?_
  refine bind_of_eq_some hoffset ?_
  have hguard : ([].all isBlank && decide (t.second / 3600 < 24) &&
      decide (t.second / 60 % 60 < 60) &&
      decide (t.second % 60 + t.nanosecond / nanosPerSecond ≤ 60) &&
      decide ((0 : Int).natAbs < 86400)) = true := by
    unfold nanosPerSecond
    simp only [List.all_nil, Bool.true_and, Bool.and_eq_true, decide_eq_true_eq]
    omega
  refine bind_of_eq_some (if_pos hguard) ?_
  refine bind_of_eq_some h.date ?_
  have hclock : t.second / 3600 * 3600 + t.second / 60 % 60 * 60 +
      min (t.second % 60 + t.nanosecond / nanosPerSecond) 59 = t.second := by
    unfold nanosPerSecond
    omega
  have hrest : (if t.second % 60 + t.nanosecond / nanosPerSecond = 60 then
      t.nanosecond % nanosPerSecond + nanosPerSecond else t.nanosecond % nanosPerSecond) =
      t.nanosecond := by
    unfold nanosPerSecond
    split <;> omega
  rw [hclock, hrest, ofLocal?_zero _ _ h.second]

/-! ## What is read -/

/-- Where clocks are ahead by whole minutes, timestamps have the second of the minute that they
show. -/
theorem isValid_of_ofLocal? {date : Day} {second nanosecond : Nat} {offset : Int} {t : Timestamp}
    (h : ofLocal? date second nanosecond offset = some t)
    (hdate : Day.ofNumbers? date.year date.month date.day = some date) (hsecond : second < 86400)
    (hoffset : offset.natAbs < 86400) (hminutes : offset % 60 = 0)
    (hnanos : nanosecond < 2 * nanosPerSecond)
    (hleap : nanosPerSecond ≤ nanosecond → second % 60 = 59) : t.IsValid := by
  unfold ofLocal? at h
  dsimp only at h
  split at h
  · obtain ⟨before, hbefore, h⟩ := Option.bind_eq_some_iff.mp h
    obtain rfl := Option.some.inj h
    refine ⟨Day.ofNumbers?_previous? hdate hbefore, ?_, hnanos, fun hlong => ?_⟩
    · dsimp only
      omega
    · have hlast := hleap hlong
      dsimp only
      omega
  · split at h
    · obtain ⟨after, hafter, h⟩ := Option.bind_eq_some_iff.mp h
      obtain rfl := Option.some.inj h
      refine ⟨Day.ofNumbers?_next? hdate hafter, ?_, hnanos, fun hlong => ?_⟩
      · dsimp only
        omega
      · have hlast := hleap hlong
        dsimp only
        omega
    · obtain rfl := Option.some.inj h
      refine ⟨hdate, ?_, hnanos, fun hlong => ?_⟩
      · dsimp only
        omega
      · have hlast := hleap hlong
        dsimp only
        omega

/-- Offsets are whole minutes. -/
theorem takeOffset_minutes {cs rest : List Char} {offset : Int}
    (h : takeOffset cs = some (offset, rest)) : offset % 60 = 0 := by
  unfold takeOffset at h
  split at h
  · obtain ⟨rfl, -⟩ := Prod.mk.inj (Option.some.inj h)
    rfl
  · obtain ⟨rfl, -⟩ := Prod.mk.inj (Option.some.inj h)
    rfl
  · split at h
    · obtain ⟨⟨hours, cs⟩, -, h⟩ := Option.bind_eq_some_iff.mp h
      obtain ⟨⟨minutes, cs⟩, -, h⟩ := Option.bind_eq_some_iff.mp h
      obtain ⟨-, -, h⟩ := Option.bind_eq_some_iff.mp h
      obtain ⟨rfl, -⟩ := Prod.mk.inj (Option.some.inj h)
      split <;> omega
    · split at h
      · obtain ⟨rfl, -⟩ := Prod.mk.inj (Option.some.inj h)
        rfl
      · cases h
  · cases h

theorem takeFraction_lt {cs rest : List Char} {fraction : Nat}
    (h : takeFraction cs = some (fraction, rest)) : fraction < nanosPerSecond := by
  unfold takeFraction at h
  split at h
  · rename_i digits
    dsimp only at h
    split at h
    · cases h
    · obtain ⟨rfl, -⟩ := Prod.mk.inj (Option.some.inj h)
      have hdigits : ∀ c ∈ ((digits.takeWhile Char.isDigit).take 9).rightpad 9 '0',
          c.isDigit = true := by
        intro c hc
        rcases List.mem_append.mp hc with hc | hc
        · exact List.mem_takeWhile_imp (List.mem_of_mem_take hc)
        · rw [List.eq_of_mem_replicate hc]
          rfl
      have hlength : (((digits.takeWhile Char.isDigit).take 9).rightpad 9 '0').length = 9 := by
        rw [List.length_rightpad, List.length_take]
        omega
      have hlt := digitsFrom_lt hdigits
      rw [hlength] at hlt
      exact hlt
  · obtain ⟨rfl, -⟩ := Prod.mk.inj (Option.some.inj h)
    decide

/-- Whatever is read is valid. -/
theorem isValid_of_ofText? {s : String} {t : Timestamp} (h : ofText? s = some t) : t.IsValid := by
  rw [ofText?] at h
  obtain ⟨⟨year, cs⟩, -, h⟩ := Option.bind_eq_some_iff.mp h
  obtain ⟨cs, -, h⟩ := Option.bind_eq_some_iff.mp h
  obtain ⟨⟨month, cs⟩, -, h⟩ := Option.bind_eq_some_iff.mp h
  obtain ⟨cs, -, h⟩ := Option.bind_eq_some_iff.mp h
  obtain ⟨⟨day, cs⟩, -, h⟩ := Option.bind_eq_some_iff.mp h
  -- what divides date and time is one character, and the rest is read alike behind each
  dsimp only at h
  split at h
  · split at h
    · obtain ⟨cs, -, h⟩ := Option.bind_eq_some_iff.mp h
      obtain ⟨⟨hour, cs⟩, -, h⟩ := Option.bind_eq_some_iff.mp h
      obtain ⟨cs, -, h⟩ := Option.bind_eq_some_iff.mp h
      obtain ⟨⟨minute, cs⟩, -, h⟩ := Option.bind_eq_some_iff.mp h
      obtain ⟨cs, -, h⟩ := Option.bind_eq_some_iff.mp h
      obtain ⟨⟨second, cs⟩, -, h⟩ := Option.bind_eq_some_iff.mp h
      obtain ⟨⟨fraction, cs⟩, hfraction, h⟩ := Option.bind_eq_some_iff.mp h
      obtain ⟨⟨offset, cs⟩, hoffset, h⟩ := Option.bind_eq_some_iff.mp h
      obtain ⟨_, hguard, h⟩ := Option.bind_eq_some_iff.mp h
      obtain ⟨date, hdate, h⟩ := Option.bind_eq_some_iff.mp h
      have hchecks := (Option.guard_eq_some' _).mp hguard
      simp only [Bool.and_eq_true, decide_eq_true_eq] at hchecks
      obtain ⟨⟨⟨⟨-, hhour⟩, hminute⟩, hsecond⟩, hwithin⟩ := hchecks
      have hday : Day.ofNumbers? date.year date.month date.day = some date := by
        obtain rfl := (Day.ofNumbers?_eq_some_iff.mp hdate).2.2.2
        exact hdate
      have hnanos := takeFraction_lt hfraction
      refine isValid_of_ofLocal? h hday (by omega) hwithin (takeOffset_minutes hoffset) ?_ ?_
      · split <;> omega
      · split <;> omega
    · cases h
  · cases h

end Timestamp

end PriceQuote
