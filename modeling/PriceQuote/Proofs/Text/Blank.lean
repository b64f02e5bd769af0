import Mathlib.Data.List.DropRight
import PriceQuote.Text.Blank

/-!
# White space and the ends of a text

* `whiteSpace`, `isBlank_iff`: the code points that count as white space;
* `allBlank_eq_false_iff`: a text says something when one of its characters is none of them;
* `IsTrimmed`, `trim_eq_self_iff`: a text with no white space at its ends, which trimming leaves
  alone;
* `trim_eq_empty_iff`: nothing is left of a text that says nothing;
* `Bears`, `lowerAscii_trim_eq_iff`: a text that is a word but for white space around it and the case
  of its letters.
-/

namespace PriceQuote.Text

/-- The code points with Unicode's property `White_Space`. -/
def whiteSpace : List Nat :=
  [0x9, 0xa, 0xb, 0xc, 0xd, 0x20, 0x85, 0xa0, 0x1680, 0x2000, 0x2001, 0x2002, 0x2003, 0x2004,
    0x2005, 0x2006, 0x2007, 0x2008, 0x2009, 0x200a, 0x2028, 0x2029, 0x202f, 0x205f, 0x3000]

/-- Blank are the characters with these code points. -/
theorem isBlank_iff {c : Char} : isBlank c = true ↔ c.toNat ∈ whiteSpace := by
  have hle : ∀ {a b : Char}, a ≤ b ↔ a.toNat ≤ b.toNat := Iff.rfl
  have heq : ∀ {a b : Char}, a = b ↔ a.toNat = b.toNat := fun {a b} =>
    ⟨congrArg Char.toNat, fun h => Char.ext (UInt32.toNat_inj.mp h)⟩
  simp only [isBlank, whiteSpace, Bool.or_eq_true, Bool.and_eq_true, decide_eq_true_eq, beq_iff_eq,
    hle, heq, List.mem_cons, List.not_mem_nil, or_false, Char.reduceToNat]
  omega

variable {s : String}

/-! ## Texts that say something -/

theorem allBlank_iff : allBlank s = true ↔ ∀ c ∈ s.toList, c.toNat ∈ whiteSpace := by
  simp only [allBlank, List.all_eq_true, isBlank_iff]

theorem allBlank_eq_false_iff : allBlank s = false ↔ ∃ c ∈ s.toList, c.toNat ∉ whiteSpace := by
  rw [← Bool.not_eq_true, allBlank_iff]
  simp only [not_forall, exists_prop]

/-! ## The ends of a text -/

/-- Neither end of a text is white space. -/
structure IsTrimmed (s : String) : Prop where
  first : ∀ c, s.toList.head? = some c → c.toNat ∉ whiteSpace
  last : ∀ c, s.toList.getLast? = some c → c.toNat ∉ whiteSpace

theorem toList_trim (s : String) :
    (trim s).toList = (s.toList.dropWhile isBlank).rdropWhile isBlank :=
  String.toList_ofList

theorem dropWhile_isBlank_eq_self_iff {cs : List Char} :
    cs.dropWhile isBlank = cs ↔ ∀ c, cs.head? = some c → c.toNat ∉ whiteSpace := by
  rw [List.dropWhile_eq_self_iff]
  cases cs <;> simp [isBlank_iff]

theorem rdropWhile_isBlank_eq_self_iff {cs : List Char} :
    cs.rdropWhile isBlank = cs ↔ ∀ c, cs.getLast? = some c → c.toNat ∉ whiteSpace := by
  rw [List.rdropWhile_eq_self_iff]
  cases cs using List.reverseRecOn <;> simp [isBlank_iff]

/-- Trimming leaves alone what begins and ends with no white space, and nothing else. -/
theorem trim_eq_self_iff : trim s = s ↔ IsTrimmed s := by
  rw [← String.toList_inj, toList_trim]
  constructor
  · intro h
    -- Were something dropped in front, the text would have become shorter.
    have hlength : s.toList.length ≤ (s.toList.dropWhile isBlank).length := by
      conv_lhs => rw [← h]
      exact (List.rdropWhile_prefix isBlank _).length_le
    have hfirst : s.toList.dropWhile isBlank = s.toList :=
      (List.dropWhile_suffix isBlank).eq_of_length_le hlength
    rw [hfirst] at h
    exact ⟨dropWhile_isBlank_eq_self_iff.mp hfirst, rdropWhile_isBlank_eq_self_iff.mp h⟩
  · rintro ⟨hfirst, hlast⟩
    rw [dropWhile_isBlank_eq_self_iff.mpr hfirst, rdropWhile_isBlank_eq_self_iff.mpr hlast]

theorem trim_eq_empty_iff : trim s = "" ↔ allBlank s = true := by
  rw [← String.toList_inj, toList_trim, String.toList_empty, List.rdropWhile_eq_nil_iff, allBlank,
    List.all_eq_true]
  constructor
  · intro h
    -- What is left in front begins with a character that is not white space, if there is any.
    have hnone : s.toList.dropWhile isBlank = [] := by
      by_contra hne
      have hhead := List.head_dropWhile_not isBlank hne
      rw [h _ (List.head_mem hne)] at hhead
      cases hhead
    exact List.dropWhile_eq_nil_iff.mp hnone
  · intro h c hc
    exact h c ((List.dropWhile_suffix isBlank).mem hc)

/-! ## Words -/

/-- A text is a word but for white space around it and the case of its letters from `A` to `Z`. -/
def Bears (s word : String) : Prop :=
  ∃ front middle back : List Char, s.toList = front ++ middle ++ back ∧
    (∀ c ∈ front ++ back, c.toNat ∈ whiteSpace) ∧ middle.map Char.toLower = word.toList

theorem isBlank_toLower (c : Char) : isBlank c.toLower = isBlank c := by
  unfold Char.toLower
  split
  · rename_i h
    have hrange : 65 ≤ c.toNat ∧ c.toNat ≤ 90 := h
    have hlower : ∀ lower : Char, lower.toNat = c.toNat + 32 → isBlank lower = isBlank c := by
      intro lower hlower
      rw [Bool.eq_iff_iff, isBlank_iff, isBlank_iff, hlower]
      simp only [whiteSpace, List.mem_cons, List.not_mem_nil, or_false]
      omega
    refine hlower _ ?_
    show (c.val + 32).toNat = c.val.toNat + 32
    have hval : c.val.toNat ≤ 90 := hrange.2
    rw [UInt32.toNat_add]
    exact Nat.mod_eq_of_lt (by simp; omega)
  · rfl

theorem rdropWhile_append_of_isBlank {cs back : List Char} (h : ∀ c ∈ back, isBlank c = true) :
    (cs ++ back).rdropWhile isBlank = cs.rdropWhile isBlank := by
  have hreverse : ∀ c ∈ back.reverse, isBlank c = true := fun c hc => h c (List.mem_reverse.mp hc)
  rw [List.rdropWhile, List.reverse_append, List.dropWhile_append_of_pos hreverse, List.rdropWhile]

/-- A text bears a word without white space when it is what is left of the text. -/
theorem lowerAscii_trim_eq_iff {word : String} (hword : word.toList.any isBlank = false) :
    lowerAscii (trim s) = word ↔ Bears s word := by
  rw [← String.toList_inj, lowerAscii, String.toList_map, toList_trim]
  constructor
  · intro h
    refine ⟨s.toList.takeWhile isBlank, _, (s.toList.dropWhile isBlank).rtakeWhile isBlank, ?_,
      fun c hc => isBlank_iff.mp ?_, h⟩
    · rw [List.append_assoc, List.rdropWhile_append_rtakeWhile, List.takeWhile_append_dropWhile]
    · exact (List.mem_append.mp hc).elim List.mem_takeWhile_imp List.mem_rtakeWhile_imp
  · rintro ⟨front, middle, back, hs, hblank, hmiddle⟩
    have hmiddle' : ∀ c ∈ middle, isBlank c = false := by
      intro c hc
      have hc : c.toLower ∈ word.toList := hmiddle ▸ List.mem_map_of_mem hc
      rw [← isBlank_toLower]
      exact Bool.eq_false_iff.mpr (List.any_eq_false.mp hword _ hc)
    have hfront : ∀ c ∈ front, isBlank c = true := fun c hc =>
      isBlank_iff.mpr (hblank c (List.mem_append_left back hc))
    have hback : ∀ c ∈ back, isBlank c = true := fun c hc =>
      isBlank_iff.mpr (hblank c (List.mem_append_right front hc))
    suffices h : (s.toList.dropWhile isBlank).rdropWhile isBlank = middle by rw [h, hmiddle]
    rw [hs, List.append_assoc, List.dropWhile_append_of_pos hfront]
    cases middle with
    | nil => rw [List.nil_append, List.dropWhile_eq_nil_iff.mpr hback, List.rdropWhile_nil]
    | cons c middle =>
      have hc : isBlank c = false := hmiddle' c List.mem_cons_self
      rw [List.cons_append, List.dropWhile_cons_of_neg (by rw [hc]; exact Bool.false_ne_true),
        ← List.cons_append, rdropWhile_append_of_isBlank hback, List.rdropWhile_eq_self_iff]
      intro hne hlast
      rw [hmiddle' _ (List.getLast_mem hne)] at hlast
      cases hlast

end PriceQuote.Text
