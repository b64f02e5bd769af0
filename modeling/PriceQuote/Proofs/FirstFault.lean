/-!
# Passes that stop at the first fault

* `FirstFault`: passes over a list, which go on behind what is sound and tell the first fault;
* `FirstFault.eq_none_iff`, `FirstFault.eq_some_iff`: what they accept, and where they stop.
-/

namespace PriceQuote

/-- A pass over a list, which is given the elements that came before and those still to come. It
goes on where an element is sound behind those before it, and else tells what it breaks. -/
structure FirstFault {α ε : Type} (pass : List α → List α → Option ε) (Sound : List α → Prop)
    (Breaks : List α → α → ε → Prop) : Prop where
  nil (before : List α) : pass before [] = none
  of_sound {before : List α} {x : α} (rest : List α) :
    Sound (before ++ [x]) → pass before (x :: rest) = pass (before ++ [x]) rest
  of_breaks {before : List α} {x : α} {fault : ε} (rest : List α) :
    Breaks before x fault → pass before (x :: rest) = some fault
  sound_or_breaks {before : List α} (x : α) :
    Sound before → Sound (before ++ [x]) ∨ ∃ fault, Breaks before x fault
  sound_before {before rest : List α} : Sound (before ++ rest) → Sound before

namespace FirstFault

variable {α ε : Type} {pass : List α → List α → Option ε} {Sound : List α → Prop}
  {Breaks : List α → α → ε → Prop} {before xs : List α}

/-- A pass comes to its end where all elements are sound together. -/
theorem eq_none_iff (h : FirstFault pass Sound Breaks) (hbefore : Sound before) :
    pass before xs = none ↔ Sound (before ++ xs) := by
  induction xs generalizing before with
  | nil => simpa [h.nil] using hbefore
  | cons x rest ih =>
    rw [List.append_cons]
    obtain hsound | ⟨fault, hbreaks⟩ := h.sound_or_breaks x hbefore
    · rw [h.of_sound rest hsound, ih hsound]
    · have hpass := h.of_breaks rest hbreaks
      refine ⟨fun hnone => ?_, fun hall => ?_⟩
      · rw [hpass] at hnone
        cases hnone
      · -- The element cannot be sound: the pass would both stop at it and go on.
        have hsound := h.sound_before hall
        rw [h.of_sound rest hsound, ih hsound]
        exact hall

/-- A pass stops at the first element that breaks something behind sound ones. -/
theorem eq_some_iff (h : FirstFault pass Sound Breaks) (hbefore : Sound before) {fault : ε} :
    pass before xs = some fault ↔ ∃ first x rest, xs = first ++ x :: rest ∧
      Sound (before ++ first) ∧ Breaks (before ++ first) x fault := by
  induction xs generalizing before with
  | nil => simp [h.nil]
  | cons x rest ih =>
    constructor
    · intro hpass
      obtain hsound | ⟨other, hbreaks⟩ := h.sound_or_breaks x hbefore
      · rw [h.of_sound rest hsound, ih hsound] at hpass
        obtain ⟨first, y, later, rfl, hfirst, hbreaks⟩ := hpass
        rw [← List.append_cons] at hfirst hbreaks
        exact ⟨x :: first, y, later, rfl, hfirst, hbreaks⟩
      · obtain rfl : other = fault := Option.some.inj ((h.of_breaks rest hbreaks).symm.trans hpass)
        exact ⟨[], x, rest, rfl, by simpa using hbefore, by simpa using hbreaks⟩
    · rintro ⟨first, y, later, hxs, hfirst, hbreaks⟩
      cases first with
      | nil =>
        obtain ⟨rfl, rfl⟩ := List.cons.inj hxs
        exact h.of_breaks rest (by simpa using hbreaks)
      | cons _ first =>
        obtain ⟨rfl, rfl⟩ := List.cons.inj hxs
        rw [List.append_cons] at hfirst hbreaks
        have hsound := h.sound_before hfirst
        rw [h.of_sound _ hsound, ih hsound]
        exact ⟨first, y, later, rfl, hfirst, hbreaks⟩

end FirstFault

end PriceQuote
