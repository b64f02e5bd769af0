import Mathlib.Data.Finset.Card
import Mathlib.Data.List.Induction

/-!
# Each value once

Two ways to take every value of a list once: `eraseDups` keeps first occurrences, and `eraseReps`
drops a value that stands next to an equal one.

* `nodup_eraseDups`, `eraseDups_sublist`: what is kept, each once and in order;
* `eraseDups_eraseDups`, `eraseDups_concat`: keeping once more keeps all, and what a further value
  adds;
* `eraseDups_perm`: lists with the same values keep the same, in some order;
* `firstPlaces`, `map_fst_firstPlaces`: the same, with the places of the first occurrences;
* `length_eraseReps_of_pairwise`: in a list that is sorted, dropping equal neighbours leaves as
  many values as there are different ones.
-/

namespace PriceQuote

variable {α : Type} [DecidableEq α]

/-! ## First occurrences -/

theorem eraseDups_sublist : ∀ xs : List α, xs.eraseDups.Sublist xs
  | [] => by simp
  | x :: xs => by
    rw [List.eraseDups_cons]
    exact ((eraseDups_sublist _).trans List.filter_sublist).cons_cons x
termination_by xs => xs.length
decreasing_by exact Nat.lt_succ_of_le (List.length_filter_le _ _)

theorem nodup_eraseDups : ∀ xs : List α, xs.eraseDups.Nodup
  | [] => by simp
  | x :: xs => by
    rw [List.eraseDups_cons, List.nodup_cons]
    refine ⟨fun hx => ?_, nodup_eraseDups _⟩
    simpa using (eraseDups_sublist _).mem hx
termination_by xs => xs.length
decreasing_by exact Nat.lt_succ_of_le (List.length_filter_le _ _)

theorem contains_eraseDups (xs : List α) (x : α) : xs.eraseDups.contains x = xs.contains x := by
  simp only [List.contains_eq_mem, List.mem_eraseDups]

theorem eraseDups_of_nodup {xs : List α} (h : xs.Nodup) : xs.eraseDups = xs := by
  induction xs with
  | nil => rfl
  | cons x xs ih =>
    obtain ⟨hx, hxs⟩ := List.nodup_cons.mp h
    have hkeep : (xs.filter fun y => !y == x) = xs :=
      List.filter_eq_self.mpr fun y hy => by simpa using fun e : y = x => hx (e ▸ hy)
    rw [List.eraseDups_cons, hkeep, ih hxs]

@[simp]
theorem eraseDups_eraseDups (xs : List α) : xs.eraseDups.eraseDups = xs.eraseDups :=
  eraseDups_of_nodup (nodup_eraseDups xs)

/-- As many values are kept as there are different ones. -/
theorem length_eraseDups (xs : List α) : xs.eraseDups.length = xs.toFinset.card := by
  rw [← List.toFinset_card_of_nodup (nodup_eraseDups xs)]
  congr 1
  ext x
  simp only [List.mem_toFinset, List.mem_eraseDups]

theorem eraseDups_perm {xs ys : List α} (h : ∀ x, x ∈ xs ↔ x ∈ ys) :
    xs.eraseDups.Perm ys.eraseDups := by
  rw [List.perm_ext_iff_of_nodup (nodup_eraseDups xs) (nodup_eraseDups ys)]
  intro x
  rw [List.mem_eraseDups, List.mem_eraseDups, h]

theorem eraseDups_concat (xs : List α) (x : α) :
    (xs ++ [x]).eraseDups = if x ∈ xs then xs.eraseDups else xs.eraseDups ++ [x] := by
  rw [List.eraseDups_append]
  split
  · rename_i hx
    simp [List.removeAll, hx]
  · rename_i hx
    simp [List.removeAll, hx, List.eraseDups_cons]

/-! ## Places -/

theorem pairwise_zipIdx {β : Type} (xs : List β) : xs.zipIdx.Pairwise fun a b => a.2 < b.2 := by
  have hplaces : (xs.zipIdx.map (·.2)).Pairwise (· < ·) := by
    rw [List.zipIdx_map_snd]
    exact List.pairwise_lt_range'
  exact List.pairwise_map.mp hplaces

/-- The values of a list with the places where they first occur. -/
def firstPlaces (xs : List α) : List (α × Nat) :=
  xs.zipIdx.filter fun entry => !(xs.take entry.2).contains entry.1

theorem mem_firstPlaces {xs : List α} {x : α} {i : Nat} :
    (x, i) ∈ firstPlaces xs ↔ xs[i]? = some x ∧ x ∉ xs.take i := by
  simp [firstPlaces, List.mem_zipIdx_iff_getElem?]

theorem pairwise_firstPlaces (xs : List α) : (firstPlaces xs).Pairwise fun a b => a.2 < b.2 :=
  (pairwise_zipIdx xs).sublist List.filter_sublist

/-- The values at the places where they first occur are those that `eraseDups` keeps. -/
theorem map_fst_firstPlaces (xs : List α) : (firstPlaces xs).map (·.1) = xs.eraseDups := by
  induction xs using List.reverseRecOn with
  | nil => rfl
  | append_singleton xs x ih =>
    -- No place of the front sees the value that is added behind it.
    have hfront : (xs.zipIdx.filter fun entry => !((xs ++ [x]).take entry.2).contains entry.1) =
        firstPlaces xs := List.filter_congr fun entry hentry => by
      have hlt : entry.2 < xs.length :=
        (List.getElem?_eq_some_iff.mp (List.mem_zipIdx_iff_getElem?.mp hentry)).1
      rw [List.take_append_of_le_length (Nat.le_of_lt hlt)]
    rw [firstPlaces, List.zipIdx_append, List.filter_append, List.map_append, hfront, ih,
      eraseDups_concat]
    by_cases hx : x ∈ xs <;> simp [hx]

/-- What was kept before stays in front. -/
theorem eraseReps_loop (xs : List α) (x : α) (kept : List α) :
    List.eraseRepsBy.loop (· == ·) x xs kept = kept.reverse ++ (x :: xs).eraseReps := by
  have hstart : ∀ (y : α) (ys : List α),
      (y :: ys).eraseReps = List.eraseRepsBy.loop (· == ·) y ys [] := fun _ _ => rfl
  induction xs generalizing x kept with
  | nil => exact List.reverse_cons
  | cons y xs ih =>
    rw [hstart]
    unfold List.eraseRepsBy.loop
    cases x == y with
    | true => simp only [ih, List.reverse_nil, List.nil_append]
    | false =>
      simp only [ih, List.reverse_cons, List.reverse_nil, List.nil_append, List.append_assoc]

theorem eraseReps_cons_cons (x y : α) (xs : List α) :
    (x :: y :: xs).eraseReps =
      if x = y then (y :: xs).eraseReps else x :: (y :: xs).eraseReps := by
  have hstep : (x :: y :: xs).eraseReps = match x == y with
      | true => List.eraseRepsBy.loop (· == ·) x xs []
      | false => List.eraseRepsBy.loop (· == ·) y xs [x] := rfl
  rw [hstep]
  by_cases hxy : x = y
  · subst hxy
    simp [eraseReps_loop]
  · rw [beq_eq_false_iff_ne.mpr hxy, if_neg hxy]
    exact eraseReps_loop xs y [x]

theorem mem_eraseReps {z : α} {xs : List α} : z ∈ xs.eraseReps ↔ z ∈ xs := by
  induction xs with
  | nil => rfl
  | cons x xs ih =>
    cases xs with
    | nil => rfl
    | cons y xs =>
      rw [eraseReps_cons_cons]
      split
      · rename_i hxy
        subst hxy
        simp [ih]
      · rw [List.mem_cons, ih, List.mem_cons (a := z) (b := x)]

/-- In a sorted list equal values are neighbours, so that no value is left twice. -/
theorem nodup_eraseReps_of_pairwise {r : α → α → Prop}
    (hantisymm : ∀ a b, r a b → r b a → a = b) {xs : List α} (h : xs.Pairwise r) :
    xs.eraseReps.Nodup := by
  induction xs with
  | nil => exact .nil
  | cons x xs ih =>
    obtain ⟨hx, hxs⟩ := List.pairwise_cons.mp h
    cases xs with
    | nil => exact List.nodup_singleton x
    | cons y xs =>
      rw [eraseReps_cons_cons]
      split
      · exact ih hxs
      · rename_i hxy
        refine List.nodup_cons.mpr ⟨fun hmem => hxy ?_, ih hxs⟩
        rcases List.mem_cons.mp (mem_eraseReps.mp hmem) with rfl | hmem
        · rfl
        · exact hantisymm x y (hx y List.mem_cons_self) ((List.pairwise_cons.mp hxs).1 x hmem)

/-- A sorted list without equal neighbours has as many entries as there are different values. -/
theorem length_eraseReps_of_pairwise {r : α → α → Prop}
    (hantisymm : ∀ a b, r a b → r b a → a = b) {xs : List α} (h : xs.Pairwise r) :
    xs.eraseReps.length = xs.toFinset.card := by
  rw [← List.toFinset_card_of_nodup (nodup_eraseReps_of_pairwise hantisymm h)]
  congr 1
  ext z
  simp only [List.mem_toFinset, mem_eraseReps]

end PriceQuote
