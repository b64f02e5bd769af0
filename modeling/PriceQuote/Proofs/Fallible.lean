import Mathlib.Data.List.Forall2

/-!
# Steps that may fail

A chain of steps succeeds when each of them does (`bind_ok_iff`, `mapError_ok_iff`), and so does a
pass over a list: `mapM_ok_iff` says it position by position.
-/

namespace PriceQuote

variable {ε α β : Type}

theorem bind_ok_iff {a : Except ε α} {f : α → Except ε β} {b : β} :
    (a >>= f) = .ok b ↔ ∃ x, a = .ok x ∧ f x = .ok b := by
  cases a <;> simp [bind, Except.bind]

/-- A step succeeds if it does after a check that may be made before it. -/
theorem ok_of_check {c : Prop} [Decidable c] {a : Except ε α} {f : Except ε β} {b : β}
    (h : (if c then a >>= fun _ => f else f) = .ok b) : f = .ok b := by
  split at h
  · obtain ⟨-, -, h⟩ := bind_ok_iff.mp h
    exact h
  · exact h

theorem mapError_ok_iff {ε' : Type} {a : Except ε α} {f : ε → ε'} {x : α} :
    a.mapError f = .ok x ↔ a = .ok x := by
  cases a <;> simp [Except.mapError]

theorem map_ok_iff {a : Except ε α} {f : α → β} {b : β} :
    a.map f = .ok b ↔ ∃ x, a = .ok x ∧ f x = b := by
  cases a <;> simp [Except.map]

theorem bind_of_eq_some {o : Option α} {f : α → Option β} {a : α} {b : Option β}
    (h : o = some a) (hf : f a = b) : (o >>= f) = b := by
  rw [h]
  exact hf

theorem toOption_eq_some_iff {a : Except ε α} {x : α} : a.toOption = some x ↔ a = .ok x := by
  cases a <;> simp [Except.toOption]

theorem exists_error_iff {a : Except ε α} : (∃ e, a = .error e) ↔ ¬ ∃ x, a = .ok x := by
  cases a <;> simp

theorem bind_error_iff {a : Except ε α} {f : α → Except ε β} : (∃ e, (a >>= f) = .error e) ↔
    (∃ e, a = .error e) ∨ ∃ x, a = .ok x ∧ ∃ e, f x = .error e := by
  cases a <;> simp [bind, Except.bind]

theorem mapError_error_iff {ε' : Type} {a : Except ε α} {f : ε → ε'} :
    (∃ e, a.mapError f = .error e) ↔ ∃ e, a = .error e := by
  cases a <;> simp [Except.mapError]

/-- A pass succeeds when it does at each position, with what it has there. -/
theorem mapM_ok_iff {f : α → Except ε β} {xs : List α} {ys : List β} :
    xs.mapM f = .ok ys ↔ List.Forall₂ (fun x y => f x = .ok y) xs ys := by
  induction xs generalizing ys with
  | nil => cases ys <;> simp [pure, Except.pure]
  | cons x xs ih =>
    rw [List.mapM_cons, bind_ok_iff]
    simp only [bind_ok_iff, pure, Except.pure, Except.ok.injEq, ih]
    constructor
    · rintro ⟨y, hy, ys', hys, rfl⟩
      exact .cons hy hys
    · rintro (_ | ⟨hy, hys⟩)
      exact ⟨_, hy, _, hys, rfl⟩

theorem exists_of_mem_mapM {f : α → Except ε β} {xs : List α} {ys : List β}
    (h : xs.mapM f = .ok ys) {y : β} (hy : y ∈ ys) : ∃ x ∈ xs, f x = .ok y := by
  replace h := mapM_ok_iff.mp h
  induction h with
  | nil => cases hy
  | cons hx _ ih =>
    rcases List.mem_cons.mp hy with rfl | hy
    · exact ⟨_, List.mem_cons_self, hx⟩
    · obtain ⟨x, hmem, hfx⟩ := ih hy
      exact ⟨x, List.mem_cons_of_mem _ hmem, hfx⟩

theorem exists_mapM_ok {f : α → Except ε β} {xs : List α} (h : ∀ x ∈ xs, ∃ y, f x = .ok y) :
    ∃ ys, xs.mapM f = .ok ys := by
  induction xs with
  | nil => exact ⟨[], rfl⟩
  | cons x xs ih =>
    obtain ⟨y, hy⟩ := h x List.mem_cons_self
    obtain ⟨ys, hys⟩ := ih fun z hz => h z (List.mem_cons_of_mem _ hz)
    exact ⟨y :: ys, mapM_ok_iff.mpr (.cons hy (mapM_ok_iff.mp hys))⟩

end PriceQuote
