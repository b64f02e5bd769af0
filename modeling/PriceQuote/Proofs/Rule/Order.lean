import Mathlib.Data.List.Sort
import PriceQuote.Rule.Engine

/-!
# The order of evaluation

Rules are put in order by inserting one after the other, each before the first whose priority is
not below its own. What comes of it is the one arrangement of the rules by ascending priority that
keeps those of equal priority as declared:

* `inOrder_eq_insertionSort`: the library's sort by `NotAfter`;
* `filter_inOrder`: choosing some of the rules commutes with putting them in order;
* `EvaluationOrder`, `evaluationOrder_inOrder`: the arrangement, said without the way it is made;
* `EvaluationOrder.unique`, `inOrder_congr`: there is one only, which depends on the order of
  declaration among rules of one priority and on no other;
* `evaluatedBefore`, `evaluatedAfter`, `inOrder_between`: where a rule comes that is declared
  between others.
-/

namespace PriceQuote

variable {N : Type}

/-- The priority of one rule is not above that of another. -/
def NotAfter (a b : PriceRule N) : Prop := a.priority ≤ b.priority

instance : DecidableRel (NotAfter (N := N)) :=
  fun a b => inferInstanceAs (Decidable (a.priority ≤ b.priority))

instance : Std.Total (NotAfter (N := N)) := ⟨fun a b => Int32.le_total a.priority b.priority⟩

instance : IsTrans (PriceRule N) NotAfter := ⟨fun _ _ _ => Int32.le_trans⟩

/-! ## Sorting -/

theorem insertByPriority_eq_orderedInsert (rule : PriceRule N) (rules : List (PriceRule N)) :
    insertByPriority rule rules = rules.orderedInsert NotAfter rule := by
  induction rules with
  | nil => rfl
  | cons other rules ih =>
    rw [insertByPriority, List.orderedInsert_cons, ih]
    rfl

/-- Putting rules in order is sorting them by priority. -/
theorem inOrder_eq_insertionSort (rules : List (PriceRule N)) :
    inOrder rules = rules.insertionSort NotAfter := by
  induction rules with
  | nil => rfl
  | cons rule rules ih =>
    rw [List.insertionSort_cons, ← ih, ← insertByPriority_eq_orderedInsert]
    rfl

theorem inOrder_cons (rule : PriceRule N) (rules : List (PriceRule N)) :
    inOrder (rule :: rules) = insertByPriority rule (inOrder rules) := rfl

theorem inOrder_perm (rules : List (PriceRule N)) : (inOrder rules).Perm rules := by
  rw [inOrder_eq_insertionSort]
  exact List.perm_insertionSort NotAfter rules

theorem inOrder_pairwise (rules : List (PriceRule N)) : (inOrder rules).Pairwise NotAfter := by
  rw [inOrder_eq_insertionSort]
  exact List.pairwise_insertionSort NotAfter rules

theorem inOrder_of_pairwise {rules : List (PriceRule N)} (h : rules.Pairwise NotAfter) :
    inOrder rules = rules := by
  rw [inOrder_eq_insertionSort]
  exact h.insertionSort_eq

theorem inOrder_of_priority {priority : Int32} {rules : List (PriceRule N)}
    (h : ∀ rule ∈ rules, rule.priority = priority) : inOrder rules = rules := by
  refine inOrder_of_pairwise (List.pairwise_of_forall_mem_list fun a ha b hb => ?_)
  show a.priority ≤ b.priority
  rw [h a ha, h b hb]
  exact Int32.le_refl priority

/-! ## Choosing rules -/

theorem insertByPriority_of_forall {rule : PriceRule N} {rules : List (PriceRule N)}
    (h : ∀ other ∈ rules, NotAfter rule other) : insertByPriority rule rules = rule :: rules := by
  cases rules with
  | nil => rfl
  | cons other rules => exact if_pos (h other List.mem_cons_self)

/-- Among sorted rules an insertion takes place where it does among those that are chosen. -/
theorem filter_insertByPriority (p : PriceRule N → Bool) (rule : PriceRule N)
    {rules : List (PriceRule N)} (h : rules.Pairwise NotAfter) :
    (insertByPriority rule rules).filter p =
      if p rule then insertByPriority rule (rules.filter p) else rules.filter p := by
  induction rules with
  | nil => cases hp : p rule <;> simp [insertByPriority, hp]
  | cons other rules ih =>
    obtain ⟨hother, hrules⟩ := List.pairwise_cons.mp h
    by_cases hle : NotAfter rule other
    · -- The front of the whole is the front of what is chosen, whatever that is.
      have hall : ∀ x ∈ other :: rules, NotAfter rule x := fun x hx => by
        rcases List.mem_cons.mp hx with rfl | hx
        · exact hle
        · exact Int32.le_trans hle (hother x hx)
      rw [insertByPriority_of_forall hall, List.filter_cons]
      split
      · rw [insertByPriority_of_forall fun x hx => hall x (List.mem_of_mem_filter hx)]
      · rfl
    · have hstep : insertByPriority rule (other :: rules) = other :: insertByPriority rule rules :=
        if_neg hle
      rw [hstep, List.filter_cons, List.filter_cons, ih hrules]
      cases p other with
      | false => rfl
      | true =>
        cases p rule with
        | false => rfl
        | true => exact (if_neg hle).symm

/-- Rules chosen before they are put in order are the same, in the same order, as rules chosen
afterwards. -/
theorem filter_inOrder (p : PriceRule N → Bool) (rules : List (PriceRule N)) :
    (inOrder rules).filter p = inOrder (rules.filter p) := by
  induction rules with
  | nil => rfl
  | cons rule rules ih =>
    rw [inOrder_cons, filter_insertByPriority p rule (inOrder_pairwise rules), ih,
      List.filter_cons]
    split
    · rw [inOrder_cons]
    · rfl

/-! ## The arrangement -/

/-- Some rules by ascending priority, those of equal priority in the order of their declaration. -/
structure EvaluationOrder (rules ordered : List (PriceRule N)) : Prop where
  perm : ordered.Perm rules
  ascending : ordered.Pairwise fun a b => a.priority ≤ b.priority
  asDeclared : ∀ priority, ordered.filter (fun rule => rule.priority == priority) =
    rules.filter fun rule => rule.priority == priority

theorem evaluationOrder_inOrder (rules : List (PriceRule N)) :
    EvaluationOrder rules (inOrder rules) where
  perm := inOrder_perm rules
  ascending := inOrder_pairwise rules
  asDeclared priority := by
    rw [filter_inOrder]
    have hclass : ∀ rule ∈ rules.filter (fun rule => rule.priority == priority),
        rule.priority = priority := fun rule hrule => by
      simpa using (List.mem_filter.mp hrule).2
    exact inOrder_of_priority hclass

/-- Lists that have the same rules of each priority have the same rules. -/
theorem mem_of_filter_eq {a b : List (PriceRule N)}
    (h : ∀ priority, a.filter (fun rule => rule.priority == priority) =
      b.filter fun rule => rule.priority == priority)
    {rule : PriceRule N} (hrule : rule ∈ a) : rule ∈ b := by
  have hclass : rule ∈ a.filter fun other => other.priority == rule.priority :=
    List.mem_filter.mpr ⟨hrule, beq_self_eq_true _⟩
  rw [h rule.priority] at hclass
  exact List.mem_of_mem_filter hclass

/-- Ascending lists with the same rules of each priority, in the same order, are equal: by
induction on both, the first rule of either being among the rules of the other. -/
theorem eq_of_ascending : ∀ {a b : List (PriceRule N)}, a.Pairwise NotAfter → b.Pairwise NotAfter →
    (∀ priority, a.filter (fun rule => rule.priority == priority) =
      b.filter fun rule => rule.priority == priority) → a = b
  | [], [], _, _, _ => rfl
  | [], y :: b, _, _, h => by
    have hy : y ∈ [] := mem_of_filter_eq (fun priority => (h priority).symm) List.mem_cons_self
    exact absurd hy List.not_mem_nil
  | x :: a, [], _, _, h => absurd (mem_of_filter_eq h List.mem_cons_self) List.not_mem_nil
  | x :: a, y :: b, ha, hb, h => by
    obtain ⟨hx, harest⟩ := List.pairwise_cons.mp ha
    obtain ⟨hy, hbrest⟩ := List.pairwise_cons.mp hb
    have hyx : y.priority ≤ x.priority := by
      rcases List.mem_cons.mp (mem_of_filter_eq h List.mem_cons_self) with rfl | hmem
      · exact Int32.le_refl _
      · exact hy x hmem
    have hxy : x.priority ≤ y.priority := by
      have hmem : y ∈ x :: a :=
        mem_of_filter_eq (fun priority => (h priority).symm) List.mem_cons_self
      rcases List.mem_cons.mp hmem with rfl | hmem
      · exact Int32.le_refl _
      · exact hx y hmem
    have hpriority : y.priority = x.priority := Int32.le_antisymm hyx hxy
    -- Both are the first rule of their priority.
    have hhead := h x.priority
    have hkept : (y.priority == x.priority) = true := beq_iff_eq.mpr hpriority
    simp only [List.filter_cons, beq_self_eq_true, hkept, ↓reduceIte] at hhead
    obtain rfl : x = y := (List.cons.inj hhead).1
    have htail : ∀ priority, a.filter (fun rule => rule.priority == priority) =
        b.filter fun rule => rule.priority == priority := by
      intro priority
      have hclass := h priority
      rw [List.filter_cons, List.filter_cons] at hclass
      split at hclass
      · exact (List.cons.inj hclass).2
      · exact hclass
    rw [eq_of_ascending harest hbrest htail]

/-- Rules have one order of evaluation. -/
theorem EvaluationOrder.unique {rules a b : List (PriceRule N)} (ha : EvaluationOrder rules a)
    (hb : EvaluationOrder rules b) : a = b :=
  eq_of_ascending ha.ascending hb.ascending fun priority =>
    (ha.asDeclared priority).trans (hb.asDeclared priority).symm

/-- The order of evaluation depends on the order of declaration among rules of one priority only. -/
theorem inOrder_congr {a b : List (PriceRule N)}
    (h : ∀ priority, a.filter (fun rule => rule.priority == priority) =
      b.filter fun rule => rule.priority == priority) : inOrder a = inOrder b := by
  refine eq_of_ascending (inOrder_pairwise a) (inOrder_pairwise b) fun priority => ?_
  rw [(evaluationOrder_inOrder a).asDeclared, (evaluationOrder_inOrder b).asDeclared, h]

/-! ## A rule among others -/

/-- Rules that come before others by priority are put in order on their own. -/
theorem inOrder_append {early late : List (PriceRule N)}
    (h : ∀ a ∈ early, ∀ b ∈ late, NotAfter a b) :
    inOrder (early ++ late) = inOrder early ++ inOrder late := by
  have hascending : (inOrder early ++ inOrder late).Pairwise NotAfter := by
    rw [List.pairwise_append]
    refine ⟨inOrder_pairwise early, inOrder_pairwise late, fun a ha b hb => ?_⟩
    exact h a ((inOrder_perm early).mem_iff.mp ha) b ((inOrder_perm late).mem_iff.mp hb)
  refine eq_of_ascending (inOrder_pairwise _) hascending fun priority => ?_
  rw [(evaluationOrder_inOrder _).asDeclared, List.filter_append, List.filter_append,
    (evaluationOrder_inOrder early).asDeclared, (evaluationOrder_inOrder late).asDeclared]

/-- The rules that are evaluated before those of a priority declared between `front` and `rest`. -/
def evaluatedBefore (priority : Int32) (front rest : List (PriceRule N)) : List (PriceRule N) :=
  front.filter (fun rule => rule.priority ≤ priority) ++
    rest.filter fun rule => !(priority ≤ rule.priority)

def evaluatedAfter (priority : Int32) (front rest : List (PriceRule N)) : List (PriceRule N) :=
  front.filter (fun rule => !(rule.priority ≤ priority)) ++
    rest.filter fun rule => priority ≤ rule.priority

/-- Of rules chosen by their priority, those of one priority are all there or none is. -/
theorem filter_filter_priority (p : Int32 → Bool) (priority : Int32)
    (rules : List (PriceRule N)) :
    (rules.filter fun rule => p rule.priority).filter (fun rule => rule.priority == priority) =
      if p priority then rules.filter fun rule => rule.priority == priority else [] := by
  have hclass : ∀ rule : PriceRule N, (rule.priority == priority && p rule.priority) =
      (rule.priority == priority && p priority) := by
    intro rule
    by_cases h : rule.priority = priority
    · rw [h]
    · rw [beq_eq_false_iff_ne.mpr h, Bool.false_and, Bool.false_and]
  rw [List.filter_filter, List.filter_congr fun rule _ => hclass rule]
  cases p priority <;> simp

/-- Between `front` and `rest`, rules of a priority stand among those of each priority where they
stand between what is evaluated before and after them. -/
theorem filter_evaluated {priority : Int32} {middle : List (PriceRule N)}
    (hmiddle : ∀ rule ∈ middle, rule.priority = priority) (front rest : List (PriceRule N))
    (other : Int32) :
    (front ++ (middle ++ rest)).filter (fun rule => rule.priority == other) =
      (evaluatedBefore priority front rest ++
        (middle ++ evaluatedAfter priority front rest)).filter fun rule =>
          rule.priority == other := by
  have hfront := filter_filter_priority (fun p => decide (p ≤ priority)) other front
  have hfront' := filter_filter_priority (fun p => !decide (p ≤ priority)) other front
  have hrest := filter_filter_priority (fun p => decide (priority ≤ p)) other rest
  have hrest' := filter_filter_priority (fun p => !decide (priority ≤ p)) other rest
  simp only [evaluatedBefore, evaluatedAfter, List.filter_append, hfront, hfront', hrest, hrest']
  have hother : priority ≠ other → middle.filter (fun rule => rule.priority == other) = [] := by
    intro hne
    rw [List.filter_eq_nil_iff]
    intro rule hrule
    rw [beq_iff_eq, hmiddle rule hrule]
    exact hne
  by_cases hle : other ≤ priority
  · by_cases hge : priority ≤ other
    · simp [hle, hge]
    · -- Of a lower priority, all are evaluated before.
      have hnone := hother fun e => hge (e ▸ hle)
      simp [hle, hge, hnone]
  · have hge : priority ≤ other := (Int32.le_total priority other).resolve_right hle
    have hnone := hother fun e => hle (e ▸ hge)
    simp [hle, hge, hnone]

/-- Rules of one priority that are declared between others come, in the order of evaluation, between
those that are evaluated before and after them. What these are does not depend on the rules between
them. -/
theorem inOrder_between {priority : Int32} {middle : List (PriceRule N)}
    (hmiddle : ∀ rule ∈ middle, rule.priority = priority) (front rest : List (PriceRule N)) :
    inOrder (front ++ (middle ++ rest)) = inOrder (evaluatedBefore priority front rest) ++
      (middle ++ inOrder (evaluatedAfter priority front rest)) := by
  have hbefore : ∀ a ∈ evaluatedBefore priority front rest, a.priority ≤ priority := by
    intro a ha
    rcases List.mem_append.mp ha with ha | ha
    · simpa using (List.mem_filter.mp ha).2
    · have hlow : ¬ priority ≤ a.priority := by simpa using (List.mem_filter.mp ha).2
      exact (Int32.le_total a.priority priority).resolve_right hlow
  have hafter : ∀ b ∈ evaluatedAfter priority front rest, priority ≤ b.priority := by
    intro b hb
    rcases List.mem_append.mp hb with hb | hb
    · have hhigh : ¬ b.priority ≤ priority := by simpa using (List.mem_filter.mp hb).2
      exact (Int32.le_total priority b.priority).resolve_right hhigh
    · simpa using (List.mem_filter.mp hb).2
  rw [inOrder_congr (filter_evaluated hmiddle front rest), inOrder_append, inOrder_append,
    inOrder_of_priority hmiddle]
  · intro a ha b hb
    show a.priority ≤ b.priority
    rw [hmiddle a ha]
    exact hafter b hb
  · intro a ha b hb
    show a.priority ≤ b.priority
    rcases List.mem_append.mp hb with hb | hb
    · rw [hmiddle b hb]
      exact hbefore a ha
    · exact Int32.le_trans (hbefore a ha) (hafter b hb)

end PriceQuote
