import PriceQuote.Proofs.Wire.Travels

/-!
# Rules travel

Conditions and adjustments are structures with a tag, which may stand anywhere among their keys. A
condition holds others, so that what becomes of it is read by induction on the condition, and what
is read is proper by induction on the depth.

* `Tagged.read_of_varies`, `Tagged.yields_of_read`: reading tagged structures;
* `travels_adjustment`, `travels_condition`, `travels_rule`, `travels_summary`.
-/

namespace PriceQuote

/-- The number of an adjustment is finite. -/
def Adjustment.IsProper : Adjustment → Prop
  | .percentOff x | .percentSurcharge x | .multiplier x | .flatOff x => x.isFinite = true
  | .compAddOn _ | .none => True

namespace Condition

mutual

/-- The free-form values in a condition are such as are read. -/
def IsProper : Condition → Prop
  | .customFieldEquals _ value => value.IsCanonical
  | .all conditions | .any conditions => AreProper conditions
  | .not condition => condition.IsProper
  | _ => True

def AreProper : List Condition → Prop
  | [] => True
  | condition :: conditions => condition.IsProper ∧ AreProper conditions

end

theorem areProper_iff {conditions : List Condition} :
    AreProper conditions ↔ ∀ condition ∈ conditions, condition.IsProper := by
  induction conditions with
  | nil => simp [AreProper]
  | cons condition conditions ih => rw [AreProper, ih, List.forall_mem_cons]

end Condition

/-- The condition and the adjustment of a rule are proper. -/
structure Rule.IsProper (rule : Rule) : Prop where
  condition : rule.condition.IsProper
  adjustment : rule.adjustment.IsProper

open Document (ofJson ofJsonItems ofJsonFields)
open Layout (HoldsVaried)

/-! ## Nesting -/

namespace Document

theorem height_lt_of_mem_fields {fields : List (String × Json)} {field : String × Json}
    (h : field ∈ fields) : (ofJson field.2).height < (ofJson (.object fields)).height := by
  rw [ofJson, height, Nat.lt_succ_iff]
  induction fields with
  | nil => cases h
  | cons other fields ih =>
    rw [ofJsonFields, entriesHeight]
    obtain rfl | h := List.mem_cons.mp h
    · exact Nat.le_max_left _ _
    · exact (ih h).trans (Nat.le_max_right _ _)

end Document

/-! ## Tagged structures -/

namespace Tagged

variable {α : Type} {names : List String} {shape? : String → Option (Shape α)} {scope : Scope}
  {value : α}

theorem filter_ofJsonFields (p : Option String → Prop) [DecidablePred p]
    (fields : List (String × Json)) :
    (ofJsonFields fields).filter (fun entry => p entry.1) =
      ofJsonFields (fields.filter fun field => p (some field.1)) := by
  induction fields with
  | nil => rfl
  | cons field fields ih =>
    rw [ofJsonFields]
    by_cases h : p (some field.1)
    · rw [List.filter_cons_of_pos (by simpa using h), List.filter_cons_of_pos (by simpa using h),
        ofJsonFields, ih]
    · rw [List.filter_cons_of_neg (by simpa using h), List.filter_cons_of_neg (by simpa using h),
        ih]

theorem filter_eq_singleton {fields : List (String × Json)} {key : String} {json : Json}
    (hnodup : (fields.map (·.1)).Nodup) (h : fields.lookup key = some json) :
    fields.filter (fun field => some field.1 = some key) = [(key, json)] := by
  induction fields with
  | nil => cases h
  | cons field fields ih =>
    obtain ⟨hhead, htail⟩ := List.nodup_cons.mp hnodup
    rw [List.lookup_cons] at h
    by_cases hkey : key = field.1
    · subst hkey
      rw [beq_self_eq_true] at h
      have hnone : fields.filter (fun other => some other.1 = some field.1) = [] := by
        rw [List.filter_eq_nil_iff]
        intro other hother heq
        exact hhead (List.mem_map.mpr ⟨other, hother, Option.some.inj (of_decide_eq_true heq)⟩)
      rw [List.filter_cons_of_pos (by simp), hnone, ← Option.some.inj h]
    · rw [beq_false_of_ne hkey] at h
      rw [List.filter_cons_of_neg (by simpa using Ne.symm hkey)]
      exact ih htail h

/-- What is left of fields without those under one key, under the others. -/
theorem lookup_filter_of_ne {fields : List (String × Json)} {key tag : String} (h : key ≠ tag) :
    (fields.filter fun field => some field.1 ≠ some tag).lookup key = fields.lookup key := by
  induction fields with
  | nil => rfl
  | cons field fields ih =>
    rw [List.lookup_cons]
    by_cases htag : field.1 = tag
    · have hne : key ≠ field.1 := htag ▸ h
      rw [List.filter_cons_of_neg (by simpa using htag), ih, beq_false_of_ne hne]
    · rw [List.filter_cons_of_pos (by simpa using htag), List.lookup_cons, ih]

/-- The tag is found in an object, and what else it holds is read as the structure that the tag
names. -/
theorem read_object {fields : List (String × Json)} {name : String} {shape : Shape α}
    (hscope : scope.origin = .json) (hnodup : (fields.map (·.1)).Nodup)
    (htag : fields.lookup tagKey = some (.string name)) (hshape : shape? name = some shape) :
    read names shape? scope (ofJson (.object fields)) =
      shape.readTable scope.settle
        (ofJsonFields (fields.filter fun field => some field.1 ≠ some tagKey)) true := by
  have honly : onlyTag (ofJsonFields fields) = .ok (ofJson (.string name)) := by
    rw [onlyTag, filter_ofJsonFields (· = some tagKey), filter_eq_singleton hnodup htag]
    rfl
  obtain ⟨looked, hlooked⟩ := Json.exists_freeForm_ofJson hscope (.object fields)
  rw [ofJson] at hlooked
  unfold read
  rw [ofJson]
  dsimp only
  rw [hlooked, honly, filter_ofJsonFields (· ≠ some tagKey)]
  refine (ite_self _).trans ?_
  dsimp only [bind, Except.bind, ofJson, Document.ofText, Tagged.name]
  rw [hshape]

/-- What becomes of what is written of a tagged structure is read as the value if what is found
under the keys of the structure that the tag names is. -/
theorem read_of_varies {keysOf : String → List String} {inner : List (String × Layout)}
    {entries : List (String × Json)} {name : String} {shape : Shape α} {json : Json}
    (hshape : shape? name = some shape) (hentries : (entries.map (·.1)).Sublist (keysOf name))
    (hnodup : (tagKey :: keysOf name).Nodup) (htag : Layout.under inner tagKey = .free)
    (hscope : scope.origin = .json)
    (hvaries : (Layout.tagged keysOf inner).Varies (Wire.tagged name entries).asWritten json)
    (hyields : ∀ {fields}, (∀ field ∈ fields, (ofJson field.2).height < (ofJson json).height) →
      HoldsVaried (keysOf name) inner (Json.fieldsAsWritten entries) fields →
        shape.Yields scope.settle false (Shape.inObject fields) value) :
    read names shape? scope (ofJson json) = .ok value := by
  have hkeys : ((Json.fieldsAsWritten ((tagKey, .string name) :: entries)).map (·.1)).Nodup := by
    rw [Json.keys_fieldsAsWritten]
    exact (hentries.cons_cons tagKey).nodup hnodup
  obtain ⟨fields, rfl, hholds⟩ := hvaries.of_tagged hkeys rfl
  have hfound : fields.lookup tagKey = some (.string name) := by
    have hrel := hholds.lookup tagKey List.mem_cons_self
    rw [htag, Json.fieldsAsWritten, List.lookup_cons_self] at hrel
    generalize fields.lookup tagKey = found at hrel ⊢
    cases hrel with
    | some hvaries => exact congrArg some hvaries.of_free
  have hrest : ((fields.filter fun field => some field.1 ≠ some tagKey).map (·.1)).Nodup :=
    (List.filter_sublist.map _).nodup hholds.nodup
  rw [read_object hscope hholds.nodup hfound hshape, Shape.readTable_iff hrest]
  refine hyields (fun field hfield => ?_) ⟨hrest, fun key hkey => ?_⟩
  · exact Document.height_lt_of_mem_fields (List.mem_of_mem_filter hfield)
  · have hne : key ≠ tagKey := fun he => (List.nodup_cons.mp hnodup).1 (he ▸ hkey)
    have hrel := hholds.lookup key (List.mem_cons_of_mem _ hkey)
    rw [Json.fieldsAsWritten, List.lookup_cons, beq_false_of_ne hne] at hrel
    rw [lookup_filter_of_ne hne]
    exact hrel

/-- Whatever a tagged structure is read from, the fields of the structure that the tag names are
read from where they stand. -/
theorem yields_of_read {document : Document} (h : read names shape? scope document = .ok value) :
    ∃ name shape positional locate, shape? name = some shape ∧
      shape.Yields scope.settle positional locate value ∧
      (document.IsFinite → Wire.AreFinite locate) := by
  have hfollow := ok_of_check h
  cases document with
  | table entries closed =>
    obtain ⟨tag, -, hfollow⟩ := bind_ok_iff.mp hfollow
    obtain ⟨name, -, hfollow⟩ := bind_ok_iff.mp hfollow
    split at hfollow
    · rename_i shape hshape
      refine ⟨name, shape, _, _, hshape, Outcome.eq_good_of_conclude hfollow,
        fun hfinite place key inner hinner => ?_⟩
      rw [Shape.locateKey_eq_lookup] at hinner
      have hrest : (Document.table (entries.filter fun entry => entry.1 ≠ some tagKey)
          true).IsFinite :=
        Document.allEntries_iff.mpr fun entry hentry =>
          Document.allEntries_iff.mp hfinite entry (List.mem_of_mem_filter hentry)
      have hfield : (Document.table _ true).field? place key = some inner := hinner
      exact Document.allLeaves_field? hrest hfield
    · cases hfollow
  | sequence items closed =>
    cases items with
    | nil => cases hfollow
    | cons tag items =>
      obtain ⟨name, -, hfollow⟩ := bind_ok_iff.mp hfollow
      split at hfollow
      · rename_i shape hshape
        refine ⟨name, shape, _, _, hshape, Outcome.eq_good_of_conclude hfollow,
          fun hfinite place key inner hinner => ?_⟩
        rw [Option.map_map] at hinner
        have hrest : (Document.sequence items true).IsFinite := hfinite.2
        have hfield : (Document.sequence items true).field? place key = some inner :=
          Option.map_id'.symm.trans hinner
        exact Document.allLeaves_field? hrest hfield
      · cases hfollow
  | _ => cases hfollow

end Tagged

namespace Wire

open Shape (yields_pure_iff yields_seq_iff yields_map_iff)

/-! ## Adjustments -/

theorem travels_adjustment : Travels Adjustment .adjustment Adjustment.IsProper where
  restores {value} hvalue scope json hscope hvaries := by
    cases value with
    | percentOff x | percentSurcharge x | multiplier x | flatOff x =>
      refine Tagged.read_of_varies rfl (List.Sublist.refl _) (by decide) rfl hscope hvaries
        fun _ h => .map ?_
      exact yields_field travels_binary64 hvalue hscope h
    | compAddOn addOn =>
      refine Tagged.read_of_varies rfl (List.Sublist.refl _) (by decide) rfl hscope hvaries
        fun _ h => .map ?_
      exact yields_field travels_addOnId trivial hscope h
    | none =>
      exact Tagged.read_of_varies rfl (List.Sublist.refl _) (by decide) rfl hscope hvaries
        fun _ _ => yields_pure_iff.mpr rfl
  proper_of_read {scope document value} hfinite h := by
    obtain ⟨name, shape, positional, locate, hshape, hyields, hlocate⟩ := Tagged.yields_of_read h
    unfold adjustmentShape? at hshape
    split at hshape
    case h_1 | h_2 | h_3 | h_4 =>
      obtain rfl := Option.some.inj hshape
      obtain ⟨x, hx, rfl⟩ := yields_map_iff.mp hyields
      have hfinite := proper_of_field travels_binary64 (hlocate hfinite) hx
      exact hfinite
    case h_5 =>
      obtain rfl := Option.some.inj hshape
      obtain ⟨addOn, -, rfl⟩ := yields_map_iff.mp hyields
      trivial
    case h_6 =>
      obtain rfl := Option.some.inj hshape
      obtain rfl := yields_pure_iff.mp hyields
      trivial
    case h_7 => cases hshape

/-! ## Conditions -/

mutual

/-- A condition is read from what becomes of what is written of it, down to any depth at which that
ends. -/
theorem readCondition_of_varies (condition : Condition) (hcondition : condition.IsProper)
    {scope : Scope} {json : Json} {depth : Nat} (hscope : scope.origin = .json)
    (hdepth : (ofJson json).height < depth)
    (hvaries : Layout.condition.Varies (encodeCondition condition).asWritten json) :
    readCondition depth scope (ofJson json) = .ok condition := by
  cases depth with
  | zero => exact absurd hdepth (Nat.not_lt_zero _)
  | succ depth =>
    replace hvaries := hvaries.of_condition
    cases condition with
    | always =>
      exact Tagged.read_of_varies rfl (List.Sublist.refl _) (by decide) rfl hscope hvaries
        fun _ _ => yields_pure_iff.mpr rfl
    | quantityAtLeast value | quantityBelow value =>
      refine Tagged.read_of_varies rfl (List.Sublist.refl _) (by decide) rfl hscope hvaries
        fun _ h => .map ?_
      exact yields_field travels_uint32 trivial hscope h
    | customerTier value | region value | productCategory value =>
      refine Tagged.read_of_varies rfl (List.Sublist.refl _) (by decide) rfl hscope hvaries
        fun _ h => .map ?_
      exact yields_field travels_string trivial hscope h
    | addOnSelected addOn =>
      refine Tagged.read_of_varies rfl (List.Sublist.refl _) (by decide) rfl hscope hvaries
        fun _ h => .map ?_
      exact yields_field travels_addOnId trivial hscope h
    | bundleCategories values | bundleStarts values =>
      refine Tagged.read_of_varies rfl (List.Sublist.refl _) (by decide) rfl hscope hvaries
        fun _ h => .map ?_
      exact yields_field travels_string.list_free trivial hscope h
    | minDistinctProducts value | minSelectedAddOns value =>
      refine Tagged.read_of_varies rfl (List.Sublist.refl _) (by decide) rfl hscope hvaries
        fun _ h => .map ?_
      exact yields_field travels_uint64 trivial hscope h
    | customFieldEquals key value =>
      refine Tagged.read_of_varies rfl (List.Sublist.refl _) (by decide) rfl hscope hvaries
        fun _ h => .seq (.map ?_) ?_
      · exact yields_field travels_string trivial hscope h
      · exact yields_field travels_json hcondition hscope h
    -- what is under a key is nested less deeply than the object, so that one level less will do
    | all conditions | any conditions =>
      refine Tagged.read_of_varies rfl (List.Sublist.refl _) (by decide) rfl hscope hvaries
        fun hheight h => .map ?_
      refine yields_of_varies h (List.lookup_cons_self ..) fun json' hlookup hvaries => ?_
      obtain ⟨items, rfl, hitems⟩ := hvaries.of_list
      refine list_ofJson hscope
        (mapM_readCondition_of_varies conditions hcondition hscope ?_ hitems)
      have hlt := hheight _ ((Layout.lookup_eq_some_iff_mem h.nodup).mp hlookup)
      rw [ofJson, Document.height] at hlt
      omega
    | not condition =>
      refine Tagged.read_of_varies rfl (List.Sublist.refl _) (by decide) rfl hscope hvaries
        fun hheight h => .map ?_
      refine yields_of_varies h (List.lookup_cons_self ..) fun json' hlookup hvaries => ?_
      refine readCondition_of_varies condition hcondition hscope ?_ hvaries
      have hlt : (ofJson json').height < (ofJson json).height :=
        hheight _ ((Layout.lookup_eq_some_iff_mem h.nodup).mp hlookup)
      omega

theorem mapM_readCondition_of_varies (conditions : List Condition)
    (hconditions : Condition.AreProper conditions) {scope : Scope} {items : List Json} {depth : Nat}
    (hscope : scope.origin = .json) (hdepth : Document.itemsHeight (ofJsonItems items) < depth)
    (hvaries : List.Forall₂ Layout.condition.Varies
      (Json.itemsAsWritten (encodeConditions conditions)) items) :
    (ofJsonItems items).mapM (readCondition depth scope) = .ok conditions := by
  cases conditions with
  | nil =>
    cases hvaries
    rfl
  | cons condition conditions =>
    rw [encodeConditions, Json.itemsAsWritten] at hvaries
    cases hvaries with
    | cons hhead htail =>
      rw [ofJsonItems, Document.itemsHeight] at hdepth
      obtain ⟨hfirst, hothers⟩ := Nat.max_lt.mp hdepth
      have hcondition := readCondition_of_varies condition hconditions.1 hscope hfirst hhead
      have hrest := mapM_readCondition_of_varies conditions hconditions.2 hscope hothers htail
      exact mapM_ok_iff.mpr (.cons hcondition (mapM_ok_iff.mp hrest))

end

/-- What is read as a condition is proper, however deep it is read. -/
theorem isProper_of_readCondition {depth : Nat} {scope : Scope} {document : Document}
    {condition : Condition} (h : readCondition depth scope document = .ok condition) :
    condition.IsProper := by
  induction depth generalizing scope document condition with
  | zero => cases h
  | succ depth ih =>
    obtain ⟨name, shape, positional, locate, hshape, hyields, -⟩ := Tagged.yields_of_read h
    unfold conditionShape? at hshape
    split at hshape
    case h_1 =>
      obtain rfl := Option.some.inj hshape
      obtain rfl := yields_pure_iff.mp hyields
      trivial
    case h_12 =>
      obtain rfl := Option.some.inj hshape
      obtain ⟨test, hkey, value, hvalue, rfl⟩ := yields_seq_iff.mp hyields
      obtain ⟨key, -, rfl⟩ := yields_map_iff.mp hkey
      obtain ⟨inner, -, hread⟩ := Shape.exists_of_yields_required hvalue
      have hcanonical := Json.isCanonical_of_freeForm inner hread
      exact hcanonical
    case h_13 | h_14 =>
      obtain rfl := Option.some.inj hshape
      obtain ⟨conditions, hconditions, rfl⟩ := yields_map_iff.mp hyields
      obtain ⟨inner, -, hread⟩ := Shape.exists_of_yields_required hconditions
      refine Condition.areProper_iff.mpr fun condition hcondition => ?_
      obtain ⟨-, -, -, _, item, -, hitem⟩ := exists_of_mem_list hread hcondition
      exact ih hitem
    case h_15 =>
      obtain rfl := Option.some.inj hshape
      obtain ⟨condition, hcondition, rfl⟩ := yields_map_iff.mp hyields
      obtain ⟨inner, -, hread⟩ := Shape.exists_of_yields_required hcondition
      have hproper := ih hread
      exact hproper
    case h_16 => cases hshape
    all_goals
      obtain rfl := Option.some.inj hshape
      obtain ⟨value, -, rfl⟩ := yields_map_iff.mp hyields
      trivial

theorem travels_condition : Travels Condition .condition Condition.IsProper where
  restores {condition} hcondition _ _ hscope hvaries :=
    readCondition_of_varies condition hcondition hscope (Nat.lt_succ_self _) hvaries
  proper_of_read _ h := isProper_of_readCondition h

/-! ## Rules -/

theorem travels_rule : Travels Rule .rule Rule.IsProper := by
  refine .record rfl (fun _ => rfl) (fun _ => List.Sublist.refl _) (by decide) ?_ ?_
  · rintro ⟨id, name, description, category, priority, condition, adjustment⟩ hrule scope fields
      hscope h
    refine .seq (.seq (.seq (.seq (.seq (.seq (.map ?_) ?_) ?_) ?_) ?_) ?_) ?_
    · exact yields_field travels_ruleId trivial hscope h
    · exact yields_field travels_string trivial hscope h
    · exact yields_fieldOr travels_string trivial hscope h
    · exact yields_field travels_ruleCategory trivial hscope h
    · exact yields_field travels_int32 trivial hscope h
    · exact yields_field travels_condition hrule.condition hscope h
    · exact yields_field travels_adjustment hrule.adjustment hscope h
  · rintro scope positional locate
      ⟨id, name, description, category, priority, condition, adjustment⟩ hfinite h
    simp only [ruleShape, yields_seq_iff, yields_map_iff, existsAndEq, and_true, Rule.mk.injEq] at h
    obtain ⟨⟨-, hcondition⟩, hadjustment⟩ := h
    have hcondition := proper_of_field travels_condition (fun _ => hfinite _) hcondition
    have hadjustment := proper_of_field travels_adjustment (fun _ => hfinite _) hadjustment
    exact ⟨hcondition, hadjustment⟩

theorem travels_summary : Travels RuleSummary .summary fun _ => True := by
  refine .record rfl (fun _ => rfl) (fun _ => List.Sublist.refl _) (by decide) ?_ fun _ _ => trivial
  rintro ⟨id, name, description, category, priority⟩ - scope fields hscope h
  refine .seq (.seq (.seq (.seq (.map ?_) ?_) ?_) ?_) ?_
  · exact yields_field travels_ruleId trivial hscope h
  · exact yields_field travels_string trivial hscope h
  · exact yields_field travels_string trivial hscope h
  · exact yields_field travels_ruleCategory trivial hscope h
  · exact yields_field travels_int32 trivial hscope h

end Wire

end PriceQuote
