import PriceQuote.Proofs.Wire.Travels

/-!
# Products and validations travel

* `travels_product`: products, whose prices have to be finite;
* `travels_advisory`, `travels_validation`, `travels_batch`: advice and validations.
-/

namespace PriceQuote

/-- The prices of a product are finite, and its further values are such as are read. -/
structure Product.IsProper (product : Product) : Prop where
  basePrice : product.basePrice.isFinite = true
  addOns : ∀ addOn ∈ product.addOns, addOn.price.isFinite = true
  metadata : (Json.object product.metadata).IsCanonical

namespace Wire

open Shape (yields_seq_iff yields_map_iff)

theorem string_ne_null (scope : Scope) (text : String) :
    (read : Reader String) scope .null ≠ .ok text := nofun

theorem binary64_ne_null (scope : Scope) (x : Binary64) :
    (read : Reader Binary64) scope .null ≠ .ok x := nofun

theorem list_ne_null {α : Type} [Wire α] (scope : Scope) (values : List α) :
    (read : Reader (List α)) scope .null ≠ .ok values := nofun

/-! ## Products -/

theorem travels_addOn :
    Travels AddOn .addOn fun addOn => addOn.price.isFinite = true := by
  refine .record rfl (fun _ => rfl) (fun addOn => ?_) (by decide) ?_ ?_
  · exact keys_append_sublist (keys_append_sublist (keys_append_sublist (List.Sublist.refl _)
      (keys_putSome_sublist _ _)) (keys_putList_sublist _ _)) (keys_putList_sublist _ _)
  · rintro ⟨id, name, price, required, category, dependencies, conflicts⟩ hprice scope fields hscope
      h
    refine .seq (.seq (.seq (.seq (.seq (.seq (.map ?_) ?_) ?_) ?_) ?_) ?_) ?_
    · exact yields_field travels_addOnId trivial hscope h
    · exact yields_field travels_string trivial hscope h
    · exact yields_field travels_binary64 hprice hscope h
    · exact yields_fieldOr travels_bool trivial hscope h
    · exact yields_field? travels_string (string_ne_null scope) (fun _ _ => trivial) hscope h
    · exact yields_listOr travels_addOnId.list_free hscope h
    · exact yields_listOr travels_addOnId.list_free hscope h
  · rintro scope positional locate ⟨id, name, price, required, category, dependencies, conflicts⟩
      hfinite h
    simp only [addOnShape, yields_seq_iff, yields_map_iff, existsAndEq, and_true, AddOn.mk.injEq]
      at h
    obtain ⟨⟨⟨⟨⟨-, hprice⟩, -⟩, -⟩, -⟩, -⟩ := h
    have hfinite := proper_of_field travels_binary64 (fun _ => hfinite _) hprice
    exact hfinite

theorem travels_product : Travels Product .product Product.IsProper := by
  refine .record rfl (fun _ => rfl) (fun product => ?_) (by decide) ?_ ?_
  · exact keys_append_sublist (List.Sublist.refl _) (keys_putFields_sublist _ _)
  · rintro ⟨id, name, description, basePrice, category, addOns, metadata⟩ hproduct scope fields
      hscope h
    refine .seq (.seq (.seq (.seq (.seq (.seq (.map ?_) ?_) ?_) ?_) ?_) ?_) ?_
    · exact yields_field travels_productId trivial hscope h
    · exact yields_field travels_string trivial hscope h
    · exact yields_fieldOr travels_string trivial hscope h
    · exact yields_field travels_binary64 hproduct.basePrice hscope h
    · exact yields_field travels_string trivial hscope h
    · exact yields_fieldOr travels_addOn.list hproduct.addOns hscope h
    · exact yields_freeFields hproduct.metadata hscope h
  · rintro scope positional locate ⟨id, name, description, basePrice, category, addOns, metadata⟩
      hfinite h
    simp only [productShape, yields_seq_iff, yields_map_iff, existsAndEq, and_true,
      Product.mk.injEq] at h
    obtain ⟨⟨⟨⟨-, hprice⟩, -⟩, haddOns⟩, hmetadata⟩ := h
    have hprice := proper_of_field travels_binary64 (fun _ => hfinite _) hprice
    have haddOns := proper_of_fieldOr travels_addOn.list (fun _ => hfinite _)
      (List.forall_mem_nil _) haddOns
    exact ⟨hprice, haddOns, proper_of_freeFields hmetadata⟩

/-! ## Advice and validations -/

theorem travels_advisory : Travels Advisory .advisory fun _ => True := by
  refine .record rfl (fun _ => rfl) (fun advisory => ?_) (by decide) ?_ fun _ _ => trivial
  · exact keys_append_sublist (keys_append_sublist (keys_append_sublist (List.Sublist.refl _)
      (keys_putSome_sublist _ _)) (List.Sublist.refl _)) (List.Sublist.refl _)
  · rintro ⟨category, unlessAddOn, field, message⟩ - scope fields hscope h
    refine .seq (.seq (.seq (.map ?_) ?_) ?_) ?_
    · exact yields_field travels_string trivial hscope h
    · exact yields_field? travels_addOnId (fun _ => nofun) (fun _ _ => trivial) hscope h
    · exact yields_fieldOr travels_string trivial hscope h
    · exact yields_field travels_string trivial hscope h

theorem travels_issue : Travels Issue (.record issueShape.keys []) fun _ => True := by
  refine .record rfl (fun _ => rfl) (fun _ => List.Sublist.refl _) (by decide) ?_
    fun _ _ => trivial
  rintro ⟨field, message⟩ - scope fields hscope h
  refine .seq (.map ?_) ?_
  · exact yields_field travels_string trivial hscope h
  · exact yields_field travels_string trivial hscope h

theorem travels_validation : Travels Validation .validation fun _ => True := by
  refine .record rfl (fun _ => rfl) (fun validation => ?_) (by decide) ?_ fun _ _ => trivial
  · exact keys_append_sublist (List.Sublist.refl _) (keys_putSome_sublist _ _)
  · rintro ⟨isValid, errors, warnings⟩ - scope fields hscope h
    refine .seq (.seq (.map ?_) ?_) ?_
    · exact yields_field travels_bool trivial hscope h
    · exact yields_field travels_issue.list (fun _ _ => trivial) hscope h
    · exact yields_field? travels_issue.list (list_ne_null scope) (fun _ _ _ _ => trivial) hscope h

/-- The place of a configuration is a whole number of 64 bits. -/
theorem travels_itemValidation :
    Travels ItemValidation (.record itemValidationShape.keys [("result", .validation)])
      fun item => item.index < UInt64.size := by
  refine .record rfl (fun _ => rfl) (fun _ => List.Sublist.refl _) (by decide) ?_ ?_
  · rintro ⟨index, productId, result⟩ hindex scope fields hscope h
    refine .seq (.seq (.map ?_) ?_) ?_
    · refine yields_of_varies h (show _ = some (Json.integer index) by simp)
        fun json _ hvaries => ?_
      rw [hvaries.of_free]
      exact natural_ofNat (Nat.le_pred_of_lt hindex) scope
    · exact yields_field travels_productId trivial hscope h
    · exact yields_field travels_validation trivial hscope h
  · rintro scope positional locate ⟨index, productId, result⟩ hfinite h
    simp only [itemValidationShape, yields_seq_iff, yields_map_iff, existsAndEq, and_true,
      ItemValidation.mk.injEq] at h
    obtain ⟨⟨hindex, -⟩, -⟩ := h
    obtain ⟨document, -, hindex⟩ := Shape.exists_of_yields_required hindex
    exact Nat.lt_of_le_pred (by decide) (natural_le hindex)

theorem travels_batch :
    Travels Batch .batch fun batch => ∀ item ∈ batch.items, item.index < UInt64.size := by
  refine .record rfl (fun _ => rfl) (fun _ => List.Sublist.refl _) (by decide) ?_ ?_
  · rintro ⟨isValid, items⟩ hitems scope fields hscope h
    refine .seq (.map ?_) ?_
    · exact yields_field travels_bool trivial hscope h
    · exact yields_field travels_itemValidation.list hitems hscope h
  · rintro scope positional locate ⟨isValid, items⟩ hfinite h
    simp only [batchShape, yields_seq_iff, yields_map_iff, existsAndEq, and_true, Batch.mk.injEq]
      at h
    have hitems := proper_of_field travels_itemValidation.list (fun _ => hfinite _) h.2
    exact hitems

end Wire

end PriceQuote
