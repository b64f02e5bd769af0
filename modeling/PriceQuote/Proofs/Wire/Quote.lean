import Mathlib.Tactic.Common
import PriceQuote.Proofs.Quote.Finite
import PriceQuote.Proofs.Wire.Restored
import PriceQuote.Wire.Quote

/-!
# Quotes that are restored

A quote holds texts, counts, free-form values and numbers. Of these only numbers may fail to be
restored, so that a quote is restored exactly when its numbers are finite:

* `restored_discount_iff`, `restored_selectedAddOn_iff`, `restored_lineItem_iff`: positions and what
  they hold;
* `restored_metadata_iff`, `restored_quote_iff`: quotes.
-/

namespace PriceQuote.Wire

theorem read_string_null (text : String) :
    (read : Reader String) (.top .json) .null ≠ .ok text := nofun

theorem read_binary64_null (x : Binary64) :
    (read : Reader Binary64) (.top .json) .null ≠ .ok x := nofun

/-! ## Positions -/

theorem restored_discount_iff {discount : Discount} :
    Restored discount ↔ discount.amount.isFinite = true := by
  obtain ⟨ruleId, ruleName, amount⟩ := discount
  rw [restored_record_iff (show _ = discountShape.read from rfl) rfl (List.Sublist.refl _)
    (by decide), discountShape]
  simp only [Shape.readsFrom_seq_iff, Shape.readsFrom_map_iff, existsAndEq, and_true,
    Discount.mk.injEq]
  repeat rw [readsFrom_field_iff (by simp [List.lookup_append])]
  simp only [restored_ruleId, restored_string, restored_binary64_iff, true_and]

theorem restored_selectedAddOn_iff {addOn : SelectedAddOn} :
    Restored addOn ↔ addOn.price.isFinite = true := by
  obtain ⟨id, name, price⟩ := addOn
  rw [restored_record_iff (show _ = selectedAddOnShape.read from rfl) rfl (List.Sublist.refl _)
    (by decide), selectedAddOnShape]
  simp only [Shape.readsFrom_seq_iff, Shape.readsFrom_map_iff, existsAndEq, and_true,
    SelectedAddOn.mk.injEq]
  repeat rw [readsFrom_field_iff (by simp [List.lookup_append])]
  simp only [restored_addOnId, restored_string, restored_binary64_iff, true_and]

theorem restored_lineItem_iff {line : LineItem} : Restored line ↔ line.IsFinite := by
  have hfields : Restored line ↔ line.basePrice.isFinite = true ∧
      (∀ addOn ∈ line.selected, addOn.price.isFinite = true) ∧ line.subtotal.isFinite = true ∧
      (∀ discount ∈ line.discounts, discount.amount.isFinite = true) ∧
      line.total.isFinite = true := by
    obtain ⟨productId, productName, quantity, basePrice, selected, subtotal, discounts, total⟩ :=
      line
    rw [restored_record_iff (show _ = lineItemShape.read from rfl) rfl (List.Sublist.refl _)
      (by decide), lineItemShape]
    simp only [Shape.readsFrom_seq_iff, Shape.readsFrom_map_iff, existsAndEq, and_true,
      LineItem.mk.injEq]
    repeat rw [readsFrom_field_iff (by simp [List.lookup_append])]
    simp only [restored_productId, restored_string, restored_uint32, restored_binary64_iff,
      restored_list_iff, restored_discount_iff, restored_selectedAddOn_iff, true_and, and_assoc]
  rw [hfields]
  exact ⟨fun ⟨h₁, h₂, h₃, h₄, h₅⟩ => ⟨h₁, h₂, h₃, h₄, h₅⟩,
    fun h => ⟨h.basePrice, h.selected, h.subtotal, h.discounts, h.total⟩⟩

/-! ## Quotes -/

theorem restored_metadata_iff {metadata : QuoteMetadata}
    (h : (Json.object metadata.customFields).IsCanonical) :
    Restored metadata ↔ ∀ rate ∈ metadata.taxRate, rate.isFinite = true := by
  obtain ⟨customerTier, region, taxRate, customFields⟩ := metadata
  have hkeys : ((putSome "customerTier" customerTier ++ putSome "region" region ++
      putSome "taxRate" taxRate ++ putFields "customFields" customFields).map (·.1)).Sublist
        metadataShape.keys :=
    keys_append_sublist (keys_append_sublist (keys_append_sublist (keys_putSome_sublist _ _)
      (keys_putSome_sublist _ _)) (keys_putSome_sublist _ _)) (keys_putFields_sublist _ _)
  rw [restored_record_iff (show _ = metadataShape.read from rfl) rfl hkeys (by decide),
    metadataShape]
  simp only [Shape.readsFrom_seq_iff, Shape.readsFrom_map_iff, existsAndEq, and_true,
    QuoteMetadata.mk.injEq]
  rw [readsFrom_field?_iff (by simp [List.lookup_append]) read_string_null,
    readsFrom_field?_iff (by simp [List.lookup_append]) read_string_null,
    readsFrom_field?_iff (by simp [List.lookup_append]) read_binary64_null,
    and_iff_left (readsFrom_freeFields (by simp [List.lookup_append]) h)]
  simp only [restored_string, restored_binary64_iff, implies_true, true_and]

/-- A quote whose time and free-form values are restored is restored exactly when all of its
numbers are finite. -/
theorem restored_quote_iff {Time : Type} [Wire Time] {quote : Quote Time}
    (htime : Restored quote.createdAt)
    (hfields : (Json.object quote.metadata.customFields).IsCanonical) :
    Restored quote ↔ quote.IsFinite := by
  have hparts : Restored quote ↔ (∀ line ∈ quote.items, line.IsFinite) ∧
      quote.subtotal.isFinite = true ∧ quote.totalDiscounts.isFinite = true ∧
      (∀ tax ∈ quote.tax, tax.isFinite = true) ∧ quote.total.isFinite = true ∧
      ∀ rate ∈ quote.metadata.taxRate, rate.isFinite = true := by
    obtain ⟨id, createdAt, items, subtotal, totalDiscounts, tax, total, metadata⟩ := quote
    have hkeys : ((put "id" id ++ put "createdAt" createdAt ++ put "items" items ++
        put "subtotal" subtotal ++ put "totalDiscounts" totalDiscounts ++ putSome "tax" tax ++
        put "total" total ++ put "metadata" metadata).map (·.1)).Sublist
          (quoteShape : Shape (Quote Time)).keys :=
      keys_append_sublist (keys_append_sublist (keys_append_sublist (List.Sublist.refl _)
        (keys_putSome_sublist _ _)) (List.Sublist.refl _)) (List.Sublist.refl _)
    have hnodup : (quoteShape : Shape (Quote Time)).keys.Nodup := by
      show ["id", "createdAt", "items", "subtotal", "totalDiscounts", "tax", "total",
        "metadata"].Nodup
      decide
    rw [restored_record_iff (show _ = (quoteShape : Shape (Quote Time)).read from rfl) rfl hkeys
      hnodup, quoteShape]
    simp only [Shape.readsFrom_seq_iff, Shape.readsFrom_map_iff, existsAndEq, and_true,
      Quote.mk.injEq]
    rw [readsFrom_fieldOr_iff (by simp [List.lookup_append]),
      readsFrom_field?_iff (by simp [List.lookup_append]) read_binary64_null]
    repeat rw [readsFrom_field_iff (by simp [List.lookup_append])]
    simp only [restored_string, htime, restored_list_iff, restored_lineItem_iff,
      restored_binary64_iff, restored_metadata_iff hfields, true_and, and_assoc]
  rw [hparts]
  exact ⟨fun ⟨h₁, h₂, h₃, h₄, h₅, h₆⟩ => ⟨h₁, h₂, h₃, h₄, h₅, h₆⟩,
    fun h => ⟨h.items, h.subtotal, h.totalDiscounts, h.tax, h.total, h.taxRate⟩⟩

end PriceQuote.Wire
