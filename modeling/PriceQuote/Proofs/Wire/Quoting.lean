import PriceQuote.Proofs.Quote.Finite
import PriceQuote.Proofs.Timestamp.Text
import PriceQuote.Proofs.Wire.Catalog

/-!
# Requests, prices and quotes travel

* `travels_request`: requests, whose tax rate has to be finite;
* `travels_itemPricing`: prices of items;
* `travels_timestamp`: timestamps, which have to be valid;
* `travels_quote`: quotes, as long as the time of their making travels.
-/

namespace PriceQuote

/-- The free-form values of a request are such as are read, and its tax rate is finite. -/
structure QuoteRequest.IsProper (request : QuoteRequest) : Prop where
  customizations : ∀ configuration ∈ request.configurations,
    (Json.object configuration.customization).IsCanonical
  customFields : ∀ fields ∈ request.customFields, (Json.object fields).IsCanonical
  taxRate : ∀ rate ∈ request.taxRate, rate.isFinite = true

/-- The numbers of an item's price are finite. -/
structure ItemPricing.IsProper (pricing : ItemPricing) : Prop where
  basePrice : pricing.basePrice.isFinite = true
  finalPrice : pricing.finalPrice.isFinite = true
  applied : ∀ rule ∈ pricing.applied, rule.discount.isFinite = true

/-- The metadata of a quote has free-form values such as are read and a finite tax rate. -/
structure QuoteMetadata.IsProper (metadata : QuoteMetadata) : Prop where
  taxRate : ∀ rate ∈ metadata.taxRate, rate.isFinite = true
  customFields : (Json.object metadata.customFields).IsCanonical

/-- The numbers of a quote are finite, and its free-form values are such as are read. -/
structure Quote.IsProper {Time : Type} (quote : Quote Time) : Prop where
  finite : quote.IsFinite
  customFields : (Json.object quote.metadata.customFields).IsCanonical

namespace Wire

open Shape (yields_seq_iff yields_map_iff)

/-! ## Requests -/

theorem travels_configuration :
    Travels Configuration .configuration
      fun configuration => (Json.object configuration.customization).IsCanonical := by
  refine .record rfl (fun _ => rfl) (fun configuration => ?_) (by decide) ?_ ?_
  · exact keys_append_sublist (List.Sublist.refl _) (keys_putFields_sublist _ _)
  · rintro ⟨productId, selected, quantity, customization⟩ hcustomization scope fields hscope h
    refine .seq (.seq (.seq (.map ?_) ?_) ?_) ?_
    · exact yields_field travels_productId trivial hscope h
    · exact yields_fieldOr travels_addOnId.list_free trivial hscope h
    · exact yields_fieldOr travels_uint32 trivial hscope h
    · exact yields_freeFields hcustomization hscope h
  · rintro scope positional locate ⟨productId, selected, quantity, customization⟩ hfinite h
    simp only [configurationShape, yields_seq_iff, yields_map_iff, existsAndEq, and_true,
      Configuration.mk.injEq] at h
    exact proper_of_freeFields h.2

theorem travels_request : Travels QuoteRequest .request QuoteRequest.IsProper := by
  refine .record rfl (fun _ => rfl) (fun request => ?_) (by decide) ?_ ?_
  · exact keys_append_sublist (keys_append_sublist (keys_append_sublist (keys_append_sublist
      (List.Sublist.refl _) (keys_putSome_sublist _ _)) (keys_putSome_sublist _ _))
      (keys_fieldOf_sublist _ _ _)) (keys_putSome_sublist _ _)
  · rintro ⟨configurations, customerTier, region, customFields, taxRate⟩ hrequest scope fields
      hscope h
    refine .seq (.seq (.seq (.seq (.map ?_) ?_) ?_) ?_) ?_
    · exact yields_field travels_configuration.list hrequest.customizations hscope h
    · exact yields_field? travels_string (string_ne_null scope) (fun _ _ => trivial) hscope h
    · exact yields_field? travels_string (string_ne_null scope) (fun _ _ => trivial) hscope h
    · cases customFields with
      | none => exact yields_of_absent h (by simp [List.lookup_append]) rfl
      | some values =>
        refine yields_of_varies h (show _ = some (Json.object values) by
          simp [List.lookup_append]) fun json _ hvaries => ?_
        have hvalues := hrequest.customFields values rfl
        rw [hvaries.of_free, Json.asWritten_of_isCanonical _ hvalues]
        exact Reader.optional_eq_some_iff.mpr ⟨nofun, Json.fields_ofJson hscope hvalues⟩
    · exact yields_field? travels_binary64 (binary64_ne_null scope) hrequest.taxRate hscope h
  · rintro scope positional locate ⟨configurations, customerTier, region, customFields, taxRate⟩
      hfinite h
    simp only [requestShape, yields_seq_iff, yields_map_iff, existsAndEq, and_true,
      QuoteRequest.mk.injEq] at h
    obtain ⟨⟨⟨⟨hconfigurations, -⟩, -⟩, hfields⟩, hrate⟩ := h
    have hconfigurations := proper_of_field travels_configuration.list (fun _ => hfinite _)
      hconfigurations
    have hrate := proper_of_field? travels_binary64 (fun _ => hfinite _) hrate
    refine ⟨hconfigurations, fun values hvalues => ?_, hrate⟩
    obtain rfl : customFields = some values := hvalues
    obtain ⟨document, -, hread⟩ := Shape.exists_of_yields_optional hfields
    exact Json.isCanonical_of_fields hread

/-! ## Prices -/

theorem travels_appliedRule :
    Travels (AppliedRule Binary64) (.record appliedRuleShape.keys [])
      fun rule => rule.discount.isFinite = true := by
  refine .record rfl (fun _ => rfl) (fun _ => List.Sublist.refl _) (by decide) ?_ ?_
  · rintro ⟨ruleId, ruleName, discount⟩ hdiscount scope fields hscope h
    refine .seq (.seq (.map ?_) ?_) ?_
    · exact yields_field travels_ruleId trivial hscope h
    · exact yields_field travels_string trivial hscope h
    · exact yields_field travels_binary64 hdiscount hscope h
  · rintro scope positional locate ⟨ruleId, ruleName, discount⟩ hfinite h
    simp only [appliedRuleShape, yields_seq_iff, yields_map_iff, existsAndEq, and_true,
      AppliedRule.mk.injEq] at h
    have hdiscount := proper_of_field travels_binary64 (fun _ => hfinite _) h.2
    exact hdiscount

theorem travels_itemPricing : Travels ItemPricing .itemPricing ItemPricing.IsProper := by
  have hencode : ∀ pricing : ItemPricing, encode pricing = .object (
      put "basePrice" pricing.basePrice ++ put "finalPrice" pricing.finalPrice ++
      put "appliedRules" pricing.applied) := fun _ => rfl
  refine .record rfl hencode (fun _ => List.Sublist.refl _) (by decide) ?_ ?_
  · rintro ⟨basePrice, finalPrice, applied⟩ hpricing scope fields hscope h
    refine .seq (.seq (.map ?_) ?_) ?_
    · exact yields_field travels_binary64 hpricing.basePrice hscope h
    · exact yields_field travels_binary64 hpricing.finalPrice hscope h
    · exact yields_field travels_appliedRule.list hpricing.applied hscope h
  · rintro scope positional locate ⟨basePrice, finalPrice, applied⟩ hfinite h
    simp only [itemPricingShape, yields_seq_iff, yields_map_iff, existsAndEq, and_true,
      ItemPricing.mk.injEq] at h
    obtain ⟨⟨hbase, hfinal⟩, happlied⟩ := h
    have hbase := proper_of_field travels_binary64 (fun _ => hfinite _) hbase
    have hfinal := proper_of_field travels_binary64 (fun _ => hfinite _) hfinal
    have happlied := proper_of_field travels_appliedRule.list (fun _ => hfinite _) happlied
    exact ⟨hbase, hfinal, happlied⟩

/-! ## Quotes -/

theorem travels_selectedAddOn :
    Travels SelectedAddOn (.record selectedAddOnShape.keys [])
      fun addOn => addOn.price.isFinite = true := by
  refine .record rfl (fun _ => rfl) (fun _ => List.Sublist.refl _) (by decide) ?_ ?_
  · rintro ⟨id, name, price⟩ hprice scope fields hscope h
    refine .seq (.seq (.map ?_) ?_) ?_
    · exact yields_field travels_addOnId trivial hscope h
    · exact yields_field travels_string trivial hscope h
    · exact yields_field travels_binary64 hprice hscope h
  · rintro scope positional locate ⟨id, name, price⟩ hfinite h
    simp only [selectedAddOnShape, yields_seq_iff, yields_map_iff, existsAndEq, and_true,
      SelectedAddOn.mk.injEq] at h
    have hprice := proper_of_field travels_binary64 (fun _ => hfinite _) h.2
    exact hprice

theorem travels_discount :
    Travels Discount (.record discountShape.keys [])
      fun discount => discount.amount.isFinite = true := by
  refine .record rfl (fun _ => rfl) (fun _ => List.Sublist.refl _) (by decide) ?_ ?_
  · rintro ⟨ruleId, ruleName, amount⟩ hamount scope fields hscope h
    refine .seq (.seq (.map ?_) ?_) ?_
    · exact yields_field travels_ruleId trivial hscope h
    · exact yields_field travels_string trivial hscope h
    · exact yields_field travels_binary64 hamount hscope h
  · rintro scope positional locate ⟨ruleId, ruleName, amount⟩ hfinite h
    simp only [discountShape, yields_seq_iff, yields_map_iff, existsAndEq, and_true,
      Discount.mk.injEq] at h
    have hamount := proper_of_field travels_binary64 (fun _ => hfinite _) h.2
    exact hamount

theorem travels_lineItem : Travels LineItem .lineItem LineItem.IsFinite := by
  refine .record rfl (fun _ => rfl) (fun _ => List.Sublist.refl _) (by decide) ?_ ?_
  · rintro ⟨productId, productName, quantity, basePrice, selected, subtotal, discounts, total⟩
      hline scope fields hscope h
    refine .seq (.seq (.seq (.seq (.seq (.seq (.seq (.map ?_) ?_) ?_) ?_) ?_) ?_) ?_) ?_
    · exact yields_field travels_productId trivial hscope h
    · exact yields_field travels_string trivial hscope h
    · exact yields_field travels_uint32 trivial hscope h
    · exact yields_field travels_binary64 hline.basePrice hscope h
    · exact yields_field travels_selectedAddOn.list hline.selected hscope h
    · exact yields_field travels_binary64 hline.subtotal hscope h
    · exact yields_field travels_discount.list hline.discounts hscope h
    · exact yields_field travels_binary64 hline.total hscope h
  · rintro scope positional locate
      ⟨productId, productName, quantity, basePrice, selected, subtotal, discounts, total⟩ hfinite h
    simp only [lineItemShape, yields_seq_iff, yields_map_iff, existsAndEq, and_true,
      LineItem.mk.injEq] at h
    obtain ⟨⟨⟨⟨⟨-, hbase⟩, hselected⟩, hsubtotal⟩, hdiscounts⟩, htotal⟩ := h
    have hbase := proper_of_field travels_binary64 (fun _ => hfinite _) hbase
    have hselected := proper_of_field travels_selectedAddOn.list (fun _ => hfinite _) hselected
    have hsubtotal := proper_of_field travels_binary64 (fun _ => hfinite _) hsubtotal
    have hdiscounts := proper_of_field travels_discount.list (fun _ => hfinite _) hdiscounts
    have htotal := proper_of_field travels_binary64 (fun _ => hfinite _) htotal
    exact ⟨hbase, hselected, hsubtotal, hdiscounts, htotal⟩

theorem travels_metadata :
    Travels QuoteMetadata (.record metadataShape.keys []) QuoteMetadata.IsProper := by
  refine .record rfl (fun _ => rfl) (fun metadata => ?_) (by decide) ?_ ?_
  · exact keys_append_sublist (keys_append_sublist (keys_append_sublist (keys_putSome_sublist _ _)
      (keys_putSome_sublist _ _)) (keys_putSome_sublist _ _)) (keys_putFields_sublist _ _)
  · rintro ⟨customerTier, region, taxRate, customFields⟩ hmetadata scope fields hscope h
    refine .seq (.seq (.seq (.map ?_) ?_) ?_) ?_
    · exact yields_field? travels_string (string_ne_null scope) (fun _ _ => trivial) hscope h
    · exact yields_field? travels_string (string_ne_null scope) (fun _ _ => trivial) hscope h
    · exact yields_field? travels_binary64 (binary64_ne_null scope) hmetadata.taxRate hscope h
    · exact yields_freeFields hmetadata.customFields hscope h
  · rintro scope positional locate ⟨customerTier, region, taxRate, customFields⟩ hfinite h
    simp only [metadataShape, yields_seq_iff, yields_map_iff, existsAndEq, and_true,
      QuoteMetadata.mk.injEq] at h
    obtain ⟨⟨-, hrate⟩, hfields⟩ := h
    have hrate := proper_of_field? travels_binary64 (fun _ => hfinite _) hrate
    exact ⟨hrate, proper_of_freeFields hfields⟩

theorem textOf_eq_ok_iff {α : Type} {ofText? : String → Option α} {scope : Scope}
    {document : Document} {value : α} : Reader.textOf ofText? scope document = .ok value ↔
      ∃ text, Reader.text scope document = .ok text ∧ ofText? text = some value := by
  refine bind_ok_iff.trans (exists_congr fun text => and_congr_right fun _ => ?_)
  cases ofText? text <;> simp

theorem travels_timestamp : Travels Timestamp .free Timestamp.IsValid := by
  refine .of_free (fun {time} htime _ _ => ?_) fun _ h => ?_
  · exact textOf_eq_ok_iff.mpr ⟨time.toText, rfl, Timestamp.ofText?_toText htime⟩
  · obtain ⟨text, -, htext⟩ := textOf_eq_ok_iff.mp h
    exact Timestamp.isValid_of_ofText? htext

/-- A quote travels if the time of its making does. -/
theorem travels_quote {Time : Type} [Wire Time] {IsTime : Time → Prop}
    (htime : Travels Time .free IsTime) :
    Travels (Quote Time) .quote fun quote => quote.IsProper ∧ IsTime quote.createdAt := by
  refine .record rfl (fun _ => rfl) (fun quote => ?_) (by decide) ?_ ?_
  · exact keys_append_sublist (keys_append_sublist (keys_append_sublist (List.Sublist.refl _)
      (keys_putSome_sublist _ _)) (List.Sublist.refl _)) (List.Sublist.refl _)
  · rintro ⟨id, createdAt, items, subtotal, totalDiscounts, tax, total, metadata⟩ hquote scope
      fields hscope h
    obtain ⟨⟨hfinite, hfields⟩, hcreated⟩ := hquote
    refine .seq (.seq (.seq (.seq (.seq (.seq (.seq (.map ?_) ?_) ?_) ?_) ?_) ?_) ?_) ?_
    · exact yields_field travels_string trivial hscope h
    · exact yields_field htime hcreated hscope h
    · exact yields_field travels_lineItem.list hfinite.items hscope h
    · exact yields_field travels_binary64 hfinite.subtotal hscope h
    · exact yields_field travels_binary64 hfinite.totalDiscounts hscope h
    · exact yields_field? travels_binary64 (binary64_ne_null scope) hfinite.tax hscope h
    · exact yields_field travels_binary64 hfinite.total hscope h
    · exact yields_fieldOr travels_metadata ⟨hfinite.taxRate, hfields⟩ hscope h
  · rintro scope positional locate
      ⟨id, createdAt, items, subtotal, totalDiscounts, tax, total, metadata⟩ hfinite h
    simp only [quoteShape, yields_seq_iff, yields_map_iff, existsAndEq, and_true, Quote.mk.injEq]
      at h
    obtain ⟨⟨⟨⟨⟨⟨⟨-, hcreated⟩, hitems⟩, hsubtotal⟩, hdiscounts⟩, htax⟩, htotal⟩, hmetadata⟩ := h
    have hcreated := proper_of_field htime (fun _ => hfinite _) hcreated
    have hitems := proper_of_field travels_lineItem.list (fun _ => hfinite _) hitems
    have hsubtotal := proper_of_field travels_binary64 (fun _ => hfinite _) hsubtotal
    have hdiscounts := proper_of_field travels_binary64 (fun _ => hfinite _) hdiscounts
    have htax := proper_of_field? travels_binary64 (fun _ => hfinite _) htax
    have htotal := proper_of_field travels_binary64 (fun _ => hfinite _) htotal
    have hempty : QuoteMetadata.empty.IsProper :=
      ⟨fun rate hrate => absurd hrate (Option.not_mem_none rate), List.Pairwise.nil, trivial⟩
    have hmetadata := proper_of_fieldOr travels_metadata (fun _ => hfinite _) hempty hmetadata
    exact ⟨⟨⟨hitems, hsubtotal, hdiscounts, htax, htotal, hmetadata.taxRate⟩,
      hmetadata.customFields⟩, hcreated⟩

end Wire

end PriceQuote
