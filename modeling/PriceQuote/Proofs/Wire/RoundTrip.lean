import PriceQuote.Proofs.Wire.Quoting
import PriceQuote.Proofs.Wire.Rules

/-!
# What is written is read again

Whatever travels makes a round trip: a value is read from what is written of it, in whatever order
its keys are put and whatever other keys are put among them, and what is read from any JSON value is
written so that it is read again.

* `RoundTrips`: values of a type make a round trip;
* `roundTrips_of_every_type`: those of all types that travel do, timestamps included;
* `roundTrips_of_reordered_rule`: a rule with its keys in another order and with others among them.
-/

namespace PriceQuote.Wire

open Document (ofJson)

/-- Proper values of a type are read from what becomes of what is written of them, and what is read
is proper and is read again from what is written of it. -/
structure RoundTrips (α : Type) [Wire α] (layout : Layout) (proper : α → Prop) : Prop where
  /-- A value is read from what becomes of what is written of it. -/
  restored : ∀ {value : α}, proper value → ∀ {json : Json},
    layout.Varies (encode value).asWritten json →
      (read : Reader α) (.top .json) (ofJson json) = .ok value
  /-- A value that is read is read again. -/
  stable : ∀ {json : Json} {value : α}, json.InRange →
    (read : Reader α) (.top .json) (ofJson json) = .ok value → proper value ∧ Restored value

theorem Travels.roundTrips {α : Type} [Wire α] {layout : Layout} {proper : α → Prop}
    (h : Travels α layout proper) : RoundTrips α layout proper where
  restored hvalue _ hvaries := h.restores hvalue rfl hvaries
  stable hrange hread := by
    have hvalue := h.proper_of_read (Json.isFinite_ofJson _ hrange) hread
    exact ⟨hvalue, h.restores hvalue rfl .refl⟩

theorem asWritten_ne_of_lookup (key : String) {entries entries' : List (String × Json)}
    (h : entries.lookup key = none) (h' : entries'.lookup key ≠ none) :
    (Json.object entries).asWritten ≠ (Json.object entries').asWritten := by
  intro heq
  have hlookup := congrArg (List.lookup key) (Json.object.inj heq)
  rw [lookup_fieldsAsWritten, lookup_fieldsAsWritten, h] at hlookup
  exact h' (Option.map_eq_none_iff.mp hlookup.symm)

/-- An empty list of warnings is not written as the absence of one. -/
theorem encode_warnings_ne (validation : Validation) :
    (encode { validation with warnings := none }).asWritten ≠
      (encode { validation with warnings := some [] }).asWritten :=
  asWritten_ne_of_lookup "warnings" (by simp [List.lookup_append])
    (by simp [List.lookup_append])

theorem encode_customFields_ne (request : QuoteRequest) :
    (encode { request with customFields := none }).asWritten ≠
      (encode { request with customFields := some [] }).asWritten :=
  asWritten_ne_of_lookup "customFields" (by simp [List.lookup_append])
    (by simp [List.lookup_append])

/-- All that travels makes a round trip, if its numbers are finite and its free-form values are
such as are read. What was left out of a text comes back with it, and what may be empty or absent
is written in two ways. -/
theorem roundTrips_of_every_type :
    RoundTrips Product .product Product.IsProper ∧
    RoundTrips AddOn .addOn (fun addOn => addOn.price.isFinite = true) ∧
    RoundTrips Configuration .configuration
      (fun configuration => (Json.object configuration.customization).IsCanonical) ∧
    RoundTrips QuoteRequest .request QuoteRequest.IsProper ∧
    RoundTrips (Quote Timestamp) .quote
      (fun quote => quote.IsProper ∧ quote.createdAt.IsValid) ∧
    RoundTrips LineItem .lineItem LineItem.IsFinite ∧
    RoundTrips Advisory .advisory (fun _ => True) ∧
    RoundTrips Condition .condition Condition.IsProper ∧
    RoundTrips Adjustment .adjustment Adjustment.IsProper ∧
    RoundTrips Rule .rule Rule.IsProper ∧
    RoundTrips RuleSummary .summary (fun _ => True) ∧
    RoundTrips ItemPricing .itemPricing ItemPricing.IsProper ∧
    RoundTrips Validation .validation (fun _ => True) ∧
    RoundTrips Batch .batch (fun batch => ∀ item ∈ batch.items, item.index < UInt64.size) ∧
    (∀ validation : Validation, (encode { validation with warnings := none }).asWritten ≠
      (encode { validation with warnings := some [] }).asWritten) ∧
    ∀ request : QuoteRequest, (encode { request with customFields := none }).asWritten ≠
      (encode { request with customFields := some [] }).asWritten :=
  ⟨travels_product.roundTrips, travels_addOn.roundTrips, travels_configuration.roundTrips,
    travels_request.roundTrips, (travels_quote travels_timestamp).roundTrips,
    travels_lineItem.roundTrips, travels_advisory.roundTrips, travels_condition.roundTrips,
    travels_adjustment.roundTrips, travels_rule.roundTrips, travels_summary.roundTrips,
    travels_itemPricing.roundTrips, travels_validation.roundTrips, travels_batch.roundTrips,
    encode_warnings_ne, encode_customFields_ne⟩

/-- Ten or more of a product are cheaper by so many percent outside of one region. -/
def bulkRule (percent : Binary64) : Rule :=
  ⟨⟨"bulk"⟩, "Bulk", "", .volume, 10, .all [.quantityAtLeast 10, .not (.region "eu")],
    .percentOff percent⟩

/-- The same rule as somebody else may write it. -/
def bulkJson (percent : Binary64) : Json :=
  .object [
    ("comment", .string "reviewed"),
    ("adjust", .object [("percent", .float percent), ("type", .string "percent_off")]),
    ("when", .object [
      ("conditions", .array [
        .object [("value", .integer 10), ("type", .string "quantity_at_least")],
        .object [("since", .integer 2024),
          ("condition", .object [("value", .string "eu"), ("type", .string "region")]),
          ("type", .string "not")]]),
      ("type", .string "all")]),
    ("priority", .integer 10), ("category", .string "volume"), ("description", .string ""),
    ("name", .string "Bulk"), ("id", .string "bulk")]

/-- The keys of each structure are reversed there, with others in front of them. -/
theorem varies_bulkJson {percent : Binary64} (h : percent.isFinite = true) :
    Layout.rule.Varies (encode (bulkRule percent)).asWritten (bulkJson percent) := by
  have hquantity : Layout.condition.Varies
      (.object [("type", .string "quantity_at_least"), ("value", .integer 10)])
      (.object [("value", .integer 10), ("type", .string "quantity_at_least")]) :=
    .condition (.tagged rfl
      (.record (.refl _) (List.forall_mem_nil _) (List.reverse_perm'.mp (.refl _)) (by decide)))
  have hregion : Layout.condition.Varies
      (.object [("type", .string "region"), ("value", .string "eu")])
      (.object [("value", .string "eu"), ("type", .string "region")]) :=
    .condition (.tagged rfl
      (.record (.refl _) (List.forall_mem_nil _) (List.reverse_perm'.mp (.refl _)) (by decide)))
  have hnot : Layout.condition.Varies
      (.object [("type", .string "not"),
        ("condition", .object [("type", .string "region"), ("value", .string "eu")])])
      (.object [("since", .integer 2024),
        ("condition", .object [("value", .string "eu"), ("type", .string "region")]),
        ("type", .string "not")]) :=
    .condition (.tagged rfl (.record (.cons .refl (.cons hregion .nil))
      (List.forall_mem_singleton.mpr (by decide)) (List.reverse_perm'.mp (.refl _)) (by decide)))
  have hwhen : Layout.condition.Varies (encodeCondition (bulkRule percent).condition).asWritten
      (.object [
        ("conditions", .array [
          .object [("value", .integer 10), ("type", .string "quantity_at_least")],
          .object [("since", .integer 2024),
            ("condition", .object [("value", .string "eu"), ("type", .string "region")]),
            ("type", .string "not")]]),
        ("type", .string "all")]) :=
    .condition (.tagged rfl (.record
      (.cons .refl (.cons (.list (.cons hquantity (.cons hnot .nil))) .nil))
      (List.forall_mem_nil _) (List.reverse_perm'.mp (.refl _)) (by decide)))
  have hwritten : (encode (Adjustment.percentOff percent)).asWritten =
      .object [("type", .string "percent_off"), ("percent", .float percent)] := by
    show Json.object [_, ("percent", if percent.isFinite then _ else _)] = _
    rw [if_pos h]
    rfl
  have hadjust : Layout.adjustment.Varies (encode (Adjustment.percentOff percent)).asWritten
      (.object [("percent", .float percent), ("type", .string "percent_off")]) := by
    have hkeys : ["percent", "type"].Nodup := by decide
    rw [hwritten]
    exact .tagged rfl
      (.record (.refl _) (List.forall_mem_nil _) (List.reverse_perm'.mp (.refl _)) hkeys)
  have hkeys : ["comment", "adjust", "when", "priority", "category", "description", "name",
    "id"].Nodup := by decide
  exact .record (.cons .refl (.cons .refl (.cons .refl (.cons .refl (.cons .refl
    (.cons hwhen (.cons hadjust .nil))))))) (List.forall_mem_singleton.mpr (by decide))
    (List.reverse_perm'.mp (.refl _)) hkeys

/-- The rule is read as what it is nevertheless. -/
theorem roundTrips_of_reordered_rule :
    (bulkRule 5).IsProper ∧ (read : Reader Rule) (.top .json) (ofJson (bulkJson 5)) =
      .ok (bulkRule 5) := by
  have hfive : (5 : Binary64).isFinite = true := by decide +kernel
  have hproper : (bulkRule 5).IsProper := ⟨⟨trivial, trivial, trivial⟩, hfive⟩
  obtain ⟨-, -, -, -, -, -, -, -, -, hrule, -⟩ := roundTrips_of_every_type
  exact ⟨hproper, hrule.restored hproper (varies_bulkJson hfive)⟩

end PriceQuote.Wire
