import PriceQuote.Proofs.Distinct
import PriceQuote.Proofs.FirstFault
import PriceQuote.Quote.Pricebook

/-!
# Catalogs that were checked

Checking goes through the products, and through the add-ons of each, with the ids that came before,
and stops at the first thing that does not go with them:

* `AddOn.AreSound`, `Product.AreSound`: add-ons and products that nothing is wrong with;
* `AddOn.Breaks`, `Product.Breaks`: what is wrong with one that comes behind others;
* `check_exact`: which products are accepted, what is said of others, and that each product and
  add-on of a checked catalog is found by its id.
-/

namespace PriceQuote

/-! ## Elements with different keys -/

/-- The first element with a key is the only one, where keys differ. -/
theorem find?_eq_some_of_nodup {α β : Type} [DecidableEq β] {key : α → β} {xs : List α} {x : α}
    (h : (xs.map key).Nodup) (hx : x ∈ xs) : xs.find? (fun y => key y == key x) = some x := by
  induction xs with
  | nil => cases hx
  | cons y ys ih =>
    obtain ⟨hhead, htail⟩ := List.nodup_cons.mp h
    obtain rfl | hx := List.mem_cons.mp hx
    · rw [List.find?_cons_of_pos (by simp)]
    · have hne : key y ≠ key x := fun he => hhead (he ▸ List.mem_map_of_mem hx)
      rw [List.find?_cons_of_neg (by simpa using hne), ih htail hx]

/-! ## Sound products -/

/-- Add-ons of one product that nothing is wrong with. -/
structure AddOn.AreSound (addOns : List AddOn) : Prop where
  ids : (addOns.map (·.id)).Nodup
  prices : ∀ addOn ∈ addOns, addOn.price.isFinite = true

/-- The base price of a product is finite and not below zero. -/
structure Product.IsPriced (product : Product) : Prop where
  finite : product.basePrice.isFinite = true
  notBelowZero : product.basePrice.lt 0 = false

/-- Products of one catalog that nothing is wrong with. -/
structure Product.AreSound (products : List Product) : Prop where
  ids : (products.map (·.id)).Nodup
  prices : ∀ product ∈ products, product.IsPriced
  addOns : ∀ product ∈ products, AddOn.AreSound product.addOns

/-- What is wrong with an add-on of a product, behind those that came before: its id is looked at
first, then its price. -/
inductive AddOn.Breaks (product : ProductId) (before : List AddOn) (addOn : AddOn) :
    Catalog.Violation → Prop
  | duplicate (hid : addOn.id ∈ before.map (·.id)) :
    AddOn.Breaks product before addOn (.duplicateAddOn product addOn.id)
  | price (hid : addOn.id ∉ before.map (·.id)) (hprice : addOn.price.isFinite = false) :
    AddOn.Breaks product before addOn (.addOnPrice product addOn.id)

/-- What is wrong with a product, behind those that came before: its id is looked at first, then its
base price, then its add-ons up to the first that something is wrong with. -/
inductive Product.Breaks (before : List Product) (product : Product) : Catalog.Violation → Prop
  | duplicate (hid : product.id ∈ before.map (·.id)) :
    Product.Breaks before product (.duplicateProduct product.id)
  | basePrice (hid : product.id ∉ before.map (·.id)) (hprice : ¬ product.IsPriced) :
    Product.Breaks before product (.basePrice product.id)
  | addOn {first rest : List AddOn} {addOn : AddOn} {violation : Catalog.Violation}
    (hid : product.id ∉ before.map (·.id)) (hprice : product.IsPriced)
    (haddOns : product.addOns = first ++ addOn :: rest) (hfirst : AddOn.AreSound first)
    (hbreaks : addOn.Breaks product.id first violation) : Product.Breaks before product violation

/-- The id of a value behind others, which have an id each, is a new one. -/
theorem nodup_map_concat_iff {α β : Type} {key : α → β} {xs : List α} {x : α} :
    ((xs ++ [x]).map key).Nodup ↔ (xs.map key).Nodup ∧ key x ∉ xs.map key := by
  rw [List.map_append, List.map_singleton, List.nodup_append_comm, List.singleton_append,
    List.nodup_cons, and_comm]

namespace AddOn

variable {before rest : List AddOn} {addOn : AddOn}

theorem areSound_nil : AreSound [] := ⟨List.nodup_nil, List.forall_mem_nil _⟩

theorem areSound_concat_iff : AreSound (before ++ [addOn]) ↔
    AreSound before ∧ addOn.id ∉ before.map (·.id) ∧ addOn.price.isFinite = true := by
  constructor
  · rintro ⟨hids, hprices⟩
    obtain ⟨hids, hid⟩ := nodup_map_concat_iff.mp hids
    obtain ⟨hprices, hprice⟩ := List.forall_mem_append.mp hprices
    exact ⟨⟨hids, hprices⟩, hid, hprice addOn List.mem_cons_self⟩
  · rintro ⟨⟨hids, hprices⟩, hid, hprice⟩
    refine ⟨nodup_map_concat_iff.mpr ⟨hids, hid⟩, List.forall_mem_append.mpr ⟨hprices, ?_⟩⟩
    exact List.forall_mem_singleton.mpr hprice

theorem areSound_of_append (h : AreSound (before ++ rest)) : AreSound before where
  ids := h.ids.sublist ((List.sublist_append_left before rest).map _)
  prices := (List.forall_mem_append.mp h.prices).1

end AddOn

namespace Product

variable {before rest : List Product} {product : Product}

theorem areSound_nil : AreSound [] :=
  ⟨List.nodup_nil, List.forall_mem_nil _, List.forall_mem_nil _⟩

theorem areSound_concat_iff : AreSound (before ++ [product]) ↔ AreSound before ∧
    product.id ∉ before.map (·.id) ∧ product.IsPriced ∧ AddOn.AreSound product.addOns := by
  constructor
  · rintro ⟨hids, hprices, haddOns⟩
    obtain ⟨hids, hid⟩ := nodup_map_concat_iff.mp hids
    obtain ⟨hprices, hprice⟩ := List.forall_mem_append.mp hprices
    obtain ⟨haddOns, haddOn⟩ := List.forall_mem_append.mp haddOns
    exact ⟨⟨hids, hprices, haddOns⟩, hid, hprice product List.mem_cons_self,
      haddOn product List.mem_cons_self⟩
  · rintro ⟨⟨hids, hprices, haddOns⟩, hid, hprice, haddOn⟩
    refine ⟨nodup_map_concat_iff.mpr ⟨hids, hid⟩, List.forall_mem_append.mpr ⟨hprices, ?_⟩,
      List.forall_mem_append.mpr ⟨haddOns, ?_⟩⟩
    · exact List.forall_mem_singleton.mpr hprice
    · exact List.forall_mem_singleton.mpr haddOn

theorem areSound_of_append (h : AreSound (before ++ rest)) : AreSound before where
  ids := h.ids.sublist ((List.sublist_append_left before rest).map _)
  prices := (List.forall_mem_append.mp h.prices).1
  addOns := (List.forall_mem_append.mp h.addOns).1

theorem isPriced_iff : product.IsPriced ↔
    (!product.basePrice.isFinite || product.basePrice.lt 0) = false := by
  rw [Bool.or_eq_false_iff, Bool.not_eq_false']
  exact ⟨fun h => ⟨h.finite, h.notBelowZero⟩, fun h => ⟨h.1, h.2⟩⟩

end Product

namespace Catalog

/-! ## Checking -/

theorem firstFault_addOnViolation? (product : ProductId) :
    FirstFault (fun before => addOnViolation? product (before.map (·.id)).reverse) AddOn.AreSound
      (fun before addOn => addOn.Breaks product before) where
  nil _ := rfl
  of_sound {before addOn} rest h := by
    obtain ⟨-, hid, hprice⟩ := AddOn.areSound_concat_iff.mp h
    have hseen : (before.map (·.id)).reverse.contains addOn.id = false := by simpa using hid
    rw [addOnViolation?, hseen, hprice, List.map_append, List.reverse_append]
    rfl
  of_breaks {before addOn violation} rest h := by
    cases h with
    | duplicate hid =>
      have hseen : (before.map (·.id)).reverse.contains addOn.id = true := by simpa using hid
      rw [addOnViolation?, hseen]
      rfl
    | price hid hprice =>
      have hseen : (before.map (·.id)).reverse.contains addOn.id = false := by simpa using hid
      rw [addOnViolation?, hseen, hprice]
      rfl
  sound_or_breaks {before} addOn h := by
    by_cases hid : addOn.id ∈ before.map (·.id)
    · exact .inr ⟨_, .duplicate hid⟩
    · cases hprice : addOn.price.isFinite with
      | false => exact .inr ⟨_, .price hid hprice⟩
      | true => exact .inl (AddOn.areSound_concat_iff.mpr ⟨h, hid, hprice⟩)
  sound_before := AddOn.areSound_of_append

theorem addOnViolation?_eq_none_iff {product : ProductId} {addOns : List AddOn} :
    addOnViolation? product [] addOns = none ↔ AddOn.AreSound addOns :=
  (firstFault_addOnViolation? product).eq_none_iff AddOn.areSound_nil

theorem addOnViolation?_eq_some_iff {product : ProductId} {addOns : List AddOn}
    {violation : Violation} : addOnViolation? product [] addOns = some violation ↔
      ∃ first addOn rest, addOns = first ++ addOn :: rest ∧ AddOn.AreSound first ∧
        addOn.Breaks product first violation :=
  (firstFault_addOnViolation? product).eq_some_iff AddOn.areSound_nil

theorem firstFault_violation? :
    FirstFault (fun before => violation? (before.map (·.id)).reverse) Product.AreSound
      (fun before product => product.Breaks before) where
  nil _ := rfl
  of_sound {before product} rest h := by
    obtain ⟨-, hid, hprice, haddOns⟩ := Product.areSound_concat_iff.mp h
    have hseen : (before.map (·.id)).reverse.contains product.id = false := by simpa using hid
    rw [violation?, hseen, Product.isPriced_iff.mp hprice,
      addOnViolation?_eq_none_iff.mpr haddOns, List.map_append, List.reverse_append]
    rfl
  of_breaks {before product violation} rest h := by
    cases h with
    | duplicate hid =>
      have hseen : (before.map (·.id)).reverse.contains product.id = true := by simpa using hid
      rw [violation?, hseen]
      rfl
    | basePrice hid hprice =>
      have hseen : (before.map (·.id)).reverse.contains product.id = false := by simpa using hid
      rw [Product.isPriced_iff, Bool.not_eq_false] at hprice
      rw [violation?, hseen, hprice]
      rfl
    | addOn hid hprice haddOns hfirst hbreaks =>
      have hseen : (before.map (·.id)).reverse.contains product.id = false := by simpa using hid
      have hstop : addOnViolation? product.id [] product.addOns = some violation :=
        addOnViolation?_eq_some_iff.mpr ⟨_, _, _, haddOns, hfirst, hbreaks⟩
      rw [violation?, hseen, Product.isPriced_iff.mp hprice, hstop]
      rfl
  sound_or_breaks {before} product h := by
    by_cases hid : product.id ∈ before.map (·.id)
    · exact .inr ⟨_, .duplicate hid⟩
    · by_cases hprice : product.IsPriced
      · cases hviolation : addOnViolation? product.id [] product.addOns with
        | none =>
          have haddOns := addOnViolation?_eq_none_iff.mp hviolation
          exact .inl (Product.areSound_concat_iff.mpr ⟨h, hid, hprice, haddOns⟩)
        | some violation =>
          obtain ⟨first, addOn, rest, haddOns, hfirst, hbreaks⟩ :=
            addOnViolation?_eq_some_iff.mp hviolation
          exact .inr ⟨violation, .addOn hid hprice haddOns hfirst hbreaks⟩
      · exact .inr ⟨_, .basePrice hid hprice⟩
  sound_before := Product.areSound_of_append

/-- A catalog is made of sound products, and of no others. -/
theorem check_eq_ok_iff {products : List Product} {advisories : List Advisory}
    {catalog : Catalog} : check products advisories = .ok catalog ↔
      Product.AreSound products ∧ catalog = ⟨products, advisories⟩ := by
  have hnone : violation? [] products = none ↔ Product.AreSound products :=
    firstFault_violation?.eq_none_iff Product.areSound_nil
  rw [check, ← hnone]
  cases violation? [] products with
  | none => simp [eq_comm]
  | some violation => simp

/-- Otherwise the first product that something is wrong with is told. -/
theorem check_eq_error_iff {products : List Product} {advisories : List Advisory}
    {violation : Violation} : check products advisories = .error violation ↔
      ∃ before product after, products = before ++ product :: after ∧ Product.AreSound before ∧
        product.Breaks before violation := by
  have hsome : violation? [] products = some violation ↔ _ :=
    firstFault_violation?.eq_some_iff Product.areSound_nil
  refine Iff.trans ?_ hsome
  rw [check]
  cases violation? [] products with
  | none => simp
  | some violation => simp

/-! ## Lookups -/

/-- A lookup in a catalog is exact: every product and every add-on is found by its id, and of no
other id is there a product. -/
structure IsExact (catalog : Catalog) : Prop where
  find : ∀ product ∈ catalog.products, catalog.find? product.id = some product
  addOn : ∀ product ∈ catalog.products, ∀ addOn ∈ product.addOns,
    product.addOn? addOn.id = some addOn
  miss : ∀ id ∉ catalog.products.map (·.id), catalog.find? id = none ∧
    ∀ rules, Pricebook.product ⟨catalog, rules⟩ id = .error (.unknownProduct id)

theorem isExact_of_areSound {catalog : Catalog} (h : Product.AreSound catalog.products) :
    catalog.IsExact where
  find _ hproduct := find?_eq_some_of_nodup h.ids hproduct
  addOn product hproduct _ haddOn := find?_eq_some_of_nodup (h.addOns product hproduct).ids haddOn
  miss id hid := by
    have hnone : catalog.find? id = none := by
      rw [find?, List.find?_eq_none]
      intro product hproduct he
      exact hid (beq_iff_eq.mp he ▸ List.mem_map_of_mem hproduct)
    refine ⟨hnone, fun rules => ?_⟩
    rw [Pricebook.product, hnone]

/-- Products make a catalog, which holds them and the advice as they are, exactly when their ids
differ, no base price is below zero, all prices are finite and so are those of add-ons, whose ids
differ within a product. Where they do not, the first product that something is wrong with is told,
all before it being sound. In a catalog so made lookups are exact. -/
theorem check_exact (products : List Product) (advisories : List Advisory) :
    (∀ catalog, check products advisories = .ok catalog ↔
      Product.AreSound products ∧ catalog = ⟨products, advisories⟩) ∧
    (∀ violation, check products advisories = .error violation ↔
      ∃ before product after, products = before ++ product :: after ∧ Product.AreSound before ∧
        product.Breaks before violation) ∧
    ∀ catalog, check products advisories = .ok catalog → catalog.IsExact := by
  refine ⟨fun _ => check_eq_ok_iff, fun _ => check_eq_error_iff, fun catalog h => ?_⟩
  obtain ⟨hsound, rfl⟩ := check_eq_ok_iff.mp h
  exact isExact_of_areSound hsound

end Catalog

end PriceQuote
