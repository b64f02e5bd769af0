import PriceQuote.Catalog.Basic
import PriceQuote.Proofs.Distinct

/-!
# Categories partition the catalog

* `flatMap_filter_perm`: the classes of a list, one after the other, have every entry of it once;
* `pairwise_findIdx_eraseDups`: values that are kept once ascend by the places where they first
  occur;
* `Catalog.IsPartition`, `Catalog.isPartition_categories`: so the lists of the categories hold every
  product once, and there is no other category.
-/

namespace PriceQuote

section

variable {α β : Type} [DecidableEq β] (key : α → β)

/-- Each entry with one of some keys is in the class of its key, and in no other. -/
theorem flatMap_filter_perm {keys : List β} (hkeys : keys.Nodup) (xs : List α) :
    (keys.flatMap fun k => xs.filter fun x => key x == k).Perm
      (xs.filter fun x => decide (key x ∈ keys)) := by
  induction keys with
  | nil => simp
  | cons k keys ih =>
    obtain ⟨hk, hkeys⟩ := List.nodup_cons.mp hkeys
    have hclass : (xs.filter fun x => decide (key x ∈ k :: keys)).filter (fun x => key x == k) =
        xs.filter fun x => key x == k := by
      rw [List.filter_filter]
      refine List.filter_congr fun x _ => ?_
      by_cases hx : key x = k <;> simp [hx]
    have hothers : (xs.filter fun x => decide (key x ∈ k :: keys)).filter
        (fun x => !(key x == k)) = xs.filter fun x => decide (key x ∈ keys) := by
      rw [List.filter_filter]
      refine List.filter_congr fun x _ => ?_
      by_cases hx : key x = k <;> simp [hx, hk]
    have hsplit := List.filter_append_perm (fun x => key x == k)
      (xs.filter fun x => decide (key x ∈ k :: keys))
    rw [hclass, hothers] at hsplit
    rw [List.flatMap_cons]
    exact ((ih hkeys).append_left _).trans hsplit

/-- Values that are kept once stand in the order of the first entries that have them. -/
theorem pairwise_findIdx_eraseDups (xs : List α) :
    (xs.map key).eraseDups.Pairwise fun a b =>
      xs.findIdx (fun x => key x == a) < xs.findIdx (fun x => key x == b) := by
  have hplace : ∀ entry ∈ firstPlaces (xs.map key),
      xs.findIdx (fun x => key x == entry.1) = entry.2 := by
    rintro ⟨k, i⟩ hentry
    obtain ⟨hfound, hbefore⟩ := mem_firstPlaces.mp hentry
    rw [List.getElem?_map, Option.map_eq_some_iff] at hfound
    obtain ⟨x, hx, rfl⟩ := hfound
    obtain ⟨hi, rfl⟩ := List.getElem?_eq_some_iff.mp hx
    rw [List.findIdx_eq hi]
    refine ⟨beq_self_eq_true _, fun j hj => beq_eq_false_iff_ne.mpr fun he => hbefore ?_⟩
    rw [List.mem_take_iff_getElem]
    exact ⟨j, by simpa using ⟨hj, hj.trans hi⟩, by simpa using he⟩
  rw [← map_fst_firstPlaces, List.pairwise_map]
  refine (pairwise_firstPlaces _).imp_of_mem fun ha hb hab => ?_
  rwa [hplace _ ha, hplace _ hb]

end

namespace Catalog

/-- Some texts partition the products of a catalog into lists: they are the categories of products,
each once and in the order of their first products, every list has the products of its category in
the order of their declaration, and together the lists have every product as often as the catalog.
For no other text is there a product. -/
structure IsPartition (catalog : Catalog) (categories : List String)
    (products : String → List Product) : Prop where
  nodup : categories.Nodup
  mem_iff : ∀ category, category ∈ categories ↔
    ∃ product ∈ catalog.products, product.category = category
  ascending : categories.Pairwise fun a b =>
    catalog.products.findIdx (fun product => product.category == a) <
      catalog.products.findIdx (fun product => product.category == b)
  sublist : ∀ category, (products category).Sublist catalog.products
  category_eq : ∀ category, ∀ product ∈ products category, product.category = category
  nonempty : ∀ category ∈ categories, products category ≠ []
  perm : (categories.flatMap products).Perm catalog.products
  empty : ∀ category ∉ categories, products category = []

variable {catalog : Catalog} {category : String}

theorem mem_categories_iff : category ∈ catalog.categories ↔
    ∃ product ∈ catalog.products, product.category = category := by
  rw [categories, List.mem_eraseDups, List.mem_map]

theorem mem_byCategory_iff {product : Product} : product ∈ catalog.byCategory category ↔
    product ∈ catalog.products ∧ product.category = category := by
  rw [byCategory, List.mem_filter, beq_iff_eq]

theorem byCategory_ne_nil_iff : catalog.byCategory category ≠ [] ↔
    category ∈ catalog.categories := by
  rw [mem_categories_iff, ne_eq, byCategory, List.filter_eq_nil_iff]
  simp only [beq_iff_eq, not_forall, not_not, exists_prop]

/-- The categories partition the products. -/
theorem isPartition_categories (catalog : Catalog) :
    catalog.IsPartition catalog.categories catalog.byCategory where
  nodup := nodup_eraseDups _
  mem_iff _ := mem_categories_iff
  ascending := pairwise_findIdx_eraseDups _ _
  sublist _ := List.filter_sublist
  category_eq _ _ hproduct := (mem_byCategory_iff.mp hproduct).2
  nonempty _ hcategory := byCategory_ne_nil_iff.mpr hcategory
  perm := by
    have hall : (catalog.products.filter fun product =>
        decide (product.category ∈ catalog.categories)) = catalog.products := by
      rw [List.filter_eq_self]
      intro product hproduct
      exact decide_eq_true (mem_categories_iff.mpr ⟨product, hproduct, rfl⟩)
    exact (flatMap_filter_perm (·.category) (nodup_eraseDups _) catalog.products).trans (.of_eq hall)
  empty _ hcategory := by
    by_contra hne
    exact hcategory (byCategory_ne_nil_iff.mp hne)

end Catalog

end PriceQuote
