import PriceQuote.Proofs.Catalog.Categories
import PriceQuote.Proofs.Command.Outcome
import PriceQuote.Proofs.Command.Report
import PriceQuote.Proofs.Settings.Defaults
import PriceQuote.Proofs.Text.Blank
import PriceQuote.Service.Router

/-!
# Products, wherever they are listed

Products are listed by the service and on the command line, all of them or those of one category.
Both look at the filter on their own:

* `Catalog.Lists`: the products that a filter asks for;
* `listProducts_of_lists`, `listCatalog_of_lists`: each way lists them;
* `categories_partition`: the categories partition what is listed without a filter into what is
  listed with one.
-/

namespace PriceQuote

/-- The products that a filter asks for: all of them where it says nothing, else those of the
category that it is. White space around a category is left open here. -/
inductive Catalog.Lists (catalog : Catalog) : Option String → List Product → Prop
  | absent : Lists catalog none catalog.products
  | blank {filter : String} (hblank : ∀ c ∈ filter.toList, c.toNat ∈ Text.whiteSpace) :
    Lists catalog (some filter) catalog.products
  | category {filter : String} (htrimmed : Text.IsTrimmed filter)
    (hsome : ∃ c ∈ filter.toList, c.toNat ∉ Text.whiteSpace) :
    Lists catalog (some filter) (catalog.byCategory filter)

variable {catalog : Catalog} {filter : Option String} {products : List Product}

/-! ## The service -/

/-- The query of an address asks for a category, or for none. -/
def Service.Uri.Asks (uri : Uri) (filter : Option String) : Prop :=
  (formFields (uri.query.getD "")).filter (·.1 = "category") =
    (filter.map fun category => ("category", category)).toList

theorem Service.listProducts_of_lists {service : Service} {uri : Uri} (hasks : uri.Asks filter)
    (h : service.book.catalog.Lists filter products) :
    service.listProducts uri.query = .ok products := by
  unfold Uri.Asks at hasks
  rw [listProducts, hasks]
  cases h with
  | absent => rfl
  | blank hblank =>
    exact if_pos (Text.allBlank_iff.mpr hblank)
  | @category category htrimmed hsome =>
    refine (if_neg ?_).trans ?_
    · rw [Text.allBlank_eq_false_iff.mpr hsome]
      exact Bool.false_ne_true
    · rw [Text.trim_eq_self_iff.mpr htrimmed]

theorem Service.respond_products {Time : Type} [Wire Time] {service : Service}
    {occasion : Occasion Time} {request : Request} (hmethod : request.method = "GET")
    (hpath : (Uri.ofText request.uri).path = "/api/v1/products") :
    service.respond occasion request = service.listProducts (Uri.ofText request.uri).query := by
  have hroute : Route.ofPath? (Uri.ofText request.uri).path = some .products := by
    rw [hpath]
    decide +kernel
  simp only [respond, hroute, Route.takesBody, hmethod, Bool.false_eq_true, ↓reduceIte]
  rfl

/-! ## The command line -/

/-- An option that says nothing is none. -/
theorem Command.filterOf_of_blank {text : String}
    (h : ∀ c ∈ text.toList, c.toNat ∈ Text.whiteSpace) : filterOf (some text) = none := by
  have hempty : Text.trim text = "" := Text.trim_eq_empty_iff.mpr (Text.allBlank_iff.mpr h)
  rw [filterOf, Option.map_some, hempty]
  rfl

theorem Command.filterOf_of_trimmed {text : String} (htrimmed : Text.IsTrimmed text)
    (hsome : ∃ c ∈ text.toList, c.toNat ∉ Text.whiteSpace) :
    filterOf (some text) = some text := by
  have hself : Text.trim text = text := Text.trim_eq_self_iff.mpr htrimmed
  have hne : text ≠ "" := by
    rintro rfl
    obtain ⟨c, hc, -⟩ := hsome
    cases hc
  rw [filterOf, Option.map_some, hself]
  exact Option.filter_some_pos (decide_eq_true hne)

theorem Command.listCatalog_of_lists (h : catalog.Lists filter products) :
    (listCatalog catalog filter).errorClass = none ∧
      (listCatalog catalog filter).data.bind (·.field? "products") =
        some (Wire.encode products) := by
  cases h with
  | absent => exact ⟨rfl, rfl⟩
  | blank hblank =>
    rw [listCatalog, filterOf_of_blank hblank]
    exact ⟨rfl, rfl⟩
  | category htrimmed hsome =>
    rw [listCatalog, filterOf_of_trimmed htrimmed hsome]
    exact ⟨rfl, rfl⟩

/-! ## Both -/

/-- The categories of a catalog partition its products, by the lists that are shown of each. For a
filter the service and the command list the same products: those of the category that it is, or all
of them where it says nothing. -/
theorem categories_partition (book : Pricebook) :
    book.catalog.IsPartition book.catalog.categories book.catalog.byCategory ∧
    ∀ (filter : Option String) (products : List Product), book.catalog.Lists filter products →
      ∀ {Time : Type} [Wire Time],
      (∀ (limit : Nat) (occasion : Service.Occasion Time) (request : Service.Request),
        request.method = "GET" →
        (Service.Uri.ofText request.uri).path = "/api/v1/products" →
        (Service.Uri.ofText request.uri).Asks filter →
        Service.respond ⟨book, limit⟩ occasion request =
          ⟨200, .json (Wire.encode products)⟩) ∧
      ∀ (host : Host) (options : Settings.LoadOptions) (settings : Settings) (stamp : Stamp Time),
        Command.load "catalog" host options = .ok (settings, book) →
        let report := Command.run host options stamp (.catalog filter)
        report.exitCode = 0 ∧
          (report.toJson.field? "data").bind (·.field? "products") =
            some (Wire.encode products) := by
  refine ⟨book.catalog.isPartition_categories, fun filter products h Time _ => ⟨?_, ?_⟩⟩
  · intro limit occasion request hmethod hpath hasks
    rw [Service.respond_products hmethod hpath]
    exact Service.listProducts_of_lists hasks h
  · intro host options settings stamp hload report
    have hreport : report = Command.listCatalog book.catalog filter :=
      Command.run_catalog_of_load stamp hload
    obtain ⟨hclass, hdata⟩ := Command.listCatalog_of_lists h
    rw [hreport, Command.Report.field?_data]
    exact ⟨by rw [Command.Report.exitCode, hclass], hdata⟩

/-- The databases of the standard catalog, asked for with their category, and all products, asked
for with a query that says nothing. -/
theorem categories_partition_databases :
    let service : Service := ⟨.standard, 100⟩
    let occasion : Service.Occasion String := ⟨"r-1", "q-1", "today"⟩
    let databases := Catalog.standard.byCategory "database"
    let host : Host := ⟨fun _ => none, fun _ => none⟩
    databases.map (·.id.text) = ["database-postgres", "database-redis"] ∧
    service.respond occasion ⟨"GET", "/api/v1/products?category=data%62ase", none, ""⟩ =
      ⟨200, .json (Wire.encode databases)⟩ ∧
    service.respond occasion ⟨"GET", "/api/v1/products?category=+%e2%80%83", none, ""⟩ =
      ⟨200, .json (Wire.encode Catalog.standard.products)⟩ ∧
    Command.load "catalog" host (.ofPath none) = .ok (.default, .standard) ∧
    ((Command.run host (.ofPath none) occasion.stamp (.catalog (some "database"))).toJson.field?
      "data").bind (·.field? "products") = some (Wire.encode databases) := by
  intro service occasion databases host
  have hdatabases : Catalog.standard.Lists (some "database") databases :=
    .category (Text.trim_eq_self_iff.mp (by decide +kernel)) ⟨'d', by decide, by decide⟩
  have hall : Catalog.standard.Lists (some " \u2003") Catalog.standard.products :=
    .blank (Text.allBlank_iff.mp (by decide +kernel))
  have hload : Command.load "catalog" host (.ofPath none) = .ok (.default, .standard) :=
    Command.load_eq_ok_iff.mpr ⟨Settings.load_of_unconfigured ⟨fun _ _ => rfl, fun _ => rfl⟩,
      Pricebook.load_default host⟩
  exact ⟨by decide +kernel,
    ((categories_partition .standard).2 _ _ hdatabases).1 100 occasion _ rfl (by decide +kernel)
      (by unfold Service.Uri.Asks; decide +kernel),
    ((categories_partition .standard).2 _ _ hall).1 100 occasion _ rfl (by decide +kernel)
      (by unfold Service.Uri.Asks; decide +kernel),
    hload,
    (((categories_partition .standard).2 _ _ hdatabases).2 host _ _ occasion.stamp hload).2⟩

end PriceQuote
