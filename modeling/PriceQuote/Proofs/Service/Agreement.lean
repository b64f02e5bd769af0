import PriceQuote.Proofs.Command.Outcome
import PriceQuote.Proofs.Command.Report
import PriceQuote.Proofs.Quote.Shape
import PriceQuote.Proofs.Service.Outcome
import PriceQuote.Proofs.Settings.Defaults
import PriceQuote.Proofs.Text.Blank

/-!
# Valid wherever it is asked

Whether a configuration is valid can be asked alone, together with others, by asking for its price,
by asking for a quote and on the command line. Each way has checks of its own before it validates;
for orders, as many as are accepted, they have nothing to say:

* `IsBasket`: such a list of orders;
* `validateBatch_of_basket`, `validateOne_of_basket`, `calculatePricing_of_basket`,
  `createQuote_of_basket`: each way answers that all is well when the configurations validate;
* `ShowAlike`, `showAlike_of_load`: the command shows what the service does;
* `surfaces_agree`: all of it together.
-/

namespace PriceQuote

namespace Service

variable {service : Service} {configurations : List Configuration} {item : Configuration}

/-! ## Baskets -/

/-- A list of orders that may be asked for together. -/
structure IsBasket (service : Service) (configurations : List Configuration) : Prop where
  nonempty : configurations ≠ []
  length_le : configurations.length ≤ service.limit
  orders : ∀ item ∈ configurations, item.IsOrder

/-- Nothing is wrong with the shape of a basket. -/
theorem IsBasket.problem?_eq_none (h : service.IsBasket configurations) :
    configurationsProblem? configurations service.limit = none :=
  configurationsProblem?_eq_none_iff.mpr ⟨h.nonempty, h.length_le, h.orders⟩

theorem IsBasket.problem?_singleton (h : service.IsBasket configurations)
    (hitem : item ∈ configurations) : configurationsProblem? [item] service.limit = none :=
  configurationsProblem?_singleton
    (Nat.lt_of_lt_of_le (List.length_pos_of_mem hitem) h.length_le) (h.orders item hitem)

theorem validateBatch_of_basket (correlationId : String) (h : service.IsBasket configurations) :
    (service.validateBatch correlationId ⟨configurations⟩).status = 200 ↔
      service.book.catalog.AllValidate configurations :=
  (validateBatch_status_iff correlationId).trans (and_iff_right h.problem?_eq_none)

theorem validateOne_of_basket (correlationId : String) (h : service.IsBasket configurations) :
    (∀ item ∈ configurations,
      (service.validateOne correlationId ⟨item.productId, item.selected⟩).status = 200) ↔
        service.book.catalog.AllValidate configurations :=
  forall₂_congr fun item hitem =>
    (validateOne_status_iff correlationId).trans (and_iff_right (h.orders item hitem).named)

theorem calculatePricing_of_basket (correlationId : String) (tier region : Option String)
    (fields : Option (List (String × Json))) (h : service.IsBasket configurations) :
    (∀ item ∈ configurations,
      (service.calculatePricing correlationId ⟨item, tier, region, fields⟩).status = 200) ↔
        service.book.catalog.AllValidate configurations :=
  forall₂_congr fun item hitem => by
    rw [calculatePricing_status_iff, and_iff_right (h.problem?_singleton hitem),
      Catalog.allValidate_singleton_iff]

theorem createQuote_of_basket {Time : Type} [Wire Time] (occasion : Occasion Time)
    (tier region : Option String) (fields : Option (List (String × Json)))
    (h : service.IsBasket configurations) :
    (service.createQuote occasion ⟨configurations, tier, region, fields, none⟩).status = 200 ↔
      service.book.catalog.AllValidate configurations :=
  createQuote_status_iff.trans <| and_iff_right <|
    QuoteRequest.shapeProblem?_eq_none_iff.mpr ⟨h.problem?_eq_none, rfl⟩

/-! ## The command line -/

/-- A selection names a product, and there is no white space at the ends of its texts. -/
structure SelectionBody.IsTrim (body : SelectionBody) : Prop where
  named : ∃ c ∈ body.productId.text.toList, c.toNat ∉ Text.whiteSpace
  product : Text.IsTrimmed body.productId.text
  addOns : ∀ id ∈ body.selected, Text.IsTrimmed id.text

/-- Such a selection is what the command makes of its texts. -/
theorem SelectionBody.IsTrim.addOns_eq {body : SelectionBody} (h : body.IsTrim) :
    (body.selected.map (·.text)).map (fun id => (⟨Text.trim id⟩ : AddOnId)) = body.selected := by
  rw [List.map_map]
  refine (List.map_congr_left fun id hid => ?_).trans (List.map_id _)
  exact congrArg AddOnId.mk (Text.trim_eq_self_iff.mpr (h.addOns id hid))

/-- A report and a response both show what was found out about a selection: that it is valid, or in
detail what is wrong with it. -/
structure ShowAlike (report : Command.Report) (answer : Response) (result : Validation) : Prop where
  status_iff : report.exitCode = 0 ↔ answer.status = 200
  data : report.toJson.field? "data" = some (Wire.encode result)
  valid : result.isValid = true → answer = ⟨200, .json (Wire.encode result)⟩
  invalid : result.isValid = false →
    answer.status = 400 ∧ answer.field? "details" = some (Wire.encode result)

/-- The command finds out about a selection what the service finds out. -/
theorem showAlike_of_load {host : Host} {options : Settings.LoadOptions} {settings : Settings}
    (hload : Command.load "validate" host options = .ok (settings, service.book))
    {body : SelectionBody} (h : body.IsTrim) {Time : Type} [Wire Time] (stamp : Stamp Time)
    (correlationId : String) :
    ShowAlike (Command.run host options stamp
        (.validate body.productId.text (body.selected.map (·.text))))
      (service.validateOne correlationId body)
      (service.book.catalog.validate body.productId body.selected) := by
  have hnamed : Text.allBlank body.productId.text = false := Text.allBlank_eq_false_iff.mpr h.named
  have hreport := Command.checkSelection_tells service.book.catalog body.productId.text
    (body.selected.map (·.text))
  rw [← Command.run_validate_of_load stamp hload, Text.trim_eq_self_iff.mpr h.product,
    h.addOns_eq] at hreport
  have hanswer : service.validateOne correlationId body = _ :=
    validateOne_of_named correlationId hnamed
  exact {
    status_iff := by rw [hreport.1, validateOne_status_iff, and_iff_right hnamed]
    data := by rw [Command.Report.field?_data, hreport.2]
    valid := fun hvalid => by
      rw [hanswer]
      exact if_pos hvalid
    invalid := fun hinvalid => by
      rw [hanswer]
      dsimp only
      rw [hinvalid, if_neg Bool.false_ne_true]
      exact ⟨rfl, Response.error_details ..⟩ }

/-! ## All ways -/

/-- A basket has a quote exactly when it is found valid as a whole, exactly when each of its orders
is found valid alone, and exactly when each has a price alone. The command finds a selection valid
exactly when the service does that loads the same, and both show the same result. -/
theorem surfaces_agree (service : Service) :
    (∀ configurations, service.IsBasket configurations →
      ∀ {Time : Type} [Wire Time] (occasion : Occasion Time) (correlationId : String)
        (tier region tier' region' : Option String)
        (fields fields' : Option (List (String × Json))),
      let quoted :=
        (service.createQuote occasion ⟨configurations, tier, region, fields, none⟩).status = 200
      (quoted ↔ (service.validateBatch correlationId ⟨configurations⟩).status = 200) ∧
      (quoted ↔ ∀ item ∈ configurations,
        (service.validateOne correlationId ⟨item.productId, item.selected⟩).status = 200) ∧
      (quoted ↔ ∀ item ∈ configurations,
        (service.calculatePricing correlationId ⟨item, tier', region', fields'⟩).status = 200)) ∧
    ∀ (host : Host) (options : Settings.LoadOptions) (settings : Settings),
      Command.load "validate" host options = .ok (settings, service.book) →
      ∀ body : SelectionBody, body.IsTrim →
      ∀ {Time : Type} [Wire Time] (stamp : Stamp Time) (correlationId : String),
      ShowAlike (Command.run host options stamp
          (.validate body.productId.text (body.selected.map (·.text))))
        (service.validateOne correlationId body)
        (service.book.catalog.validate body.productId body.selected) := by
  refine ⟨fun configurations h Time _ occasion correlationId tier region tier' region' fields
    fields' => ?_, fun host options settings hload body hbody Time _ stamp correlationId =>
      showAlike_of_load hload hbody stamp correlationId⟩
  intro quoted
  have hquoted : quoted ↔ service.book.catalog.AllValidate configurations :=
    createQuote_of_basket occasion tier region fields h
  exact ⟨hquoted.trans (validateBatch_of_basket correlationId h).symm,
    hquoted.trans (validateOne_of_basket correlationId h).symm,
    hquoted.trans (calculatePricing_of_basket correlationId tier' region' fields' h).symm⟩

/-- A virtual machine with backups that have nowhere to go: there is no quote for it together with
one that is in order, it has no price, and the command does not let it pass either. -/
theorem surfaces_agree_machines :
    let service : Service := ⟨.standard, 100⟩
    let machine : Configuration := ⟨⟨"compute-standard"⟩, [⟨"ssd-storage"⟩, ⟨"backup"⟩], 3, []⟩
    let lacking : Configuration := ⟨⟨"compute-standard"⟩, [⟨"backup"⟩], 1, []⟩
    let host : Host := ⟨fun _ => none, fun _ => none⟩
    service.IsBasket [machine, lacking] ∧
    (service.createQuote ⟨"", "", ""⟩ ⟨[machine, lacking], none, none, none, none⟩).status ≠ 200 ∧
    ¬ (∀ item ∈ [machine, lacking],
      (service.calculatePricing "" ⟨item, none, none, none⟩).status = 200) ∧
    Command.load "validate" host (.ofPath none) = .ok (.default, service.book) ∧
    (⟨lacking.productId, lacking.selected⟩ : SelectionBody).IsTrim ∧
    (Command.run host (.ofPath none) ⟨"", ""⟩ (.validate "compute-standard" ["backup"])).exitCode ≠
      0 := by
  intro service machine lacking host
  have hbasket : service.IsBasket [machine, lacking] :=
    ⟨List.cons_ne_nil _ _, by decide, by
      rintro item (_ | ⟨_, _ | ⟨_, ⟨⟩⟩⟩) <;> exact ⟨by decide +kernel, by decide⟩⟩
  have hload : Command.load "validate" host (.ofPath none) = .ok (.default, service.book) :=
    Command.load_eq_ok_iff.mpr ⟨Settings.load_of_unconfigured ⟨fun _ _ => rfl, fun _ => rfl⟩,
      Pricebook.load_default host⟩
  have htrim : (⟨lacking.productId, lacking.selected⟩ : SelectionBody).IsTrim :=
    ⟨⟨'c', by decide, by decide⟩, Text.trim_eq_self_iff.mp (by decide +kernel), fun id hid =>
      Text.trim_eq_self_iff.mp (List.mem_singleton.mp hid ▸ by decide +kernel)⟩
  have hlacking : (service.validateOne "" ⟨lacking.productId, lacking.selected⟩).status ≠ 200 := by
    decide +kernel
  obtain ⟨-, hone, hprice⟩ := (surfaces_agree service).1 [machine, lacking] hbasket
    (⟨"", "", ""⟩ : Occasion String) "" none none none none none none
  have hquoted : (service.createQuote (⟨"", "", ""⟩ : Occasion String)
      ⟨[machine, lacking], none, none, none, none⟩).status ≠ 200 := fun hstatus =>
    hlacking (hone.mp hstatus lacking (by simp))
  have hexit := ((surfaces_agree service).2 host (.ofPath none) .default hload
    ⟨lacking.productId, lacking.selected⟩ htrim (⟨"", ""⟩ : Stamp String) "").status_iff
  exact ⟨hbasket, hquoted, fun hall => hquoted (hprice.mpr hall), hload, htrim,
    fun h => hlacking (hexit.mp h)⟩

end Service

end PriceQuote
