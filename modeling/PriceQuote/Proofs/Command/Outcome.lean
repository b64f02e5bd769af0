import PriceQuote.Command.Basic
import PriceQuote.Proofs.Quote.Outcome
import PriceQuote.Service.Start

/-!
# What commands report

A command that loads what it needs goes on with that, and ends in one report:

* `load_eq_ok_iff`, `load_eq_ok_iff_start`: commands load what a service would be started from;
* `run_catalog_of_load`, `run_rules_of_load`: what is listed;
* `run_validate_of_load`, `checkSelection_tells`: what is reported of a selection;
* `run_quote_of_load`: what is reported of a request in a file, in two steps;
* `readRequest`, `requestOf_of_unreadable`, `requestOf_of_malformed`, `requestOf_of_shaped`: the
  request;
* `makeQuote_of_quote`, `makeQuote_of_invalid`: the quote for it.
-/

namespace PriceQuote

/-- A service starts from settings that load and the pricebook that they name. -/
theorem Service.start_eq_ok_iff {host : Host} {options : Settings.LoadOptions}
    {started : Service.Started} :
    start host options = .ok started ↔ Settings.load host options = .ok started.settings ∧
      Pricebook.load host started.settings = .ok started.book := by
  simp only [start, bind_ok_iff, mapError_ok_iff, pure, Except.pure, Except.ok.injEq]
  constructor
  · rintro ⟨settings, hsettings, book, hbook, rfl⟩
    exact ⟨hsettings, hbook⟩
  · rintro ⟨hsettings, hbook⟩
    exact ⟨_, hsettings, _, hbook, rfl⟩

namespace Command

variable {host : Host} {options : Settings.LoadOptions} {settings : Settings} {book : Pricebook}

/-! ## Loading -/

theorem load_eq_ok_iff {command : String} : load command host options = .ok (settings, book) ↔
    Settings.load host options = .ok settings ∧ Pricebook.load host settings = .ok book := by
  simp only [load, bind_ok_iff, mapError_ok_iff, pure, Except.pure, Except.ok.injEq, Prod.mk.injEq]
  constructor
  · rintro ⟨settings', hsettings, book', hbook, rfl, rfl⟩
    exact ⟨hsettings, hbook⟩
  · rintro ⟨hsettings, hbook⟩
    exact ⟨settings, hsettings, book, hbook, rfl, rfl⟩

/-- Commands load what a service would be started from. -/
theorem load_eq_ok_iff_start {command : String} :
    load command host options = .ok (settings, book) ↔
      Service.start host options = .ok ⟨settings, book⟩ := by
  rw [load_eq_ok_iff, Service.start_eq_ok_iff]

section

variable {Time : Type} [Wire Time] (stamp : Stamp Time)

/-! ## Lists -/

theorem run_catalog_of_load {filter : Option String}
    (h : load "catalog" host options = .ok (settings, book)) :
    run host options stamp (.catalog filter) = listCatalog book.catalog filter := by
  rw [run, h]
  rfl

theorem run_rules_of_load {filter : Option String} {category : Option RuleCategory}
    (hcategory : categoryOf filter = .ok category)
    (h : load "rules" host options = .ok (settings, book)) :
    run host options stamp (.rules filter) = listRules book.rules category := by
  rw [run, hcategory]
  show ending (load "rules" host options >>= _) = _
  rw [h]
  rfl

/-! ## Selections -/

theorem run_validate_of_load {product : String} {selected : List String}
    (h : load "validate" host options = .ok (settings, book)) :
    run host options stamp (.validate product selected) =
      checkSelection book.catalog product selected := by
  rw [run, h]
  rfl

/-- The exit code says whether the selection is valid, and the data what was found. -/
theorem checkSelection_tells (catalog : Catalog) (product : String) (selected : List String) :
    let result := catalog.validate ⟨Text.trim product⟩ (selected.map fun id => ⟨Text.trim id⟩)
    let report := checkSelection catalog product selected
    (report.exitCode = 0 ↔ result.isValid = true) ∧ report.data = some (Wire.encode result) := by
  intro result report
  have hreport : report = checkSelection catalog product selected := rfl
  unfold checkSelection at hreport
  dsimp only at hreport
  rw [← show result = catalog.validate _ _ from rfl] at hreport
  cases hvalid : result.isValid with
  | true =>
    rw [hreport, hvalid]
    exact ⟨⟨fun _ => rfl, fun _ => rfl⟩, rfl⟩
  | false =>
    rw [hreport, hvalid]
    exact ⟨⟨nofun, nofun⟩, rfl⟩

/-! ## Requests -/

/-- A request in a file is read with the settings that are loaded and answered from the
pricebook. -/
theorem run_quote_of_load {file text : String}
    (h : load "quote" host options = .ok (settings, book)) (hfile : host.readText file = .ok text) :
    run host options stamp (.quote file) =
      ending ((requestOf settings text).map (makeQuote book stamp)) := by
  rw [run, h]
  show ending (quoteFile host settings book stamp file) = _
  rw [quoteFile, hfile]
  show ending (requestOf settings text >>= fun request => pure (makeQuote book stamp request)) = _
  cases requestOf settings text <;> rfl

end

/-- Reads a request, well formed or not. -/
def readRequest (text : String) : Except Fault QuoteRequest :=
  Reader.ofText Wire.read (Document.ofJsonText text)

section

variable {text : String} {request : QuoteRequest}

theorem requestOf_of_unreadable {fault : Fault} (h : readRequest text = .error fault) :
    requestOf settings text =
      .error (.failure "quote" .requestMalformed s!"invalid quote request: {fault.message}") := by
  show ((readRequest text).mapError _ >>= _) = _
  rw [h]
  rfl

theorem requestOf_of_malformed {problem : ShapeProblem}
    (h : readRequest text = .ok request)
    (hshape : request.shapeProblem? settings.maxConfigurations.toNat = some problem) :
    requestOf settings text = .error (.failure "quote" .requestMalformed problem.message) := by
  show ((readRequest text).mapError _ >>= _) = _
  rw [h]
  simp only [Except.mapError, bind, Except.bind, hshape]

theorem requestOf_of_shaped (h : readRequest text = .ok request)
    (hshape : request.shapeProblem? settings.maxConfigurations.toNat = none) :
    requestOf settings text = .ok request := by
  show ((readRequest text).mapError _ >>= _) = _
  rw [h]
  simp only [Except.mapError, bind, Except.bind, hshape, pure, Except.pure]

variable {Time : Type} [Wire Time] {stamp : Stamp Time}

theorem makeQuote_of_quote {quote : Quote Time} (h : book.quote stamp request = .ok quote) :
    makeQuote book stamp request =
      .success "quote" s!"quote {quote.id} total {quote.total.toHundredths}"
        (Wire.encode quote) := by
  rw [makeQuote, h]

theorem makeQuote_of_invalid {message : String} {failures : List ItemValidation}
    (h : book.quote stamp request = .error (.invalid message failures)) :
    makeQuote book stamp request =
      { Report.failure "quote" .configurationInvalid message with
        data := some (failuresJson failures) } := by
  rw [makeQuote, h]

end

end Command

end PriceQuote
