import PriceQuote.Proofs.Command.Outcome
import PriceQuote.Proofs.Command.Report
import PriceQuote.Proofs.Text.Blank

/-!
# Exit codes

A command loads what it needs, stage by stage, and answers. Its exit code tells a refusal from a
failure to load, whatever is asked and whatever the host has:

* `LacksTables`, `Pricebook.load_error_iff`: the files that a pricebook may lack;
* `AsksUnknown`: a command that is looked at no further;
* `FailsToLoad`, `exists_errorClass_of_failsToLoad`: the stages, in order, and that the first which fails
  decides what is reported;
* `IsRefused`, `decides_of_loads`: what is refused once all is loaded, and that anything else is
  answered;
* `exit_code_classifies`: the exit code and the document, for every command.
-/

namespace PriceQuote

variable {host : Host} {options : Settings.LoadOptions}

/-! ## Tables -/

/-- What is read from a file if one is named, else what is standard. -/
def Pricebook.ofNamed {ε α : Type} (read : String → Except ε α) (say : ε → Failure) (standard : α) :
    Option String → Except Failure α
  | some path => (read path).mapError say
  | none => .ok standard

theorem Pricebook.ofNamed_error_iff {ε α : Type} {read : String → Except ε α} {say : ε → Failure}
    {standard : α} {named : Option String} :
    (∃ failure, ofNamed read say standard named = .error failure) ↔
      ∃ path, named = some path ∧ ∃ error, read path = .error error := by
  cases named with
  | none => simp [ofNamed]
  | some path => simp [ofNamed, mapError_error_iff]

theorem Pricebook.load_eq (host : Host) (settings : Settings) : load host settings =
    (ofNamed (Catalog.ofFile host) (.catalog ·.message) .standard settings.catalogPath >>=
      fun catalog =>
        ofNamed (Rule.tableOfFile host) (.rules ·.message) Rule.standard settings.rulesPath >>=
      fun rules => pure ⟨catalog, rules.map .ofRule⟩) := by
  rw [load]
  cases settings.catalogPath <;> cases settings.rulesPath <;> rfl

/-- A file that the settings name for the catalog or for the rules does not load. -/
def Settings.LacksTables (settings : Settings) (host : Host) : Prop :=
  (∃ path, settings.catalogPath = some path ∧ ∃ error, Catalog.ofFile host path = .error error) ∨
    ∃ path, settings.rulesPath = some path ∧ ∃ error, Rule.tableOfFile host path = .error error

/-- There is no pricebook where a file that it needs does not load. -/
theorem Pricebook.load_error_iff {settings : Settings} :
    (∃ failure, load host settings = .error failure) ↔ settings.LacksTables host := by
  have hcatalog := @ofNamed_error_iff _ _ (Catalog.ofFile host) (.catalog ·.message) .standard
    settings.catalogPath
  have hrules := @ofNamed_error_iff _ _ (Rule.tableOfFile host) (.rules ·.message) Rule.standard
    settings.rulesPath
  rw [Settings.LacksTables, ← hcatalog, ← hrules, load_eq]
  simp only [bind_error_iff]
  cases ofNamed (Catalog.ofFile host) (.catalog ·.message) .standard settings.catalogPath with
  | error failure => simp
  | ok catalog => simp [pure, Except.pure]

namespace Command

/-! ## Reports -/

/-- A report refuses what has to be refused with exit code 1, and answers else with data. -/
inductive Report.Decides (report : Report) (refused : Prop) : Prop
  | refusal (hcode : report.exitCode = 1) (hrefused : refused)
  | answer (hcode : report.exitCode = 0) (hdata : report.data.isSome) (hnot : ¬ refused)

/-! ## Stages -/

/-- The command filters rules by what is the label of no category. -/
def AsksUnknown (command : Command) : Prop :=
  ∃ text, command = .rules (some text) ∧
    ∀ label ∈ ["volume", "customer_tier", "bundle", "regional", "promotional"],
      ¬ Text.Bears text label

/-- A stage fails for a command, and none before it does; this is what such a failure is called. The
last stage is only for a command that reads a request, and all but the first for commands that look
something up. -/
inductive FailsToLoad (host : Host) (options : Settings.LoadOptions) : Command → String → Prop
  | settings {command : Command} {error : SettingsError}
    (hsettings : Settings.load host options = .error error) :
    FailsToLoad host options command "config_validation"
  | pricebook {command : Command} {settings : Settings} (hlooks : command ≠ .config)
    (hsettings : Settings.load host options = .ok settings) (htables : settings.LacksTables host) :
    FailsToLoad host options command "pricing_load"
  | requestRead {file : String} {settings : Settings} {book : Pricebook} {cause : Unreadable}
    (hsettings : Settings.load host options = .ok settings)
    (hbook : Pricebook.load host settings = .ok book) (hfile : host.readText file = .error cause) :
    FailsToLoad host options (.quote file) "request_read"

/-- What is asked once all is loaded is refused. -/
inductive IsRefused (host : Host) (options : Settings.LoadOptions) : Command → Prop
  | selection {product : String} {selected : List String} {settings : Settings} {book : Pricebook}
    (hsettings : Settings.load host options = .ok settings)
    (hbook : Pricebook.load host settings = .ok book)
    (hinvalid : (book.catalog.validate ⟨Text.trim product⟩
      (selected.map fun id => ⟨Text.trim id⟩)).isValid = false) :
    IsRefused host options (.validate product selected)
  | unreadable {file text : String} {fault : Fault} (hfile : host.readText file = .ok text)
    (hread : readRequest text = .error fault) : IsRefused host options (.quote file)
  | malformed {file text : String} {request : QuoteRequest} {settings : Settings}
    {problem : ShapeProblem} (hsettings : Settings.load host options = .ok settings)
    (hfile : host.readText file = .ok text) (hread : readRequest text = .ok request)
    (hshape : request.shapeProblem? settings.maxConfigurations.toNat = some problem) :
    IsRefused host options (.quote file)
  | invalid {file text : String} {request : QuoteRequest} {settings : Settings} {book : Pricebook}
    (hsettings : Settings.load host options = .ok settings)
    (hbook : Pricebook.load host settings = .ok book) (hfile : host.readText file = .ok text)
    (hread : readRequest text = .ok request)
    (hinvalid : ¬ book.catalog.AllValidate request.configurations) :
    IsRefused host options (.quote file)

variable {settings : Settings} {book : Pricebook} {command : Command}

theorem load_of_settings_error {name : String} {error : SettingsError}
    (h : Settings.load host options = .error error) :
    load name host options = .error (.failure name .settings error.message) := by
  rw [load, h]
  rfl

theorem load_of_pricebook_error {name : String} {failure : Failure}
    (hsettings : Settings.load host options = .ok settings)
    (h : Pricebook.load host settings = .error failure) :
    load name host options = .error (.failure name .pricebook failure.message) := by
  rw [load, hsettings]
  show ((Pricebook.load host settings).mapError _ >>= _) = _
  rw [h]
  rfl

/-- A category is found by the texts that bear its label. -/
theorem ofText?_eq_none_iff {text : String} : RuleCategory.ofText? text = none ↔
    ∀ label ∈ ["volume", "customer_tier", "bundle", "regional", "promotional"],
      ¬ Text.Bears text label := by
  have hlabels : RuleCategory.every.map (·.label) =
      ["volume", "customer_tier", "bundle", "regional", "promotional"] := rfl
  have hword : ∀ category ∈ RuleCategory.every, category.label.toList.any Text.isBlank = false := by
    decide +kernel
  rw [← hlabels, List.forall_mem_map, RuleCategory.ofText?, RuleCategory.ofLabel?,
    List.find?_eq_none]
  refine forall₂_congr fun category hcategory => not_congr ?_
  rw [beq_iff_eq, eq_comm, Text.lowerAscii_trim_eq_iff (hword category hcategory)]

theorem exists_categoryOf {filter : Option String} (h : ¬ (rules filter).AsksUnknown) :
    ∃ category, categoryOf filter = .ok category := by
  cases filter with
  | none => exact ⟨none, rfl⟩
  | some text =>
    cases hfound : RuleCategory.ofText? text with
    | some category => exact ⟨some category, by rw [categoryOf, hfound]⟩
    | none => exact absurd ⟨text, rfl, ofText?_eq_none_iff.mp hfound⟩ h

section

variable {Time : Type} [Wire Time] (stamp : Stamp Time)

/-- A command that asks for an unknown category is looked at no further, whatever could be
loaded. -/
theorem exists_run_of_asksUnknown (h : command.AsksUnknown) :
    ∃ text, ∀ host options, run host options stamp command = unknownCategory text := by
  obtain ⟨text, rfl, hunknown⟩ := h
  have hnone : RuleCategory.ofText? text = none := ofText?_eq_none_iff.mpr hunknown
  have hcategory : categoryOf (some text) = .error (unknownCategory text) := by
    rw [categoryOf, hnone]
  refine ⟨text, fun host options => ?_⟩
  rw [run, hcategory]
  rfl

/-- Any other command that looks something up begins with loading. -/
theorem exists_run_eq (hknown : ¬ command.AsksUnknown) (hlooks : command ≠ .config) :
    ∃ (name : String) (next : Settings × Pricebook → Except Report Report),
      run host options stamp command = ending (load name host options >>= next) := by
  cases command with
  | catalog filter => exact ⟨_, _, rfl⟩
  | rules filter =>
    obtain ⟨category, hcategory⟩ := exists_categoryOf hknown
    rw [run, hcategory]
    exact ⟨_, _, rfl⟩
  | validate product selected => exact ⟨_, _, rfl⟩
  | quote file => exact ⟨_, _, rfl⟩
  | config => exact absurd rfl hlooks

/-- The first stage that fails decides what is reported. -/
theorem exists_errorClass_of_failsToLoad {failure : String} (hknown : ¬ command.AsksUnknown)
    (h : command.FailsToLoad host options failure) :
    ∃ errorClass, (run host options stamp command).errorClass = some errorClass ∧
      errorClass.label = failure ∧ errorClass.exitCode = 2 := by
  cases h with
  | settings hsettings =>
    refine ⟨.settings, ?_, rfl, rfl⟩
    by_cases hlooks : command = .config
    · subst hlooks
      rw [run, tellSettings, hsettings]
      rfl
    · obtain ⟨name, next, hrun⟩ := exists_run_eq stamp hknown hlooks
      rw [hrun, load_of_settings_error hsettings]
      rfl
  | pricebook hlooks hsettings htables =>
    refine ⟨.pricebook, ?_, rfl, rfl⟩
    obtain ⟨failure, hbook⟩ := Pricebook.load_error_iff.mpr htables
    obtain ⟨name, next, hrun⟩ := exists_run_eq stamp hknown hlooks
    rw [hrun, load_of_pricebook_error hsettings hbook]
    rfl
  | requestRead hsettings hbook hfile =>
    refine ⟨.requestRead, ?_, rfl, rfl⟩
    rw [run, load_eq_ok_iff.mpr ⟨hsettings, hbook⟩]
    show (ending (quoteFile host _ _ stamp _)).errorClass = _
    rw [quoteFile, hfile]
    rfl

/-! ## Answers -/

theorem decides_validate {product : String} {selected : List String}
    (hsettings : Settings.load host options = .ok settings)
    (hbook : Pricebook.load host settings = .ok book) :
    (run host options stamp (.validate product selected)).Decides
      (IsRefused host options (.validate product selected)) := by
  rw [run_validate_of_load stamp (load_eq_ok_iff.mpr ⟨hsettings, hbook⟩)]
  cases hvalid : (book.catalog.validate ⟨Text.trim product⟩
      (selected.map fun id => ⟨Text.trim id⟩)).isValid with
  | false =>
    refine .refusal ?_ (.selection hsettings hbook hvalid)
    simp only [checkSelection, hvalid]
    rfl
  | true =>
    obtain ⟨hcode, hdata⟩ := checkSelection_tells book.catalog product selected
    refine .answer (hcode.mpr hvalid) (Option.isSome_of_eq_some hdata) ?_
    rintro ⟨hsettings', hbook', hinvalid⟩
    cases hsettings.symm.trans hsettings'
    cases hbook.symm.trans hbook'
    cases hvalid.symm.trans hinvalid

/-- A request is refused where it cannot be understood, is malformed or asks for something that is
not valid. -/
theorem decides_quote {file text : String} (hsettings : Settings.load host options = .ok settings)
    (hbook : Pricebook.load host settings = .ok book) (hfile : host.readText file = .ok text) :
    (run host options stamp (.quote file)).Decides (IsRefused host options (.quote file)) := by
  rw [run_quote_of_load stamp (load_eq_ok_iff.mpr ⟨hsettings, hbook⟩) hfile]
  cases hread : readRequest text with
  | error fault =>
    rw [requestOf_of_unreadable hread]
    exact .refusal rfl (.unreadable hfile hread)
  | ok request =>
  cases hshape : request.shapeProblem? settings.maxConfigurations.toNat with
  | some problem =>
    rw [requestOf_of_malformed hread hshape]
    exact .refusal rfl (.malformed hsettings hfile hread hshape)
  | none =>
  rw [requestOf_of_shaped hread hshape]
  show (makeQuote book stamp request).Decides _
  by_cases hvalid : book.catalog.AllValidate request.configurations
  · obtain ⟨lines, -, hquote⟩ := Pricebook.quote_of_valid stamp hvalid
    rw [makeQuote_of_quote hquote]
    refine .answer rfl rfl fun hrefused => ?_
    cases hrefused with
    | unreadable hfile' hread' =>
      cases hfile.symm.trans hfile'
      cases hread.symm.trans hread'
    | malformed hsettings' hfile' hread' hshape' =>
      cases hsettings.symm.trans hsettings'
      cases hfile.symm.trans hfile'
      cases hread.symm.trans hread'
      cases hshape.symm.trans hshape'
    | invalid hsettings' hbook' hfile' hread' hinvalid =>
      cases hsettings.symm.trans hsettings'
      cases hbook.symm.trans hbook'
      cases hfile.symm.trans hfile'
      cases hread.symm.trans hread'
      exact hinvalid hvalid
  · rw [makeQuote_of_invalid (Pricebook.quote_of_not_valid stamp hvalid)]
    exact .refusal rfl (.invalid hsettings hbook hfile hread hvalid)

/-- Once all is loaded, every command refuses or answers. -/
theorem decides_of_loads (hknown : ¬ command.AsksUnknown)
    (hloads : ∀ failure, ¬ command.FailsToLoad host options failure) :
    (run host options stamp command).Decides (command.IsRefused host options) := by
  cases hsettings : Settings.load host options with
  | error error => exact absurd (.settings hsettings) (hloads _)
  | ok settings =>
  by_cases hlooks : command = .config
  · subst hlooks
    show (tellSettings host options).Decides _
    rw [tellSettings, hsettings]
    exact .answer rfl rfl nofun
  cases hbook : Pricebook.load host settings with
  | error failure =>
    exact absurd (.pricebook hlooks hsettings (Pricebook.load_error_iff.mp ⟨failure, hbook⟩))
      (hloads _)
  | ok book =>
  have hload (name : String) : load name host options = .ok (settings, book) :=
    load_eq_ok_iff.mpr ⟨hsettings, hbook⟩
  cases command with
  | config => exact absurd rfl hlooks
  | catalog filter =>
    rw [run_catalog_of_load stamp (hload _)]
    exact .answer rfl rfl nofun
  | rules filter =>
    obtain ⟨category, hcategory⟩ := exists_categoryOf hknown
    rw [run_rules_of_load stamp hcategory (hload _)]
    exact .answer rfl rfl nofun
  | validate product selected => exact decides_validate stamp hsettings hbook
  | quote file =>
    cases hfile : host.readText file with
    | error cause => exact absurd (.requestRead hsettings hbook hfile) (hloads _)
    | ok text => exact decides_quote stamp hsettings hbook hfile

/-! ## Classification -/

/-- What a report tells of a command: its document by its exit code, and its exit code by what the
host has and what is asked. -/
structure Classifies (host : Host) (options : Settings.LoadOptions) (command : Command)
    (report : Report) : Prop where
  status_iff : report.toJson.field? "status" = some (.string "ok") ↔ report.exitCode = 0
  errorClass_iff : report.toJson.field? "error_class" = some .null ↔ report.exitCode = 0
  data : report.exitCode = 0 → ∃ data, report.toJson.field? "data" = some data
  /-- The exit code is 2 where something fails to load, unless nothing is loaded. -/
  loading_iff : report.exitCode = 2 ↔
    ¬ command.AsksUnknown ∧ ∃ failure, command.FailsToLoad host options failure
  loading : ¬ command.AsksUnknown → ∀ failure, command.FailsToLoad host options failure →
    report.toJson.field? "error_class" = some (.string failure)
  unknown : command.AsksUnknown → report.exitCode = 1 ∧
    report.toJson.field? "error_class" = some (.string "unknown_category")
  refused_iff : ¬ command.AsksUnknown → (∀ failure, ¬ command.FailsToLoad host options failure) →
    (report.exitCode = 1 ↔ command.IsRefused host options)
  answered_iff : ¬ command.AsksUnknown → (∀ failure, ¬ command.FailsToLoad host options failure) →
    (report.exitCode = 0 ↔ ¬ command.IsRefused host options)

variable {report : Report}

theorem classifies_of_unknown (h : command.AsksUnknown)
    (hclass : report.errorClass = some .unknownCategory) :
    Classifies host options command report := by
  have hcode : report.exitCode = 1 := by rw [Report.exitCode, hclass]; rfl
  exact {
    status_iff := Report.field?_status_iff
    errorClass_iff := Report.field?_errorClass_iff
    data := by simp [hcode]
    loading_iff := by simp [hcode, h]
    loading hknown := absurd h hknown
    unknown _ := ⟨hcode, Report.field?_errorClass_of_some hclass⟩
    refused_iff hknown := absurd h hknown
    answered_iff hknown := absurd h hknown }

/-- What fails to load has exit code 2, and is the only thing to be told. -/
theorem classifies_of_failure {failure : String} (hknown : ¬ command.AsksUnknown)
    (h : command.FailsToLoad host options failure)
    (honly : ∀ failure, command.FailsToLoad host options failure →
      ∃ errorClass, report.errorClass = some errorClass ∧ errorClass.label = failure ∧
        errorClass.exitCode = 2) : Classifies host options command report := by
  have hcode : report.exitCode = 2 := by
    obtain ⟨errorClass, hclass, -, htwo⟩ := honly failure h
    rw [Report.exitCode, hclass]
    exact htwo
  exact {
    status_iff := Report.field?_status_iff
    errorClass_iff := Report.field?_errorClass_iff
    data := by simp [hcode]
    loading_iff := by simpa [hcode, hknown] using ⟨failure, h⟩
    loading _ failure hfailure := by
      obtain ⟨errorClass, hclass, hlabel, -⟩ := honly failure hfailure
      rw [Report.field?_errorClass_of_some hclass, hlabel]
    unknown hunknown := absurd hunknown hknown
    refused_iff _ hloads := absurd h (hloads failure)
    answered_iff _ hloads := absurd h (hloads failure) }

theorem classifies_of_decides (hknown : ¬ command.AsksUnknown)
    (hloads : ∀ failure, ¬ command.FailsToLoad host options failure)
    (h : report.Decides (command.IsRefused host options)) :
    Classifies host options command report where
  status_iff := Report.field?_status_iff
  errorClass_iff := Report.field?_errorClass_iff
  data hzero := by
    rw [Report.field?_data]
    cases h with
    | refusal hcode => cases hzero.symm.trans hcode
    | answer _ hdata => exact Option.isSome_iff_exists.mp hdata
  loading_iff := by cases h <;> simp [*]
  loading _ failure hfailure := absurd hfailure (hloads failure)
  unknown hunknown := absurd hunknown hknown
  refused_iff _ _ := by cases h <;> simp [*]
  answered_iff _ _ := by cases h <;> simp [*]

/-- The report of a command says how it ended, by its exit code and in its document. Where it asks
for an unknown category, nothing that could be loaded has a part in it. -/
theorem exit_code_classifies (host : Host) (options : Settings.LoadOptions) (command : Command) :
    Classifies host options command (run host options stamp command) ∧
    (command.AsksUnknown → ∀ host' options',
      run host' options' stamp command = run host options stamp command) := by
  by_cases hknown : command.AsksUnknown
  · obtain ⟨text, hrun⟩ := exists_run_of_asksUnknown stamp hknown
    refine ⟨classifies_of_unknown hknown (by rw [hrun]; rfl), fun _ host' options' => ?_⟩
    rw [hrun, hrun]
  · refine ⟨?_, fun hunknown => absurd hunknown hknown⟩
    by_cases hloads : ∃ failure, command.FailsToLoad host options failure
    · obtain ⟨failure, hfailure⟩ := hloads
      exact classifies_of_failure hknown hfailure fun _ =>
        exists_errorClass_of_failsToLoad stamp hknown
    · rw [not_exists] at hloads
      exact classifies_of_decides hknown hloads (decides_of_loads stamp hknown hloads)

/-- A request in a file that is not there cannot be read, though all else loads. -/
example :
    let stamp : Stamp String := ⟨"q-1", "today"⟩
    let report := run ⟨fun _ => none, fun _ => none⟩ (.ofPath none) stamp (.quote "request.json")
    (report.exitCode, report.errorClass) = (2, some .requestRead) := by
  decide +kernel

end

end Command

end PriceQuote
