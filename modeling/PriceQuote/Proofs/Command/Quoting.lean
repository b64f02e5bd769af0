import PriceQuote.Proofs.Command.Outcome
import PriceQuote.Proofs.Command.Report
import PriceQuote.Proofs.Quote.Repeats
import PriceQuote.Proofs.Service.Refusals
import PriceQuote.Proofs.Settings.Defaults

/-!
# Quotes on the command line and from the service

A request in a file and the same request sent to the service are answered from the same pricebook,
in reports on the one side and responses on the other:

* `QuotedAlike`: a report and a response that tell the same;
* `quotedAlike_of_quote`, `quotedAlike_of_failures`, `quotedAlike_of_malformed`: the three ways in
  which both can end;
* `readBody_of_isJson`: where the media type names JSON, both read the same;
* `quote_agrees`: they always do, and what is loaded for the one is what the other is started from.
-/

namespace PriceQuote.Command

section

variable {Time : Type} [Wire Time]

/-! ## Telling the same -/

/-- A report and a response tell the same of a request for a quote, whose text could be read or
not. The quote told by the response is the reported one under another stamp. -/
structure QuotedAlike (report : Report) (answer : Service.Response) (stamp : Stamp Time)
    (readable : Prop) : Prop where
  quoted_iff : report.exitCode = 0 ↔ answer.status = 200
  quoted : report.exitCode = 0 → ∃ quote : Quote Time,
    report.toJson.field? "data" = some (Wire.encode quote) ∧
    answer = ⟨200, .json (Wire.encode (quote.restamp stamp))⟩
  invalid_iff : report.exitCode = 1 ∧
      report.toJson.field? "error_class" = some (.string "configuration_invalid") ↔
    answer.status = 400 ∧ ∃ details, answer.field? "details" = some details
  invalid : report.toJson.field? "error_class" = some (.string "configuration_invalid") →
    (∃ message, report.toJson.field? "message" = some (.string message) ∧
      answer.field? "error" = some (.string message)) ∧
    ∃ failures : List ItemValidation,
      report.toJson.field? "data" = some (.object [("failures", Wire.encode failures)]) ∧
      answer.field? "details" = some (.object [("failures", Wire.encode failures)])
  malformed_iff : report.exitCode = 1 ∧
      report.toJson.field? "error_class" = some (.string "request_malformed") ↔
    answer.status = 400 ∧ answer.field? "details" = none
  /-- The messages may differ only where there is no JSON to speak of. -/
  malformed : report.toJson.field? "error_class" = some (.string "request_malformed") →
    readable → ∃ message, report.toJson.field? "message" = some (.string message) ∧
      answer.field? "error" = some (.string message)
  reports : report.toJson.field? "error_class" = some .null ∨
    report.toJson.field? "error_class" = some (.string "configuration_invalid") ∨
    report.toJson.field? "error_class" = some (.string "request_malformed")
  responses : answer.status = 200 ∨ answer.status = 400

variable (stamp : Stamp Time) (correlationId : String) (readable : Prop)

theorem quotedAlike_of_quote (quote : Quote Time) (message : String) :
    QuotedAlike (.success "quote" message (Wire.encode quote)) (.ok (quote.restamp stamp)) stamp
      readable where
  quoted_iff := ⟨fun _ => rfl, fun _ => rfl⟩
  quoted _ := ⟨quote, rfl, rfl⟩
  invalid_iff := ⟨nofun, nofun⟩
  invalid := nofun
  malformed_iff := ⟨nofun, nofun⟩
  malformed := nofun
  reports := .inl rfl
  responses := .inl rfl

theorem quotedAlike_of_failures (message : String) (failures : List ItemValidation) :
    QuotedAlike { Report.failure "quote" .configurationInvalid message with
      data := some (failuresJson failures) }
      (.ofRefusal correlationId (.invalid message failures)) stamp readable where
  quoted_iff := ⟨nofun, nofun⟩
  quoted := nofun
  invalid_iff := ⟨fun _ => ⟨rfl, _, rfl⟩, fun _ => ⟨rfl, rfl⟩⟩
  invalid _ := ⟨⟨message, rfl, rfl⟩, failures, rfl, rfl⟩
  malformed_iff := ⟨fun h => absurd h.2 (Report.field?_errorClass_ne rfl (by decide)), nofun⟩
  malformed h := absurd h (Report.field?_errorClass_ne rfl (by decide))
  reports := .inr (.inl rfl)
  responses := .inr rfl

theorem quotedAlike_of_malformed {message message' : String} (h : readable → message = message') :
    QuotedAlike (.failure "quote" .requestMalformed message) (.malformed correlationId message')
      stamp readable where
  quoted_iff := ⟨nofun, nofun⟩
  quoted := nofun
  invalid_iff := ⟨fun h => absurd h.2 (Report.field?_errorClass_ne rfl (by decide)), nofun⟩
  invalid h := absurd h (Report.field?_errorClass_ne rfl (by decide))
  malformed_iff := ⟨fun _ => ⟨rfl, rfl⟩, fun _ => ⟨rfl, rfl⟩⟩
  malformed _ hreadable := ⟨message, rfl, h hreadable ▸ rfl⟩
  reports := .inr (.inr rfl)
  responses := .inr rfl

/-! ## Asking for the same -/

variable {occasion : Service.Occasion Time}

/-- With a media type that names JSON a body is read as the text that it is. -/
theorem readBody_of_isJson {mediaType : Option String} {text : String}
    (h : mediaType.any Service.MediaType.isJson = true) :
    (Service.readBody Wire.requestShape.read mediaType text).toOption =
      (readRequest text).toOption := by
  rw [Service.readBody, if_pos h]
  show (Except.mapError _ (readRequest text)).toOption = (readRequest text).toOption
  cases readRequest text <;> rfl

/-- What a command reports of a request that could be read is what the service responds. -/
theorem quotedAlike_of_request {settings : Settings} {book : Pricebook} {text : String}
    {asked : QuoteRequest} (hread : readRequest text = .ok asked) :
    QuotedAlike (ending ((requestOf settings text).map (makeQuote book stamp)))
      ((⟨settings, book⟩ : Service.Started).service.createQuote occasion asked) occasion.stamp
        readable := by
  cases hshape : asked.shapeProblem? settings.maxConfigurations.toNat with
  | some problem =>
    rw [requestOf_of_malformed hread hshape, Service.createQuote_of_malformed hshape]
    exact quotedAlike_of_malformed _ _ _ fun _ => rfl
  | none =>
    rw [requestOf_of_shaped hread hshape]
    show QuotedAlike (makeQuote book stamp asked) _ _ _
    have hsame := book.quote_restamp stamp occasion.stamp asked
    by_cases hvalid : book.catalog.AllValidate asked.configurations
    · obtain ⟨lines, -, hquote⟩ := Pricebook.quote_of_valid stamp hvalid
      rw [hquote] at hsame
      rw [makeQuote_of_quote hquote, Service.createQuote_of_quote hshape hsame]
      exact quotedAlike_of_quote _ _ _ _
    · have hquote := Pricebook.quote_of_not_valid stamp hvalid
      rw [hquote] at hsame
      rw [makeQuote_of_invalid hquote, Service.createQuote_of_refused hshape hsame]
      exact quotedAlike_of_failures _ _ _ _ _

theorem respond_quotes {service : Service} {request : Service.Request}
    (hpath : (Service.Uri.ofText request.uri).path = "/api/v1/quotes")
    (hmethod : request.method = "POST") : service.respond occasion request =
      .ending ((Service.body Wire.requestShape.read occasion.correlationId request.mediaType
        request.body).map (service.createQuote occasion)) := by
  have hroute : Service.Route.ofPath? (Service.Uri.ofText request.uri).path = some .quotes := by
    rw [hpath]
    decide +kernel
  rw [Service.respond_of_inquiry hroute hmethod rfl, Service.Inquiry.answer,
    Service.understood_received]

/-- Commands load what a service is started from. With it, a request for a quote in a file and the
same request sent to the service, if it is read alike on both sides or on neither, lead to a report
and a response that tell the same. -/
theorem quote_agrees (host : Host) (options : Settings.LoadOptions) :
    (∀ command settings book, load command host options = .ok (settings, book) ↔
      Service.start host options = .ok ⟨settings, book⟩) ∧
    ∀ started : Service.Started, Service.start host options = .ok started →
      ∀ {Time : Type} [Wire Time] (stamp : Stamp Time) (occasion : Service.Occasion Time)
        (file : String) (request : Service.Request),
      host.readText file = .ok request.body → request.method = "POST" →
      (Service.Uri.ofText request.uri).path = "/api/v1/quotes" →
      (Service.readBody Wire.requestShape.read request.mediaType request.body).toOption =
        (readRequest request.body).toOption →
      QuotedAlike (run host options stamp (.quote file))
        (started.service.respond occasion request) occasion.stamp
        (∃ asked, readRequest request.body = .ok asked) := by
  refine ⟨fun command settings book => load_eq_ok_iff_start, ?_⟩
  intro started hstart Time _ stamp occasion file request hfile hmethod hpath hread
  rw [run_quote_of_load stamp (load_eq_ok_iff_start.mpr hstart) hfile,
    respond_quotes hpath hmethod, Service.body]
  cases hbody : Service.readBody Wire.requestShape.read request.mediaType request.body with
  | error problem =>
    cases hrequest : readRequest request.body with
    | ok asked =>
      rw [hbody, hrequest] at hread
      cases hread
    | error fault =>
      rw [requestOf_of_unreadable hrequest]
      exact quotedAlike_of_malformed _ _ _ fun ⟨_, h⟩ => nomatch h
  | ok asked =>
    cases hrequest : readRequest request.body with
    | error fault =>
      rw [hbody, hrequest] at hread
      cases hread
    | ok asked' =>
      rw [hbody, hrequest] at hread
      cases hread
      exact quotedAlike_of_request _ _ hrequest

end

/-- Two machines, ordered in a file and from the service. -/
theorem quote_agrees_machines :
    let text :=
      r#"{"configurations":[{"productId":"compute-standard","quantity":2}]}"#
    let host : Host :=
      ⟨fun path => if path = "request.json" then some (.file text.toUTF8) else none, fun _ => none⟩
    let started : Service.Started := ⟨.default, .standard⟩
    let request : Service.Request := ⟨"POST", "/api/v1/quotes", some "application/json", text⟩
    Service.start host (.ofPath none) = .ok started ∧ host.readText "request.json" = .ok text ∧
    (Service.Uri.ofText request.uri).path = "/api/v1/quotes" ∧
    (Service.readBody Wire.requestShape.read request.mediaType text).toOption =
      (readRequest text).toOption ∧
    ∃ quote : Quote String,
      (run host (.ofPath none) ⟨"q-1", "today"⟩ (.quote "request.json")).toJson.field? "data" =
        some (Wire.encode quote) ∧
      started.service.respond ⟨"r-1", "q-2", "tomorrow"⟩ request =
        ⟨200, .json (Wire.encode (quote.restamp ⟨"q-2", "tomorrow"⟩))⟩ := by
  intro text host started request
  have hload : load "quote" host (.ofPath none) = .ok (.default, .standard) :=
    load_eq_ok_iff.mpr ⟨Settings.load_of_unconfigured ⟨by decide, fun _ => rfl⟩,
      Pricebook.load_default host⟩
  have hstart : Service.start host (.ofPath none) = .ok started :=
    ((quote_agrees host (.ofPath none)).1 "quote" _ _).mp hload
  have hfile : host.readText "request.json" = .ok text :=
    toOption_eq_some_iff.mp (by decide +kernel)
  have hpath : (Service.Uri.ofText request.uri).path = "/api/v1/quotes" := by decide +kernel
  have hread : (Service.readBody Wire.requestShape.read request.mediaType text).toOption =
      (readRequest text).toOption := readBody_of_isJson (by decide +kernel)
  have halike := (quote_agrees host (.ofPath none)).2 started hstart
    (⟨"q-1", "today"⟩ : Stamp String) ⟨"r-1", "q-2", "tomorrow"⟩ "request.json" request hfile rfl
    hpath hread
  have hstatus : (started.service.respond (⟨"r-1", "q-2", "tomorrow"⟩ : Service.Occasion String)
      request).status = 200 := by decide +kernel
  exact ⟨hstart, hfile, hpath, hread, halike.quoted (halike.quoted_iff.mpr hstatus)⟩

end PriceQuote.Command
