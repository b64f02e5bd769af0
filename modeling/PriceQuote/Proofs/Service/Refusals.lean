import PriceQuote.Proofs.Service.Outcome
import PriceQuote.Service.Router

/-!
# What is refused, and what is said of it

Four routes take a body. Whatever was made of it, the answer is that all is well or that the
request is at fault: a body that is not understood or malformed is told as such, without a look
into the pricebook, and of what is not valid the details tell.

* `Inquiry`, `Inquiry.answer`: a body as it was read, and what is answered;
* `Inquiry.Asks`: the selections that a well-formed inquiry is about;
* `Details`: what details tell of a selection;
* `Inquiry.answer_of_not_asking`, `Inquiry.answer_of_asking`: the ways in which an inquiry can end;
* `respond_of_inquiry`: the routes answer inquiries;
* `inquiry_answered`: all of it together.
-/

namespace PriceQuote

/-- The selection of a configuration. -/
def Configuration.selection (item : Configuration) : Service.SelectionBody :=
  ⟨item.productId, item.selected⟩

namespace Service

/-! ## Inquiries -/

/-- A body that asks about configurations, or what is said of a body that was not understood. -/
inductive Inquiry where
  | selection (read : Except String SelectionBody)
  | batch (read : Except String BatchBody)
  | pricing (read : Except String PricingBody)
  | quote (read : Except String QuoteRequest)

/-- What was made of a body, or the answer that it was not understood. -/
def understood {α : Type} (correlationId : String) (read : Except String α) : Except Response α :=
  read.mapError (.malformed correlationId)

namespace Inquiry

variable {Time : Type} [Wire Time]

def answer (inquiry : Inquiry) (service : Service) (occasion : Occasion Time) : Response :=
  .ending <| match inquiry with
  | selection read =>
    (understood occasion.correlationId read).map (service.validateOne occasion.correlationId)
  | batch read =>
    (understood occasion.correlationId read).map (service.validateBatch occasion.correlationId)
  | pricing read =>
    (understood occasion.correlationId read).map (service.calculatePricing occasion.correlationId)
  | quote read => (understood occasion.correlationId read).map (service.createQuote occasion)

/-- A body was understood and is well formed, and it is about these selections. -/
inductive Asks (limit : Nat) : Inquiry → List SelectionBody → Prop
  | selection {body : SelectionBody} (named : Text.allBlank body.productId.text = false) :
    Asks limit (.selection (.ok body)) [body]
  | batch {body : BatchBody} (shaped : configurationsProblem? body.configurations limit = none) :
    Asks limit (.batch (.ok body)) (body.configurations.map (·.selection))
  | pricing {body : PricingBody}
    (shaped : configurationsProblem? [body.configuration] limit = none) :
    Asks limit (.pricing (.ok body)) [body.configuration.selection]
  | quote {request : QuoteRequest} (shaped : request.shapeProblem? limit = none) :
    Asks limit (.quote (.ok request)) (request.configurations.map (·.selection))

end Inquiry

/-- The details of an answer tell what was found: they are the result themselves or list it. -/
inductive Details (result : Validation) : Json → Prop
  | one : Details result (Wire.encode result)
  | listed {details : Json} {key : String} {items : List ItemValidation} {item : ItemValidation}
    (field : details.field? key = some (Wire.encode items)) (mem : item ∈ items)
    (found : item.result = result) : Details result details

def found (service : Service) (body : SelectionBody) : Validation :=
  service.book.catalog.validate body.productId body.selected

/-! ## Answers -/

section

variable {Time : Type} [Wire Time]

/-- The answer to an inquiry that asks nothing does not depend on the pricebook. -/
theorem Inquiry.answer_of_not_asking {inquiry : Inquiry} {limit : Nat}
    (h : ∀ selections, ¬ inquiry.Asks limit selections) (occasion : Occasion Time) :
    ∃ message, ∀ book : Pricebook,
      inquiry.answer ⟨book, limit⟩ occasion = .malformed occasion.correlationId message := by
  cases inquiry with
  | selection read =>
    cases read with
    | error message => exact ⟨message, fun _ => rfl⟩
    | ok body =>
      refine ⟨_, fun book => validateOne_of_blank occasion.correlationId ?_⟩
      by_contra hnamed
      exact h _ (.selection (eq_false_of_ne_true hnamed))
  | batch read =>
    cases read with
    | error message => exact ⟨message, fun _ => rfl⟩
    | ok body =>
      cases hshape : configurationsProblem? body.configurations limit with
      | none => exact absurd (.batch hshape) (h _)
      | some problem =>
        exact ⟨_, fun book => validateBatch_of_malformed occasion.correlationId hshape⟩
  | pricing read =>
    cases read with
    | error message => exact ⟨message, fun _ => rfl⟩
    | ok body =>
      cases hshape : configurationsProblem? [body.configuration] limit with
      | none => exact absurd (.pricing hshape) (h _)
      | some problem =>
        exact ⟨_, fun book => calculatePricing_of_malformed occasion.correlationId hshape⟩
  | quote read =>
    cases read with
    | error message => exact ⟨message, fun _ => rfl⟩
    | ok request =>
      cases hshape : request.shapeProblem? limit with
      | none => exact absurd (.quote hshape) (h _)
      | some problem => exact ⟨_, fun book => createQuote_of_malformed hshape⟩

/-- Details that list the failures of a batch tell of some configuration that is not valid. -/
theorem details_of_failures {service : Service} {configurations : List Configuration}
    (hvalid : ¬ service.book.catalog.AllValidate configurations) {details : Json} {key : String}
    {items : List ItemValidation} (hfield : details.field? key = some (Wire.encode items))
    (hitems : ∀ item ∈ (service.book.catalog.validateBatch configurations).failures,
      item ∈ items) :
    ∃ body ∈ configurations.map (·.selection), (service.found body).isValid = false ∧
      Details (service.found body) details := by
  obtain ⟨item, hitem, configuration, hmem, hfound, hinvalid⟩ := Catalog.exists_failure hvalid
  exact ⟨configuration.selection, List.mem_map_of_mem hmem, hinvalid,
    .listed hfield (hitems item hitem) hfound⟩

/-- An inquiry about selections that are all valid is answered that all is well; else the details
tell of one that is not. -/
theorem Inquiry.answer_of_asking {inquiry : Inquiry} {service : Service}
    {selections : List SelectionBody} (h : inquiry.Asks service.limit selections)
    (occasion : Occasion Time) :
    let answer := inquiry.answer service occasion
    ((∀ body ∈ selections, (service.found body).isValid = true) ∧ answer.status = 200) ∨
    ∃ body ∈ selections, (service.found body).isValid = false ∧ ∃ message details,
      answer = .error 400 message (some details) occasion.correlationId ∧
      Details (service.found body) details := by
  intro answer
  cases h with
  | @selection body named =>
    have hanswer := @validateOne_of_named service occasion.correlationId body named
    cases hvalid : (service.found body).isValid with
    | true =>
      refine .inl ⟨by simpa using hvalid, ?_⟩
      exact (validateOne_status_iff occasion.correlationId).mpr ⟨named, hvalid⟩
    | false =>
      refine .inr ⟨body, List.mem_cons_self, hvalid, _, _, hanswer.trans (if_neg ?_), .one⟩
      exact fun h => Bool.false_ne_true (hvalid.symm.trans h)
  | @batch body shaped =>
    have hanswer := validateBatch_of_shaped occasion.correlationId shaped
    by_cases hvalid : service.book.catalog.AllValidate body.configurations
    · exact .inl ⟨List.forall_mem_map.mpr hvalid,
        (validateBatch_status_iff occasion.correlationId).mpr ⟨shaped, hvalid⟩⟩
    · have hitems : (Wire.encode (service.book.catalog.validateBatch body.configurations)).field?
          "items" = some (Wire.encode
            (service.book.catalog.validateBatch body.configurations).items) := rfl
      obtain ⟨selection, hmem, hinvalid, hdetails⟩ :=
        details_of_failures hvalid hitems fun item hitem => List.mem_of_mem_filter hitem
      rw [← Catalog.validateBatch_isValid_iff] at hvalid
      exact .inr ⟨selection, hmem, hinvalid, _, _, hanswer.trans (if_neg hvalid), hdetails⟩
  | @pricing body shaped =>
    by_cases hvalid : service.book.catalog.AllValidate [body.configuration]
    · exact .inl ⟨List.forall_mem_singleton.mpr (Catalog.allValidate_singleton_iff.mp hvalid),
        (calculatePricing_status_iff occasion.correlationId).mpr ⟨shaped, hvalid⟩⟩
    · have hinvalid := eq_false_of_ne_true (mt Catalog.allValidate_singleton_iff.mpr hvalid)
      exact .inr ⟨_, List.mem_cons_self, hinvalid, _, _,
        calculatePricing_of_invalid occasion.correlationId shaped hvalid, .one⟩
  | @quote request shaped =>
    by_cases hvalid : service.book.catalog.AllValidate request.configurations
    · exact .inl ⟨List.forall_mem_map.mpr hvalid, createQuote_status_iff.mpr ⟨shaped, hvalid⟩⟩
    · have hquote := Pricebook.quote_of_not_valid occasion.stamp hvalid
      have hitems : (failureDetails
          (service.book.catalog.validateBatch request.configurations).failures).field? "failures" =
            some (Wire.encode
              (service.book.catalog.validateBatch request.configurations).failures) := rfl
      obtain ⟨selection, hmem, hinvalid, hdetails⟩ :=
        details_of_failures hvalid hitems fun item hitem => hitem
      exact .inr ⟨selection, hmem, hinvalid, _, _, createQuote_of_refused shaped hquote, hdetails⟩

end

/-! ## Routes -/

/-- The inquiry in a request to a route that takes a body. -/
def Inquiry.ofRequest? (request : Request) : Route → Option Inquiry
  | .validate => some (.selection (received selectionShape.read))
  | .validateBatch => some (.batch (received batchShape.read))
  | .pricing => some (.pricing (received pricingShape.read))
  | .quotes => some (.quote (received Wire.requestShape.read))
  | _ => none
where
  received {α : Type} (read : Reader α) : Except String α :=
    (readBody read request.mediaType request.body).mapError BodyProblem.message

variable {request : Request}

/-- A body that is read for an answer is an inquiry's. -/
theorem understood_received {α : Type} (correlationId : String) (read : Reader α) :
    understood correlationId (Inquiry.ofRequest?.received request read) =
      body read correlationId request.mediaType request.body := by
  unfold understood Inquiry.ofRequest?.received body
  cases readBody read request.mediaType request.body <;> rfl

/-- There is an inquiry in every request to a route that takes a body. -/
theorem exists_ofRequest? (request : Request) {route : Route} (h : route.takesBody = true) :
    ∃ inquiry, Inquiry.ofRequest? request route = some inquiry := by
  cases route with
  | validate | validateBatch | pricing | quotes => exact ⟨_, rfl⟩
  | health | products | product | categories | rules => cases h

variable {Time : Type} [Wire Time] {service : Service} {occasion : Occasion Time}

theorem respond_of_inquiry {route : Route} {inquiry : Inquiry}
    (hroute : Route.ofPath? (Uri.ofText request.uri).path = some route)
    (hmethod : request.method = "POST") (h : Inquiry.ofRequest? request route = some inquiry) :
    service.respond occasion request = inquiry.answer service occasion := by
  have hanswer : service.answer occasion request route = inquiry.answer service occasion := by
    cases route <;> cases h <;> simp only [answer, Inquiry.answer, understood_received]
  have hbody : route.takesBody = true := by
    cases route <;> first | rfl | cases h
  simp only [respond, hroute, hbody, hmethod, ↓reduceIte, hanswer]

/-! ## All inquiries -/

/-- What holds of the answer to an inquiry. -/
structure Inquiry.Answered (inquiry : Inquiry) (service : Service) (occasion : Occasion Time)
    (answer : Response) : Prop where
  status : answer.status = 200 ∨ answer.status = 400
  message : answer.status = 400 → ∃ message, answer.field? "error" = some (.string message)
  correlationId : answer.status = 400 →
    answer.field? "correlationId" = some (.string occasion.correlationId)
  /-- It is told in detail exactly when the inquiry is about a selection that is not valid. -/
  details_iff : (answer.status = 400 ∧ ∃ details, answer.field? "details" = some details) ↔
    ∃ selections, inquiry.Asks service.limit selections ∧
      ∃ body ∈ selections, (service.found body).isValid = false
  details_tell : ∀ details, answer.status = 400 → answer.field? "details" = some details →
    ∃ selections, inquiry.Asks service.limit selections ∧
      ∃ body ∈ selections, (service.found body).isValid = false ∧
        (service.found body).errors ≠ [] ∧ Details (service.found body) details
  /-- The pricebook has no say in the answer to an inquiry that asks nothing. -/
  unasked : (∀ selections, ¬ inquiry.Asks service.limit selections) →
    ∃ message, answer = .malformed occasion.correlationId message ∧
      ∀ book : Pricebook, inquiry.answer ⟨book, service.limit⟩ occasion = answer

theorem Inquiry.answered_of_not_asking {inquiry : Inquiry}
    (h : ∀ selections, ¬ inquiry.Asks service.limit selections) :
    inquiry.Answered service occasion (inquiry.answer service occasion) := by
  obtain ⟨message, hmessage⟩ := answer_of_not_asking h occasion
  have hanswer := hmessage service.book
  refine ⟨?_, ?_, ?_, ?_, ?_, fun _ => ⟨message, hanswer, fun book => ?_⟩⟩
  · exact .inr (by rw [hanswer, Response.malformed_status])
  · exact fun _ => ⟨message, by rw [hanswer, Response.malformed, Response.error_message]⟩
  · exact fun _ => by rw [hanswer, Response.malformed, Response.error_correlationId]
  · constructor
    · rintro ⟨-, details, hdetails⟩
      rw [hanswer, Response.malformed, Response.error_details] at hdetails
      cases hdetails
    · rintro ⟨selections, hasks, -⟩
      exact absurd hasks (h selections)
  · intro details _ hdetails
    rw [hanswer, Response.malformed, Response.error_details] at hdetails
    cases hdetails
  · rw [hmessage book, hanswer]

theorem Inquiry.answered_of_asking {inquiry : Inquiry} {selections : List SelectionBody}
    (h : inquiry.Asks service.limit selections) :
    inquiry.Answered service occasion (inquiry.answer service occasion) := by
  obtain ⟨hvalid, hstatus⟩ | ⟨body, hbody, hinvalid, message, details, hanswer, htell⟩ :=
    answer_of_asking h occasion
  · have hfine : (inquiry.answer service occasion).status ≠ 400 := by
      rw [hstatus]
      decide
    refine ⟨.inl hstatus, fun h => absurd h hfine, fun h => absurd h hfine, ?_,
      fun _ h => absurd h hfine, fun hasks => absurd h (hasks selections)⟩
    refine ⟨fun h => absurd h.1 hfine, ?_⟩
    rintro ⟨selections', hasks, body, hbody, hinvalid⟩
    obtain ⟨hvalid', -⟩ | ⟨-, -, -, message, details, hanswer, -⟩ := answer_of_asking hasks occasion
    · exact absurd (hvalid' body hbody) (hinvalid ▸ Bool.false_ne_true)
    · exact absurd (congrArg Response.status hanswer) hfine
  · rw [hanswer]
    refine ⟨.inr rfl, fun _ => ⟨message, Response.error_message ..⟩,
      fun _ => Response.error_correlationId .., ?_, ?_, fun hasks => absurd h (hasks selections)⟩
    · exact ⟨fun _ => ⟨selections, h, body, hbody, hinvalid⟩,
        fun _ => ⟨rfl, details, Response.error_details ..⟩⟩
    · rintro details' - hdetails
      rw [Response.error_details] at hdetails
      cases hdetails
      exact ⟨selections, h, body, hbody, hinvalid,
        Catalog.errors_ne_nil_of_not_valid hinvalid, htell⟩

/-- Every inquiry is answered so, whatever was made of its body, and so is every request with a
body to a route that takes one. -/
theorem inquiry_answered (service : Service) (occasion : Occasion Time) :
    (∀ inquiry : Inquiry, inquiry.Answered service occasion (inquiry.answer service occasion)) ∧
    ∀ (request : Request) (route : Route),
      Route.ofPath? (Uri.ofText request.uri).path = some route → route.takesBody = true →
      request.method = "POST" → ∃ inquiry, Inquiry.ofRequest? request route = some inquiry ∧
        inquiry.Answered service occasion (service.respond occasion request) := by
  have hall : ∀ inquiry : Inquiry,
      inquiry.Answered service occasion (inquiry.answer service occasion) := fun inquiry => by
    by_cases hasks : ∃ selections, inquiry.Asks service.limit selections
    · exact hasks.elim fun selections => Inquiry.answered_of_asking
    · exact Inquiry.answered_of_not_asking (not_exists.mp hasks)
  refine ⟨hall, fun request route hroute hbody hmethod => ?_⟩
  obtain ⟨inquiry, h⟩ := exists_ofRequest? request hbody
  have hrespond : service.respond occasion request = inquiry.answer service occasion :=
    respond_of_inquiry hroute hmethod h
  exact ⟨inquiry, h, hrespond ▸ hall inquiry⟩

/-- A selection of an unknown product is refused in detail, a text that ends too early is not. -/
theorem inquiry_answered_unknown :
    let service : Service := ⟨.standard, 1⟩
    let occasion : Occasion String := ⟨"r-1", "", ""⟩
    let unknown : Request := ⟨"POST", "/api/v1/validate", some "application/json",
      r#"{"productId": "compute-quantum"}"#⟩
    let broken : Request := ⟨"POST", "/api/v1/quotes", some "application/json", r"{"⟩
    (Route.ofPath? (Uri.ofText unknown.uri).path = some .validate ∧
      ∃ details body, (service.respond occasion unknown).field? "details" = some details ∧
        (service.found body).errors ≠ [] ∧ Details (service.found body) details) ∧
    Route.ofPath? (Uri.ofText broken.uri).path = some .quotes ∧
      (service.respond occasion broken).field? "details" = none ∧
      ∃ message, (service.respond occasion broken).field? "error" = some (.string message) := by
  intro service occasion unknown broken
  have hunknown : Route.ofPath? (Uri.ofText unknown.uri).path = some .validate := by
    decide +kernel
  have hbroken : Route.ofPath? (Uri.ofText broken.uri).path = some .quotes := by decide +kernel
  obtain ⟨_, -, hrefused⟩ :=
    (inquiry_answered service occasion).2 unknown .validate hunknown rfl rfl
  obtain ⟨_, -, hunread⟩ := (inquiry_answered service occasion).2 broken .quotes hbroken rfl rfl
  have hstatus : (service.respond occasion unknown).status = 400 := by decide +kernel
  have hdetails : ((service.respond occasion unknown).field? "details").isSome = true := by
    decide +kernel
  obtain ⟨details, hdetails⟩ := Option.isSome_iff_exists.mp hdetails
  obtain ⟨_, -, body, -, -, herrors, htell⟩ := hrefused.details_tell details hstatus hdetails
  have hnone : ((service.respond occasion broken).field? "details").isNone = true := by
    decide +kernel
  exact ⟨⟨hunknown, details, body, hdetails, herrors, htell⟩, hbroken,
    Option.isNone_iff_eq_none.mp hnone, hunread.message (by decide +kernel)⟩

end Service

end PriceQuote
