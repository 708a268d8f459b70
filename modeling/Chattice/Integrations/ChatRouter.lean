import Chattice.Adapters.GoogleChat.Failures
import Chattice.Asyncio.Coro
import Chattice.Integrations.Serializer
import Chattice.Transports.Http.Verifier
import Chattice.Transports.Ingress

/-!
# `create_chat_router`: interactions over HTTP

One request: verification in a thread, body, parsing, dispatch, and the synchronous response, which is what
a handler has given to `response.respond`, or else what the dispatcher returns. A run lets every awaited call
end in any way. Deadlines and log records are left out.

* `endpoint` : the coroutine of one request;
* `Row` : the runs, one row for each way through the endpoint;
* `chat_endpoint` : who reaches the handlers, and which answer comes of what has happened.
-/

namespace Chattice.ChatRouter

open Asyncio Asyncio.Coro
open GoogleChat (Stdlib)
open Http (GoogleAuth GoogleTokenVerifier IncomingRequest)
open Serializer (Payload Response)

/-! ## The response object -/

inductive ResponseState where
  | notResponded | responded
  deriving DecidableEq, Repr

structure InteractionResponse where
  payload : Payload
  state : ResponseState

namespace InteractionResponse

/-- `InteractionResponse()` -/
def new : InteractionResponse := ⟨.none, .notResponded⟩

/-- `respond`, which raises a `DoubleResponseError` the second time. -/
def respond (self : InteractionResponse) (payload : Payload) : Except String InteractionResponse :=
  match self.state with
  | .responded => .error "This interaction already has a synchronous response"
  | .notResponded => .ok ⟨payload, .responded⟩

/-- The response after a call of `respond`, whether it has raised or not. -/
def after (self : InteractionResponse) (payload : Payload) : InteractionResponse :=
  match self.respond payload with
  | .ok response => response
  | .error _ => self

/-- `response.payload if response.state is ResponseState.RESPONDED else result` -/
def chosen (self : InteractionResponse) (result : Payload) : Payload :=
  match self.state with
  | .responded => self.payload
  | .notResponded => result

theorem foldl_after_responded (payload : Payload) (payloads : List Payload) :
    payloads.foldl after ⟨payload, .responded⟩ = ⟨payload, .responded⟩ := by
  induction payloads with
  | nil => rfl
  | cons first payloads ih => exact ih

theorem chosen_foldl (payloads : List Payload) (result : Payload) :
    (payloads.foldl after new).chosen result = payloads.head?.getD result := by
  cases payloads with
  | nil => rfl
  | cons first payloads =>
    rw [List.foldl_cons, show new.after first = ⟨first, .responded⟩ from rfl, foldl_after_responded]
    rfl

end InteractionResponse

/-! ## The endpoint -/

/-- `json.loads` of a body: a value, a `JSONDecodeError` or `UnicodeDecodeError`, or another exception
(the `ValueError` of a long integer, the `RecursionError` of a deep nesting). -/
inductive Loaded where
  | value (json : Json)
  | notJson
  | raised (className : String)

/-- What the endpoint has besides the dispatcher and the verifier: the decoders, the SDK, and which of the
errors of its messages are `TypeError`s. -/
structure Router where
  loads : List UInt8 → Loaded
  lib : Stdlib
  sdk : Cards.Sdk
  isTypeError : String → Bool

inductive Call where
  | verify (request : IncomingRequest)
  | body
  | feedUpdate (event : Event)

/-- `feed_update` ends with what the handlers have given to `respond`, in order, and its result. -/
abbrev Call.Res : Call → Type
  | .verify _ => Unit
  | .body => List UInt8
  | .feedUpdate _ => List Payload × Payload

/-- The exceptions of the calls, of the parser and of the serializer. -/
inductive Exc where
  | verification (text : String)
  | interaction (e : GoogleChat.Exc)
  | serializer (e : Serializer.Exc)
  | other (className : String)

abbrev sig : Sig where
  Call := Call
  Res := Call.Res
  Eff := Empty
  Exc := Exc

abbrev awaitCall (c : Call) : Coro sig (c.Res) := call (S := sig) c

abbrev Answer := Nat × Response

@[simp]
def unauthorized : Answer := (401, .empty)

@[simp]
def badRequest : Answer := (400, .json (.dict [("error", .str "invalid_interaction_payload")]))

@[simp]
def serverError : Answer := (500, .empty)

/-- `request.json()` -/
def jsonBody (router : Router) (body : List UInt8) : Except GoogleChat.Exc Json.Fields :=
  match router.loads body with
  | .notJson => .error (GoogleChat.invalid [.text "Request body is not valid JSON"])
  | .raised className => .error (.other className)
  | .value (.dict fields) => .ok fields
  | .value _ => .error (GoogleChat.invalid [.text "Request body must be a JSON object"])

/-- `HTTPInteractionAdapter.parse` -/
def parse (router : Router) (body : List UInt8) : Except GoogleChat.Exc Event := do
  let fields ← jsonBody router body
  GoogleChat.parseInteraction router.lib fields

/-- `except TypeError` -/
def Router.caught (router : Router) : Serializer.Exc → Bool
  | .typeError _ => true
  | .rendering (.sdkError type) => router.isTypeError type
  | .rendering _ => false

def answer (router : Router) (event : Event) (payload : Payload) : Coro sig Answer :=
  match Serializer.serialize router.sdk payload (.known event) with
  | .ok response => pure (200, response)
  | .error e => if router.caught e then pure serverError else raise (.serializer e)

def dispatch (router : Router) (event : Event) : Coro sig Answer :=
  tryElse (awaitCall (.feedUpdate event)) (fun _ => pure serverError) fun (payloads, result) =>
    answer router event ((payloads.foldl InteractionResponse.after .new).chosen result)

def receive (router : Router) (body : List UInt8) : Coro sig Answer :=
  match parse router body with
  | .error e => if e.isInteractionError then pure badRequest else raise (.interaction e)
  | .ok event => dispatch router event

@[simp]
def Call.verified (request : IncomingRequest) : Call := .verify { request with body := [] }

/-- `chat_endpoint`. The verifier sees the request without its body. -/
def endpoint (router : Router) (request : IncomingRequest) : Coro sig Answer :=
  tryElse (awaitCall (.verified request))
    (fun
      | .verification _ => pure unauthorized
      | e => raise e)
    fun _ => do
      let body ← awaitCall .body
      receive router body

/-! ## The runs -/

abbrev Trace := List (Asyncio.Event sig)

abbrev called (c : Call) (r : Outcome Exc c.Res) : Asyncio.Event sig := .called c r

/-- The runs that a dispatched event ends. -/
inductive Dispatched (router : Router) (event : Event) : Outcome Exc (List Payload × Payload) →
    Outcome Exc Answer → Prop where
  | cancelled : Dispatched router event .cancelled .cancelled
  | raised (e : Exc) : Dispatched router event (.raised e) (.ret serverError)
  | response (payloads : List Payload) (result : Payload) (response : Response)
      (h : Serializer.serialize router.sdk (payloads.head?.getD result) (.known event) = .ok response) :
      Dispatched router event (.ret (payloads, result)) (.ret (200, response))
  | refused (payloads : List Payload) (result : Payload) (e : Serializer.Exc)
      (h : Serializer.serialize router.sdk (payloads.head?.getD result) (.known event) = .error e)
      (hcaught : router.caught e = true) :
      Dispatched router event (.ret (payloads, result)) (.ret serverError)
  | broken (payloads : List Payload) (result : Payload) (e : Serializer.Exc)
      (h : Serializer.serialize router.sdk (payloads.head?.getD result) (.known event) = .error e)
      (hcaught : router.caught e = false) :
      Dispatched router event (.ret (payloads, result)) (.raised (.serializer e))

/-- The ways through the endpoint. -/
inductive Row (router : Router) (request : IncomingRequest) : Trace → Outcome Exc Answer → Prop where
  | cancelled : Row router request [called (.verified request) .cancelled] .cancelled
  | unverified (text : String) :
      Row router request [called (.verified request) (.raised (.verification text))] (.ret unauthorized)
  | verifierFailed (e : Exc) (he : ∀ text, e ≠ .verification text) :
      Row router request [called (.verified request) (.raised e)] (.raised e)
  | bodyCancelled : Row router request
      [called (.verified request) (.ret ()), called .body .cancelled] .cancelled
  | bodyFailed (e : Exc) : Row router request
      [called (.verified request) (.ret ()), called .body (.raised e)] (.raised e)
  | refused (body : List UInt8) (e : GoogleChat.Exc) (h : parse router body = .error e)
      (he : e.isInteractionError = true) : Row router request
      [called (.verified request) (.ret ()), called .body (.ret body)] (.ret badRequest)
  | parserFailed (body : List UInt8) (e : GoogleChat.Exc) (h : parse router body = .error e)
      (he : e.isInteractionError = false) : Row router request
      [called (.verified request) (.ret ()), called .body (.ret body)] (.raised (.interaction e))
  | dispatched (body : List UInt8) (event : Event) (h : parse router body = .ok event)
      (r : Outcome Exc (List Payload × Payload)) (o : Outcome Exc Answer)
      (ho : Dispatched router event r o) : Row router request
      [called (.verified request) (.ret ()), called .body (.ret body), called (.feedUpdate event) r] o

section Runs

variable {router : Router} {request : IncomingRequest} {t : Trace} {o : Outcome Exc Answer}

theorem dispatched_of_runs {event : Event} (h : Runs (dispatch router event) t o) :
    ∃ r, t = [called (.feedUpdate event) r] ∧ Dispatched router event r o := by
  obtain ⟨r, t', rfl, hrest⟩ := runs_call_andThen.mp h
  refine ⟨r, ?_⟩
  cases r with
  | cancelled =>
    obtain ⟨rfl, rfl⟩ := runs_done.mp hrest
    exact ⟨rfl, .cancelled⟩
  | raised e =>
    obtain ⟨rfl, rfl⟩ := runs_done.mp hrest
    exact ⟨rfl, .raised e⟩
  | ret outcome =>
    obtain ⟨payloads, result⟩ := outcome
    replace hrest : Runs (answer router event ((payloads.foldl InteractionResponse.after .new).chosen result))
        t' o := hrest
    rw [InteractionResponse.chosen_foldl] at hrest
    unfold answer at hrest
    split at hrest
    · next response hresponse =>
      obtain ⟨rfl, rfl⟩ := runs_done.mp hrest
      exact ⟨rfl, .response payloads result response hresponse⟩
    · next e he =>
      split at hrest
      · next hcaught =>
        obtain ⟨rfl, rfl⟩ := runs_done.mp hrest
        exact ⟨rfl, .refused payloads result e he hcaught⟩
      · next hcaught =>
        obtain ⟨rfl, rfl⟩ := runs_done.mp hrest
        exact ⟨rfl, .broken payloads result e he (Bool.eq_false_iff.mpr hcaught)⟩

theorem row_of_runs (h : Runs (endpoint router request) t o) : Row router request t o := by
  obtain ⟨r, t', rfl, hrest⟩ := runs_call_andThen.mp h
  cases r with
  | cancelled =>
    obtain ⟨rfl, rfl⟩ := runs_done.mp hrest
    exact .cancelled
  | raised e =>
    cases e with
    | verification text =>
      obtain ⟨rfl, rfl⟩ := runs_done.mp hrest
      exact .unverified text
    | interaction e =>
      obtain ⟨rfl, rfl⟩ := runs_done.mp hrest
      exact .verifierFailed _ (fun text h => by cases h)
    | serializer e =>
      obtain ⟨rfl, rfl⟩ := runs_done.mp hrest
      exact .verifierFailed _ (fun text h => by cases h)
    | other className =>
      obtain ⟨rfl, rfl⟩ := runs_done.mp hrest
      exact .verifierFailed _ (fun text h => by cases h)
  | ret verified =>
    obtain ⟨r, t', rfl, hbody⟩ := runs_call_andThen.mp hrest
    cases r with
    | cancelled =>
      obtain ⟨rfl, rfl⟩ := runs_done.mp hbody
      exact .bodyCancelled
    | raised e =>
      obtain ⟨rfl, rfl⟩ := runs_done.mp hbody
      exact .bodyFailed e
    | ret body =>
      replace hbody : Runs (receive router body) t' o := hbody
      unfold receive at hbody
      split at hbody
      · next e he =>
        split at hbody
        · next hfamily =>
          obtain ⟨rfl, rfl⟩ := runs_done.mp hbody
          exact .refused body e he hfamily
        · next hother =>
          obtain ⟨rfl, rfl⟩ := runs_done.mp hbody
          exact .parserFailed body e he (Bool.eq_false_iff.mpr hother)
      · next event hevent =>
        obtain ⟨r, rfl, ho⟩ := dispatched_of_runs hbody
        exact .dispatched body event hevent r o ho

end Runs

/-! ## Who reaches the handlers, and what is answered -/

/-- A run against what has been called in it. -/
structure Answered (router : Router) (request : IncomingRequest) (t : Trace) (o : Outcome Exc Answer) :
    Prop where
  dispatched : ∀ event r, called (.feedUpdate event) r ∈ t → ∃ body,
    t = [called (.verified request) (.ret ()), called .body (.ret body), called (.feedUpdate event) r] ∧
      parse router body = .ok event
  unauthorized : o = .ret unauthorized ↔ ∃ text,
    called (.verified request) (.raised (.verification text)) ∈ t
  badRequest : o = .ret badRequest ↔ ∃ body e, called .body (.ret body) ∈ t ∧
    parse router body = .error e ∧ e.isInteractionError = true
  success : ∀ response, o = .ret (200, response) ↔ ∃ event payloads result,
    called (.feedUpdate event) (.ret (payloads, result)) ∈ t ∧
      Serializer.serialize router.sdk (payloads.head?.getD result) (.known event) = .ok response
  serverError : o = .ret serverError ↔ (∃ event e, called (.feedUpdate event) (.raised e) ∈ t) ∨
    ∃ event payloads result e, called (.feedUpdate event) (.ret (payloads, result)) ∈ t ∧
      Serializer.serialize router.sdk (payloads.head?.getD result) (.known event) = .error e ∧
      router.caught e = true

theorem Dispatched.answered {router : Router} {request : IncomingRequest} {body : List UInt8} {event : Event}
    (h : parse router body = .ok event) {r : Outcome Exc (List Payload × Payload)} {o : Outcome Exc Answer}
    (ho : Dispatched router event r o) : Answered router request
      [called (.verified request) (.ret ()), called .body (.ret body), called (.feedUpdate event) r] o := by
  cases ho with
  | cancelled => constructor <;> simp [h]
  | raised e => constructor <;> simp [h]
  | response payloads result response hresponse => constructor <;> simp [h, hresponse]
  | refused payloads result e he hcaught => constructor <;> simp [h, he, hcaught]
  | broken payloads result e he hcaught => constructor <;> simp [h, he, hcaught]

theorem Row.answered {router : Router} {request : IncomingRequest} {t : Trace} {o : Outcome Exc Answer}
    (h : Row router request t o) : Answered router request t o := by
  cases h with
  | cancelled => constructor <;> simp
  | unverified text => constructor <;> simp
  | verifierFailed e he => constructor <;> simp [fun text => (he text).symm]
  | bodyCancelled => constructor <;> simp
  | bodyFailed e => constructor <;> simp
  | refused body e h he => constructor <;> simp [h, he]
  | parserFailed body e h he => constructor <;> simp [h, he]
  | dispatched body event h r o ho => exact ho.answered h

/-- How the verification of a request ends when nobody cancels it. -/
def verdict : Except Http.Exc Unit → Outcome Exc Unit
  | .ok () => .ret ()
  | .error (.verification text) => .raised (.verification text)
  | .error (.other className) => .raised (.other className)

/-- The run's verifier is a `GoogleTokenVerifier`. -/
def VerifiedBy (self : GoogleTokenVerifier) (google : GoogleAuth) (request : IncomingRequest) (t : Trace) :
    Prop :=
  ∀ r, called (.verified request) r ∈ t →
    r = .cancelled ∨ r = verdict (self.verify google { request with body := [] })

/-- **Main result.** Behind a `GoogleTokenVerifier`, an event reaches the dispatcher only from a request
with a bearer token of Google Chat, parsed from its body, and once; a request without such a token is not
read. What is answered is what has happened: 401 for a failed verification, 400 for a body that is no
interaction, 500 for a failed handler or a response that the event does not take, and 200 with the first
payload given to `respond`, or else with the result of the dispatcher. -/
theorem chat_endpoint (router : Router) (self : GoogleTokenVerifier) (google : GoogleAuth)
    (request : IncomingRequest) (t : Trace) (o : Outcome Exc Answer) (h : Runs (endpoint router request) t o)
    (hverified : VerifiedBy self google request t) :
    Answered router request t o ∧
      (∀ event r, called (.feedUpdate event) r ∈ t → self.Authentic google request) ∧
      (¬ self.Authentic google request → ∀ r, called .body r ∉ t) := by
  have hrow := row_of_runs h
  have hauthentic (hok : called (.verified request) (.ret ()) ∈ t) : self.Authentic google request := by
    obtain hcancelled | hverdict := hverified _ hok
    · cases hcancelled
    · refine (Http.verify_iff self google { request with body := [] }).1.mp ?_
      cases hresult : self.verify google { request with body := [] } with
      | ok result => rfl
      | error e =>
        rw [hresult] at hverdict
        cases e with
        | verification text => cases hverdict
        | other className => cases hverdict
  refine ⟨hrow.answered, fun event r hmem => ?_, fun hnot r hmem => hnot ?_⟩
  · obtain ⟨body, rfl, -⟩ := hrow.answered.dispatched event r hmem
    exact hauthentic List.mem_cons_self
  · cases hrow with
    | cancelled => simp at hmem
    | unverified text => simp at hmem
    | verifierFailed e he => simp at hmem
    | bodyCancelled => exact hauthentic List.mem_cons_self
    | bodyFailed e => exact hauthentic List.mem_cons_self
    | refused body e h he => exact hauthentic List.mem_cons_self
    | parserFailed body e h he => exact hauthentic List.mem_cons_self
    | dispatched body event h r o ho => exact hauthentic List.mem_cons_self

/-- A project-number audience, and a token that google-auth decodes to the claims of Google Chat. -/
def projectVerifier : GoogleTokenVerifier := ⟨"1234", 10⟩

def projectGoogle : GoogleAuth where
  verifyOauth2Token _ _ := .error .valueError
  verifyToken token _ _ _ :=
    if token = "t" then .ok [("iss", .str Http.chatIssuer)] else .error .valueError

def bearerRequest : IncomingRequest := ⟨"POST", "/", [], [("authorization", "bearer  t ")]⟩

def hiRouter : Router where
  loads _ := .value (.dict Pubsub.hiInteraction)
  lib := Pubsub.hiStdlib
  sdk := ⟨fun _ _ => false, fun _ _ => .error [], id, fun _ => none, fun _ => false⟩
  isTypeError _ := true

/-- Two handlers respond, and the dispatcher returns a third text. -/
def threeTexts : (c : Call) → Outcome Exc c.Res
  | .verify _ => .ret ()
  | .body => .ret []
  | .feedUpdate _ => .ret ([.text "one", .text "two"], .text "three")

theorem projectVerifier_verify :
    projectVerifier.verify projectGoogle { bearerRequest with body := [] } = .ok () := by
  have hbearer : Http.extractBearer { bearerRequest with body := [] } = .ok "t" := by decide +kernel
  unfold GoogleTokenVerifier.verify
  rw [hbearer]
  rfl

/-- Both handlers' texts are given to `respond`, and the first one is sent. -/
theorem first_text_sent : projectVerifier.Authentic projectGoogle bearerRequest ∧
    ((endpoint hiRouter bearerRequest).runWith threeTexts).2 =
      .ret (200, .json (.dict [("text", .str "one")])) := by
  have htrace : ((endpoint hiRouter bearerRequest).runWith threeTexts).1 =
      [called (.verified bearerRequest) (.ret ()), called .body (.ret []),
        called (.feedUpdate (Pubsub.hiEvent Pubsub.hiInteraction))
          (.ret ([.text "one", .text "two"], .text "three"))] := rfl
  have hverified : VerifiedBy projectVerifier projectGoogle bearerRequest
      ((endpoint hiRouter bearerRequest).runWith threeTexts).1 := by
    intro r hr
    rw [projectVerifier_verify]
    rw [htrace] at hr
    obtain h | h := List.mem_cons.mp hr
    · cases h
      exact .inr rfl
    · obtain h | h := List.mem_cons.mp h
      · cases h
      · cases List.mem_singleton.mp h
  obtain ⟨hanswered, hauthentic, -⟩ :=
    chat_endpoint hiRouter projectVerifier projectGoogle bearerRequest _ _ (runs_runWith threeTexts _) hverified
  rw [htrace] at hanswered hauthentic
  refine ⟨hauthentic _ _ (List.mem_cons_of_mem _ (List.mem_cons_of_mem _ List.mem_cons_self)), ?_⟩
  exact (hanswered.success _).mpr ⟨_, _, _,
    List.mem_cons_of_mem _ (List.mem_cons_of_mem _ List.mem_cons_self), rfl⟩

end Chattice.ChatRouter
