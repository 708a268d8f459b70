import Chattice.Client.References
import Chattice.Transports.PubsubRunner.Handle

/-!
# `PubSubPullRunner._answer`, and the routes into a thread

`answer` sends the result of a handler: a text or a card as a message of the app, a card for a clicked
message as an update of it, under the update lock of that message. Log records are left out.

* `answer_sends` : a sent answer is a call of `Messages.create` without a reply option;
* `sends_threaded_iff` : which of the five routes into a thread send a request that stays there.
-/

namespace Chattice.PubsubRunner.Answer

open Asyncio Asyncio.Coro Cards Client
open Python (truthy)

/-- The result of a handler, as `_answer` tells results apart. -/
inductive Result where
  | none
  | dialog
  | actionStatus
  | text (text : String)
  | card (card : Card)
  | other

/-- The calls `_answer` awaits. -/
inductive Call where
  | client (call : Client.Call)
  | hook (name : HookName) (event : Event) (mode : String)
  | acquire (key : String)

abbrev Call.Res : Call → Type
  | .client call => call.Res
  | .hook .. | .acquire _ => Unit

/-- `self._update_locks.release(key)` -/
inductive Effect where
  | release (key : String)

abbrev sig : Sig where
  Call := Call
  Res := Call.Res
  Eff := Effect
  Exc := Client.Exc

def onClient {α : Type} : Coro Client.sig α → Coro sig α
  | .done o => .done o
  | .emit effect _ => nomatch effect
  | .await call next => .await (S := sig) (.client call) fun o => onClient (next o)

/-- `_maybe_hook`: the exceptions of a hook are logged only. -/
def maybeHook (hooks : Option (HookName → Bool)) (name : HookName) (event : Event) (mode : String) :
    Coro sig Unit :=
  match hooks with
  | none => pure ()
  | some provides =>
    if provides name then
      tryElse (call (S := sig) (.hook name event mode)) (fun _ => pure ()) fun _ => pure ()
    else pure ()

/-- `DIALOG_UNSUPPORTED_MESSAGE` -/
def dialogUnsupportedMessage : String :=
  "Dialogs require a synchronous Google Chat transport. Use a Card form or HTTP transport."

/-- The message a card updates in place: the one that was clicked. -/
def updatedMessage (event : Event) : Option String :=
  match event.body with
  | .action _ _ _ _ _ message => message.bind MessageRef.name
  | _ => none

/-- `ThreadRef(name=thread) if thread else None` -/
def textThread (event : Event) : Option ThreadRef :=
  let thread := event.thread.bind ThreadRef.name
  if truthy thread then some ⟨thread, none, none⟩ else none

def sendText (platform : Platform) (hooks : Option (HookName → Bool)) (bot : Bot) (event : Event)
    (space text : String) : Coro sig (Option String) := do
  maybeHook hooks .beforeOutbound event "send_message"
  let _sent ← onClient (create platform bot .app
    { space := .name space, text := some text, thread := textThread event })
  maybeHook hooks .afterOutbound event "send_message"
  pure (some "send_message")

def sendCard (platform : Platform) (hooks : Option (HookName → Bool)) (bot : Bot) (event : Event)
    (space : String) (card : Card) : Coro sig (Option String) := do
  maybeHook hooks .beforeOutbound event "send_message"
  let _sent ← onClient (create platform bot .app { space := .name space, card := some card })
  maybeHook hooks .afterOutbound event "send_message"
  pure (some "send_message")

/-- The update of a clicked message, one at a time for each message. -/
def updateCard (platform : Platform) (hooks : Option (HookName → Bool)) (bot : Bot) (event : Event)
    (messageName : String) (card : Card) : Coro sig (Option String) := do
  call (S := sig) (.acquire messageName)
  let _updated ← tryFinally
    (onClient (update platform bot .app { name := messageName, card := some card }))
    (act (S := sig) (.release messageName))
  maybeHook hooks .afterOutbound event "update_message"
  pure (some "update_message")

/-- `_answer` -/
def answer (platform : Platform) (hooks : Option (HookName → Bool)) (bot : Option Bot)
    (event : Event) (result : Result) : Coro sig (Option String) :=
  match result with
  | .none => pure none
  | .dialog | .actionStatus => raise (.capabilityNotSupported [.text dialogUnsupportedMessage])
  | .other => pure none
  | .text text =>
    match bot, event.spaceName with
    | some bot, some space => sendText platform hooks bot event space text
    -- no Bot, or an event without a space: the answer is dropped
    | _, _ => pure none
  | .card card =>
    match bot, event.spaceName with
    | some bot, some space =>
      match updatedMessage event with
      | some messageName => updateCard platform hooks bot event messageName card
      | none => sendCard platform hooks bot event space card
    | _, _ => pure none

/-! ## What an answer sends -/

variable {platform : Platform} {hooks : Option (HookName → Bool)}

theorem calls_onClient {α : Type} {c : Coro Client.sig α} {k : Client.Call} :
    (onClient c).Calls (Call.client k) ↔ c.Calls k := by
  induction c with
  | done o => exact Iff.rfl
  | emit effect _ => cases effect
  | await call next ih =>
    refine or_congr ?_ (exists_congr ih)
    exact ⟨fun h => by cases h; rfl, congrArg Call.client⟩

theorem maybeHook_not_client {name : HookName} {event : Event} {mode : String} {k : Client.Call} :
    ¬ (maybeHook hooks name event mode).Calls (Call.client k) := by
  have hwithin : (maybeHook hooks name event mode).Within fun c => c ≠ Call.client k := by
    unfold maybeHook
    split
    · exact within_done
    · split
      · exact within_tryElse (within_call nofun) (fun _ => within_done) fun _ => within_done
      · exact within_done
  exact fun h => hwithin _ h rfl

theorem calls_hooked {α β : Type} {c : Coro Client.sig α} {event : Event} {mode : String} {b : β}
    {k : Client.Call} :
    ((maybeHook hooks .beforeOutbound event mode).bind fun _ => (onClient c).bind fun _ =>
        (maybeHook hooks .afterOutbound event mode).bind fun _ => done (.ret b)).Calls
      (Call.client k) ↔ (maybeHook hooks .beforeOutbound event mode).Returns () ∧ c.Calls k := by
  simp only [calls_bind, maybeHook_not_client, calls_onClient, calls_done, and_false, exists_false,
    false_or, or_false]
  constructor
  · rintro ⟨⟨⟩, hreturns, hcalls⟩
    exact ⟨hreturns, hcalls⟩
  · rintro ⟨hreturns, hcalls⟩
    exact ⟨(), hreturns, hcalls⟩

theorem update_silent {bot : Bot} {identity : AuthMode} {args : UpdateArgs} :
    Silent (update platform bot identity args) := by
  have hcard : Silent (resolvedCard platform bot { space := .name "", card := args.card }) :=
    resolvedCard_silent
  refine within_bind within_ofExcept fun _ => ?_
  refine within_bind (silent_of_quiet authModeAsync_quiet) fun _ => ?_
  refine within_bind within_ofExcept fun _ => within_bind within_ofExcept fun _ => ?_
  refine within_bind ?_ fun _ => within_bind within_ofExcept fun _ => ?_
  · exact hcard
  · exact execute_within rfl rfl (fun _ => rfl) fun _ => within_call rfl

theorem updateCard_not_send {bot : Bot} {event : Event} {messageName : String} {card : Card}
    {client : SdkClient} {request : CreateMessageRequest} {timeout : Option Rat} :
    ¬ (updateCard platform hooks bot event messageName card).Calls
      (Call.client (.createMessage client request timeout)) := by
  have hupdate : ¬ (update platform bot .app { name := messageName, card := some card }).Calls
      (Client.Call.createMessage client request timeout) := update_silent.not_calls rfl
  intro h
  obtain h | ⟨_, -, h⟩ := calls_bind.mp h
  · cases calls_call.mp h
  obtain h | ⟨_, -, h⟩ := calls_bind.mp h
  · obtain h | ⟨o, -, h⟩ := calls_andThen.mp h
    · exact hupdate (calls_onClient.mp h)
    · obtain h | ⟨_, -, h⟩ := calls_bind.mp h
      · exact h
      · exact calls_done h
  · obtain h | ⟨_, -, h⟩ := calls_bind.mp h
    · exact maybeHook_not_client h
    · exact calls_done h

/-- A sent answer is a call of `Messages.create` that gives no reply option. -/
theorem answer_sends {bot : Option Bot} {event : Event} {result : Result} {client : SdkClient}
    {request : CreateMessageRequest} {timeout : Option Rat}
    (h : (answer platform hooks bot event result).Calls
      (Call.client (.createMessage client request timeout))) :
    ∃ bot args, args.replyOption = none ∧ Sends (create platform bot .app args) request := by
  unfold answer at h
  split at h
  · exact absurd h calls_done
  · exact absurd h calls_done
  · exact absurd h calls_done
  · exact absurd h calls_done
  · split at h
    · exact ⟨_, _, rfl, client, timeout, (calls_hooked.mp h).2⟩
    · exact absurd h calls_done
  · split at h
    · split at h
      · exact absurd h updateCard_not_send
      · exact ⟨_, _, rfl, client, timeout, (calls_hooked.mp h).2⟩
    · exact absurd h calls_done

/-! ## Routes into a thread -/

/-- A send by the framework; `current` is the Bot of the context. -/
inductive Route where
  | create (bot : Bot) (identity : AuthMode) (args : CreateArgs)
  | reply (current bot : Option Bot) (event : Event) (args : SendArgs)
  | threadSend (current bot : Option Bot) (thread : ThreadRef) (space : Option SpaceTarget)
      (args : SendArgs)
  | spaceSend (current bot : Option Bot) (space : SpaceRef) (thread : Option ThreadRef)
      (args : SendArgs)
  | answer (hooks : Option (HookName → Bool)) (bot : Option Bot) (event : Event) (result : Result)

namespace Route

def thread : Route → Option ThreadRef
  | .create _ _ args => args.thread
  | .reply _ _ event _ => event.thread
  | .threadSend _ _ thread _ _ => some thread
  | .spaceSend _ _ _ thread _ => thread
  | .answer _ _ event _ => event.thread

def replyOption : Route → Option MessageReplyOption
  | .create _ _ args => args.replyOption
  | .reply _ _ _ args | .threadSend _ _ _ _ args | .spaceSend _ _ _ _ args => args.replyOption
  | .answer .. => none

/-- A run of the route creates a message with the request. -/
def SendsRequest (platform : Platform) (request : CreateMessageRequest) : Route → Prop
  | .create bot identity args => Sends (Client.create platform bot identity args) request
  | .reply current bot event args => Sends (Client.reply platform current event args bot) request
  | .threadSend current bot thread space args =>
    Sends (Client.threadSend platform current thread space args bot) request
  | .spaceSend current bot space thread args =>
    Sends (Client.spaceSend platform current space thread args bot) request
  | .answer hooks bot event result => ∃ client timeout,
    (Answer.answer platform hooks bot event result).Calls
      (Call.client (.createMessage client request timeout))

/-- The route goes through `_send_message`, which fills in a reply option. -/
def FillsIn : Route → Prop
  | .reply .. | .threadSend .. | .spaceSend .. => True
  | .create .. | .answer .. => False

end Route

theorem not_threaded_of_create {bot : Bot} {identity : AuthMode} {args : CreateArgs}
    {request : CreateMessageRequest} (hoption : args.replyOption = none)
    (h : Sends (create platform bot identity args) request) (thread : ThreadRef) :
    ¬ Threaded thread request := by
  rintro ⟨-, hne⟩
  rw [(create_sends h).2, CreateArgs.effectiveOption, hoption] at hne
  exact hne rfl

theorem ne_unspecified {option : Option MessageReplyOption} (h : option = none) :
    option ≠ some .unspecified := by
  rw [h]
  nofun

/-- **The routes into a thread.** When the caller gives no reply option, every request that a route
sends stays in the thread exactly when the route fills one in: replies and sends by reference do,
`Messages.create` and the answers of the runner do not. -/
theorem sends_threaded_iff {route : Route} {thread : ThreadRef} {request : CreateMessageRequest}
    (hthread : route.thread = some thread) (hname : IsThread thread)
    (hoption : route.replyOption = none) (hsends : route.SendsRequest platform request) :
    Threaded thread request ↔ route.FillsIn := by
  cases route with
  | create bot identity args => exact iff_false_intro (not_threaded_of_create hoption hsends thread)
  | reply current bot event args =>
    exact iff_true_intro (reply_threaded hthread hname (ne_unspecified hoption) hsends)
  | threadSend current bot ref space args =>
    cases hthread
    exact iff_true_intro (threadSend_threaded hname (ne_unspecified hoption) hsends)
  | spaceSend current bot space ref args =>
    obtain rfl : ref = some thread := hthread
    exact iff_true_intro (sendMessage_threaded hname (ne_unspecified hoption) hsends)
  | answer hooks bot event result =>
    obtain ⟨client, timeout, hcalls⟩ := hsends
    obtain ⟨sender, args, hnone, hcreate⟩ := answer_sends hcalls
    exact iff_false_intro (not_threaded_of_create hnone hcreate thread)

theorem sends_of_trace {α : Type} {c : Coro Client.sig α}
    {answer : (c : Client.sig.Call) → Outcome Client.sig.Exc (Client.sig.Res c)}
    {t : List (Asyncio.Event Client.sig)} (htrace : (c.runWith answer).1 = t) {client : SdkClient}
    {request : CreateMessageRequest} {timeout : Option Rat} {r : Outcome Client.Exc Json}
    (h : .called (Client.Call.createMessage client request timeout) r ∈ t) : Sends c request :=
  ⟨client, timeout, calls_iff_runs.mpr ⟨_, _, r, runs_runWith answer c, htrace ▸ h⟩⟩

def opsThread : ThreadRef := ⟨some "spaces/A/threads/T", none, none⟩

def opsMessage : Event where
  raw := .null
  eventTime := none
  actor := none
  space := some ⟨some "spaces/A", none, none, none, none⟩
  thread := some opsThread
  dialog := none
  locale := none
  timezone := none
  body := .message "hi" none none none none

def opsRequest (option : MessageReplyOption) : CreateMessageRequest where
  parent := "spaces/A"
  message := ⟨"done", none, [], none, [], [], ⟨some "spaces/A/threads/T", none⟩⟩
  requestId := none
  messageId := none
  messageReplyOption := option
  createMessageNotificationOptions := none

def opsTrace (option : MessageReplyOption) : List (Asyncio.Event Client.sig) :=
  [.called Client.Call.resolveCredentials (.ret ()), .called Client.Call.resolveCredentials (.ret ()),
    .called (Client.Call.initializeClient .app) (.ret ()),
    .called (Client.Call.createMessage .app (opsRequest option) none) (.ret (.dict []))]

theorem reply_trace : ((reply textPlatform none opsMessage { text := some "done" }
    (some dualBot)).runWith (S := Client.sig) Client.succeeds).1 = opsTrace .orFail := rfl

/-- The reply stays in the thread. -/
theorem reply_inThread : Threaded opsThread (opsRequest .orFail) := by
  have hsends : Sends (reply textPlatform none opsMessage { text := some "done" } (some dualBot))
      (opsRequest .orFail) :=
    sends_of_trace reply_trace (.tail _ (.tail _ (.tail _ (.head _))))
  have hroute : (Route.reply none (some dualBot) opsMessage
      { text := some "done" }).SendsRequest textPlatform (opsRequest .orFail) := hsends
  exact (sends_threaded_iff rfl (.inl rfl) rfl hroute).mpr trivial

/-- `bot.app.messages.create("spaces/A", "done", thread=thread)` -/
def opsArgs : CreateArgs where
  space := .name "spaces/A"
  text := some "done"
  thread := some opsThread

theorem create_trace : ((create textPlatform dualBot .app opsArgs).runWith (S := Client.sig)
    Client.succeeds).1 = opsTrace .unspecified := rfl

/-- `Messages.create` sends it with the unspecified option, with which the thread is ignored. -/
theorem create_outOfThread :
    ¬ ∀ (platform : Platform) (route : Route) (thread : ThreadRef) (request : CreateMessageRequest),
      route.thread = some thread → IsThread thread → route.replyOption = none →
        route.SendsRequest platform request → Threaded thread request := by
  intro h
  have hsends : Sends (create textPlatform dualBot .app opsArgs) (opsRequest .unspecified) :=
    sends_of_trace create_trace (.tail _ (.tail _ (.tail _ (.head _))))
  exact (h textPlatform (.create dualBot .app opsArgs) opsThread _ rfl (.inl rfl) rfl hsends).option_ne rfl

end Chattice.PubsubRunner.Answer
