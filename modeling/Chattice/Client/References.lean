import Chattice.Client.Identity

/-!
# Sends from event references

`SpaceRef.send`, `ThreadRef.send` and `MessageEvent.reply` end in `_send_message`, which fills in a
reply option and calls `Messages.create` of the app namespace.

* `Threaded` : a request in the given thread with a reply option that Google heeds;
* `create_threaded_iff` : `Messages.create` sends it exactly when its caller gives such an option;
* `sendMessage_threaded` : `_send_message` always does.
-/

namespace Chattice.Client

open Asyncio Asyncio.Coro Cards Python

/-- The arguments that the contextual sends pass on. -/
structure SendArgs where
  text : Option String := none
  replyOption : Option MessageReplyOption := none
  requestId : Option String := none
  messageId : Option String := none
  timeout : Option Rat := none
  accessoryWidgets : Option (List AccessoryWidget) := none
  card : Option Card := none
  notify : Option String := none
  privateTo : Option UserTarget := none
  attachments : Option (List AttachmentItem) := none

/-- The call of `messages.create` in `_send_message`. -/
def SendArgs.createArgs (args : SendArgs) (space : SpaceTarget) (thread : Option ThreadRef) :
    CreateArgs where
  space := space
  text := args.text
  thread := thread
  replyOption := some (args.replyOption.getD .fallbackToNewThread)
  requestId := args.requestId
  messageId := args.messageId
  timeout := args.timeout
  accessoryWidgets := args.accessoryWidgets
  card := args.card
  notify := args.notify
  privateTo := args.privateTo
  attachments := args.attachments

/-- `_message_sender`: the explicit bot, else the one of the context. -/
def messageSender (explicit current : Option Bot) : Except Exc Bot :=
  match explicit.or current with
  | some bot => .ok bot
  | none => .error (.runtimeError [.text ("Contextual send requires a Bot. Configure " ++
      "Dispatcher(bot=...), pass bot=... to Dispatcher.feed_update(), or pass bot=... to " ++
      "this method.")])

/-- `_send_message` -/
def sendMessage (platform : Platform) (explicit current : Option Bot) (space : SpaceTarget)
    (thread : Option ThreadRef) (args : SendArgs) : Coro sig Json := do
  let bot ← ofExcept (messageSender explicit current)
  create platform bot .app (args.createArgs space thread)

/-- `SpaceRef.send` -/
def spaceSend (platform : Platform) (current : Option Bot) (space : SpaceRef)
    (thread : Option ThreadRef) (args : SendArgs) (bot : Option Bot) : Coro sig Json :=
  sendMessage platform bot current (.ref space) thread args

/-- The space in front of `/threads/`. -/
def threadParent (name : String) : Option String :=
  match partition name "/threads/" with
  | some (parent, _) => if startsWith parent "spaces/" then some parent else none
  | none => none

/-- `ThreadRef._parent_space` -/
def parentSpace (thread : ThreadRef) (explicit : Option SpaceTarget) : Except Exc SpaceTarget :=
  match explicit, thread.space, thread.name.bind threadParent with
  | some space, _, _ => .ok space
  | none, some space, _ => .ok (.ref space)
  | none, none, some parent => .ok (.name parent)
  | none, none, none => .error (.runtimeError [.text ("ThreadRef.send() requires its parent " ++
      "space. Use a parsed event thread, construct ThreadRef(..., space=...), or pass " ++
      "space=....")])

/-- `ThreadRef.send` -/
def threadSend (platform : Platform) (current : Option Bot) (thread : ThreadRef)
    (space : Option SpaceTarget) (args : SendArgs) (bot : Option Bot) : Coro sig Json := do
  let parent ← ofExcept (parentSpace thread space)
  sendMessage platform bot current parent (some thread) args

/-- `MessageEvent.reply` -/
def reply (platform : Platform) (current : Option Bot) (event : Event) (args : SendArgs)
    (bot : Option Bot) : Coro sig Json :=
  match event.space, event.thread with
  | none, _ => raise (.runtimeError [.text "MessageEvent.reply() requires a known space"])
  | some _, none => raise (.runtimeError [.text "MessageEvent.reply() requires a known thread"])
  -- never falls back to a new thread silently
  | some space, some thread =>
    sendMessage platform bot current (.ref space) (some thread)
      { args with replyOption := some (args.replyOption.getD .orFail) }

/-! ## Threaded requests -/

/-- A thread with a name or a key. -/
def IsThread (thread : ThreadRef) : Prop := thread.name.isSome = true ∨ thread.threadKey.isSome = true

/-- The request carries the thread, and an option with which Google does not ignore it. -/
structure Threaded (thread : ThreadRef) (request : CreateMessageRequest) : Prop where
  thread_eq : request.message.thread = ⟨thread.name, thread.threadKey⟩
  option_ne : request.messageReplyOption ≠ .unspecified

def Sends {α : Type} (c : Coro sig α) (request : CreateMessageRequest) : Prop :=
  ∃ client timeout, c.Calls (Call.createMessage client request timeout)

variable {platform : Platform} {bot : Bot} {identity : AuthMode} {request : CreateMessageRequest}

theorem create_sends {args : CreateArgs} (h : Sends (create platform bot identity args) request) :
    request.message.thread = ⟨args.thread.bind ThreadRef.name, args.thread.bind ThreadRef.threadKey⟩ ∧
      request.messageReplyOption = args.effectiveOption := by
  obtain ⟨client, timeout, hcalls⟩ := h
  obtain ⟨-, -, viewer, parent, card, attached, hissued⟩ := create_calls.mp hcalls
  obtain ⟨cards, -, hrest⟩ := Except.bind_eq_ok.mp hissued.request_eq
  obtain ⟨widgets, -, hbuilt⟩ := Except.bind_eq_ok.mp hrest
  rw [← Except.pure_eq_ok.mp hbuilt]
  exact ⟨rfl, rfl⟩

theorem hasThread_of_isThread {args : CreateArgs} {thread : ThreadRef} (hthread : args.thread = some thread)
    (h : IsThread thread) : args.hasThread = true := by
  rw [CreateArgs.hasThread, hthread]
  exact Bool.or_eq_true_iff.mpr h

/-- **`Messages.create` in a thread.** The option is the caller's, and there is no other. -/
theorem create_threaded_iff {args : CreateArgs} {thread : ThreadRef}
    (hthread : args.thread = some thread) (hname : IsThread thread)
    (h : Sends (create platform bot identity args) request) :
    Threaded thread request ↔ ∃ option, args.replyOption = some option ∧ option ≠ .unspecified := by
  obtain ⟨hcarried, hoption⟩ := create_sends h
  rw [hthread] at hcarried
  have heffective : args.effectiveOption = args.replyOption.getD .unspecified := by
    unfold CreateArgs.effectiveOption
    cases args.replyOption with
    | none => rfl
    | some option => exact if_pos (hasThread_of_isThread hthread hname)
  constructor
  · rintro ⟨-, hne⟩
    rw [hoption, heffective] at hne
    cases hcase : args.replyOption with
    | none => exact absurd (by rw [hcase]; rfl) hne
    | some option =>
      rw [hcase] at hne
      exact ⟨option, rfl, hne⟩
  · rintro ⟨option, hgiven, hne⟩
    refine ⟨hcarried, ?_⟩
    rw [hoption, heffective, hgiven]
    exact hne

variable {current explicit : Option Bot} {thread : ThreadRef} {args : SendArgs}

/-- `_send_message` fills in an option where the caller gives none. -/
theorem sendMessage_threaded {space : SpaceTarget} (hname : IsThread thread)
    (hoption : args.replyOption ≠ some .unspecified)
    (h : Sends (sendMessage platform explicit current space (some thread) args) request) :
    Threaded thread request := by
  obtain ⟨client, timeout, hcalls⟩ := h
  obtain ⟨bot, -, hcreate⟩ := calls_ofExcept_bind.mp hcalls
  have hsends : Sends (create platform bot .app (args.createArgs space (some thread))) request :=
    ⟨client, timeout, hcreate⟩
  refine (create_threaded_iff rfl hname hsends).mpr ⟨_, rfl, ?_⟩
  cases hcase : args.replyOption with
  | none => exact nofun
  | some option =>
    rw [hcase] at hoption
    exact fun heq => hoption (congrArg some heq)

theorem threadSend_threaded {space : Option SpaceTarget} (hname : IsThread thread)
    (hoption : args.replyOption ≠ some .unspecified)
    (h : Sends (threadSend platform current thread space args explicit) request) :
    Threaded thread request := by
  obtain ⟨client, timeout, hcalls⟩ := h
  obtain ⟨parent, -, hsend⟩ := calls_ofExcept_bind.mp hcalls
  exact sendMessage_threaded hname hoption ⟨client, timeout, hsend⟩

theorem reply_threaded {event : Event} (hthread : event.thread = some thread) (hname : IsThread thread)
    (hoption : args.replyOption ≠ some .unspecified)
    (h : Sends (reply platform current event args explicit) request) : Threaded thread request := by
  unfold reply at h
  rw [hthread] at h
  split at h
  · exact absurd h.choose_spec.choose_spec calls_done
  · next hnone => cases hnone
  · next space thread' hspace hsome =>
    cases hsome
    refine sendMessage_threaded hname ?_ h
    cases hcase : args.replyOption with
    | none => exact nofun
    | some option => exact hcase ▸ hoption

end Chattice.Client
