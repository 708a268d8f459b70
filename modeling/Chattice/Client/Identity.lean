import Chattice.Client.Checks
import Chattice.Data.Except

/-!
# Which identity a message is sent with

The checks of `Messages.create` consult `actualMode`, the class of the Bot's primary credentials; the
request runs on the client of the namespace. `Issued` says what a call that sends a request has
passed, and `Bound` what the privacy and identity rules ask of the client that sends it.

* `create_calls` : the requests a call can send, and the client they are sent on;
* `create_bound_iff` : every request is sent by the right identity unless the call is `Misbound`: a
  call of the user namespace whose checks accept a gated argument for another identity.
-/

namespace Chattice.Client

open Asyncio Asyncio.Coro Cards

variable {platform : Platform} {bot : Bot} {identity : AuthMode} {args : CreateArgs}

/-- What `actualModeAsync` returns. -/
def CreateArgs.actualMode (args : CreateArgs) (bot : Bot) : Option AuthMode :=
  if args.hasAttachments then some .user else bot.primaryMode

theorem actualModeAsync_returns {mode : Option AuthMode} :
    (actualModeAsync bot args).Returns mode ↔ mode = args.actualMode bot := by
  unfold actualModeAsync CreateArgs.actualMode
  split
  · simp [eq_comm]
  · exact authModeAsync_returns

/-! ## Everything but the last step sends nothing -/

/-- The coroutine sends no message. -/
abbrev Silent {α : Type} (c : Coro sig α) : Prop := c.Within fun k => Call.isSend k = false

theorem Silent.not_calls {α : Type} {c : Coro sig α} (h : Silent c) {k : Call}
    (hk : k.isSend = true) : ¬ c.Calls k := by
  intro hcalls
  have hquiet : k.isSend = false := h k hcalls
  rw [hk] at hquiet
  cases hquiet

theorem Silent.calls_bind {α β : Type} {c : Coro sig α} {f : α → Coro sig β} (h : Silent c)
    {k : Call} (hk : k.isSend = true) :
    (c.bind f).Calls k ↔ ∃ a, c.Returns a ∧ (f a).Calls k := by
  rw [Asyncio.calls_bind]
  exact or_iff_right (h.not_calls hk)

theorem silent_of_quiet {α : Type} {c : Coro sig α} (h : localRefusals.Quiet c) : Silent c := by
  intro k hk
  have heffect : k.isEffect = false := h.within k hk
  cases k with
  | createMessage client request timeout => cases heffect
  | _ => rfl

theorem uploadAttachment_silent (space : String) (file : InputFile) (timeout : Option Rat) :
    Silent (uploadAttachment bot space file timeout) := by
  refine within_bind within_ofExcept fun parent => ?_
  refine within_bind (silent_of_quiet (validate_quiet file)) fun _ => ?_
  refine within_bind ?_ fun response => ?_
  · refine execute_within rfl rfl (fun _ => rfl) fun _ => ?_
    refine within_bind (silent_of_quiet (read_quiet file)) fun data => ?_
    refine within_bind (silent_of_quiet resolveUserCredentials_quiet) fun _ => ?_
    exact within_call rfl
  · split <;> exact within_done

theorem attach_silent (parent : String) (timeout : Option Rat) (item : AttachmentItem) :
    Silent (attach bot parent timeout item) := by
  unfold attach
  split
  · exact within_done
  · exact within_bind (uploadAttachment_silent _ _ _) fun _ => within_done

theorem resolvedCard_silent : Silent (resolvedCard platform bot args) := by
  unfold resolvedCard
  split
  · exact within_done
  · refine within_bind (fun k hk => ?_) fun _ => within_done
    have hasset : k.isAsset = true := resolveCardAssets_within _ _ k hk
    cases k <;> first | rfl | cases hasset

/-! ## The requests a call can send -/

/-- What a call has passed when it sends `request`, with the values it computed on the way. -/
structure Issued (platform : Platform) (bot : Bot) (identity : AuthMode) (args : CreateArgs)
    (viewer : Option String) (parent : String) (card : Option Card)
    (attached : List AttachmentDataRef) (request : CreateMessageRequest) : Prop where
  assets : validateCardAssets args.card bot.hasAssetPublisher = .ok ()
  combination : attachmentGuards identity args = .ok ()
  notify : notifyGuards (args.actualMode bot) args = .ok ()
  viewer_eq : privateViewer (args.actualMode bot) args = .ok viewer
  cardMode : cardGuard (args.actualMode bot) args = .ok ()
  parent_eq : canonicalSpace args.space = .ok parent
  items : ∃ checked, (forEach (checkItem parent) args.attachmentList).Returns checked
  accessory : accessoryGuard (args.actualMode bot) args = .ok ()
  mode : modeGuard (args.actualMode bot) = .ok ()
  attachmentSend : (checkAttachmentSend bot identity args).Returns ()
  card_eq : (resolvedCard platform bot args).Returns card
  attached_eq : (forEach (attach bot parent args.timeout) args.attachmentList).Returns attached
  request_eq : buildRequest platform args parent viewer card attached = .ok request
  preflight : preflightCredentials .messagesCreate identity .normal
    (bot.credentialsOf identity) = .ok ()

theorem send_calls {parent : String} {viewer : Option String} {client : SdkClient}
    {request : CreateMessageRequest} {timeout : Option Rat} :
    (send platform bot identity args parent viewer).Calls
        (Call.createMessage client request timeout) ↔
      client = clientOf identity ∧ timeout = args.timeout ∧ ∃ card attached,
        (resolvedCard platform bot args).Returns card ∧
        (forEach (attach bot parent args.timeout) args.attachmentList).Returns attached ∧
        buildRequest platform args parent viewer card attached = .ok request ∧
        preflightCredentials .messagesCreate identity .normal (bot.credentialsOf identity)
          = .ok () := by
  have hk : (Call.createMessage client request timeout).isSend = true := rfl
  have hattach : Silent (forEach (attach bot parent args.timeout) args.attachmentList) :=
    within_forEach fun item => attach_silent _ _ item
  unfold send
  simp only [bind_eq, resolvedCard_silent.calls_bind hk, hattach.calls_bind hk,
    calls_ofExcept_bind, execute_calls hk]
  constructor
  · rintro ⟨card, hcard, attached, hattached, built, hbuilt, -, hpreflight, hsent⟩
    injection calls_call.mp hsent with hclient hrequest htimeout
    rw [← hrequest] at hbuilt
    exact ⟨hclient, htimeout, card, attached, hcard, hattached, hbuilt, hpreflight⟩
  · rintro ⟨rfl, rfl, card, attached, hcard, hattached, hbuilt, hpreflight⟩
    exact ⟨card, hcard, attached, hattached, request, hbuilt, rfl, hpreflight, calls_call.mpr rfl⟩

/-- The requests a call can send, and the client they are sent on. -/
theorem create_calls {client : SdkClient} {request : CreateMessageRequest}
    {timeout : Option Rat} :
    (create platform bot identity args).Calls (Call.createMessage client request timeout) ↔
      client = clientOf identity ∧ timeout = args.timeout ∧ ∃ viewer parent card attached,
        Issued platform bot identity args viewer parent card attached request := by
  have hk : (Call.createMessage client request timeout).isSend = true := rfl
  have hitems (parent : String) : Silent (forEach (checkItem parent) args.attachmentList) :=
    silent_of_quiet (Policy.quiet_forEach fun item => checkItem_quiet parent item)
  have hmode : Silent (actualModeAsync bot args) := silent_of_quiet actualModeAsync_quiet
  have hattachments : Silent (checkAttachmentSend bot identity args) :=
    silent_of_quiet checkAttachmentSend_quiet
  unfold create
  simp only [bind_eq, hmode.calls_bind hk, (hitems _).calls_bind hk, hattachments.calls_bind hk,
    calls_ofExcept_bind, actualModeAsync_returns,
    send_calls]
  constructor
  · rintro ⟨⟨⟩, hassets, _, rfl, ⟨⟩, hcombination, ⟨⟩, hnotify, viewer, hviewer, ⟨⟩, hcardMode,
      parent, hparent, checked, hchecked, ⟨⟩, haccessory, ⟨⟩, hmode, ⟨⟩, hattachmentSend, hclient,
      htimeout, card, attached, hcard, hattached, hrequest, hpreflight⟩
    exact ⟨hclient, htimeout, viewer, parent, card, attached, hassets, hcombination, hnotify,
      hviewer, hcardMode, hparent, ⟨checked, hchecked⟩, haccessory, hmode, hattachmentSend, hcard,
      hattached, hrequest, hpreflight⟩
  · rintro ⟨hclient, htimeout, viewer, parent, card, attached, h⟩
    obtain ⟨checked, hchecked⟩ := h.items
    exact ⟨(), h.assets, _, rfl, (), h.combination, (), h.notify, viewer, h.viewer_eq, (),
      h.cardMode, parent, h.parent_eq, checked, hchecked, (), h.accessory, (), h.mode, (),
      h.attachmentSend, hclient, htimeout, card, attached, h.card_eq, h.attached_eq, h.request_eq,
      h.preflight⟩

/-! ## What the request carries -/

theorem buildRequest_eq_ok {parent : String} {viewer : Option String} {card : Option Card}
    {attached : List AttachmentDataRef} {request : CreateMessageRequest}
    (h : buildRequest platform args parent viewer card attached = .ok request) :
    request.message.privateMessageViewer = viewer ∧
      request.createMessageNotificationOptions = args.notificationOptions ∧
      cardsV2 platform card = .ok request.message.cardsV2 ∧
      (args.accessoryWidgets.getD []).mapM platform.accessoryToProto
        = .ok request.message.accessoryWidgets := by
  obtain ⟨cards, hcards, hrest⟩ := Except.bind_eq_ok.mp h
  obtain ⟨widgets, hwidgets, hbuilt⟩ := Except.bind_eq_ok.mp hrest
  rw [← Except.pure_eq_ok.mp hbuilt]
  exact ⟨rfl, rfl, hcards, hwidgets⟩

theorem cardsV2_ne_nil {card : Option Card} {cards : List CardWithId}
    (h : cardsV2 platform card = .ok cards) : cards ≠ [] ↔ card.isSome = true := by
  unfold cardsV2 at h
  split at h
  · cases h
    simp
  · split at h
    · cases h
    · cases h
      simp

theorem privateViewer_isSome {mode : Option AuthMode} {viewer : Option String}
    (h : privateViewer mode args = .ok viewer) : viewer.isSome = args.privateTo.isSome := by
  unfold privateViewer at h
  split at h
  · next hnone =>
    cases h
    rw [hnone]
    rfl
  · next hsome =>
    rw [hsome]
    split at h
    · cases h
    · split at h
      · cases h
      · split at h
        · cases h
        · cases h
          rfl

theorem notificationOptions_isSome {mode : Option AuthMode}
    (h : notifyGuards mode args = .ok ()) :
    args.notificationOptions.isSome = args.notify.isSome := by
  unfold notifyGuards at h
  unfold CreateArgs.notificationOptions
  split at h
  · next hnone =>
    rw [hnone]
    rfl
  · next notify hsome =>
    rw [hsome]
    split at h
    · cases h
    · next hknown =>
      by_cases hforce : notify = "force"
      · simp [hforce]
      · by_cases hsilent : notify = "silent"
        · simp [hsilent]
        · exact absurd ⟨hforce, hsilent⟩ hknown

theorem resolvedCard_isSome {card : Option Card}
    (h : (resolvedCard platform bot args).Returns card) : card.isSome = args.card.isSome := by
  unfold resolvedCard at h
  split at h
  · next hnone =>
    rw [pure_eq, returns_done, Outcome.ret.injEq] at h
    rw [← h, hnone]
  · next hsome =>
    rw [bind_eq, returns_bind] at h
    obtain ⟨resolved, -, hdone⟩ := h
    rw [pure_eq, returns_done, Outcome.ret.injEq] at hdone
    rw [← hdone, hsome]
    rfl

/-! ## The identity of a request -/

/-- What the privacy and identity rules ask of the client that sends the request. -/
structure Bound (bot : Bot) (client : SdkClient) (request : CreateMessageRequest) : Prop where
  app : request.message.privateMessageViewer.isSome = true ∨
    request.createMessageNotificationOptions.isSome = true ∨
    request.message.accessoryWidgets ≠ [] → client = .app
  card : request.message.cardsV2 ≠ [] → classify (client.credentials bot) ≠ some .user

/-- The call asks for something that a request on the user client may not carry. -/
def Gated (bot : Bot) (args : CreateArgs) : Prop :=
  (args.privateTo.isSome = true ∨ args.notify.isSome = true ∨ args.hasAccessoryWidgets = true) ∨
    (args.card.isSome = true ∧ classify bot.userCredentials = some .user)

theorem Issued.viewer_isSome {viewer : Option String} {parent : String} {card : Option Card}
    {attached : List AttachmentDataRef} {request : CreateMessageRequest}
    (h : Issued platform bot identity args viewer parent card attached request) :
    request.message.privateMessageViewer.isSome = args.privateTo.isSome := by
  rw [(buildRequest_eq_ok h.request_eq).1]
  exact privateViewer_isSome h.viewer_eq

theorem Issued.notification_isSome {viewer : Option String} {parent : String}
    {card : Option Card} {attached : List AttachmentDataRef} {request : CreateMessageRequest}
    (h : Issued platform bot identity args viewer parent card attached request) :
    request.createMessageNotificationOptions.isSome = args.notify.isSome := by
  rw [(buildRequest_eq_ok h.request_eq).2.1]
  exact notificationOptions_isSome h.notify

theorem Issued.accessory_ne_nil {viewer : Option String} {parent : String}
    {card : Option Card} {attached : List AttachmentDataRef} {request : CreateMessageRequest}
    (h : Issued platform bot identity args viewer parent card attached request) :
    request.message.accessoryWidgets ≠ [] ↔ args.hasAccessoryWidgets = true := by
  have hforall := Except.mapM_eq_ok.mp (buildRequest_eq_ok h.request_eq).2.2.2
  unfold CreateArgs.hasAccessoryWidgets
  rw [Bool.not_eq_true', ← Bool.not_eq_true, List.isEmpty_iff, not_iff_not,
    ← List.length_eq_zero_iff, ← List.length_eq_zero_iff, hforall.length_eq]

theorem Issued.cards_ne_nil {viewer : Option String} {parent : String}
    {card : Option Card} {attached : List AttachmentDataRef} {request : CreateMessageRequest}
    (h : Issued platform bot identity args viewer parent card attached request) :
    request.message.cardsV2 ≠ [] ↔ args.card.isSome = true := by
  rw [cardsV2_ne_nil (buildRequest_eq_ok h.request_eq).2.2.1, resolvedCard_isSome h.card_eq]

/-- Credentials that pass the preflight of another identity do not act as a user. -/
theorem preflightCredentials_not_user {operation : Capabilities.Operation}
    {variant : Capabilities.ExecutionVariant} {credentials : Option Credentials}
    (h : preflightCredentials operation identity variant credentials = .ok ())
    (hidentity : identity ≠ .user) : classify credentials ≠ some .user := by
  intro hclass
  unfold preflightCredentials at h
  split at h
  · cases hclass
  · rw [hclass] at h
    simp only [if_pos hidentity.symm, reduceCtorEq] at h

/-- A request is bound unless the user namespace sends a gated argument. -/
theorem Issued.bound_iff {viewer : Option String} {parent : String} {card : Option Card}
    {attached : List AttachmentDataRef} {request : CreateMessageRequest}
    (h : Issued platform bot identity args viewer parent card attached request) :
    Bound bot (clientOf identity) request ↔ ¬ (identity = .user ∧ Gated bot args) := by
  have happ : (request.message.privateMessageViewer.isSome = true ∨
      request.createMessageNotificationOptions.isSome = true ∨
      request.message.accessoryWidgets ≠ []) ↔
      (args.privateTo.isSome = true ∨ args.notify.isSome = true ∨
        args.hasAccessoryWidgets = true) := by
    rw [h.viewer_isSome, h.notification_isSome, h.accessory_ne_nil]
  by_cases hidentity : identity = .user
  · subst hidentity
    constructor
    · rintro hbound ⟨-, hgated | ⟨hcard, hclass⟩⟩
      · cases hbound.app (happ.mpr hgated)
      · exact hbound.card (h.cards_ne_nil.mpr hcard) hclass
    · intro hnot
      refine ⟨fun hcarries => ?_, fun hcards hclass => ?_⟩
      · exact absurd ⟨rfl, .inl (happ.mp hcarries)⟩ hnot
      · exact absurd ⟨rfl, .inr ⟨h.cards_ne_nil.mp hcards, hclass⟩⟩ hnot
  · have hclient : clientOf identity = .app := if_neg hidentity
    have hcredentials : bot.credentialsOf identity = bot.primaryCredentials := if_neg hidentity
    refine iff_of_true ?_ fun hmis => hidentity hmis.1
    rw [hclient]
    refine ⟨fun _ => rfl, fun _ => ?_⟩
    show classify bot.primaryCredentials ≠ some .user
    rw [← hcredentials]
    exact preflightCredentials_not_user h.preflight hidentity

/-- A call of the user namespace that passes every check, the identity checks among them against the
Bot's primary identity, and asks for something its own identity may not send. -/
structure Misbound (platform : Platform) (bot : Bot) (identity : AuthMode) (args : CreateArgs) :
    Prop where
  user : identity = .user
  gated : Gated bot args
  plain : args.hasAttachments = false
  assets : validateCardAssets args.card bot.hasAssetPublisher = .ok ()
  notify : notifyGuards bot.primaryMode args = .ok ()
  viewer : ∃ viewer, privateViewer bot.primaryMode args = .ok viewer
  cardMode : cardGuard bot.primaryMode args = .ok ()
  space : ∃ parent, canonicalSpace args.space = .ok parent
  accessory : accessoryGuard bot.primaryMode args = .ok ()
  mode : modeGuard bot.primaryMode = .ok ()
  credentials : preflightCredentials .messagesCreate .user .normal bot.userCredentials = .ok ()
  widgets : ∀ widget ∈ args.accessoryWidgets.getD [],
    ∃ proto, platform.accessoryToProto widget = .ok proto
  card : ∀ card, args.card = some card → ∃ resolved proto,
    ResolvesTo platform card bot.hasAssetPublisher resolved ∧
      platform.cardToProto resolved = .ok proto

theorem attachmentList_of_plain (h : args.hasAttachments = false) : args.attachmentList = [] := by
  unfold CreateArgs.hasAttachments at h
  rwa [Bool.not_eq_false', List.isEmpty_iff] at h

theorem plain_of_gated {mode : Option AuthMode}
    (hcombination : attachmentGuards identity args = .ok ())
    (hnotify : notifyGuards mode args = .ok ())
    (hcard : cardGuard (args.actualMode bot) args = .ok ()) (hgated : Gated bot args) :
    args.hasAttachments = false := by
  by_contra hattachments
  rw [Bool.not_eq_false] at hattachments
  unfold attachmentGuards at hcombination
  unfold CreateArgs.actualMode at hcard
  simp only [hattachments, Bool.not_true, Bool.false_eq_true, if_false] at hcombination
  rw [if_pos hattachments] at hcard
  obtain (hviewer | hnotified | haccessory) | ⟨hcards, -⟩ := hgated
  · rw [if_pos hviewer] at hcombination
    cases hcombination
  · obtain ⟨notify, hsome⟩ := Option.isSome_iff_exists.mp hnotified
    unfold notifyGuards at hnotify
    rw [hsome] at hnotify
    simp only [hattachments, if_true] at hnotify
    split at hnotify <;> cases hnotify
  · split at hcombination
    · cases hcombination
    · cases hcombination
  · unfold cardGuard at hcard
    rw [if_pos ⟨hcards, rfl⟩] at hcard
    cases hcard

theorem Misbound.issued (h : Misbound platform bot identity args) :
    ∃ viewer parent card attached request,
      Issued platform bot identity args viewer parent card attached request := by
  obtain ⟨viewer, hviewer⟩ := h.viewer
  obtain ⟨parent, hparent⟩ := h.space
  have hmode : args.actualMode bot = bot.primaryMode := by
    unfold CreateArgs.actualMode
    rw [h.plain]
    rfl
  have hlist := attachmentList_of_plain h.plain
  have hcards : ∃ card cards, (resolvedCard platform bot args).Returns card ∧
      cardsV2 platform card = .ok cards := by
    unfold resolvedCard
    cases hcard : args.card with
    | none => exact ⟨none, [], rfl, rfl⟩
    | some card =>
      obtain ⟨resolved, proto, hresolved, hproto⟩ := h.card card hcard
      refine ⟨some resolved, [⟨"card", proto⟩], ?_, ?_⟩
      · exact returns_bind.mpr ⟨resolved, resolveCardAssets_returns.mpr hresolved, rfl⟩
      · simp only [cardsV2, hproto]
  obtain ⟨card, cards, hreturns, hcards⟩ := hcards
  obtain ⟨widgets, hwidgets⟩ := Except.exists_mapM_eq_ok.mpr h.widgets
  obtain ⟨request, hrequest⟩ : ∃ request,
      buildRequest platform args parent viewer card [] = .ok request :=
    ⟨_, Except.bind_eq_ok.mpr ⟨cards, hcards, Except.bind_eq_ok.mpr ⟨widgets, hwidgets, rfl⟩⟩⟩
  refine ⟨viewer, parent, card, [], request, ?_⟩
  exact
    { assets := h.assets
      combination := by
        unfold attachmentGuards
        rw [h.plain]
        rfl
      notify := hmode ▸ h.notify
      viewer_eq := hmode ▸ hviewer
      cardMode := hmode ▸ h.cardMode
      parent_eq := hparent
      items := ⟨[], by rw [hlist]; rfl⟩
      accessory := hmode ▸ h.accessory
      mode := hmode ▸ h.mode
      attachmentSend := by
        unfold checkAttachmentSend
        rw [h.plain]
        rfl
      card_eq := hreturns
      attached_eq := by
        rw [hlist]
        rfl
      request_eq := hrequest
      preflight := by
        rw [h.user]
        exact h.credentials }

/-- The user namespace sends a gated argument only in a misbound call. -/
theorem Issued.misbound {viewer : Option String} {parent : String} {card : Option Card}
    {attached : List AttachmentDataRef} {request : CreateMessageRequest}
    (h : Issued platform bot identity args viewer parent card attached request)
    (huser : identity = .user) (hgated : Gated bot args) :
    Misbound platform bot identity args := by
  have hplain := plain_of_gated h.combination h.notify h.cardMode hgated
  have hmode : args.actualMode bot = bot.primaryMode := by
    unfold CreateArgs.actualMode
    rw [hplain]
    rfl
  have hbuilt := buildRequest_eq_ok h.request_eq
  have hpreflight := h.preflight
  rw [huser] at hpreflight
  exact
    { user := huser
      gated := hgated
      plain := hplain
      assets := h.assets
      notify := hmode ▸ h.notify
      viewer := ⟨viewer, hmode ▸ h.viewer_eq⟩
      cardMode := hmode ▸ h.cardMode
      space := ⟨parent, h.parent_eq⟩
      accessory := hmode ▸ h.accessory
      mode := hmode ▸ h.mode
      credentials := hpreflight
      widgets := Except.exists_mapM_eq_ok.mp ⟨_, hbuilt.2.2.2⟩
      card := by
        intro given hgiven
        have hreturns := h.card_eq
        have hcards := hbuilt.2.2.1
        unfold resolvedCard at hreturns
        rw [hgiven] at hreturns
        obtain ⟨resolved, hresolved, hdone⟩ := returns_bind.mp hreturns
        rw [pure_eq, returns_done, Outcome.ret.injEq] at hdone
        subst hdone
        unfold cardsV2 at hcards
        cases hproto : platform.cardToProto resolved with
        | error error =>
          simp only [hproto, reduceCtorEq] at hcards
        | ok proto => exact ⟨resolved, proto, resolveCardAssets_returns.mp hresolved, hproto⟩ }

/-- **Identity of a sent message.** Whatever a call of `create` awaits and however its calls end,
every request it issues with a private viewer, notification options or accessory widgets is issued on
the app client, and every card by credentials that do not act as a user: exactly when the call is not
misbound. -/
theorem create_bound_iff :
    (∀ (t : List (Asyncio.Event sig)) (o : Outcome Exc Json),
      Runs (create platform bot identity args) t o →
        ∀ (client : SdkClient) (request : CreateMessageRequest) (timeout : Option Rat)
          (r : Outcome Exc Json), .called (Call.createMessage client request timeout) r ∈ t →
            Bound bot client request) ↔
      ¬ Misbound platform bot identity args := by
  constructor
  · intro hbound hmis
    obtain ⟨viewer, parent, card, attached, request, hissued⟩ := hmis.issued
    have hcalls : (create platform bot identity args).Calls
        (Call.createMessage (clientOf identity) request args.timeout) :=
      create_calls.mpr ⟨rfl, rfl, viewer, parent, card, attached, hissued⟩
    obtain ⟨t, o, r, hruns, hmem⟩ := calls_iff_runs.mp hcalls
    exact hissued.bound_iff.mp (hbound t o hruns _ _ _ r hmem) ⟨hmis.user, hmis.gated⟩
  · intro hnot t o hruns client request timeout r hmem
    obtain ⟨rfl, -, viewer, parent, card, attached, hissued⟩ :=
      create_calls.mp (calls_iff_runs.mpr ⟨t, o, r, hruns, hmem⟩)
    exact hissued.bound_iff.mpr fun hgated => hnot (hissued.misbound hgated.1 hgated.2)

/-- A Bot with an app and a user provider, as a service account and a person configure it. -/
def dualBot : Bot where
  credentials := none
  credentialsProvider := none
  appCredentialsProvider := some (some
    ⟨none, true, none, .absent, .items [some "https://www.googleapis.com/auth/chat.bot"], .absent⟩)
  userCredentialsProvider := some (some
    ⟨none, false, some "1//refresh", .absent,
      .items [some "https://www.googleapis.com/auth/chat.messages"], .absent⟩)
  authMode := none
  hasAssetPublisher := false
  previewEnabled := false
  dualAlone := fun _ => ⟨rfl, rfl⟩
  dualMode := fun _ => rfl

/-- A platform for calls that serialize no card and no widget. -/
def textPlatform : Platform where
  cardToProto := fun _ => .error (.other "TypeError")
  accessoryToProto := fun _ => .error (.other "TypeError")
  specialNetloc := fun _ => false

/-- `bot.user.messages.create("spaces/A", "secret", private_to="users/1")` -/
def secretArgs : CreateArgs where
  space := .name "spaces/A"
  text := some "secret"
  privateTo := some (.name "users/1")

def secretRequest : CreateMessageRequest where
  parent := "spaces/A"
  message := ⟨"secret", none, [], some "users/1", [], [], ⟨none, none⟩⟩
  requestId := none
  messageId := none
  messageReplyOption := .unspecified
  createMessageNotificationOptions := none

def succeeds : (c : Call) → Outcome Exc c.Res
  | .resolveCredentials | .resolveUserCredentials | .initializeClient _ => .ret ()
  | .stat _ => .ret ⟨true, 0⟩
  | .readImage _ | .readFile _ => .ret []
  | .publish .. => .ret (.str "https://cards.example/image.png")
  | .uploadMedia .. => .ret []
  | .createMessage .. | .updateMessage .. => .ret (.dict [])

/-- The checks see the service account; the request goes out on the client of the person. -/
theorem secret_trace :
    ((create textPlatform dualBot .user secretArgs).runWith (S := sig) succeeds).1 =
      [.called Call.resolveCredentials (.ret ()), .called Call.resolveUserCredentials (.ret ()),
        .called (Call.initializeClient .user) (.ret ()),
        .called (Call.createMessage .user secretRequest none) (.ret (.dict []))] := rfl

/-- The namespace of the user sends a private message. -/
theorem create_private_as_user :
    ¬ ∀ (platform : Platform) (bot : Bot) (identity : AuthMode) (args : CreateArgs)
      (t : List (Asyncio.Event sig)) (o : Outcome Exc Json),
      Runs (create platform bot identity args) t o →
        ∀ (client : SdkClient) (request : CreateMessageRequest) (timeout : Option Rat)
          (r : Outcome Exc Json), .called (Call.createMessage client request timeout) r ∈ t →
            Bound bot client request := by
  intro h
  have hruns := runs_runWith (S := sig) succeeds (create textPlatform dualBot .user secretArgs)
  rw [secret_trace] at hruns
  have hbound : Bound dualBot .user secretRequest :=
    h _ _ _ _ _ _ hruns .user secretRequest none (.ret (.dict [])) (by simp)
  cases hbound.app (.inl rfl)

end Chattice.Client
