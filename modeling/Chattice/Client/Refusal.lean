import Chattice.Client.Identity

/-!
# Refusals without side effects

A call that the client itself refuses must not have published an image, uploaded a file or sent a
message. Its checks come first, but for one: the preflight of the request runs inside the executor,
after the images of the card have been published.

* `localCauses` : what the executor turns into a refusal;
* `execute_rejects` : the executor refuses when the preflight of its operation does;
* `resolved_touched` : a card is published when it has local images;
* `harmless_iff` : a call is harmless unless it publishes and its request is refused.
-/

namespace Chattice.Client

open Asyncio Asyncio.Coro Capabilities Cards

/-! ## The policy -/

/-- The same with the errors of Google, which the executor turns into refusals. -/
def localCauses : Policy sig where
  effect := Call.isEffect
  refusal := fun e => Exc.isRefusal e || Exc.isGoogle e
  foreign := isForeign

/-- The serializers of the facades know nothing of the client's exceptions. -/
structure Platform.Serializes (platform : Platform) : Prop where
  card : ∀ card e, platform.cardToProto card = .error e → e.isRefusal = false
  accessory : ∀ widget e, platform.accessoryToProto widget = .error e → e.isRefusal = false

variable {platform : Platform} {bot : Bot} {identity : AuthMode} {args : CreateArgs}

/-! ## The executor -/

section Execute

variable {operation : Operation}

/-- What the executor does with an exception of the call. -/
def rethrow {α : Type} : Exc → Coro sig α
  | .googleApiCallError kind message => raise (wrapApiError kind message)
  | error => raise error

theorem rethrow_of_local {α : Type} {e : Exc} (h : localCauses.refusal e = false) :
    (rethrow e : Coro sig α) = raise e ∧ e.isRefusal = false := by
  obtain ⟨hrefusal, hgoogle⟩ := Bool.or_eq_false_iff.mp h
  refine ⟨?_, hrefusal⟩
  cases e with
  | googleApiCallError kind message => cases hgoogle
  | _ => rfl

/-- An answer of Google is foreign; another exception of the call passes as it is. -/
theorem rpc_final {α : Type} {rpc : Coro sig α} (h : localCauses.Final rpc) :
    localRefusals.Final (tryElse rpc rethrow pure) := by
  intro t o hrun hlocal htouched
  obtain ⟨t₁, o₁, t₂, h₁, h₂, rfl⟩ := runs_andThen.mp hrun
  have hfinal := h t₁ o₁ h₁ (Policy.local_append.mp hlocal).1
  cases o₁ with
  | ret a =>
    obtain ⟨rfl, rfl⟩ := runs_done.mp h₂
    rw [List.append_nil] at htouched
    exact absurd rfl ((hfinal htouched).1 a)
  | raised e =>
    have hnil : t₂ = [] := by
      cases e <;> exact (runs_done.mp h₂).1
    rw [hnil, List.append_nil] at htouched
    obtain ⟨hraise, hrefusal⟩ := rethrow_of_local (α := α) ((hfinal htouched).2 e rfl)
    simp only [hraise] at h₂
    obtain ⟨-, rfl⟩ := runs_done.mp h₂
    refine ⟨nofun, fun e' heq => ?_⟩
    cases heq
    exact hrefusal
  | cancelled =>
    obtain ⟨-, rfl⟩ := runs_done.mp h₂
    exact ⟨nofun, nofun⟩

theorem rpc_not_rejects {α : Type} {rpc : Coro sig α} (h : ¬ localCauses.Rejects rpc) :
    ¬ localRefusals.Rejects (tryElse rpc rethrow pure) := by
  rintro ⟨t, e, hrun, hlocal, he⟩
  obtain ⟨t₁, o₁, t₂, h₁, h₂, rfl⟩ := runs_andThen.mp hrun
  cases o₁ with
  | ret a => cases (runs_done.mp h₂).2
  | raised e₁ =>
    cases hcause : localCauses.refusal e₁ with
    | true => exact h ⟨t₁, e₁, h₁, (Policy.local_append.mp hlocal).1, hcause⟩
    | false =>
      obtain ⟨hraise, hrefusal⟩ := rethrow_of_local (α := α) hcause
      simp only [hraise] at h₂
      cases (runs_done.mp h₂).2
      have hno : localRefusals.refusal e = false := hrefusal
      rw [he] at hno
      cases hno
  | cancelled => cases (runs_done.mp h₂).2

theorem call_local {k : Call} {t : List (Asyncio.Event sig)} {o : Outcome Exc k.Res}
    (hrun : Runs (awaitCall k) t o) (hlocal : localCauses.Local t) :
    (∀ a, o = .ret a → Call.isGoogle k = false) ∧
      ∀ e, o = .raised e → localCauses.refusal e = false := by
  obtain ⟨r, t', rfl, hdone⟩ := runs_await.mp hrun
  obtain ⟨rfl, rfl⟩ := runs_done.mp hdone
  have hcall := hlocal _ (List.mem_singleton.mpr rfl)
  constructor
  · rintro a rfl
    exact hcall
  · rintro e rfl
    exact hcall

theorem google_final {k : Call} (hk : Call.isGoogle k = true) :
    localCauses.Final (awaitCall k) := by
  intro t o hrun hlocal _
  refine ⟨fun a ho => ?_, (call_local hrun hlocal).2⟩
  have hno := (call_local hrun hlocal).1 a ho
  rw [hk] at hno
  cases hno

theorem call_not_rejects {k : Call} : ¬ localCauses.Rejects (awaitCall k) := by
  rintro ⟨t, e, hrun, hlocal, he⟩
  rw [(call_local hrun hlocal).2 e rfl] at he
  cases he

theorem causes_of_rejects {α : Type} {c : Coro sig α} (h : localRefusals.Rejects c) :
    localCauses.Rejects c := by
  obtain ⟨t, e, hrun, hlocal, he⟩ := h
  exact ⟨t, e, hrun, hlocal, Bool.or_eq_true_iff.mpr (.inl he)⟩

theorem execute_final {α : Type} {rpc : SdkClient → Coro sig α}
    (h : ∀ client, localCauses.Final (rpc client)) :
    localRefusals.Final (execute bot operation identity rpc) := by
  unfold execute
  refine Policy.final_bind Policy.quiet_ofExcept.final fun _ => ?_
  refine Policy.final_bind preflightOperation_quiet.final fun _ => ?_
  exact Policy.final_bind (quiet_awaitCall rfl rfl).final fun _ => rpc_final (h _)

theorem previewGate_ok : previewGate bot operation = .ok () := by
  cases operation <;> rfl

theorem preflightCredentials_refuses {variant : ExecutionVariant}
    {credentials : Option Credentials} {e : Exc}
    (h : preflightCredentials operation identity variant credentials = .error e) :
    e.isRefusal = true := by
  unfold preflightCredentials at h
  split at h
  · split at h
    · cases h
      rfl
    · cases h
      rfl
  · split at h
    · cases h
    · split at h
      · cases h
        rfl
      · unfold require at h
        split at h
        · cases h
        · cases h
          rfl

theorem resolveFor_not_rejects : ¬ localRefusals.Rejects (resolveFor bot identity) := by
  intro h
  have hcall : ∀ k : Call, ¬ localRefusals.Rejects (awaitCall k) :=
    fun k hk => call_not_rejects (causes_of_rejects hk)
  have hret : ∀ credentials : Option Credentials,
      ¬ localRefusals.Rejects (pure credentials : Coro sig (Option Credentials)) :=
    fun credentials => Policy.willing_ret.2
  unfold resolveFor at h
  split at h
  · obtain hfirst | ⟨-, -, hrest⟩ := (Policy.rejects_bind (quiet_awaitCall rfl rfl)).mp h
    · exact hcall _ hfirst
    · exact hret _ hrest
  · obtain hfirst | ⟨-, -, hrest⟩ := (Policy.rejects_bind (quiet_awaitCall rfl rfl)).mp h
    · exact hcall _ hfirst
    · exact hret _ hrest

theorem preflightOperation_rejects :
    localRefusals.Rejects (preflightOperation bot operation identity .normal) ↔
      preflightCredentials operation identity .normal (bot.credentialsOf identity) ≠ .ok () := by
  rw [preflightOperation, bind_eq, Policy.rejects_bind resolveFor_quiet,
    or_iff_right resolveFor_not_rejects]
  constructor
  · rintro ⟨credentials, hreturns, hrejects⟩ hok
    obtain ⟨error, herror, -⟩ := Policy.rejects_ofExcept.mp hrejects
    rw [resolveFor_returns.mp hreturns, hok] at herror
    cases herror
  · intro hne
    refine ⟨_, resolveFor_returns.mpr rfl, Policy.rejects_ofExcept.mpr ?_⟩
    cases hcheck : preflightCredentials operation identity .normal (bot.credentialsOf identity) with
    | ok _ => exact absurd hcheck hne
    | error error => exact ⟨error, rfl, preflightCredentials_refuses hcheck⟩

/-- The executor refuses when the preflight of its operation does. -/
theorem execute_rejects {α : Type} {rpc : SdkClient → Coro sig α}
    (h : ∀ client, ¬ localCauses.Rejects (rpc client)) :
    localRefusals.Rejects (execute bot operation identity rpc) ↔
      preflightCredentials operation identity .normal (bot.credentialsOf identity) ≠ .ok () := by
  rw [← preflightOperation_rejects, execute, previewGate_ok, bind_eq,
    Policy.rejects_bind Policy.quiet_ofExcept]
  constructor
  · rintro (hgate | ⟨_, -, hrest⟩)
    · obtain ⟨_, hgate, -⟩ := Policy.rejects_ofExcept.mp hgate
      cases hgate
    · refine ((Policy.rejects_bind preflightOperation_quiet).mp hrest).resolve_right ?_
      rintro ⟨_, -, hclient⟩
      obtain hinit | ⟨_, -, hrpc⟩ := (Policy.rejects_bind (quiet_awaitCall rfl rfl)).mp hclient
      · exact call_not_rejects (causes_of_rejects hinit)
      · exact rpc_not_rejects (h _) hrpc
  · intro hpreflight
    refine .inr ⟨(), returns_ofExcept.mpr rfl, ?_⟩
    exact (Policy.rejects_bind preflightOperation_quiet).mpr (.inl hpreflight)

end Execute

/-! ## The published card -/

section Card

theorem call_returns_local {k : Call} (hk : Call.isGoogle k = false)
    {t : List (Asyncio.Event sig)} {a : k.Res} (hrun : Runs (awaitCall k) t (.ret a)) :
    localRefusals.Local t := by
  obtain ⟨r, t', rfl, hdone⟩ := runs_await.mp hrun
  obtain ⟨rfl, rfl⟩ := runs_done.mp hdone
  intro event hevent
  rw [List.mem_singleton.mp hevent]
  exact hk

theorem sourceBytes_willing (source : LocalImageSource) :
    localRefusals.Willing (sourceBytes source) := by
  unfold sourceBytes
  split
  · exact Policy.willing_ret
  · refine Policy.willing_tryElse (fun t a => call_returns_local rfl) (fun e => ?_)
      (fun t e e' hrun hlocal he' => ?_) fun data => Policy.willing_ret
    · split <;> exact ⟨_, rfl⟩
    · have hcause := (call_local hrun hlocal).2 e rfl
      split at he'
      · cases he'
        rfl
      · cases he'
        exact (Bool.or_eq_false_iff.mp hcause).1

theorem publishImage_willing (image : Image) (source : LocalImageSource) (data : List UInt8) :
    localRefusals.Willing (publishImage platform image source data) := by
  refine Policy.willing_tryElse (fun t a => call_returns_local rfl) (fun e => ⟨_, rfl⟩)
    (fun t e e' _ _ he' => ?_) fun published => ?_
  · cases he'
    rfl
  · split
    · split
      · exact Policy.willing_ret
      · exact Policy.willing_raise rfl
    · exact Policy.willing_raise rfl

theorem resolveCardAssets_willing (card : Card) (hasPublisher : Bool) :
    localRefusals.Willing (resolveCardAssets platform card hasPublisher) := by
  unfold resolveCardAssets
  split
  · exact Policy.willing_ret
  · refine Policy.willing_bind (Policy.willing_ofExcept fun error herror => ?_) fun _ => ?_
    · unfold validateCardAssets at herror
      split at herror
      · split at herror
        · cases herror
          rfl
        · cases herror
      · cases herror
    refine Policy.willing_bind (Policy.willing_forEach fun found => ?_) fun prepared => ?_
    · exact Policy.willing_bind (sourceBytes_willing _) fun _ => Policy.willing_ret
    refine Policy.willing_bind (Policy.willing_forEach fun found => ?_) fun _ => Policy.willing_ret
    exact Policy.willing_bind (publishImage_willing _ _ _) fun _ => Policy.willing_ret

theorem replaceImage_touched
    {prepared : (Nat × Nat) × Image × LocalImageSource × List UInt8}
    {replacement : (Nat × Nat) × Image} {t : List (Asyncio.Event sig)}
    (hrun : Runs (replaceImage platform prepared) t (.ret replacement)) :
    localRefusals.Touched t := by
  obtain ⟨position, image, source, data⟩ := prepared
  obtain ⟨t₁, resolved, t₂, hpublish, -, rfl⟩ := runs_bind_ret.mp hrun
  obtain ⟨r, t₃, rfl, -⟩ := runs_call_andThen.mp hpublish
  exact ⟨_, r, .head _, rfl⟩

/-- A resolution that returns has published the local images. -/
theorem resolveCardAssets_touched {card resolved : Card} {hasPublisher : Bool}
    {t : List (Asyncio.Event sig)}
    (hrun : Runs (resolveCardAssets platform card hasPublisher) t (.ret resolved))
    (hlocal : (localImages card).isEmpty = false) : localRefusals.Touched t := by
  unfold resolveCardAssets at hrun
  rw [hlocal, if_neg Bool.false_ne_true] at hrun
  obtain ⟨t₁, ⟨⟩, t₂, -, hchecked, rfl⟩ := runs_bind_ret.mp hrun
  obtain ⟨t₃, prepared, t₄, hread, hprepared, rfl⟩ := runs_bind_ret.mp hchecked
  obtain ⟨t₅, replacements, t₆, hpublish, -, rfl⟩ := runs_bind_ret.mp hprepared
  have hlength := (returns_forEach.mp (Policy.returns_iff_runs.mpr ⟨_, hread⟩)).length_eq
  cases prepared with
  | nil =>
    rw [List.length_nil, List.length_eq_zero_iff] at hlength
    rw [hlength] at hlocal
    cases hlocal
  | cons first prepared =>
    obtain ⟨t₇, replacement, t₈, hfirst, -, rfl⟩ := runs_bind_ret.mp hpublish
    have htouched : localRefusals.Touched t₇ := replaceImage_touched hfirst
    simp only [Policy.touched_append, htouched, true_or, or_true]

theorem publishedCard_willing (card : Option Card) :
    localRefusals.Willing (publishedCard platform bot card) := by
  unfold publishedCard
  split
  · exact Policy.willing_ret
  · exact Policy.willing_bind (resolveCardAssets_willing _ _) fun _ => Policy.willing_ret

/-- The card has local images, and `resolved` is a copy of it with published ones. -/
def Published (platform : Platform) (bot : Bot) (card : Option Card) (resolved : Card) : Prop :=
  ∃ original, card = some original ∧ (localImages original).isEmpty = false ∧
    ResolvesTo platform original bot.hasAssetPublisher resolved

theorem publishedCard_touched {card result : Option Card} :
    (∃ t, Runs (publishedCard platform bot card) t (.ret result) ∧ localRefusals.Touched t) ↔
      ∃ resolved, result = some resolved ∧ Published platform bot card resolved := by
  cases card with
  | none =>
    constructor
    · rintro ⟨t, hrun, htouched⟩
      rw [(runs_done.mp hrun).1] at htouched
      exact absurd htouched Policy.not_touched_nil
    · rintro ⟨resolved, -, original, h, -⟩
      cases h
  | some original =>
    constructor
    · rintro ⟨t, hrun, htouched⟩
      obtain ⟨t₁, resolved, t₂, hresolve, hdone, rfl⟩ := runs_bind_ret.mp hrun
      obtain ⟨rfl, hresult⟩ := runs_done.mp hdone
      cases hresult
      refine ⟨resolved, rfl, original, rfl, ?_,
        resolveCardAssets_returns.mp (Policy.returns_iff_runs.mpr ⟨t₁, hresolve⟩)⟩
      by_contra hempty
      rw [Bool.not_eq_false] at hempty
      unfold resolveCardAssets at hresolve
      rw [if_pos hempty] at hresolve
      rw [List.append_nil, (runs_done.mp hresolve).1] at htouched
      exact Policy.not_touched_nil htouched
    · rintro ⟨resolved, rfl, _, ⟨⟩, hlocal, hresolves⟩
      obtain ⟨t, hrun⟩ := Policy.returns_iff_runs.mp (resolveCardAssets_returns.mpr hresolves)
      refine ⟨t ++ [], runs_bind_ret.mpr ⟨t, resolved, [], hrun, .done _, rfl⟩, ?_⟩
      exact Policy.touched_append.mpr (.inl (resolveCardAssets_touched hrun hlocal))

/-- After its images are published, a call is harmless when the rest never refuses. -/
theorem harmless_publishedCard {α : Type} {card : Option Card}
    {rest : Option Card → Coro sig α} (hrest : ∀ result, localRefusals.Final (rest result)) :
    localRefusals.Harmless ((publishedCard platform bot card).bind rest) ↔
      ∀ resolved, Published platform bot card resolved →
        ¬ localRefusals.Rejects (rest (some resolved)) := by
  rw [Policy.harmless_after (publishedCard_willing card) hrest]
  constructor
  · intro h resolved hpublished
    obtain ⟨t, hrun, htouched⟩ := publishedCard_touched.mpr ⟨resolved, rfl, hpublished⟩
    exact h _ t hrun htouched
  · intro h result t hrun htouched
    obtain ⟨resolved, rfl, hpublished⟩ := publishedCard_touched.mp ⟨t, hrun, htouched⟩
    exact h resolved hpublished

end Card

/-! ## Requests -/

section Request

/-- No exception of the serializers is a refusal. -/
theorem cardsV2_raises (hserial : platform.Serializes) (card : Option Card) :
    Except.RaisesOnly (fun e => Exc.isRefusal e = false) (cardsV2 platform card) := by
  unfold cardsV2
  split
  · exact Except.raisesOnly_ok []
  · next card =>
    split
    · next error herror => exact Except.raisesOnly_error.mpr (hserial.card card error herror)
    · exact Except.raisesOnly_ok _

theorem buildRequest_raises (hserial : platform.Serializes) (parent : String)
    (viewer : Option String) (card : Option Card) (attached : List AttachmentDataRef) :
    Except.RaisesOnly (fun e => Exc.isRefusal e = false)
      (buildRequest platform args parent viewer card attached) := by
  refine Except.raisesOnly_bind.mpr ⟨cardsV2_raises hserial card, fun cards _ => ?_⟩
  refine Except.raisesOnly_bind.mpr ⟨?_, fun widgets _ => Except.raisesOnly_ok _⟩
  exact Except.raisesOnly_mapM.mpr fun _ widget _ _ _ e he => hserial.accessory widget e he

theorem updateRequest_raises (hserial : platform.Serializes) (args : UpdateArgs)
    (card : Option Card) :
    Except.RaisesOnly (fun e => Exc.isRefusal e = false) (updateRequest platform args card) :=
  Except.raisesOnly_bind.mpr ⟨cardsV2_raises hserial card, fun _ _ => Except.raisesOnly_ok _⟩

/-- A request is refused when it can be built and the preflight of its operation refuses. -/
theorem request_rejects {α ρ : Type} (bot : Bot) (identity : AuthMode) (operation : Operation)
    (built : Except Exc ρ) (rpc : ρ → SdkClient → Coro sig α)
    (hbuilt : Except.RaisesOnly (fun e => Exc.isRefusal e = false) built)
    (hrpc : ∀ request client, ¬ localCauses.Rejects (rpc request client)) :
    localRefusals.Rejects
        ((Coro.ofExcept built).bind fun request => execute bot operation identity (rpc request)) ↔
      (∃ request, built = .ok request) ∧
        preflightCredentials operation identity .normal (bot.credentialsOf identity) ≠ .ok () := by
  rw [Policy.rejects_bind Policy.quiet_ofExcept]
  constructor
  · rintro (hbuild | ⟨request, hrequest, hexecute⟩)
    · obtain ⟨e, he, hrefusal⟩ := Policy.rejects_ofExcept.mp hbuild
      rw [show localRefusals.refusal e = false from hbuilt e he] at hrefusal
      cases hrefusal
    · exact ⟨⟨request, returns_ofExcept.mp hrequest⟩, (execute_rejects (hrpc request)).mp hexecute⟩
  · rintro ⟨⟨request, hrequest⟩, hrefused⟩
    refine .inr ⟨request, returns_ofExcept.mpr hrequest, ?_⟩
    exact (execute_rejects (hrpc request)).mpr hrefused

theorem request_final {α ρ : Type} {operation : Operation} {built : Except Exc ρ}
    {rpc : ρ → SdkClient → Coro sig α}
    (hrpc : ∀ request client, localCauses.Final (rpc request client)) :
    localRefusals.Final
      ((Coro.ofExcept built).bind fun request => execute bot operation identity (rpc request)) :=
  Policy.final_bind Policy.quiet_ofExcept.final fun request => execute_final (hrpc request)

theorem attach_final (parent : String) (timeout : Option Rat) (item : AttachmentItem) :
    localRefusals.Final (attach bot parent timeout item) := by
  have hupload : ∀ (space : String) (file : InputFile),
      localRefusals.Final (uploadAttachment bot space file timeout) := by
    intro space file
    unfold uploadAttachment
    refine Policy.final_bind Policy.quiet_ofExcept.final fun parent => ?_
    refine Policy.final_bind (validate_quiet file).final fun _ => ?_
    refine Policy.final_bind (execute_final fun client => ?_) fun response => ?_
    · -- quietness asks nothing about refusals, so it holds of both policies
      have hread : localCauses.Quiet file.read := read_quiet file
      have hresolve : localCauses.Quiet (resolveUserCredentials bot) := resolveUserCredentials_quiet
      exact Policy.final_bind hread.final fun data =>
        Policy.final_bind hresolve.final fun _ => google_final rfl
    · split <;> exact Policy.quiet_done.final
  unfold attach
  split
  · exact Policy.quiet_done.final
  · exact Policy.final_bind (hupload _ _) fun _ => Policy.quiet_done.final

end Request

/-! ## The calls -/

/-- A call of `Messages`. -/
inductive MessageCall where
  | create (args : CreateArgs)
  | update (args : UpdateArgs)

def MessageCall.run (platform : Platform) (bot : Bot) (identity : AuthMode) :
    MessageCall → Coro sig Json
  | .create args => Client.create platform bot identity args
  | .update args => Client.update platform bot identity args

def MessageCall.operation : MessageCall → Operation
  | .create _ => .messagesCreate
  | .update _ => .messagesUpdate

/-- A creation that passes the checks of the method body, publishes images and has a request to
send. Attachments exclude a card, so there are none. -/
structure CreatePublishes (platform : Platform) (bot : Bot) (args : CreateArgs)
    (viewer : Option String) (parent : String) (resolved : Card) : Prop where
  plain : args.hasAttachments = false
  published : Published platform bot args.card resolved
  notify : notifyGuards bot.primaryMode args = .ok ()
  viewer_eq : privateViewer bot.primaryMode args = .ok viewer
  cardMode : cardGuard bot.primaryMode args = .ok ()
  parent_eq : canonicalSpace args.space = .ok parent
  accessory : accessoryGuard bot.primaryMode args = .ok ()
  mode : modeGuard bot.primaryMode = .ok ()
  request : ∃ request, buildRequest platform args parent viewer (some resolved) [] = .ok request

/-- The same for an update. -/
structure UpdatePublishes (platform : Platform) (bot : Bot) (args : UpdateArgs)
    (resolved : Card) : Prop where
  published : Published platform bot args.card resolved
  mode : updateModeGuard bot.primaryMode = .ok ()
  request : ∃ request, updateRequest platform args (some resolved) = .ok request

/-- The call gets to publish images of its card and goes on to its request. -/
def MessageCall.Publishes (platform : Platform) (bot : Bot) : MessageCall → Prop
  | .create args => ∃ viewer parent resolved, CreatePublishes platform bot args viewer parent resolved
  | .update args => ∃ resolved, UpdatePublishes platform bot args resolved

theorem Published.publisher {card : Option Card} {resolved : Card}
    (h : Published platform bot card resolved) : bot.hasAssetPublisher = true := by
  obtain ⟨original, -, hlocal, hresolves⟩ := h
  unfold ResolvesTo at hresolves
  rw [hlocal, if_neg Bool.false_ne_true] at hresolves
  exact hresolves.1

theorem Published.assets {card : Option Card} {resolved : Card}
    (h : Published platform bot card resolved) :
    validateCardAssets card bot.hasAssetPublisher = .ok () := by
  have hpublisher := h.publisher
  obtain ⟨original, rfl, -⟩ := h
  exact validateCardAssets_eq_ok.mpr (.inr hpublisher)

theorem Published.isSome {card : Option Card} {resolved : Card}
    (h : Published platform bot card resolved) : card.isSome = true := by
  obtain ⟨original, rfl, -⟩ := h
  rfl

theorem update_harmless (hserial : platform.Serializes) {args : UpdateArgs} :
    localRefusals.Harmless (update platform bot identity args) ↔
      ∀ resolved, UpdatePublishes platform bot args resolved →
        preflightCredentials .messagesUpdate identity .normal (bot.credentialsOf identity)
          = .ok () := by
  have hfinal : ∀ result, localRefusals.Final
      ((Coro.ofExcept (updateRequest platform args result)).bind fun request =>
        execute bot .messagesUpdate identity fun client =>
          awaitCall (.updateMessage client request args.effectiveConfig)) :=
    fun result => request_final fun request client => google_final rfl
  have hrejects (resolved : Card) := request_rejects bot identity .messagesUpdate
    (updateRequest platform args (some resolved))
    (fun request client => awaitCall (.updateMessage client request args.effectiveConfig))
    (updateRequest_raises hserial args (some resolved)) fun _ _ => call_not_rejects
  unfold update
  simp only [bind_eq, Policy.harmless_bind Policy.quiet_ofExcept,
    Policy.harmless_bind authModeAsync_quiet, harmless_publishedCard hfinal, returns_ofExcept,
    authModeAsync_returns]
  constructor
  · intro h resolved hupdate
    have hguard : updateGuard args = .ok () :=
      if_neg fun hempty => absurd hempty.2 (by simp [Option.isSome_iff_ne_none.mp hupdate.published.isSome])
    by_contra hrefused
    exact h () hguard _ rfl () hupdate.mode () hupdate.published.assets resolved hupdate.published
      ((hrejects resolved).mpr ⟨hupdate.request, hrefused⟩)
  · rintro h ⟨⟩ - _ rfl ⟨⟩ hmode ⟨⟩ - resolved hpublished hrest
    obtain ⟨hrequest, hrefused⟩ := (hrejects resolved).mp hrest
    exact hrefused (h resolved ⟨hpublished, hmode, hrequest⟩)

theorem plain_of_card (hmode : cardGuard (args.actualMode bot) args = .ok ())
    (hcard : args.card.isSome = true) : args.hasAttachments = false := by
  by_contra hattachments
  rw [Bool.not_eq_false] at hattachments
  unfold cardGuard CreateArgs.actualMode at hmode
  rw [if_pos hattachments, if_pos ⟨hcard, rfl⟩] at hmode
  cases hmode

theorem actualMode_of_plain (hplain : args.hasAttachments = false) :
    args.actualMode bot = bot.primaryMode := by
  unfold CreateArgs.actualMode
  rw [hplain]
  rfl

theorem create_harmless (hserial : platform.Serializes) :
    localRefusals.Harmless (create platform bot identity args) ↔
      ∀ viewer parent resolved, CreatePublishes platform bot args viewer parent resolved →
        preflightCredentials .messagesCreate identity .normal (bot.credentialsOf identity)
          = .ok () := by
  have hfinal : ∀ parent viewer result, localRefusals.Final
      ((forEach (attach bot parent args.timeout) args.attachmentList).bind fun attached =>
        (Coro.ofExcept (buildRequest platform args parent viewer result attached)).bind
          fun request => execute bot .messagesCreate identity fun client =>
            awaitCall (.createMessage client request args.timeout)) :=
    fun parent viewer result => Policy.final_bind
      (Policy.final_forEach fun item => attach_final _ _ item)
      fun attached => request_final fun request client => google_final rfl
  have hchecked : ∀ parent, localRefusals.Quiet (forEach (checkItem parent) args.attachmentList) :=
    fun parent => Policy.quiet_forEach fun item => checkItem_quiet parent item
  have hrejects (parent : String) (viewer : Option String) (resolved : Card) :=
    request_rejects bot identity .messagesCreate
      (buildRequest platform args parent viewer (some resolved) [])
      (fun request client => awaitCall (.createMessage client request args.timeout))
      (buildRequest_raises hserial parent viewer (some resolved) []) fun _ _ => call_not_rejects
  have hcard : resolvedCard platform bot args = publishedCard platform bot args.card := rfl
  unfold create send
  simp only [bind_eq, hcard, Policy.harmless_bind Policy.quiet_ofExcept,
    Policy.harmless_bind actualModeAsync_quiet, Policy.harmless_bind (hchecked _),
    Policy.harmless_bind checkAttachmentSend_quiet, harmless_publishedCard (hfinal _ _),
    returns_ofExcept, actualModeAsync_returns]
  constructor
  · intro h viewer parent resolved hcreate
    have hmode : args.actualMode bot = bot.primaryMode := actualMode_of_plain hcreate.plain
    have hlist := attachmentList_of_plain hcreate.plain
    have hcombination : attachmentGuards identity args = .ok () := by
      rw [attachmentGuards, hcreate.plain]
      rfl
    have hitems : (forEach (checkItem parent) args.attachmentList).Returns [] := by
      rw [hlist]
      exact returns_done.mpr rfl
    have hsend : (checkAttachmentSend bot identity args).Returns () := by
      rw [checkAttachmentSend, hcreate.plain]
      exact returns_done.mpr rfl
    by_contra hrefused
    refine h () hcreate.published.assets _ rfl () hcombination () (hmode ▸ hcreate.notify) viewer
      (hmode ▸ hcreate.viewer_eq) () (hmode ▸ hcreate.cardMode) parent hcreate.parent_eq [] hitems
      () (hmode ▸ hcreate.accessory) () (hmode ▸ hcreate.mode) () hsend resolved hcreate.published ?_
    rw [hlist]
    exact (hrejects parent viewer resolved).mpr ⟨hcreate.request, hrefused⟩
  · rintro h ⟨⟩ - _ rfl ⟨⟩ - ⟨⟩ hnotify viewer hviewer ⟨⟩ hcardMode parent hparent checked - ⟨⟩
      haccessory ⟨⟩ hmodeGuard ⟨⟩ - resolved hpublished hrest
    have hplain := plain_of_card hcardMode hpublished.isSome
    rw [actualMode_of_plain hplain] at hnotify hviewer hcardMode haccessory hmodeGuard
    rw [attachmentList_of_plain hplain] at hrest
    obtain ⟨hrequest, hrefused⟩ := (hrejects parent viewer resolved).mp hrest
    exact hrefused (h viewer parent resolved ⟨hplain, hpublished, hnotify, hviewer, hcardMode,
      hparent, haccessory, hmodeGuard, hrequest⟩)

/-- **Main result.** A call that the client refuses has published, uploaded and sent nothing, exactly
unless the images of its card get published while the preflight of its operation refuses the
credentials of the identity. -/
theorem refusal_harmless_iff (hserial : platform.Serializes) (call : MessageCall) :
    localRefusals.Harmless (call.run platform bot identity) ↔
      ¬ (call.Publishes platform bot ∧
        preflightCredentials call.operation identity .normal (bot.credentialsOf identity)
          ≠ .ok ()) := by
  cases call with
  | create args =>
    refine (create_harmless hserial).trans ?_
    constructor
    · rintro h ⟨⟨viewer, parent, resolved, hpublishes⟩, hrefused⟩
      exact hrefused (h viewer parent resolved hpublishes)
    · intro h viewer parent resolved hpublishes
      by_contra hrefused
      exact h ⟨⟨viewer, parent, resolved, hpublishes⟩, hrefused⟩
  | update args =>
    refine (update_harmless hserial).trans ?_
    constructor
    · rintro h ⟨⟨resolved, hpublishes⟩, hrefused⟩
      exact hrefused (h resolved hpublishes)
    · intro h resolved hpublishes
      by_contra hrefused
      exact h ⟨⟨resolved, hpublishes⟩, hrefused⟩

/-! ## A Bot without credentials -/

/-- `Bot(asset_publisher=...)` -/
def bareBot : Bot where
  credentials := none
  credentialsProvider := none
  appCredentialsProvider := none
  userCredentialsProvider := none
  authMode := none
  hasAssetPublisher := true
  previewEnabled := false
  dualAlone := fun _ => ⟨rfl, rfl⟩
  dualMode := fun _ => rfl

def cardPlatform : Platform where
  cardToProto := fun _ => .ok .null
  accessoryToProto := fun _ => .ok .null
  specialNetloc := fun _ => false

theorem cardPlatform_serializes : cardPlatform.Serializes where
  card := by
    intro card e h
    cases h
  accessory := by
    intro widget e h
    cases h

/-- `Image.from_bytes(b"\x01", filename="banner.png")` -/
def bannerSource : LocalImageSource := ⟨.bytes [1], "banner.png", "image/png", none⟩

/-- `bot.app.messages.update("spaces/A/messages/B", card=Card(sections=[Section([image])]))` -/
def bannerUpdate : UpdateArgs where
  name := "spaces/A/messages/B"
  card := some ⟨none, [⟨none, [.image ⟨.file bannerSource, none, none⟩]⟩], none, none⟩

/-- The image is published before the preflight finds no credentials. -/
theorem banner_run :
    (update cardPlatform bareBot .app bannerUpdate).runWith (S := sig) succeeds =
      ([.called Call.resolveCredentials (.ret ()),
        .called (Call.publish [1] "banner.png" "image/png" none)
          (.ret (.str "https://cards.example/image.png")),
        .called Call.resolveCredentials (.ret ())],
        .raised (.capabilityNotSupported [.text ("The APP identity has no credentials; pass " ++
          "google.auth credentials or a credentials_provider to Bot(...)")])) := rfl

theorem banner_local : localRefusals.Local
    [.called Call.resolveCredentials (.ret ()),
      .called (Call.publish [1] "banner.png" "image/png" none)
        (.ret (.str "https://cards.example/image.png")),
      .called Call.resolveCredentials (.ret ())] := by
  simp only [Policy.Local, List.forall_mem_cons, List.not_mem_nil, false_imp_iff, implies_true,
    and_true]
  exact ⟨rfl, rfl, rfl⟩

/-- An update that is refused for want of credentials has published its image. -/
theorem update_publishes_then_refuses :
    ¬ ∀ (platform : Platform) (bot : Bot) (identity : AuthMode) (call : MessageCall),
      platform.Serializes → bot.hasAssetPublisher = true →
        localRefusals.Harmless (call.run platform bot identity) := by
  intro h
  have hrun := runs_runWith (S := sig) succeeds (update cardPlatform bareBot .app bannerUpdate)
  rw [banner_run] at hrun
  refine h cardPlatform bareBot .app (.update bannerUpdate) cardPlatform_serializes rfl _ _ hrun
    banner_local rfl ⟨_, _, .tail _ (.head _), rfl⟩

/-- The same update, by the condition. -/
theorem bannerUpdate_harmless_iff :
    localRefusals.Harmless ((MessageCall.update bannerUpdate).run cardPlatform bareBot .app) ↔
      ¬ ((MessageCall.update bannerUpdate).Publishes cardPlatform bareBot ∧
        preflightCredentials (MessageCall.update bannerUpdate).operation .app .normal
          (bareBot.credentialsOf .app) ≠ .ok ()) :=
  refusal_harmless_iff cardPlatform_serializes (.update bannerUpdate)

end Chattice.Client
