import Chattice.Transports.Ingress
import Chattice.Transports.PubsubRunner.Delivered

/-!
# `create_pubsub_router`: push deliveries

One request is one delivery: verification, body, parsing, claim, dispatch, then `complete` and 204, or
`release` and 500. The endpoints of all requests share one `MemoryIdempotencyStorage`. Log records and
the capabilities handed to the handlers are left out.

* `endpoint` : the coroutine of one request; `pushSystem` : the runs;
* `Dispatched log key` : some delivery with this dedupe key has been dispatched;
* `Sound` : a 204, and a completed claim, is explained by what the log has before it;
* `push_delivered` : in every run, a delivery that is answered 204 comes after a dispatch of a delivery
  with the same dedupe key, which is the same message of the same subscription as long as neither
  message id contains a colon.
-/

namespace Chattice.PushRouter

open Asyncio Asyncio.Coro
open GoogleChat Json Pubsub
open Idempotency (ClaimResult Claims isCompleted)
open PubsubRunner (StorageAnswer)

/-! ## The endpoint -/

/-- What `create_pubsub_router` keeps: whether it has a `verifier` and an `idempotency_storage`, and
the decoders of the standard library. -/
structure Router where
  hasVerifier : Bool
  hasStorage : Bool
  lib : Stdlib

/-- A POST request, with the owner token its claim will get (`new_owner()`). -/
structure Request where
  body : List UInt8
  owner : String
  deriving DecidableEq

/-- The calls the endpoint awaits; the exceptions are those of the runner of pulled messages. -/
inductive Call where
  | verify
  | body (request : Request)
  | claim (key owner : String) (leaseSeconds : Rat)
  | feedUpdate (event : Event)
  | release (key owner : String)
  | complete (key owner : String)

/-- The response of an endpoint that has not raised. -/
inductive Effect where
  | answer (status : Nat)
  deriving DecidableEq

/-- `verify` returns `false` where the verifier raises a `VerificationError`. -/
def Call.Res (Result : Type) : Call → Type
  | .verify => Bool
  | .body _ => List UInt8
  | .claim .. => ClaimResult
  | .feedUpdate _ => Result
  | .release .. | .complete .. => Unit

abbrev sig (Result : Type) : Sig where
  Call := Call
  Res := Call.Res Result
  Eff := Effect
  Exc := PubsubRunner.Exc

variable {Result : Type}

abbrev awaitCall (c : Call) : Coro (sig Result) (c.Res Result) := call (S := sig Result) c

/-- `envelope_metadata`: the message id and the subscription. -/
def envelopeMetadata : Json → Option String × Option String
  | .dict payload =>
    (match get payload "message" with
      | .dict message =>
        match get message "messageId" with
        | .str messageId => some messageId
        | _ => none
      | _ => none,
      match get payload "subscription" with
      | .str subscription => some subscription
      | _ => none)
  | _ => (none, none)

/-- `f"{subscription or 'global'}:{message_id}"` -/
def dedupeKey (messageId : String) (subscription : Option String) : String :=
  (if Python.truthy subscription then subscription.getD "" else "global") ++ ":" ++ messageId

/-- The key of a claim; a delivery without message id, or without storage, claims nothing. -/
def claimKey (router : Router) (payload : Json) : Option String :=
  if router.hasStorage then
    (envelopeMetadata payload).1.map fun messageId =>
      dedupeKey messageId (envelopeMetadata payload).2
  else none

/-- `_PushDeliveryCoordinator.claim`: the status that ends the delivery, or nothing. -/
def claim (key : Option String) (owner : String) : Coro (sig Result) (Option Nat) :=
  match key with
  | none => pure none
  | some key =>
    tryElse (awaitCall (.claim key owner 3600)) (fun _ => pure (some 500))
      fun
        | .completed => pure (some 204)
        | .active => pure (some 429)
        | .first => pure none

/-- `_PushDeliveryCoordinator.release` -/
def release (key : Option String) (owner : String) : Coro (sig Result) Unit :=
  match key with
  | none => pure ()
  | some key => tryElse (awaitCall (.release key owner)) (fun _ => pure ()) fun _ => pure ()

/-- `_PushDeliveryCoordinator.complete` -/
def complete (key : Option String) (owner : String) : Coro (sig Result) Unit :=
  match key with
  | none => pure ()
  | some key => tryElse (awaitCall (.complete key owner)) (fun _ => pure ()) fun _ => pure ()

/-- `except (PubSubEnvelopeError, GoogleInteractionError)`; another exception passes. -/
def parseError : GoogleChat.Exc → Coro (sig Result) Nat
  | .other className => raise ⟨false, className, ""⟩
  | _ => pure 400

/-- A parsed delivery: claim, dispatch, complete or release. -/
def dispatch (key : Option String) (owner : String) (event : Event) : Coro (sig Result) Nat := do
  match ← claim key owner with
  | some status => pure status
  | none =>
    tryElse (awaitCall (.feedUpdate event))
      (fun _ => do
        release key owner
        pure 500)
      fun _ => do
        complete key owner
        pure 204

def deliver (router : Router) (owner : String) (payload : Json) : Coro (sig Result) Nat :=
  match parseEnvelope router.lib payload with
  | .error error => parseError error
  | .ok event => dispatch (claimKey router payload) owner event

def receive (router : Router) (request : Request) : Coro (sig Result) Nat := do
  let body ← awaitCall (.body request)
  match router.lib.loadsBytes body with
  | none => pure 400
  | some payload => deliver router request.owner payload

/-- `pubsub_endpoint` -/
def endpoint (router : Router) (request : Request) : Coro (sig Result) Nat :=
  if router.hasVerifier then do
    let (verified : Bool) ← awaitCall .verify
    if verified then receive router request else pure 401
  else receive router request

/-- The request, answered with the status of the endpoint. -/
def serve (router : Router) (request : Request) : Coro (sig Result) Unit := do
  let status ← endpoint router request
  act (S := sig Result) (.answer status)

/-! ## The requests of one router -/

/-- What the requests share. -/
structure Shared where
  claims : Claims
  clock : Rat

/-- What an awaited call ends with, and the state it leaves. A storage method takes effect at once or,
when it raises or is cancelled, perhaps not at all. -/
def Answer : (c : Call) → Shared → Outcome PubsubRunner.Exc (c.Res Result) → Shared → Prop
  | .verify, s, _, s' => s' = s
  | .body request, s, r, s' => (∀ body, r = .ret body → body = request.body) ∧ s' = s
  | .claim key owner lease, s, r, s' =>
    ∃ now, s.clock ≤ now ∧
      StorageAnswer s.claims (Idempotency.step s.claims (key, .claim owner lease s.clock now))
        (Idempotency.claim owner lease s.clock now (s.claims key)).2 r s'.claims ∧
      s' = { s with claims := s'.claims, clock := now }
  | .feedUpdate _, s, _, s' => s' = s
  | .release key owner, s, r, s' =>
    StorageAnswer s.claims (Idempotency.step s.claims (key, .release owner)) () r s'.claims ∧
      s' = { s with claims := s'.claims }
  | .complete key owner, s, r, s' =>
    StorageAnswer s.claims (Idempotency.step s.claims (key, .complete owner)) () r s'.claims ∧
      s' = { s with claims := s'.claims }

/-- Between two steps of the requests only the clock goes on. -/
inductive Env : Shared → Shared → Prop where
  | tick {s : Shared} {now : Rat} (h : s.clock ≤ now) : Env s { s with clock := now }

abbrev PushPool (Result : Type) := Pool (sig Result) Request Shared

abbrev PushHistory (Result : Type) := History (sig Result) Request Shared

abbrev PushLog (Result : Type) := List (Entry (sig Result) Request Shared)

abbrev pushWorld (Result : Type) : World (sig Result) Shared where
  act := fun _ s => s
  Answer := Answer

/-- The runs of a router. -/
def pushSystem (Result : Type) (router : Router) : System (sig Result) Request Shared where
  world := pushWorld Result
  body := serve router
  Init := fun s => s.claims = Idempotency.empty
  Env := Env
  Admits := fun p x => ∀ task ∈ p.tasks, task.1.owner ≠ x.owner

/-! ## What a log says -/

def metadata (router : Router) (x : Request) : Option String × Option String :=
  ((router.lib.loadsBytes x.body).map envelopeMetadata).getD (none, none)

/-- The key under which a delivery claims its message. -/
def keyOf (router : Router) (x : Request) : Option String :=
  (router.lib.loadsBytes x.body).bind (claimKey router)

/-- `feed_update` has returned for the delivery. -/
def FedBy (log : PushLog Result) (x : Request) : Prop :=
  ∃ (event : Event) (result : Result) (pre : Shared),
    .called x (Call.feedUpdate event) (.ret result) pre ∈ log

/-- Some delivery with this dedupe key has been dispatched. -/
def Dispatched (router : Router) (log : PushLog Result) (key : String) : Prop :=
  ∃ y, keyOf router y = some key ∧ FedBy log y

/-- This delivery, or one with its dedupe key, has been dispatched. -/
def Delivered (router : Router) (log : PushLog Result) (x : Request) : Prop :=
  FedBy log x ∨ ∃ key, keyOf router x = some key ∧ Dispatched router log key

theorem FedBy.mono {l l' : PushLog Result} {x : Request} (h : FedBy l x) (hle : l <+: l') :
    FedBy l' x := by
  obtain ⟨event, result, pre, hmem⟩ := h
  exact ⟨event, result, pre, hle.subset hmem⟩

theorem fedBy_call (x : Request) (event : Event) (result : Result) (s : Shared)
    (h : PushHistory Result) :
    FedBy (History.call (S := sig Result) x (.feedUpdate event) (.ret result) s h).log x :=
  ⟨event, result, h.state, List.mem_append_right _ (List.mem_singleton.mpr rfl)⟩

theorem Dispatched.mono {router : Router} {l l' : PushLog Result} {key : String}
    (h : Dispatched router l key) (hle : l <+: l') : Dispatched router l' key := by
  obtain ⟨y, hkey, hfed⟩ := h
  exact ⟨y, hkey, hfed.mono hle⟩

/-! ## The invariant -/

/-- A 204 is explained by what the log has before it. -/
def Justified (router : Router) (log : PushLog Result) : Entry (sig Result) Request Shared → Prop
  | .acted x (.answer 204) _ => Delivered router log x
  | _ => True

/-- Every 204 is explained, and every completed claim is that of a dispatched key. -/
structure Sound (router : Router) (h : PushHistory Result) : Prop where
  answers : Explained (Justified router) h.log
  completed : ∀ key, isCompleted (h.state.claims key) = true → Dispatched router h.log key

namespace Sound

variable {router : Router} {x : Request} {h : PushHistory Result}

theorem prefix_call (x : Request) (c : Call) (r : Outcome PubsubRunner.Exc (c.Res Result)) (s : Shared)
    (h : PushHistory Result) : h.log <+: (History.call (S := sig Result) x c r s h).log :=
  List.prefix_append _ _

theorem call {c : Call} {r : Outcome PubsubRunner.Exc (c.Res Result)} {s : Shared}
    (hI : Sound router h)
    (hs : ∀ key, isCompleted (s.claims key) = true → isCompleted (h.state.claims key) = true) :
    Sound router (History.call (S := sig Result) x c r s h) where
  answers := explained_snoc.mpr ⟨hI.answers, trivial⟩
  completed := fun key hkey => (hI.completed key (hs key hkey)).mono (prefix_call x c r s h)

theorem call_answer (x : Request) (c : Call) (r : Outcome PubsubRunner.Exc (c.Res Result))
    (s : Shared) (hI : Sound router h) (hc : ∀ key owner, c ≠ .complete key owner)
    (ha : Answer c h.state r s) : Sound router (History.call (S := sig Result) x c r s h) := by
  apply hI.call
  intro key hkey
  cases c with
  | verify => rwa [show s = h.state from ha] at hkey
  | body request => rwa [show s = h.state from ha.2] at hkey
  | claim key' owner lease =>
    obtain ⟨now, -, hstorage, -⟩ := ha
    exact PubsubRunner.isCompleted_of_storageAnswer rfl hstorage hkey
  | feedUpdate event => rwa [show s = h.state from ha] at hkey
  | release key' owner => exact PubsubRunner.isCompleted_of_storageAnswer rfl ha.1 hkey
  | complete key' owner => exact absurd rfl (hc key' owner)

theorem act {status : Nat} (hI : Sound router h)
    (hstatus : status = 204 → Delivered router h.log x) :
    Sound router (h.act (pushWorld Result) x (.answer status)) where
  answers := by
    refine explained_snoc.mpr ⟨hI.answers, ?_⟩
    by_cases h204 : status = 204
    · subst h204
      exact hstatus rfl
    · unfold Justified
      split
      · next heq =>
        cases heq
        exact absurd rfl h204
      · trivial
  completed := fun key hkey => (hI.completed key hkey).mono (List.prefix_append _ _)

theorem complete {key owner : String}
    {r : Outcome PubsubRunner.Exc ((Call.complete key owner).Res Result)} {s : Shared}
    (hI : Sound router h) (hdispatched : Dispatched router h.log key)
    (ha : Answer (.complete key owner) h.state r s) :
    Sound router (History.call (S := sig Result) x (.complete key owner) r s h) where
  answers := explained_snoc.mpr ⟨hI.answers, trivial⟩
  completed := by
    intro key' hkey'
    have hle := prefix_call x (.complete key owner) r s h
    replace hkey' : isCompleted (s.claims key') = true := hkey'
    rcases PubsubRunner.storageAnswer_or ha.1 with hs | hs
    · rw [hs] at hkey'
      exact (hI.completed key' hkey').mono hle
    · rw [hs] at hkey'
      rcases Idempotency.isCompleted_of_step_complete hkey' with rfl | hold
      · exact hdispatched.mono hle
      · exact (hI.completed key' hold).mono hle

end Sound

/-! ## The parts of a delivery -/

section Parts

variable {router : Router} {x : Request} {h : PushHistory Result}

/-- A status that the log explains. -/
def Explains (router : Router) (x : Request) (o : Outcome PubsubRunner.Exc Nat)
    (h : PushHistory Result) : Prop :=
  Sound router h ∧ (o = .ret 204 → Delivered router h.log x)

theorem wp_release {key : Option String} {owner : String}
    {Q : Outcome PubsubRunner.Exc Unit → PushHistory Result → Prop} (hI : Sound router h)
    (hQ : ∀ o h', (∀ e, o ≠ .raised e) → Sound router h' → Q o h') :
    (release key owner).wp (pushWorld Result) x (Sound router) Q h := by
  cases key with
  | none => exact hQ _ _ nofun hI
  | some key =>
    refine ⟨hI, fun h' _ hI' r s ha => ?_⟩
    have hcall := hI'.call_answer x (.release key owner) r s (fun _ _ => nofun) ha
    cases r with
    | ret a => exact hQ _ _ nofun hcall
    | raised e => exact hQ _ _ nofun hcall
    | cancelled => exact hQ _ _ nofun hcall

/-- `complete` never raises, and completes the key of a dispatched delivery. -/
theorem wp_complete {key : Option String} {owner : String}
    {Q : Outcome PubsubRunner.Exc Unit → PushHistory Result → Prop} (hI : Sound router h)
    (hkey : ∀ k, key = some k → Dispatched router h.log k)
    (hQ : ∀ o h', (∀ e, o ≠ .raised e) → h.log <+: h'.log → Sound router h' → Q o h') :
    (complete key owner).wp (pushWorld Result) x (Sound router) Q h := by
  cases key with
  | none => exact hQ _ _ nofun List.prefix_rfl hI
  | some key =>
    refine ⟨hI, fun h' hle hI' r s ha => ?_⟩
    have hcall := hI'.complete (x := x) ((hkey key rfl).mono hle) ha
    have hlong := hle.trans (Sound.prefix_call x (.complete key owner) r s h')
    cases r with
    | ret a => exact hQ _ _ nofun hlong hcall
    | raised e => exact hQ _ _ nofun hlong hcall
    | cancelled => exact hQ _ _ nofun hlong hcall

/-- The claim ends the delivery with 204 only where the key is completed. -/
theorem wp_claim {key : Option String} {owner : String}
    {Q : Outcome PubsubRunner.Exc (Option Nat) → PushHistory Result → Prop} (hI : Sound router h)
    (hQ : ∀ o h', (∀ e, o ≠ .raised e) → Sound router h' →
      (o = .ret (some 204) → ∃ k, key = some k ∧ Dispatched router h'.log k) → Q o h') :
    (claim key owner).wp (pushWorld Result) x (Sound router) Q h := by
  cases key with
  | none => exact hQ _ _ nofun hI nofun
  | some key =>
    refine ⟨hI, fun h' _ hI' r s ha => ?_⟩
    have hcall := hI'.call_answer x (.claim key owner 3600) r s (fun _ _ => nofun) ha
    cases r with
    | cancelled => exact hQ _ _ nofun hcall nofun
    | raised e => exact hQ _ _ nofun hcall nofun
    | ret result =>
      cases result with
      | first => exact hQ _ _ nofun hcall nofun
      | active => exact hQ _ _ nofun hcall nofun
      | completed =>
        -- the claim answers `COMPLETED` for a marked key only, and the invariant explains the mark
        obtain ⟨now, -, ⟨hanswer, -⟩, -⟩ := ha
        have hmarked := (Idempotency.claim_completed_iff _ _ _ _ _).mp hanswer.symm
        have hdispatched := hI'.completed key hmarked
        exact hQ _ _ nofun hcall fun _ => ⟨key, rfl, hdispatched.mono (Sound.prefix_call x _ _ s h')⟩

theorem wp_failed (hI : Sound router h) (key : Option String) (owner : String) :
    ((release key owner).bind fun _ => pure 500 : Coro (sig Result) Nat).wp (pushWorld Result) x
      (Sound router) (Explains router x) h := by
  refine wp_andThen.mpr (wp_release hI fun o h' hraise hI' => ?_)
  cases o with
  | ret a => exact ⟨hI', nofun⟩
  | raised e => exact absurd rfl (hraise e)
  | cancelled => exact ⟨hI', nofun⟩

theorem wp_succeeded (hI : Sound router h) (hfed : FedBy h.log x) :
    ((complete (keyOf router x) x.owner).bind fun _ => pure 204 : Coro (sig Result) Nat).wp
      (pushWorld Result) x (Sound router) (Explains router x) h := by
  refine wp_andThen.mpr (wp_complete hI (fun key hkey => ⟨x, hkey, hfed⟩)
    fun o h' hraise hle hI' => ?_)
  cases o with
  | ret a => exact ⟨hI', fun _ => .inl (hfed.mono hle)⟩
  | raised e => exact absurd rfl (hraise e)
  | cancelled => exact ⟨hI', nofun⟩

theorem wp_dispatch {event : Event} (hI : Sound router h) :
    (dispatch (keyOf router x) x.owner event).wp (pushWorld Result) x (Sound router)
      (Explains router x) h := by
  refine wp_andThen.mpr (wp_claim hI fun o h₁ hraise hI₁ hcompleted => ?_)
  cases o with
  | raised e => exact absurd rfl (hraise e)
  | cancelled => exact ⟨hI₁, nofun⟩
  | ret status =>
    cases status with
    | some status =>
      refine ⟨hI₁, fun heq => ?_⟩
      obtain rfl : status = 204 := by simpa using heq
      obtain ⟨key, hkey, hdispatched⟩ := hcompleted rfl
      exact .inr ⟨key, hkey, hdispatched⟩
    | none =>
      refine ⟨hI₁, fun h₂ _ hI₂ r s ha => ?_⟩
      have hcall := hI₂.call_answer x (.feedUpdate event) r s (fun _ _ => nofun) ha
      cases r with
      | cancelled => exact ⟨hcall, nofun⟩
      | raised e => exact wp_failed hcall _ _
      | ret result =>
        exact wp_succeeded hcall (fedBy_call x event result s h₂)

theorem wp_deliver {payload : Json} (hI : Sound router h)
    (hkey : keyOf router x = claimKey router payload) :
    (deliver router x.owner payload).wp (pushWorld Result) x (Sound router) (Explains router x) h := by
  unfold deliver
  split
  · next error _ =>
    cases error with
    | _ => exact ⟨hI, nofun⟩
  · rw [← hkey]
    exact wp_dispatch hI

theorem wp_receive (hI : Sound router h) :
    (receive router x).wp (pushWorld Result) x (Sound router) (Explains router x) h := by
  refine ⟨hI, fun h' _ hI' r s ha => ?_⟩
  have hcall := hI'.call_answer x (.body x) r s (fun _ _ => nofun) ha
  cases r with
  | cancelled => exact ⟨hcall, nofun⟩
  | raised e => exact ⟨hcall, nofun⟩
  | ret body =>
    obtain rfl := ha.1 body rfl
    change Coro.wp (pushWorld Result) x (Sound router)
      (match router.lib.loadsBytes x.body with
        | none => pure 400
        | some payload => deliver router x.owner payload) (Explains router x) _
    split
    · exact ⟨hcall, nofun⟩
    · next payload hloads =>
      refine wp_deliver hcall ?_
      rw [keyOf, hloads]
      rfl

theorem wp_endpoint (hI : Sound router h) :
    (endpoint router x).wp (pushWorld Result) x (Sound router) (Explains router x) h := by
  unfold endpoint
  split
  · refine ⟨hI, fun h' _ hI' r s ha => ?_⟩
    have hcall := hI'.call_answer x .verify r s (fun _ _ => nofun) ha
    cases r with
    | cancelled => exact ⟨hcall, nofun⟩
    | raised e => exact ⟨hcall, nofun⟩
    | ret verified =>
      cases verified with
      | true => exact wp_receive hcall
      | false => exact ⟨hcall, nofun⟩
  · exact wp_receive hI

theorem wp_serve (hI : Sound router h) :
    (serve router x).wp (pushWorld Result) x (Sound router) (fun _ => Sound router) h := by
  refine wp_andThen.mpr (wp_mono (fun o h' ho => ?_) (wp_endpoint hI))
  cases o with
  | ret status => exact ho.1.act fun h204 => ho.2 (by rw [h204])
  | raised e => exact ho.1
  | cancelled => exact ho.1

end Parts

/-! ## Every run -/

theorem sound_invariant (router : Router) : (pushSystem Result router).Invariant (Sound router) where
  init := by
    intro s hs
    refine ⟨explained_nil _, fun key hkey => ?_⟩
    rw [show s.claims = Idempotency.empty from hs] at hkey
    cases hkey
  env := by
    intro h s hI hs
    cases hs with
    | tick hnow => exact ⟨hI.answers, hI.completed⟩
  body := fun x h hI => wp_serve hI

/-! ## The deliveries of one key -/

theorem messageId_of_key {namespace₁ namespace₂ messageId₁ messageId₂ : List Char}
    (h₁ : ':' ∉ messageId₁) (h₂ : ':' ∉ messageId₂)
    (h : namespace₁ ++ ':' :: messageId₁ = namespace₂ ++ ':' :: messageId₂) :
    messageId₁ = messageId₂ ∧ namespace₁ = namespace₂ := by
  rcases List.append_eq_append_iff.mp h with ⟨l, hnamespace, htail⟩ | ⟨l, hnamespace, htail⟩
  · cases l with
    | nil => exact ⟨(List.cons.inj htail).2, by rw [hnamespace, List.append_nil]⟩
    | cons c l =>
      -- the colon of the second key would lie in the first message id
      refine absurd ?_ h₁
      rw [(List.cons.inj htail).2]
      exact List.mem_append_right _ List.mem_cons_self
  · cases l with
    | nil => exact ⟨(List.cons.inj htail).2.symm, by rw [hnamespace, List.append_nil]⟩
    | cons c l =>
      refine absurd ?_ h₂
      rw [(List.cons.inj htail).2]
      exact List.mem_append_right _ List.mem_cons_self

/-- Where neither message id has a colon, a key with a named subscription determines both. -/
theorem dedupeKey_inj {m m' s : String} {s' : Option String} (hm : ':' ∉ m.toList)
    (hm' : ':' ∉ m'.toList) (hempty : s ≠ "") (hglobal : s ≠ "global")
    (h : dedupeKey m' s' = dedupeKey m (some s)) : m' = m ∧ s' = some s := by
  have hlist := congrArg String.toList h
  simp only [dedupeKey, String.toList_append, List.append_assoc] at hlist
  obtain ⟨hid, hname⟩ := messageId_of_key hm' hm hlist
  refine ⟨String.toList_injective hid, ?_⟩
  replace hname := String.toList_injective hname
  rw [if_pos (show Python.truthy (some s) = true from bne_iff_ne.mpr hempty)] at hname
  cases s' with
  | none => exact absurd hname.symm hglobal
  | some s' =>
    split at hname
    · exact congrArg some hname
    · exact absurd hname.symm hglobal

theorem keyOf_eq_some {router : Router} {x : Request} {key : String} :
    keyOf router x = some key ↔ router.hasStorage = true ∧
      ∃ m, (metadata router x).1 = some m ∧ dedupeKey m (metadata router x).2 = key := by
  unfold keyOf metadata claimKey
  cases router.lib.loadsBytes x.body with
  | none => simp
  | some payload => cases router.hasStorage <;> simp

/-- **Push delivery loses nothing.** In every run, a delivery that is answered 204 comes after
`feed_update` has returned for a delivery with the same dedupe key, for itself where it has none; where its
message id has no colon and the subscription is not empty, that is a delivery of the same message of the same
subscription. -/
theorem push_delivered (router : Router) (p : PushPool Result) (hp : (pushSystem Result router).Reach p)
    (log rest : PushLog Result) (x : Request) (pre : Shared) (m s : String)
    (hanswer : p.hist.log = log ++ .acted x (.answer 204) pre :: rest)
    (hmetadata : metadata router x = (some m, some s)) (hm : ':' ∉ m.toList) (hs : s ≠ "global") :
    ∃ y, FedBy log y ∧ keyOf router y = keyOf router x ∧ (keyOf router x = none → y = x) ∧
      (s ≠ "" → (∀ m', (metadata router y).1 = some m' → ':' ∉ m'.toList) →
        metadata router y = (some m, some s)) := by
  rcases ((sound_invariant router).reach hp).answers log _ rest hanswer with
    hown | ⟨key, hkey, y, hkey', hfed⟩
  · exact ⟨x, hown, rfl, fun _ => rfl, fun _ _ => hmetadata⟩
  · refine ⟨y, hfed, hkey'.trans hkey.symm, fun hnone => ?_, fun hempty hcolon => ?_⟩
    · rw [hkey] at hnone
      cases hnone
    obtain ⟨-, m', hm', hdedupe'⟩ := keyOf_eq_some.mp hkey'
    obtain ⟨-, m₀, hm₀, hdedupe⟩ := keyOf_eq_some.mp hkey
    rw [hmetadata] at hm₀ hdedupe
    cases hm₀
    obtain ⟨hid, hsubscription⟩ :=
      dedupeKey_inj hm (hcolon m' hm') hempty hs (hdedupe'.trans hdedupe.symm)
    exact Prod.ext (hm'.trans (congrArg some hid)) hsubscription

/-! ## Two runs -/

def utf8Bytes (text : String) : List UInt8 := text.toUTF8.data.toList

def hiText : String := "\x7b\"type\": \"MESSAGE\", \"message\": \x7b\"text\": \"hi\"\x7d\x7d"

def pushText (messageId subscription : String) : String :=
  "\x7b\"message\": \x7b\"data\": \"" ++ hiBase64 ++ "\", \"messageId\": \"" ++ messageId ++
    "\"\x7d, \"subscription\": \"" ++ subscription ++ "\"\x7d"

def pushPayload (messageId subscription : String) : Json :=
  .dict [("message", .dict [("data", .str hiBase64), ("messageId", .str messageId)]),
    ("subscription", .str subscription)]

/-- A delivery of a message id and a subscription, with the owner token of its claim. -/
def push (messageId subscription owner : String) : Request :=
  ⟨utf8Bytes (pushText messageId subscription), owner⟩

/-- The decoders on the deliveries with the given message ids and subscriptions. -/
def pushStdlib (deliveries : List (String × String)) : Stdlib where
  fromisoformat _ := none
  int _ := none
  isdigit _ := false
  b64decode s := if s = hiBase64 then some (utf8Bytes hiText) else none
  loadsBytes data :=
    if data = utf8Bytes hiText then some (.dict hiInteraction)
    else (deliveries.find? fun d => utf8Bytes (pushText d.1 d.2) = data).map fun d =>
      pushPayload d.1 d.2
  loads _ := none
  decode _ := none

def pushRouter (deliveries : List (String × String)) : Router := ⟨false, true, pushStdlib deliveries⟩

/-- The reply of an undisturbed run. -/
def undisturbed : (c : Call) → Shared → Outcome PubsubRunner.Exc (c.Res Unit) × Shared
  | .verify, s => (.ret true, s)
  | .body request, s => (.ret request.body, s)
  | .claim key owner lease, s =>
    (.ret (Idempotency.claim owner lease s.clock s.clock (s.claims key)).2,
      { s with claims := Idempotency.step s.claims (key, .claim owner lease s.clock s.clock) })
  | .feedUpdate _, s => (.ret (), s)
  | .release key owner, s =>
    (.ret (), { s with claims := Idempotency.step s.claims (key, .release owner) })
  | .complete key owner, s =>
    (.ret (), { s with claims := Idempotency.step s.claims (key, .complete owner) })

theorem undisturbed_answer (c : Call) (s : Shared) :
    (pushWorld Unit).Answer c s (undisturbed c s).1 (undisturbed c s).2 := by
  cases c with
  | verify => rfl
  | body request => exact ⟨fun body hbody => (Outcome.ret.inj hbody).symm, rfl⟩
  | claim key owner lease => exact ⟨s.clock, le_refl _, ⟨rfl, rfl⟩, rfl⟩
  | feedUpdate event => rfl
  | release key owner => exact ⟨⟨rfl, rfl⟩, rfl⟩
  | complete key owner => exact ⟨⟨rfl, rfl⟩, rfl⟩

/-- Delivery `x`, handled undisturbed: four calls where it is dispatched, two where it is a duplicate. -/
def handled (router : Router) (p : PushPool Unit) (x : Request) (calls : Nat) : PushPool Unit :=
  (fun p => p.reply (pushWorld Unit) undisturbed (p.tasks.length - 1))^[calls]
    (p.spawn (pushWorld Unit) x (serve router x))

theorem handled_reach {router : Router} {p : PushPool Unit} (hp : (pushSystem Unit router).Reach p)
    {x : Request} (hx : ∀ task ∈ p.tasks, task.1.owner ≠ x.owner) (calls : Nat) :
    (pushSystem Unit router).Reach (handled router p x calls) := by
  unfold handled
  induction calls with
  | zero => exact hp.spawn hx
  | succ calls ih =>
    rw [Function.iterate_succ_apply']
    exact ih.reply undisturbed_answer _

def newPool : PushPool Unit := ⟨⟨⟨Idempotency.empty, 0⟩, []⟩, []⟩

def fedRequests (log : PushLog Unit) : List Request :=
  log.filterMap fun
    | .called x (.feedUpdate _) (.ret _) _ => some x
    | _ => none

theorem FedBy.mem {log : PushLog Unit} {x : Request} (h : FedBy log x) : x ∈ fedRequests log := by
  obtain ⟨event, result, pre, hmem⟩ := h
  exact List.mem_filterMap.mpr ⟨_, hmem, rfl⟩

def accepted : Entry (sig Unit) Request Shared → Option Request
  | .acted x (.answer 204) _ => some x
  | _ => none

theorem log_of_accepted {log : PushLog Unit} {x : Request} (h : log.getLast?.bind accepted = some x) :
    ∃ pre, log = log.dropLast ++ [.acted x (.answer 204) pre] := by
  obtain ⟨entry, hlast, haccepted⟩ := Option.bind_eq_some_iff.mp h
  unfold accepted at haccepted
  split at haccepted
  · next pre =>
    cases haccepted
    exact ⟨pre, (List.dropLast_append_getLast? _ hlast).symm⟩
  · cases haccepted

/-- One delivery, dispatched and completed. -/
def deliveredPool (router : Router) (messageId subscription : String) : PushPool Unit :=
  handled router newPool (push messageId subscription "a") 4

theorem deliveredPool_reach (router : Router) (messageId subscription : String) :
    (pushSystem Unit router).Reach (deliveredPool router messageId subscription) :=
  handled_reach (.init (show newPool.hist.state.claims = _ from rfl)) nofun 4

/-- A second delivery, found to be a duplicate of the first. -/
def duplicatePool (router : Router) (first second : String × String) : PushPool Unit :=
  handled router (deliveredPool router first.1 first.2) (push second.1 second.2 "b") 2

theorem duplicatePool_reach (router : Router) (first second : String × String)
    (howner : ∀ task ∈ (deliveredPool router first.1 first.2).tasks, task.1.owner ≠ "b") :
    (pushSystem Unit router).Reach (duplicatePool router first second) :=
  handled_reach (deliveredPool_reach router first.1 first.2) howner 2

/-- A delivery is dispatched, and a redelivery of the message is answered 204 as its duplicate. -/
theorem delivered_first :
    (∃ log pre, (deliveredPool (pushRouter [("1", "s")]) "1" "s").hist.log =
        log ++ [.acted (push "1" "s" "a") (.answer 204) pre] ∧
      ∃ y, FedBy log y ∧ keyOf (pushRouter [("1", "s")]) y = some "s:1") ∧
    ∃ log pre, (duplicatePool (pushRouter [("1", "s")]) ("1", "s") ("1", "s")).hist.log =
        log ++ [.acted (push "1" "s" "b") (.answer 204) pre] ∧
      ∃ y, FedBy log y ∧ y ≠ push "1" "s" "b" ∧
        metadata (pushRouter [("1", "s")]) y = (some "1", some "s") := by
  have hmetadata (owner : String) (howner : owner = "a" ∨ owner = "b") :
      metadata (pushRouter [("1", "s")]) (push "1" "s" owner) = (some "1", some "s") := by
    rcases howner with rfl | rfl <;> decide +kernel
  constructor
  · have hlast : (deliveredPool (pushRouter [("1", "s")]) "1" "s").hist.log.getLast?.bind accepted =
        some (push "1" "s" "a") := by decide +kernel
    obtain ⟨pre, hlog⟩ := log_of_accepted hlast
    have hreach := deliveredPool_reach (pushRouter [("1", "s")]) "1" "s"
    obtain ⟨y, hfed, hkey, -⟩ := push_delivered _ _ hreach _ [] _ pre "1" "s" hlog (hmetadata "a" (.inl rfl))
      (by decide +kernel) (by decide +kernel)
    exact ⟨_, pre, hlog, y, hfed, hkey.trans (by decide +kernel)⟩
  · have hlast : (duplicatePool (pushRouter [("1", "s")]) ("1", "s") ("1", "s")).hist.log.getLast?.bind
        accepted = some (push "1" "s" "b") := by decide +kernel
    have hdispatched : fedRequests (duplicatePool (pushRouter [("1", "s")]) ("1", "s")
        ("1", "s")).hist.log.dropLast = [push "1" "s" "a"] := by decide +kernel
    obtain ⟨pre, hlog⟩ := log_of_accepted hlast
    have hreach := duplicatePool_reach (pushRouter [("1", "s")]) ("1", "s") ("1", "s") (by decide +kernel)
    obtain ⟨y, hfed, -, -, hsame⟩ := push_delivered _ _ hreach _ [] _ pre "1" "s" hlog
      (hmetadata "b" (.inr rfl)) (by decide +kernel) (by decide +kernel)
    have hmem := hfed.mem
    rw [hdispatched, List.mem_singleton] at hmem
    refine ⟨_, pre, hlog, y, hfed, by rw [hmem]; decide +kernel, hsame (by decide) fun m' hm' => ?_⟩
    rw [hmem, hmetadata "a" (.inl rfl), Option.some_inj] at hm'
    rw [← hm']
    decide +kernel

/-- A delivery of a message and a subscription that is answered 204 comes after a dispatch of the same
message of the same subscription. -/
def LosesNothing (router : Router) : Prop :=
  ∀ p : PushPool Unit, (pushSystem Unit router).Reach p →
    ∀ (log rest : PushLog Unit) (x : Request) (pre : Shared) (m s : String),
      p.hist.log = log ++ .acted x (.answer 204) pre :: rest →
      metadata router x = (some m, some s) → ':' ∉ m.toList → s ≠ "global" →
      ∃ y, FedBy log y ∧ metadata router y = (some m, some s)

/-- A duplicate of another message is lost. -/
theorem duplicate_lost {router : Router} (first second : String × String)
    (howner : ∀ task ∈ (deliveredPool router first.1 first.2).tasks, task.1.owner ≠ "b")
    (hlast : (duplicatePool router first second).hist.log.getLast?.bind accepted =
      some (push second.1 second.2 "b"))
    (hfed : fedRequests (duplicatePool router first second).hist.log.dropLast =
      [push first.1 first.2 "a"])
    (hfirst : metadata router (push first.1 first.2 "a") = (some first.1, some first.2))
    (hsecond : metadata router (push second.1 second.2 "b") = (some second.1, some second.2))
    (hcolon : ':' ∉ second.1.toList) (hglobal : second.2 ≠ "global") (hne : first ≠ second) :
    ¬ LosesNothing router := by
  intro h
  obtain ⟨pre, hlog⟩ := log_of_accepted hlast
  have hreach := duplicatePool_reach router first second howner
  obtain ⟨y, hy, hmetadata⟩ := h _ hreach _ [] _ pre _ _ hlog hsecond hcolon hglobal
  have hmem := hy.mem
  rw [show fedRequests _ = _ from hfed, List.mem_singleton] at hmem
  rw [hmem, hfirst] at hmetadata
  obtain ⟨hid, hsubscription⟩ := Prod.ext_iff.mp hmetadata
  exact hne (Prod.ext (Option.some.inj hid) (Option.some.inj hsubscription))

/-- The key `x:y:z` is that of message `y:z` of `x` and of message `z` of `x:y`; an empty subscription
has the keys of the subscription `global`. -/
theorem other_message_lost :
    ¬ LosesNothing (pushRouter [("y:z", "x"), ("z", "x:y")]) ∧
      ¬ LosesNothing (pushRouter [("1", "global"), ("1", "")]) :=
  ⟨duplicate_lost ("y:z", "x") ("z", "x:y") (by decide +kernel)
      (by decide +kernel) (by decide +kernel) (by decide +kernel) (by decide +kernel)
      (by decide +kernel) (by decide +kernel) (by decide +kernel),
    duplicate_lost ("1", "global") ("1", "") (by decide +kernel)
      (by decide +kernel) (by decide +kernel) (by decide +kernel) (by decide +kernel)
      (by decide +kernel) (by decide +kernel) (by decide +kernel)⟩

end Chattice.PushRouter
