import Chattice.Transports.PubsubRunner.Schedule
import Chattice.Transports.PubsubRunner.Settle

/-!
# Rules for the invariants of the runner

An invariant of the runs of a runner only has something to say about the answers of `complete` and
about the ACKs. The rules below go through the rest of an attempt once.

* `Answered log id`, `Failed runner x log` : what the log says of a message and of an attempt;
* `Neutral I` : every other call and effect keeps `I`;
* `wp_maybeHook`, `wp_notifyPoison`, `wp_joinRenewal` : the parts that never raise;
* `Obligations runner I` : what is left to show of `I`, at `complete` and at each of the four ACKs,
  with what the log says there;
* `Obligations.invariant` : then `I` holds in every reachable state.
-/

namespace Chattice.PubsubRunner

open Asyncio Asyncio.Coro
open Idempotency (ClaimResult Claims)

variable {Result : Type}

abbrev RunnerLog (Result : Type) := List (Entry (sig Result) Delivery Shared)

/-! ## What a log says -/

/-- The answer returned, or it was rejected with `CapabilityNotSupported`. -/
def AnswerEnded : Outcome Exc (Option String) → Prop
  | .ret _ => True
  | .raised e => e.capabilityNotSupported = true
  | .cancelled => False

/-- Some attempt for message `id` has finished `feed_update` and the answer step. -/
def Answered (log : RunnerLog Result) (id : String) : Prop :=
  ∃ (y : Delivery) (event : Event) (result : Result) (o : Outcome Exc (Option String))
    (pre pre' : Shared), y.message.messageId = id ∧
      .called y (Call.feedUpdate event) (.ret result) pre ∈ log ∧
      .called y (Call.answer event result) o pre' ∈ log ∧ AnswerEnded o

/-- Parsing or a step of the processing of attempt `x` raised. -/
def Failed (runner : Runner) (x : Delivery) (log : RunnerLog Result) : Prop :=
  parseFails runner x.message = true ∨
    ∃ (c : Call Result) (e : Exc) (pre : Shared),
      isStepFailure (.called c (.raised e)) = true ∧ .called x c (.raised e) pre ∈ log

theorem Answered.mono {l l' : RunnerLog Result} {id : String} (h : Answered l id) (hle : l <+: l') :
    Answered l' id := by
  obtain ⟨y, event, result, o, pre, pre', hid, hfeed, hanswer, ho⟩ := h
  exact ⟨y, event, result, o, pre, pre', hid, hle.subset hfeed, hle.subset hanswer, ho⟩

theorem Failed.mono {runner : Runner} {l l' : RunnerLog Result} {x : Delivery}
    (h : Failed runner x l) (hle : l <+: l') : Failed runner x l' := by
  rcases h with hparse | ⟨c, e, pre, hstep, hmem⟩
  · exact .inl hparse
  · exact .inr ⟨c, e, pre, hstep, hle.subset hmem⟩

/-! ## The parts that never raise -/

def Effect.isAck : Effect → Bool
  | .ack _ => true
  | _ => false

def Call.isComplete : Call Result → Bool
  | .complete .. => true
  | _ => false

/-- Every call but `complete` and every effect but an ACK keeps `I`. -/
structure Neutral (I : RunnerHistory Result → Prop) : Prop where
  call : ∀ (x : Delivery) (c : Call Result) (r : Outcome Exc c.Res) (s : Shared)
    (h : RunnerHistory Result), c.isComplete = false → Answer c h.state r s → I h → I (h.call x c r s)
  act : ∀ (x : Delivery) (e : Effect) (h : RunnerHistory Result), e.isAck = false → I h →
    I (h.act (runnerWorld Result) x e)

section

variable {I : RunnerHistory Result → Prop} {x : Delivery}
  {Q : Outcome Exc Unit → RunnerHistory Result → Prop} {h : RunnerHistory Result}

theorem prefix_call (x : Delivery) (c : Call Result) (r : Outcome Exc c.Res) (s : Shared)
    (h : RunnerHistory Result) : h.log <+: (h.call x c r s).log :=
  List.prefix_append _ _

theorem prefix_act (x : Delivery) (e : Effect) (h : RunnerHistory Result) :
    h.log <+: (h.act (runnerWorld Result) x e).log :=
  List.prefix_append _ _

theorem wp_logged {c : Call Result} (hN : Neutral I) (hc : c.isComplete = false) (hI : I h)
    (hQ : ∀ o h', h.log <+: h'.log → I h' → (∀ e, o ≠ .raised e) → Q o h') :
    (tryElse (awaitCall c) (fun _ => pure ()) fun _ => pure ()).wp (runnerWorld Result) x I Q h := by
  refine ⟨hI, fun h' hle hI' r s ha => ?_⟩
  have hnext := hN.call x c r s h' hc ha hI'
  have hlong := hle.trans (prefix_call x c r s h')
  cases r with
  | ret a => exact hQ _ _ hlong hnext nofun
  | raised e => exact hQ _ _ hlong hnext nofun
  | cancelled => exact hQ _ _ hlong hnext nofun

theorem wp_maybeHook {runner : Runner} {name : HookName} {id : String} {event : Option Event}
    (hN : Neutral I) (hI : I h)
    (hQ : ∀ o h', h.log <+: h'.log → I h' → (∀ e, o ≠ .raised e) → Q o h') :
    (maybeHook runner name id event).wp (runnerWorld Result) x I Q h := by
  unfold maybeHook
  split
  · exact wp_logged hN rfl hI hQ
  · exact hQ _ _ List.prefix_rfl hI nofun

theorem wp_notifyPoison {runner : Runner} {event : Option Event} {errorClass : String}
    (hN : Neutral I) (hI : I h)
    (hQ : ∀ o h', h.log <+: h'.log → I h' → (∀ e, o ≠ .raised e) → Q o h') :
    (notifyPoison runner event errorClass).wp (runnerWorld Result) x I Q h := by
  unfold notifyPoison
  split
  · exact wp_logged hN rfl hI hQ
  · exact hQ _ _ List.prefix_rfl hI nofun

theorem wp_joinRenewal {owner : String} (hN : Neutral I) (hI : I h) :
    (joinRenewal owner).wp (runnerWorld Result) x I (fun _ => I) h := by
  have hcancelled := hN.act x (.cancelRenewal owner) h rfl hI
  exact ⟨hcancelled, fun h' _ hI' r s ha => hN.call x (.renewal owner) r s h' rfl ha hI'⟩

end

/-! ## What is left to show -/

/-- The claim of attempt `x`. -/
abbrev claimOf (Result : Type) (runner : Runner) (x : Delivery) : Call Result :=
  .claim (dedupeKey runner x.message) x.owner defaultLeaseSeconds

/-- The completion of attempt `x`. -/
abbrev completeOf (Result : Type) (runner : Runner) (x : Delivery) : Call Result :=
  .complete (dedupeKey runner x.message) x.owner

/-- What is left to show of an invariant. -/
structure Obligations (runner : Runner) (I : RunnerHistory Result → Prop) : Prop where
  neutral : Neutral I
  /-- A claim that answers `COMPLETED`, and the ACK of the duplicate. -/
  duplicate : ∀ (x : Delivery) (s : Shared) (h : RunnerHistory Result),
    Answer (claimOf Result runner x) h.state (.ret ClaimResult.completed) s → I h →
    I ((h.call x (claimOf Result runner x) (.ret ClaimResult.completed) s).act
      (runnerWorld Result) x (.ack .duplicate))
  /-- A `complete` that raises or is cancelled. -/
  uncompleted : ∀ (x : Delivery) (r : Outcome Exc Unit) (s : Shared) (h : RunnerHistory Result),
    r ≠ .ret () → Answered h.log x.message.messageId →
    Answer (completeOf Result runner x) h.state r s → I h → I (h.call x (completeOf Result runner x) r s)
  /-- A `complete` that returns, and the ACK right after it. -/
  completed : ∀ (x : Delivery) (site : AckSite) (s : Shared) (h : RunnerHistory Result),
    site = .capability ∨ site = .success → Answered h.log x.message.messageId →
    Answer (completeOf Result runner x) h.state (.ret ()) s → I h →
    I ((h.call x (completeOf Result runner x) (.ret ()) s).act (runnerWorld Result) x (.ack site))
  /-- The ACK of a poison message. -/
  poison : ∀ (x : Delivery) (attempt : Int) (h : RunnerHistory Result),
    x.message.deliveryAttempt = some attempt → runner.maxDeliveryAttempts ≤ attempt →
    Failed runner x h.log → I h → I (h.act (runnerWorld Result) x (.ack .poison))

/-- How the body of the `try` ends: a failure is on record. -/
def Ends (runner : Runner) (I : RunnerHistory Result → Prop) (x : Delivery) (o : Outcome Exc Unit)
    (h : RunnerHistory Result) : Prop :=
  I h ∧ ∀ e, o = .raised e → Failed runner x h.log

theorem Ends.of_raised {runner : Runner} {I : RunnerHistory Result → Prop} {x : Delivery}
    {h : RunnerHistory Result} {c : Call Result} {e : Exc} {s : Shared}
    (hstep : isStepFailure (.called c (.raised e)) = true) (hI : I (h.call x c (.raised e) s)) :
    Ends runner I x (.raised e) (h.call x c (.raised e) s) := by
  refine ⟨hI, fun _ _ => .inr ⟨c, e, h.state, hstep, ?_⟩⟩
  rw [History.call_log]
  exact List.mem_append_right _ (List.mem_singleton.mpr rfl)

namespace Obligations

variable {runner : Runner} {I : RunnerHistory Result → Prop} {x : Delivery}
  {h : RunnerHistory Result}

/-! ## Dispatch and answer -/

theorem complete_ack (hO : Obligations runner I) {site : AckSite}
    (hsite : site = .capability ∨ site = .success) {next : Coro (sig Result) Unit} (hI : I h)
    (hanswered : Answered h.log x.message.messageId)
    (hnext : ∀ h, I h → next.wp (runnerWorld Result) x I (Ends runner I x) h) :
    Coro.wp (runnerWorld Result) x I
      ((awaitCall (completeOf Result runner x)).bind fun _ =>
        emit (S := sig Result) (.ack site) next) (Ends runner I x) h := by
  refine ⟨hI, fun h' hle hI' r s ha => ?_⟩
  have hanswered' := hanswered.mono hle
  cases r with
  | cancelled => exact ⟨hO.uncompleted x .cancelled s h' nofun hanswered' ha hI', nofun⟩
  | raised e => exact .of_raised rfl (hO.uncompleted x (.raised e) s h' nofun hanswered' ha hI')
  | ret a => exact hnext _ (hO.completed x site s h' hsite hanswered' ha hI')

theorem succeed (hO : Obligations runner I) {event : Event} (hI : I h)
    (hanswered : Answered h.log x.message.messageId) :
    (succeed runner x.message x.owner event).wp (runnerWorld Result) x I (Ends runner I x) h := by
  apply hO.complete_ack (.inr rfl) hI hanswered
  intro h' hI'
  apply wp_maybeHook hO.neutral hI'
  intro o h'' _ hI'' hret
  exact ⟨hI'', fun e he => absurd he (hret e)⟩

theorem capabilityRejected (hO : Obligations runner I) {event : Event} {e : Exc}
    (hcap : e.capabilityNotSupported = true) (hI : I h)
    (hanswered : Answered h.log x.message.messageId) :
    (capabilityRejected runner x.message x.owner event e).wp (runnerWorld Result) x I
      (Ends runner I x) h := by
  have hack : ∀ h' : RunnerHistory Result, h.log <+: h'.log → I h' →
      Coro.wp (runnerWorld Result) x I
        ((awaitCall (completeOf Result runner x)).bind fun _ => perform (.ack .capability))
        (Ends runner I x) h' := by
    intro h' hle hI'
    exact hO.complete_ack (.inl rfl) hI' (hanswered.mono hle) fun _ hdone => ⟨hdone, nofun⟩
  unfold PubsubRunner.capabilityRejected
  rw [if_pos hcap]
  split
  · next space _ _ =>
    refine ⟨hI, fun h' hle hI' r s ha => ?_⟩
    have hcall := hO.neutral.call x (.createMessage space e.str) r s h' rfl ha hI'
    have hlong := hle.trans (prefix_call x (.createMessage space e.str) r s h')
    cases r with
    | cancelled => exact ⟨hcall, nofun⟩
    | raised e => exact .of_raised rfl hcall
    | ret a => exact hack _ hlong hcall
  · exact hack h List.prefix_rfl hI

theorem dispatch (hO : Obligations runner I) {event : Event} (hI : I h) :
    (dispatch runner x.message x.owner event).wp (runnerWorld Result) x I (Ends runner I x) h := by
  refine ⟨hI, fun h₁ _ hI₁ r s₁ ha₁ => ?_⟩
  have hfed := hO.neutral.call x (.feedUpdate event) r s₁ h₁ rfl ha₁ hI₁
  cases r with
  | cancelled => exact ⟨hfed, nofun⟩
  | raised e => exact .of_raised rfl hfed
  | ret result =>
    refine ⟨hfed, fun h₂ hle hI₂ r s₂ ha₂ => ?_⟩
    have hdone := hO.neutral.call x (.answer event result) r s₂ h₂ rfl ha₂ hI₂
    -- once the answer step is over, the log shows both steps of this very attempt
    have hanswered : AnswerEnded r →
        Answered (h₂.call x (Call.answer event result) r s₂).log x.message.messageId := by
      intro hr
      have hfeed := hle.subset (List.mem_append_right h₁.log (List.mem_singleton.mpr rfl))
      refine ⟨x, event, result, r, h₁.state, h₂.state, rfl, List.mem_append_left _ hfeed, ?_, hr⟩
      exact List.mem_append_right _ (List.mem_singleton.mpr rfl)
    cases r with
    | cancelled => exact ⟨hdone, nofun⟩
    | ret operation => exact hO.succeed hdone (hanswered trivial)
    | raised e =>
      by_cases hcap : e.capabilityNotSupported = true
      · exact hO.capabilityRejected hcap hdone (hanswered hcap)
      · have hraise : PubsubRunner.capabilityRejected runner x.message x.owner event e =
            (raise e : Coro (sig Result) Unit) := if_neg hcap
        show (PubsubRunner.capabilityRejected runner x.message x.owner event e).wp _ _ _ _ _
        rw [hraise]
        exact .of_raised (by simpa [isStepFailure] using hcap) hdone

/-! ## The whole attempt -/

theorem failDelivery (hO : Obligations runner I) {event : Option Event} {error : Exc}
    (hfailed : Failed runner x h.log) (hI : I h) :
    (failDelivery runner x.message x.owner event error).wp (runnerWorld Result) x I (fun _ => I) h := by
  refine wp_andThen.mpr (wp_logged hO.neutral rfl hI fun o h₁ hle₁ hI₁ _ => ?_)
  have hfailed₁ := hfailed.mono hle₁
  cases o with
  | raised e => exact hI₁
  | cancelled => exact hI₁
  | ret a =>
    cases hattempt : x.message.deliveryAttempt with
    | none =>
      dsimp only
      exact hI₁
    | some attempt =>
      dsimp only
      split
      · -- poison: the notification, then the ACK
        next hmax =>
        refine wp_andThen.mpr (wp_notifyPoison hO.neutral hI₁ fun o h₂ hle₂ hI₂ _ => ?_)
        have hfailed₂ := hfailed₁.mono hle₂
        cases o with
        | ret a => exact hO.poison x attempt h₂ hattempt hmax hfailed₂ hI₂
        | raised e => exact hI₂
        | cancelled => exact hI₂
      · exact wp_maybeHook hO.neutral (hO.neutral.act x .nack h₁ rfl hI₁) fun _ _ _ hI₂ _ => hI₂

theorem process (hO : Obligations runner I) (hI : I h) :
    (process runner x.message x.owner).wp (runnerWorld Result) x I (fun _ => I) h := by
  refine wp_seq ?_ fun o h' hI' => ?_
  · refine wp_andThen.mpr ?_
    have hstarted := hO.neutral.act x (.startRenewal (dedupeKey runner x.message) x.owner) h rfl hI
    cases hparse : runner.parse x.message.data with
    | error e =>
      have hunparsed : parseFails runner x.message = true := by rw [parseFails, hparse]
      exact hO.failDelivery (.inl hunparsed) hstarted
    | ok event =>
      refine wp_mono (fun o h' hends => ?_) (hO.dispatch hstarted)
      obtain ⟨hI', hfailed⟩ := hends
      cases o with
      | ret a => exact hI'
      | raised e => exact hO.failDelivery (hfailed e rfl) hI'
      | cancelled => exact hO.neutral.act x .nack h' rfl hI'
  · refine wp_andThen.mpr (wp_mono (fun o' h'' hI'' => ?_) (wp_joinRenewal hO.neutral hI'))
    cases o' with
    | ret a => exact hI''
    | raised e => exact hI''
    | cancelled => exact hI''

/-- Every attempt keeps the invariant from await to await. -/
theorem handle (hO : Obligations runner I) (hI : I h) :
    (handle runner x.message x.owner).wp (runnerWorld Result) x I (fun _ => I) h := by
  refine ⟨hI, fun h' _ hI' r s ha => ?_⟩
  have hcall := hO.neutral.call x (claimOf Result runner x) r s h' rfl ha hI'
  cases r with
  | cancelled => exact hcall
  | raised e => exact hO.neutral.act x .nack _ rfl hcall
  | ret claim =>
    cases claim with
    | first => exact hO.process hcall
    | completed => exact hO.duplicate x s h' ha hI'
    | active => exact hO.neutral.act x .nack _ rfl hcall

/-- An invariant that meets its obligations, and that the environment keeps, holds in every reachable
state. -/
theorem invariant (hO : Obligations runner I) (Room : Nat → Prop)
    (hinit : ∀ s : Shared, s.Fresh → I ⟨s, []⟩)
    (henv : ∀ (h : RunnerHistory Result) (s : Shared), I h → Env h.state s → I ⟨s, h.log⟩) :
    (runnerSystem Result runner Room).Invariant I :=
  ⟨hinit, henv, fun _ _ hI => hO.handle hI⟩

end Obligations

end Chattice.PubsubRunner
