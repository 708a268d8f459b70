import Chattice.Transports.PubsubRunner.Rules

/-!
# What an ACK stands for

A duplicate is ACKed on the strength of a marker that another attempt has written, so the ACKs and
the completed claims are explained together: every ACK by what the log has before it, and every
completed claim by what the log has at all.

* `Exhausted runner log x` : the attempt has failed and was the last one allowed;
* `Sound` : the invariant; `sound_obligations` : every attempt keeps it;
* `ack_delivered` : in every run, every ACK is explained.
-/

namespace Chattice.PubsubRunner

open Asyncio Asyncio.Coro
open Idempotency (ClaimResult Claims isCompleted)

variable {Result : Type}

/-- Attempt `x` failed with `delivery_attempt >= max_delivery_attempts`. -/
def Exhausted (runner : Runner) (x : Delivery) (log : RunnerLog Result) : Prop :=
  ∃ attempt, x.message.deliveryAttempt = some attempt ∧ runner.maxDeliveryAttempts ≤ attempt ∧
    Failed runner x log

/-! ## The invariant -/

/-- An ACK is explained by what the log has before it. -/
def Justified (runner : Runner) (log : RunnerLog Result) : Entry (sig Result) Delivery Shared → Prop
  | .acted x (.ack _) _ => Answered log x.message.messageId ∨ Exhausted runner x log
  | _ => True

/-- Every ACK is explained, and every completed claim is that of an answered message. -/
structure Sound (runner : Runner) (h : RunnerHistory Result) : Prop where
  acks : Explained (Justified runner) h.log
  completed : ∀ message : Message,
    isCompleted (h.state.claims (dedupeKey runner message)) = true →
      Answered h.log message.messageId

/-- The messages of one key are the deliveries of one message id. -/
theorem messageId_of_dedupeKey {runner : Runner} {m m' : Message}
    (h : dedupeKey runner m = dedupeKey runner m') : m.messageId = m'.messageId := by
  unfold dedupeKey at h
  apply String.toList_injective
  have hlist := congrArg String.toList h
  simp only [String.toList_append] at hlist
  exact List.append_cancel_left hlist

theorem storageAnswer_or {α : Type} {before after s : Claims} {a : α} {r : Outcome Exc α}
    (h : StorageAnswer before after a r s) : s = before ∨ s = after := by
  cases r with
  | ret b => exact .inr h.2
  | raised e => exact h
  | cancelled => exact h

theorem storageAnswer_ret_or {α : Type} {before after s : Claims} {a : α} {r : Outcome Exc α}
    (h : StorageAnswer before after a r s) :
    (s = before ∧ ∀ b, r ≠ .ret b) ∨ s = after ∧ ∀ b, r = .ret b → a = b := by
  cases r with
  | ret b => exact .inr ⟨h.2, fun b hb => h.1.symm.trans (Outcome.ret.inj hb)⟩
  | raised e => exact h.imp (fun hs => ⟨hs, nofun⟩) fun hs => ⟨hs, nofun⟩
  | cancelled => exact h.imp (fun hs => ⟨hs, nofun⟩) fun hs => ⟨hs, nofun⟩

/-- A storage method other than `complete` completes no claim, whether or not it takes effect. -/
theorem isCompleted_of_storageAnswer {α : Type} {before s : Claims} {op : String × Idempotency.Call}
    {a : α} {r : Outcome Exc α} {key : String} (hop : op.2.isComplete = false)
    (h : StorageAnswer before (Idempotency.step before op) a r s)
    (hs : isCompleted (s key) = true) : isCompleted (before key) = true := by
  rcases storageAnswer_or h with rfl | rfl
  · exact hs
  · exact Idempotency.isCompleted_of_step hop hs

theorem isCompleted_of_answer {c : Call Result} {s s' : Shared} {r : Outcome Exc c.Res}
    {key : String} (hc : c.isComplete = false) (ha : Answer c s r s')
    (h : isCompleted (s'.claims key) = true) : isCompleted (s.claims key) = true := by
  cases c with
  | claim key' owner lease =>
    obtain ⟨now, -, hstorage, -⟩ := ha
    exact isCompleted_of_storageAnswer rfl hstorage h
  | complete key' owner => cases hc
  | release key' owner => exact isCompleted_of_storageAnswer rfl ha.1 h
  | feedUpdate event => rwa [show s' = s from ha] at h
  | answer event result => rwa [show s' = s from ha] at h
  | createMessage space text => rwa [show s' = s from ha] at h
  | hook name id event => rwa [show s' = s from ha] at h
  | renewal owner => rwa [show s' = s from ha] at h

@[simp] theorem Effect.run_claims (e : Effect) (s : Shared) : (e.run s).claims = s.claims := by
  cases e <;> rfl

namespace Sound

variable {runner : Runner} {x : Delivery} {h : RunnerHistory Result}

theorem call {c : Call Result} {r : Outcome Exc c.Res} {s : Shared} (hI : Sound runner h)
    (hs : ∀ message : Message, isCompleted (s.claims (dedupeKey runner message)) = true →
      isCompleted (h.state.claims (dedupeKey runner message)) = true ∨
        Answered h.log message.messageId) : Sound runner (h.call x c r s) where
  acks := explained_snoc.mpr ⟨hI.acks, trivial⟩
  completed := by
    intro message hmessage
    have hle := prefix_call x c r s h
    rcases hs message hmessage with hold | hanswered
    · exact (hI.completed message hold).mono hle
    · exact hanswered.mono hle

theorem act {e : Effect} (hI : Sound runner h) (hJ : Justified runner h.log (.acted x e h.state)) :
    Sound runner (h.act (runnerWorld Result) x e) where
  acks := explained_snoc.mpr ⟨hI.acks, hJ⟩
  completed := by
    intro message hmessage
    rw [History.act_state, Effect.run_claims] at hmessage
    exact (hI.completed message hmessage).mono (prefix_act x e h)

theorem env {s : Shared} (hI : Sound runner h) (hs : Env h.state s) : Sound runner ⟨s, h.log⟩ := by
  refine ⟨hI.acks, fun message hmessage => hI.completed message ?_⟩
  cases hs with
  | tick hnow => exact hmessage
  | renew hmem ha => exact isCompleted_of_storageAnswer rfl ha hmessage
  | close => exact hmessage

theorem complete {r : Outcome Exc Unit} {s : Shared} (hI : Sound runner h)
    (hanswered : Answered h.log x.message.messageId)
    (ha : Answer (completeOf Result runner x) h.state r s) :
    Sound runner (h.call x (completeOf Result runner x) r s) := by
  apply hI.call
  intro message hmessage
  rcases storageAnswer_or ha.1 with hs | hs
  · rw [hs] at hmessage
    exact .inl hmessage
  · rw [hs] at hmessage
    rcases Idempotency.isCompleted_of_step_complete hmessage with hkey | hold
    · rw [← messageId_of_dedupeKey hkey]
      exact .inr hanswered
    · exact .inl hold

end Sound

theorem neutral_sound (runner : Runner) : Neutral (Sound runner : RunnerHistory Result → Prop) where
  call := fun _ _ _ _ _ hc ha hI => hI.call fun _ hs => .inl (isCompleted_of_answer hc ha hs)
  act := by
    intro x e h he hI
    apply hI.act
    cases e with
    | ack site => cases he
    | nack => exact trivial
    | startRenewal key owner => exact trivial
    | cancelRenewal owner => exact trivial

/-! ## Every run -/

theorem sound_obligations (runner : Runner) :
    Obligations runner (Sound runner : RunnerHistory Result → Prop) where
  neutral := neutral_sound runner
  duplicate := by
    intro x s h ha hI
    have hcall := (neutral_sound runner).call x (claimOf Result runner x) (.ret .completed) s h
      rfl ha hI
    -- the claim answers `COMPLETED` for a marked key only, and the invariant explains the mark
    obtain ⟨now, -, ⟨hcompleted, -⟩, -⟩ := ha
    have hmarked := (Idempotency.claim_completed_iff _ _ _ _ _).mp hcompleted.symm
    have hanswered := hI.completed x.message hmarked
    exact hcall.act (.inl (hanswered.mono (prefix_call x (claimOf Result runner x) _ s h)))
  uncompleted := fun _ _ _ _ _ hanswered ha hI => hI.complete hanswered ha
  completed := by
    intro x site s h _ hanswered ha hI
    have hlong := hanswered.mono (prefix_call x (completeOf Result runner x) (.ret ()) s h)
    exact (hI.complete hanswered ha).act (.inl hlong)
  poison := fun x attempt h hattempt hmax hfailed hI => hI.act (.inr ⟨attempt, hattempt, hmax, hfailed⟩)

theorem sound_invariant (runner : Runner) (Room : Nat → Prop) :
    (runnerSystem Result runner Room).Invariant (Sound runner) := by
  apply (sound_obligations runner).invariant Room
  · intro s hfresh
    refine ⟨explained_nil _, fun message hmessage => ?_⟩
    rw [hfresh.1] at hmessage
    cases hmessage
  · exact fun h s hI hs => hI.env hs

/-- **No message is acknowledged unprocessed.** In every run, every ACK of a delivery comes after
some attempt for its message has finished `feed_update` and the answer step, or after this very
attempt, the last one allowed, has failed. -/
theorem ack_delivered (runner : Runner) (Room : Nat → Prop) (p : RunnerPool Result)
    (hp : (runnerSystem Result runner Room).Reach p) (log rest : RunnerLog Result) (x : Delivery)
    (site : AckSite) (pre : Shared) (hack : p.hist.log = log ++ .acted x (.ack site) pre :: rest) :
    Answered log x.message.messageId ∨ Exhausted runner x log :=
  ((sound_invariant runner Room).reach hp).acks log _ rest hack

def helloDelivery (owner : String) : Delivery := ⟨⟨"m-1", .text "hello", some 1⟩, owner⟩

def newPool : RunnerPool Unit := ⟨⟨⟨Idempotency.empty, 0, [], true⟩, []⟩, []⟩

def scheduleHello (p : RunnerPool Unit) (owner : String) : RunnerPool Unit :=
  p.spawn (runnerWorld Unit) (helloDelivery owner)
    (handle helloRunner (helloDelivery owner).message owner)

def resumeHello (p : RunnerPool Unit) (i : Nat) : RunnerPool Unit :=
  p.reply (runnerWorld Unit) undisturbed i

/-- One delivery, handled undisturbed up to its `delivery_acked` hook. -/
def ackedPool : RunnerPool Unit :=
  resumeHello (resumeHello (resumeHello (resumeHello (scheduleHello newPool "a") 0) 0) 0) 0

theorem newPool_reach : (runnerSystem Unit helloRunner AnyRoom).Reach newPool :=
  .init ⟨rfl, rfl, rfl⟩

theorem resumeHello_reach {p : RunnerPool Unit}
    (hp : (runnerSystem Unit helloRunner AnyRoom).Reach p) (i : Nat) :
    (runnerSystem Unit helloRunner AnyRoom).Reach (resumeHello p i) :=
  hp.reply undisturbed_answer i

theorem ackedPool_reach : (runnerSystem Unit helloRunner AnyRoom).Reach ackedPool := by
  have hscheduled : (runnerSystem Unit helloRunner AnyRoom).Reach (scheduleHello newPool "a") :=
    newPool_reach.spawn ⟨rfl, nofun, trivial⟩
  exact resumeHello_reach (resumeHello_reach (resumeHello_reach (resumeHello_reach hscheduled 0) 0) 0) 0

/-- The log before the ACK of an undisturbed delivery explains it. -/
theorem hello_delivered :
    Answered (ackedPool.hist.log.take 5) "m-1" ∨
      Exhausted helloRunner (helloDelivery "a") (ackedPool.hist.log.take 5) :=
  ack_delivered helloRunner AnyRoom ackedPool ackedPool_reach (ackedPool.hist.log.take 5) []
    (helloDelivery "a") .success ackedPool.hist.state rfl

end Chattice.PubsubRunner
