import Chattice.Transports.PubsubRunner.Delivered

/-!
# Whether an ACK is recorded

The success path and the `CapabilityNotSupported` path complete the claim, then ACK. `complete` does
nothing, and says nothing, when the attempt no longer holds the claim: the lease has run out and
another attempt has taken the key over.

* `CompleteKept` : the attempt that completes still holds the claim, or the key is completed already;
* `AckRecorded` : the claim of an ACKed delivery is completed;
* `acks_recorded_iff` : in every run, every such ACK is recorded exactly when every `complete` that
  returned found what it needs.
-/

namespace Chattice.PubsubRunner

open Asyncio Asyncio.Coro
open Idempotency (ClaimResult Claims isCompleted holds)

variable {Result : Type}

/-- A `complete` that returned found the claim of its caller, or a completed one. -/
def CompleteKept : Entry (sig Result) Delivery Shared → Prop
  | .called _ (.complete key owner) (.ret _) pre =>
    isCompleted (pre.claims key) = true ∨ holds owner (pre.claims key) = true
  | _ => True

/-- The claim of a delivery that is ACKed after its processing is completed at that moment. -/
def AckRecorded (runner : Runner) : Entry (sig Result) Delivery Shared → Prop
  | .acted x (.ack .success) pre => isCompleted (pre.claims (dedupeKey runner x.message)) = true
  | .acted x (.ack .capability) pre => isCompleted (pre.claims (dedupeKey runner x.message)) = true
  | _ => True

instance (runner : Runner) :
    DecidablePred (AckRecorded runner : Entry (sig Result) Delivery Shared → Prop)
  | .called .. => .isTrue trivial
  | .acted x (.ack .success) pre =>
    inferInstanceAs (Decidable (isCompleted (pre.claims (dedupeKey runner x.message)) = true))
  | .acted x (.ack .capability) pre =>
    inferInstanceAs (Decidable (isCompleted (pre.claims (dedupeKey runner x.message)) = true))
  | .acted _ (.ack .duplicate) _ => .isTrue trivial
  | .acted _ (.ack .poison) _ => .isTrue trivial
  | .acted _ .nack _ => .isTrue trivial
  | .acted _ (.startRenewal ..) _ => .isTrue trivial
  | .acted _ (.cancelRenewal _) _ => .isTrue trivial

/-- The ACKs are recorded exactly when every `complete` found what it needs. -/
def Balanced (runner : Runner) (log : RunnerLog Result) : Prop :=
  (∀ e ∈ log, CompleteKept e) ↔ (∀ e ∈ log, AckRecorded runner e)

theorem forall_mem_snoc {α : Type} {P : α → Prop} {l : List α} {a : α} :
    (∀ e ∈ l ++ [a], P e) ↔ (∀ e ∈ l, P e) ∧ P a := by
  rw [List.forall_mem_append, List.forall_mem_singleton]

section

variable {runner : Runner} {log : RunnerLog Result} {e : Entry (sig Result) Delivery Shared}

theorem balanced_nil (runner : Runner) : Balanced runner ([] : RunnerLog Result) := by
  unfold Balanced
  exact iff_of_true (List.forall_mem_nil _) (List.forall_mem_nil _)

theorem Balanced.snoc (h : Balanced runner log) (hkept : CompleteKept e)
    (hrecorded : AckRecorded runner e) : Balanced runner (log ++ [e]) := by
  unfold Balanced at h ⊢
  rw [forall_mem_snoc, forall_mem_snoc, and_iff_left hkept, and_iff_left hrecorded]
  exact h

theorem Balanced.snoc_complete {x : Delivery} {pre post : Shared} {site : AckSite}
    (hsite : site = .capability ∨ site = .success) (h : Balanced runner log)
    (hpost : post.claims = Idempotency.step pre.claims
      (dedupeKey runner x.message, .complete x.owner)) :
    Balanced runner (log ++ [.called x (completeOf Result runner x) (.ret ()) pre] ++
      [.acted x (.ack site) post]) := by
  have hack : AckRecorded runner (.acted x (.ack site) post : Entry (sig Result) Delivery Shared) ↔
      isCompleted (post.claims (dedupeKey runner x.message)) = true := by
    rcases hsite with rfl | rfl <;> exact Iff.rfl
  have hsame : isCompleted (post.claims (dedupeKey runner x.message)) = true ↔
      CompleteKept (.called x (completeOf Result runner x) (.ret ()) pre) := by
    rw [hpost, Idempotency.step_self]
    show isCompleted (Idempotency.complete x.owner _) = true ↔ _
    rw [Idempotency.isCompleted_complete, Bool.or_eq_true]
    exact Iff.rfl
  unfold Balanced at h ⊢
  rw [forall_mem_snoc, forall_mem_snoc, forall_mem_snoc, forall_mem_snoc, hack, hsame, h]
  exact ⟨fun hk => ⟨⟨hk.1.1, trivial⟩, hk.1.2⟩, fun hr => ⟨⟨hr.1.1, hr.2⟩, trivial⟩⟩

theorem completeKept_of_plain {x : Delivery} {c : Call Result} {r : Outcome Exc c.Res} {pre : Shared}
    (hc : c.isComplete = false) : CompleteKept (.called x c r pre) := by
  cases c with
  | complete key owner => cases hc
  | claim key owner lease => exact trivial
  | release key owner => exact trivial
  | feedUpdate event => exact trivial
  | answer event result => exact trivial
  | createMessage space text => exact trivial
  | hook name id event => exact trivial
  | renewal owner => exact trivial

theorem ackRecorded_of_plain {x : Delivery} {e : Effect} {pre : Shared} (he : e.isAck = false) :
    AckRecorded runner (.acted x e pre : Entry (sig Result) Delivery Shared) := by
  cases e with
  | ack site => cases he
  | nack => exact trivial
  | startRenewal key owner => exact trivial
  | cancelRenewal owner => exact trivial

end

theorem completeKept_acted (x : Delivery) (e : Effect) (pre : Shared) :
    CompleteKept (.acted x e pre : Entry (sig Result) Delivery Shared) := trivial

theorem ackRecorded_called (runner : Runner) (x : Delivery) (c : Call Result) (r : Outcome Exc c.Res)
    (pre : Shared) : AckRecorded runner (.called x c r pre) := trivial

theorem neutral_balanced (runner : Runner) :
    Neutral fun h : RunnerHistory Result => Balanced runner h.log where
  call := fun x c r _ h hc _ hI =>
    Balanced.snoc hI (completeKept_of_plain hc) (ackRecorded_called runner x c r h.state)
  act := fun x e h he hI =>
    Balanced.snoc hI (completeKept_acted x e h.state) (ackRecorded_of_plain he)

theorem balanced_obligations (runner : Runner) :
    Obligations runner fun h : RunnerHistory Result => Balanced runner h.log where
  neutral := neutral_balanced runner
  duplicate := by
    intro x s h ha hI
    have hcall := (neutral_balanced runner).call x (claimOf Result runner x) (.ret .completed) s h
      rfl ha hI
    exact Balanced.snoc hcall (completeKept_acted x _ s) trivial
  uncompleted := by
    intro x r s h hr _ _ hI
    refine Balanced.snoc hI ?_ (ackRecorded_called runner x (completeOf Result runner x) r h.state)
    cases r with
    | ret a => exact absurd rfl hr
    | raised e => exact trivial
    | cancelled => exact trivial
  completed := fun _ _ _ _ hsite _ ha hI => Balanced.snoc_complete hsite hI ha.1.2
  poison := fun x _ h _ _ _ hI => Balanced.snoc hI (completeKept_acted x _ h.state) trivial

theorem balanced_invariant (runner : Runner) (Room : Nat → Prop) :
    (runnerSystem Result runner Room).Invariant fun h => Balanced runner h.log := by
  apply (balanced_obligations runner).invariant Room
  · exact fun _ _ => balanced_nil runner
  · exact fun _ _ hI _ => hI

/-- **No acked-but-unrecorded delivery.** In every run, the claim of every delivery that is ACKed on
the success path or on the `CapabilityNotSupported` path is completed at that moment exactly when no
attempt has lost its claim, to an attempt that has not completed it, by the time it completes. -/
theorem acks_recorded_iff (runner : Runner) (Room : Nat → Prop) (p : RunnerPool Result)
    (hp : (runnerSystem Result runner Room).Reach p) :
    (∀ e ∈ p.hist.log, AckRecorded runner e) ↔ ∀ e ∈ p.hist.log, CompleteKept e := by
  have hbalanced : Balanced runner p.hist.log := (balanced_invariant runner Room).reach hp
  exact hbalanced.symm

/-- An undisturbed delivery is recorded. -/
theorem hello_recorded :
    (∀ e ∈ ackedPool.hist.log, AckRecorded helloRunner e) ↔
      ∀ e ∈ ackedPool.hist.log, CompleteKept e :=
  acks_recorded_iff helloRunner AnyRoom ackedPool ackedPool_reach

/-- The clock of the loop stands at `now`. -/
def waitUntil (p : RunnerPool Unit) (now : Rat) : RunnerPool Unit :=
  ⟨⟨{ p.hist.state with clock := now }, p.hist.log⟩, p.tasks⟩

/-- Attempt `a` is still in its handler when the lease runs out, and attempt `b` takes the key
over. -/
def takenOverPool : RunnerPool Unit :=
  resumeHello (scheduleHello (waitUntil (resumeHello (scheduleHello newPool "a") 0) 301) "b") 1

/-- Then attempt `a` ends: answer, `complete`, ACK. -/
def unrecordedPool : RunnerPool Unit :=
  resumeHello (resumeHello (resumeHello takenOverPool 0) 0) 0

theorem takenOverPool_reach : (runnerSystem Unit helloRunner AnyRoom).Reach takenOverPool := by
  have hfirst := resumeHello_reach (newPool_reach.spawn (x := helloDelivery "a")
    ⟨rfl, nofun, trivial⟩) 0
  have hlate : (runnerSystem Unit helloRunner AnyRoom).Reach
      (waitUntil (resumeHello (scheduleHello newPool "a") 0) 301) :=
    hfirst.env (.tick (by decide))
  have hsecond : (runnerSystem Unit helloRunner AnyRoom).Reach
      (scheduleHello (waitUntil (resumeHello (scheduleHello newPool "a") 0) 301) "b") := by
    refine hlate.spawn ⟨rfl, fun task htask => ?_, trivial⟩
    rw [List.mem_singleton.mp htask]
    decide
  exact resumeHello_reach hsecond 1

theorem unrecordedPool_reach : (runnerSystem Unit helloRunner AnyRoom).Reach unrecordedPool :=
  resumeHello_reach (resumeHello_reach (resumeHello_reach takenOverPool_reach 0) 0) 0

/-- The delivery of attempt `a` is ACKed while the key is claimed by attempt `b` and completed by
nobody. -/
theorem ack_unrecorded :
    ¬ ∀ (runner : Runner) (p : RunnerPool Unit), (runnerSystem Unit runner AnyRoom).Reach p →
      ∀ e ∈ p.hist.log, AckRecorded runner e := by
  intro h
  have hunrecorded : ¬ ∀ e ∈ unrecordedPool.hist.log, AckRecorded helloRunner e := by
    decide +kernel
  exact hunrecorded (h helloRunner unrecordedPool unrecordedPool_reach)

end Chattice.PubsubRunner
