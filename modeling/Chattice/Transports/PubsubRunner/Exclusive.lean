import Chattice.Idempotency.Leases
import Chattice.Transports.PubsubRunner.Recorded

/-!
# One attempt for each message

Two attempts win one message, and neither releases it, only where a lease has run out: `_renew_loop` keeps
the lease of a long attempt, and another attempt may take the message over once it has failed to.

* `runnerView` : the runner as a loop over a store of claims;
* `Keeps`, `LeaseLapsed` : an attempt that has won and not released its message, and one whose lease has
  run out;
* `attempts_exclusive` : of two attempts that keep one message, one has had no lease.
-/

namespace Chattice.PubsubRunner

open Asyncio Asyncio.Coro
open Idempotency (ClaimResult Claims LeaseView StoreCall)

variable {Result : Type}

def Call.storeCall : Call Result → Option StoreCall
  | .claim key owner leaseSeconds => some (.claim key owner leaseSeconds)
  | .complete key owner => some (.settle key owner true)
  | .release key owner => some (.settle key owner false)
  | _ => none

/-- The claim has answered `FIRST`. -/
def Call.First : (c : Call Result) → Outcome Exc c.Res → Prop
  | .claim .., r => r = .ret ClaimResult.first
  | _, _ => False

/-! ## What an attempt calls -/

/-- The calls of the store are made with the token of the attempt. -/
def Uses (owner : String) (c : Call Result) : Prop :=
  ∀ storeCall, c.storeCall = some storeCall → storeCall.owner = owner

section Within

variable {runner : Runner} {message : Message} {owner : String} {event : Event}

theorem uses_of_none {c : Call Result} (h : c.storeCall = none) : Uses owner c := by
  intro storeCall hcall
  rw [h] at hcall
  cases hcall

theorem uses_complete {key : String} : Uses owner (.complete key owner : Call Result) := by
  intro storeCall hcall
  cases hcall
  rfl

theorem uses_release {key : String} : Uses owner (.release key owner : Call Result) := by
  intro storeCall hcall
  cases hcall
  rfl

theorem within_awaitCall {c : Call Result} (h : Uses owner c) :
    (awaitCall c : Coro (sig Result) c.Res).Within (Uses owner) :=
  within_call h

theorem within_maybeHook {name : HookName} {messageId : String} {event : Option Event} :
    (maybeHook runner name messageId event : Coro (sig Result) Unit).Within (Uses owner) := by
  unfold maybeHook
  split
  · exact within_tryElse (within_call (uses_of_none rfl)) (fun _ => within_done) fun _ => within_done
  · exact within_done

theorem within_notifyPoison {event : Option Event} {errorClass : String} :
    (notifyPoison runner event errorClass : Coro (sig Result) Unit).Within (Uses owner) := by
  unfold notifyPoison
  split
  · exact within_tryElse (within_call (uses_of_none rfl)) (fun _ => within_done) fun _ => within_done
  · exact within_done

theorem within_failDelivery {event : Option Event} {error : Exc} :
    (failDelivery runner message owner event error : Coro (sig Result) Unit).Within (Uses owner) := by
  refine within_bind ?_ fun _ => ?_
  · exact within_tryElse (within_call uses_release) (fun _ => within_done) fun _ => within_done
  · split
    · exact within_done
    · split
      · exact within_bind within_notifyPoison fun _ => within_act
      · exact within_bind within_act fun _ => within_maybeHook

theorem within_capabilityRejected {error : Exc} :
    (capabilityRejected runner message owner event error : Coro (sig Result) Unit).Within (Uses owner) := by
  have hcompleted : (awaitCall (.complete (dedupeKey runner message) owner) : Coro (sig Result) Unit).Within
      (Uses owner) := within_awaitCall uses_complete
  unfold capabilityRejected
  split
  · split
    · refine within_bind (within_awaitCall (uses_of_none rfl)) fun _ => ?_
      exact within_bind hcompleted fun _ => within_act
    · exact within_bind hcompleted fun _ => within_act
  · exact within_done

theorem within_succeed :
    (succeed runner message owner event : Coro (sig Result) Unit).Within (Uses owner) := by
  have hcompleted : (awaitCall (.complete (dedupeKey runner message) owner) : Coro (sig Result) Unit).Within
      (Uses owner) := within_awaitCall uses_complete
  exact within_bind hcompleted fun _ => within_bind within_act fun _ => within_maybeHook

theorem within_dispatch :
    (dispatch runner message owner event : Coro (sig Result) Unit).Within (Uses owner) :=
  within_bind (within_call (uses_of_none rfl)) fun _ =>
    within_tryElse (within_call (uses_of_none rfl)) (fun _ => within_capabilityRejected) fun _ =>
      within_succeed

theorem within_process : (process runner message owner : Coro (sig Result) Unit).Within (Uses owner) := by
  refine within_tryFinally (within_tryCancel ?_ within_act fun _ => within_failDelivery) ?_
  · exact within_bind within_act fun _ => within_bind within_ofExcept fun _ => within_dispatch
  · exact within_bind within_act fun _ => within_swallow (within_call (uses_of_none rfl))

theorem within_handle : (handle runner message owner : Coro (sig Result) Unit).Within (Uses owner) := by
  refine within_tryElse (within_call ?_) (fun _ => within_act) fun result => ?_
  · intro storeCall hcall
    cases hcall
    rfl
  · cases result with
    | completed => exact within_act
    | active => exact within_act
    | first => exact within_process

end Within

/-! ## The runs -/

/-- The runner over its store. -/
def runnerView (runner : Runner) (Room : Nat → Prop) : LeaseView (runnerSystem Result runner Room) where
  claims := Shared.claims
  clock := Shared.clock
  owner := Delivery.owner
  call := Call.storeCall
  First := Call.First
  act := by
    intro e s
    cases e <;> rfl
  env := by
    intro s s' h
    cases h with
    | tick h => exact .inl rfl
    | renew h ha => exact (storageAnswer_or ha).imp id fun hs => ⟨_, _, _, _, hs⟩
    | close => exact .inl rfl
  other := by
    intro c s r s' hcall ha
    cases c with
    | claim key owner lease => cases hcall
    | complete key owner => cases hcall
    | release key owner => cases hcall
    | feedUpdate event => exact congrArg Shared.claims ha
    | answer event result => exact congrArg Shared.claims ha
    | createMessage space text => exact congrArg Shared.claims ha
    | hook name id event => exact congrArg Shared.claims ha
    | renewal owner => exact congrArg Shared.claims ha
  claim := by
    intro c key owner leaseSeconds s r s' hcall ha
    cases c <;> cases hcall
    obtain ⟨now, -, hstorage, -⟩ := ha
    obtain ⟨hs, hnot⟩ | ⟨hs, hanswer⟩ := storageAnswer_ret_or hstorage
    · exact .inl ⟨hs, hnot _⟩
    · exact .inr ⟨now, hs, hanswer _⟩
  settle := by
    intro c key owner completes s r s' hcall ha
    cases c <;> cases hcall
    · exact storageAnswer_or ha.1
    · exact storageAnswer_or ha.1
  calls := fun x => within_handle
  fresh := fun p x hx => hx.2.1

/-- The claim of the attempt answers `FIRST`. -/
def winsClaim (runner : Runner) (x : Delivery) : Entry (sig Result) Delivery Shared → Bool
  | .called y (.claim key owner _) (.ret ClaimResult.first) _ =>
    decide (y = x ∧ key = dedupeKey runner x.message ∧ owner = x.owner)
  | _ => false

/-- The attempt releases its claim. -/
def releasesClaim (runner : Runner) (x : Delivery) : Entry (sig Result) Delivery Shared → Bool
  | .called y (.release key owner) _ _ =>
    decide (y = x ∧ key = dedupeKey runner x.message ∧ owner = x.owner)
  | _ => false

/-- A claim for the message of the attempt finds the attempt's lease expired. -/
def findsExpired (runner : Runner) (x : Delivery) : Entry (sig Result) Delivery Shared → Bool
  | .called _ (.claim key _ _) _ pre => key == dedupeKey runner x.message && (pre.claims key).any fun claim =>
      claim.owner == x.owner && !claim.completed && decide (claim.leaseUntil ≤ pre.clock)
  | _ => false

/-- The attempt has won its message, and has not released it. -/
def Keeps (runner : Runner) (x : Delivery) (log : RunnerLog Result) : Prop :=
  (∃ e ∈ log, winsClaim runner x e = true) ∧ ∀ e ∈ log, releasesClaim runner x e = false

/-- A claim for the same message has found the attempt's lease expired. -/
def LeaseLapsed (runner : Runner) (x : Delivery) (log : RunnerLog Result) : Prop :=
  ∃ e ∈ log, findsExpired runner x e = true

section

variable {runner : Runner} {Room : Nat → Prop} {x : Delivery} {log : RunnerLog Result}

instance : Decidable (Keeps runner x log) := inferInstanceAs (Decidable (_ ∧ _))

instance : Decidable (LeaseLapsed runner x log) :=
  inferInstanceAs (Decidable (∃ e ∈ log, findsExpired runner x e = true))

theorem Keeps.holds (h : Keeps runner x log) :
    (runnerView runner Room).Holds x (dedupeKey runner x.message) log := by
  obtain ⟨⟨e, hmem, hwins⟩, hunreleased⟩ := h
  refine ⟨?_, fun c r pre hcalled hcall => ?_⟩
  · cases e with
    | acted y e pre => cases hwins
    | called y c r pre =>
      cases c with
      | claim key owner leaseSeconds =>
        cases r with
        | ret result =>
          cases result with
          | first =>
            obtain ⟨rfl, rfl, rfl⟩ := of_decide_eq_true hwins
            exact ⟨_, _, pre, leaseSeconds, hmem, rfl, rfl⟩
          | active => cases hwins
          | completed => cases hwins
        | raised e => cases hwins
        | cancelled => cases hwins
      | _ => cases hwins
  · have hnone := hunreleased _ hcalled
    cases c <;> cases hcall
    exact of_decide_eq_false hnone ⟨rfl, rfl, rfl⟩

theorem LeaseLapsed.of_lapsed (h : (runnerView runner Room).Lapsed x (dedupeKey runner x.message) log) :
    LeaseLapsed runner x log := by
  obtain ⟨y, c, r, pre, owner, leaseSeconds, leaseUntil, hmem, hcall, hkept, hexpired⟩ := h
  cases c <;> cases hcall
  refine ⟨_, hmem, ?_⟩
  have hclaims : pre.claims (dedupeKey runner x.message) = some ⟨x.owner, leaseUntil, false⟩ := hkept
  have hclock : leaseUntil ≤ pre.clock := hexpired
  simp [findsExpired, hclaims, hclock]

end

/-- **Main result.** In every run, of two attempts that have won one message and not released it, one has
been without a lease: a claim for the message has found it expired. -/
theorem attempts_exclusive (runner : Runner) (Room : Nat → Prop) (p : RunnerPool Result)
    (hp : (runnerSystem Result runner Room).Reach p) (x y : Delivery) (hne : x ≠ y)
    (hkey : x.message.messageId = y.message.messageId) (hx : Keeps runner x p.hist.log)
    (hy : Keeps runner y p.hist.log) :
    LeaseLapsed runner x p.hist.log ∨ LeaseLapsed runner y p.hist.log := by
  have hsame : dedupeKey runner y.message = dedupeKey runner x.message := by
    rw [dedupeKey, dedupeKey, hkey]
  have hholds : (runnerView runner Room).Holds y (dedupeKey runner x.message) p.hist.log :=
    hsame ▸ hy.holds
  obtain hlapsed | hlapsed := (runnerView runner Room).lapsed_of_holds hp hne hx.holds hholds
  · exact .inl (.of_lapsed hlapsed)
  · rw [← hsame] at hlapsed
    exact .inr (.of_lapsed hlapsed)

/-- Attempt `b` holds a live lease, so attempt `a` has none. -/
theorem overtaken_lapsed : LeaseLapsed helloRunner (helloDelivery "a") takenOverPool.hist.log := by
  have hlive : ¬ LeaseLapsed helloRunner (helloDelivery "b") takenOverPool.hist.log := by decide +kernel
  exact (attempts_exclusive helloRunner AnyRoom takenOverPool takenOverPool_reach (helloDelivery "a")
    (helloDelivery "b") (by decide) rfl (by decide +kernel) (by decide +kernel)).resolve_right hlive

end Chattice.PubsubRunner
