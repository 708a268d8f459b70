import Chattice.Asyncio.Pool
import Chattice.Transports.PubsubRunner.Handle

/-!
# The delivery attempts of one runner

`_schedule` creates a task that runs `_handle` for every delivery Pub/Sub hands over while the loop
is there; `new_owner` makes the owner tokens distinct. The attempts share the claims of one
`MemoryIdempotencyStorage`, its clock, and the renewal tasks they start.

* `Answer` : what an awaited call may end with, and what it does to the shared state. A storage
  method takes effect at once or, when it raises or is cancelled, perhaps not at all; every other
  call may end in any way and leaves the claims alone;
* `Env` : the clock goes on, a sleeping `_renew_loop` wakes up and renews, `close` clears the loop;
* `runnerSystem runner Room` : the runs of the runner, where `Room` bounds the attempts that
  Pub/Sub keeps outstanding at once.
-/

namespace Chattice.PubsubRunner

open Asyncio Asyncio.Coro
open Idempotency (ClaimResult Claims)

/-- One delivery attempt: the message and `owner = new_owner()`. -/
structure Delivery where
  message : Message
  owner : String
  deriving DecidableEq, Repr

/-- What the attempts of one runner share. -/
structure Shared where
  claims : Claims
  clock : Rat
  /-- The key and the owner of every `_renew_loop` that has not ended. -/
  renewals : List (String × String)
  /-- `self._loop is not None` -/
  loopOpen : Bool

variable {Result : Type}

def Effect.run : Effect → Shared → Shared
  | .ack _, s => s
  | .nack, s => s
  | .startRenewal key owner, s => { s with renewals := (key, owner) :: s.renewals }
  | .cancelRenewal owner, s => { s with renewals := s.renewals.filter (·.2 ≠ owner) }

/-- A storage method that returns has answered `a` and left `after`; one that raises or is cancelled
has taken effect or not. -/
def StorageAnswer {α : Type} (before after : Claims) (a : α) (r : Outcome Exc α) (s : Claims) :
    Prop :=
  match r with
  | .ret b => b = a ∧ s = after
  | .raised _ | .cancelled => s = before ∨ s = after

/-- What an awaited call ends with, and the state it leaves. -/
def Answer : (c : Call Result) → Shared → Outcome Exc c.Res → Shared → Prop
  | .claim key owner lease, s, r, s' =>
    ∃ now, s.clock ≤ now ∧
      StorageAnswer s.claims (Idempotency.step s.claims (key, .claim owner lease s.clock now))
        (Idempotency.claim owner lease s.clock now (s.claims key)).2 r s'.claims ∧
      s' = { s with claims := s'.claims, clock := now }
  | .complete key owner, s, r, s' =>
    StorageAnswer s.claims (Idempotency.step s.claims (key, .complete owner)) () r s'.claims ∧
      s' = { s with claims := s'.claims }
  | .release key owner, s, r, s' =>
    StorageAnswer s.claims (Idempotency.step s.claims (key, .release owner)) () r s'.claims ∧
      s' = { s with claims := s'.claims }
  | .feedUpdate _, s, _, s' => s' = s
  | .answer .., s, _, s' => s' = s
  | .createMessage .., s, _, s' => s' = s
  | .hook .., s, _, s' => s' = s
  | .renewal _, s, _, s' => s' = s

/-- What happens between two steps of the attempts. -/
inductive Env : Shared → Shared → Prop where
  | tick {s : Shared} {now : Rat} (h : s.clock ≤ now) : Env s { s with clock := now }
  /-- `_renew_loop` wakes up; it goes back to sleep only when the renewal succeeds. -/
  | renew {s : Shared} {key owner : String} {r : Outcome Exc Bool} {after : Claims}
      (h : (key, owner) ∈ s.renewals)
      (ha : StorageAnswer s.claims
        (Idempotency.step s.claims (key, .renew owner defaultLeaseSeconds s.clock))
        (Idempotency.renew owner defaultLeaseSeconds s.clock (s.claims key)).2 r after) :
      Env s { s with
        claims := after
        renewals := if r = .ret true then s.renewals else s.renewals.erase (key, owner) }
  | close {s : Shared} : Env s { s with loopOpen := false }

/-- The state the attempts of a new runner find. -/
def Shared.Fresh (s : Shared) : Prop :=
  s.claims = Idempotency.empty ∧ s.renewals = [] ∧ s.loopOpen = true

abbrev RunnerPool (Result : Type) := Pool (sig Result) Delivery Shared

abbrev RunnerHistory (Result : Type) := History (sig Result) Delivery Shared

abbrev runnerWorld (Result : Type) : World (sig Result) Shared where
  act := Effect.run
  Answer := Answer

/-- `_schedule`: an attempt starts while the loop is there and Pub/Sub has room for one more. -/
def Scheduled (Room : Nat → Prop) (p : RunnerPool Result) (x : Delivery) : Prop :=
  p.hist.state.loopOpen = true ∧ (∀ task ∈ p.tasks, task.1.owner ≠ x.owner) ∧ Room p.unfinished

/-- The runs of the runner. -/
def runnerSystem (Result : Type) (runner : Runner) (Room : Nat → Prop) :
    System (sig Result) Delivery Shared where
  world := runnerWorld Result
  body := fun x => handle runner x.message x.owner
  Init := Shared.Fresh
  Env := Env
  Admits := Scheduled Room

abbrev AnyRoom : Nat → Prop := fun _ => True

/-- The reply of an undisturbed run: storage methods take effect, every other call returns. -/
def undisturbed : (c : Call Unit) → Shared → Outcome Exc c.Res × Shared
  | .claim key owner lease, s =>
    (.ret (Idempotency.claim owner lease s.clock s.clock (s.claims key)).2,
      { s with
        claims := Idempotency.step s.claims (key, .claim owner lease s.clock s.clock)
        clock := s.clock })
  | .complete key owner, s =>
    (.ret (), { s with claims := Idempotency.step s.claims (key, .complete owner) })
  | .release key owner, s =>
    (.ret (), { s with claims := Idempotency.step s.claims (key, .release owner) })
  | .feedUpdate _, s => (.ret (), s)
  | .answer .., s => (.ret none, s)
  | .createMessage .., s => (.ret (), s)
  | .hook .., s => (.ret (), s)
  | .renewal _, s => (.cancelled, s)

theorem undisturbed_answer (c : Call Unit) (s : Shared) :
    Answer c s (undisturbed c s).1 (undisturbed c s).2 := by
  cases c with
  | claim key owner lease => exact ⟨s.clock, le_refl _, ⟨rfl, rfl⟩, rfl⟩
  | complete key owner => exact ⟨⟨rfl, rfl⟩, rfl⟩
  | release key owner => exact ⟨⟨rfl, rfl⟩, rfl⟩
  | feedUpdate event => rfl
  | answer event result => rfl
  | createMessage space text => rfl
  | hook name id event => rfl
  | renewal owner => rfl

end Chattice.PubsubRunner
