import Chattice.Transports.PubsubRunner.Schedule
import Chattice.Transports.PubsubRunner.Settle

/-!
# Attempts that process at once

`PubSubPullRunner.__init__` creates a semaphore of `max_concurrency` slots; no method acquires it.
What bounds the attempts that process at once is only how many deliveries Pub/Sub keeps outstanding.

* `processing` : the attempts that are between their `FIRST` claim and the end of the answer;
* `exists_processing` : as many attempts as Pub/Sub has room for can process at once;
* `processing_le_iff` : the runs with at most `m` outstanding attempts keep the promise exactly when
  `m` is at most `max_concurrency`.
-/

namespace Chattice.PubsubRunner

open Asyncio Asyncio.Coro
open Idempotency (ClaimResult Claims)

variable {Result : Type}

/-- The dispatch-and-answer work: `feed_update` and `_answer`. -/
def Call.isProcessing : Call Result → Bool
  | .feedUpdate _ => true
  | .answer .. => true
  | _ => false

/-- How many deliveries are in their dispatch-and-answer work. -/
def processing (p : RunnerPool Result) : Nat := p.awaiting Call.isProcessing

/-! ## The upper bound -/

theorem unfinished_le {runner : Runner} {m : Nat} {p : RunnerPool Result}
    (hp : (runnerSystem Result runner (· < m)).Reach p) : p.unfinished ≤ m := by
  apply hp.unfinished_le
  intro p x hx
  exact hx.2.2

theorem processing_le {runner : Runner} {m : Nat} {p : RunnerPool Result}
    (hp : (runnerSystem Result runner (· < m)).Reach p) : processing p ≤ m := by
  have hle := p.awaiting_le_unfinished Call.isProcessing
  have hm := unfinished_le hp
  unfold processing
  omega

/-! ## A run that fills every place -/

/-- Delivery number `k`: its message id and its owner token have `k` characters. -/
def numbered (data : MessageData) (k : Nat) : Delivery where
  message := ⟨String.ofList (List.replicate k 'x'), data, none⟩
  owner := String.ofList (List.replicate k 'x')

theorem numbered_owner_length (data : MessageData) (k : Nat) :
    (numbered data k).owner.length = k := by
  rw [numbered, String.length_ofList, List.length_replicate]

theorem numbered_key_inj {runner : Runner} {data : MessageData} {j k : Nat}
    (h : dedupeKey runner (numbered data j).message = dedupeKey runner (numbered data k).message) :
    j = k := by
  have hlen := congrArg String.length h
  unfold dedupeKey numbered at hlen
  simp only [String.length_append, String.length_ofList, List.length_replicate] at hlen
  omega

/-- The block of a `FIRST` claim starts the renewal task, parses and suspends in `feed_update`. -/
theorem process_advance {runner : Runner} {x : Delivery} {event : Event}
    (hparse : runner.parse x.message.data = .ok event) (h : RunnerHistory Result) :
    ∃ next, (process runner x.message x.owner).advance (runnerWorld Result) x h =
      (await (S := sig Result) (Call.feedUpdate event) next,
        h.act (runnerWorld Result) x (.startRenewal (dedupeKey runner x.message) x.owner)) := by
  unfold process
  rw [hparse]
  exact ⟨_, rfl⟩

/-- `k` attempts process at once, and the store knows nothing of the later ones. -/
structure Filled (runner : Runner) (data : MessageData) (k : Nat) (p : RunnerPool Result) :
    Prop where
  unfinished_eq : p.unfinished = k
  processing_eq : processing p = k
  loopOpen : p.hist.state.loopOpen = true
  owners : ∀ task ∈ p.tasks, task.1.owner.length < k
  claims : ∀ j, k ≤ j → p.hist.state.claims (dedupeKey runner (numbered data j).message) = none

theorem Filled.next {runner : Runner} {data : MessageData} {event : Event} {m k : Nat}
    {p : RunnerPool Result} (hparse : runner.parse data = .ok event) (hk : k < m)
    (hp : (runnerSystem Result runner (· < m)).Reach p) (hf : Filled runner data k p) :
    ∃ p', (runnerSystem Result runner (· < m)).Reach p' ∧ Filled runner data (k + 1) p' := by
  let x := numbered data k
  let key := dedupeKey runner x.message
  have hscheduled : Scheduled (· < m) p x := by
    refine ⟨hf.loopOpen, fun task htask howner => ?_, by rw [hf.unfinished_eq]; exact hk⟩
    have hlt := hf.owners task htask
    rw [howner, numbered_owner_length] at hlt
    omega
  -- the store has no claim of the key, so the attempt wins it
  have habsent : p.hist.state.claims key = none := hf.claims k (Nat.le_refl k)
  let op : String × Idempotency.Call :=
    (key, .claim x.owner defaultLeaseSeconds p.hist.state.clock p.hist.state.clock)
  let s : Shared := { p.hist.state with claims := Idempotency.step p.hist.state.claims op }
  have hfirst : (runnerWorld Result).Answer (.claim key x.owner defaultLeaseSeconds) p.hist.state
      (.ret .first) s := by
    refine ⟨p.hist.state.clock, le_refl _, ⟨?_, rfl⟩, rfl⟩
    rw [habsent]
    rfl
  obtain ⟨next, hadvance⟩ := process_advance (x := x) hparse
    (p.hist.call x (Call.claim key x.owner defaultLeaseSeconds) (.ret .first) s)
  refine ⟨_, hp.start hscheduled rfl hfirst hadvance, ?_⟩
  constructor
  · rw [Pool.unfinished, List.countP_append]
    exact congrArg (· + 1) hf.unfinished_eq
  · unfold processing Pool.awaiting
    rw [List.countP_append]
    exact congrArg (· + 1) hf.processing_eq
  · exact hf.loopOpen
  · intro task htask
    rcases List.mem_append.mp htask with hold | hnew
    · have hlt := hf.owners task hold
      omega
    · rw [List.mem_singleton.mp hnew, numbered_owner_length]
      omega
  · intro j hj
    have hne : op.1 ≠ dedupeKey runner (numbered data j).message := by
      intro heq
      have hjk := numbered_key_inj heq
      omega
    exact (Idempotency.step_of_ne _ hne).trans (hf.claims j (by omega))

theorem exists_processing {runner : Runner} {data : MessageData} {event : Event} {m k : Nat}
    (hparse : runner.parse data = .ok event) (hk : k ≤ m) :
    ∃ p, (runnerSystem Result runner (· < m)).Reach p ∧ Filled runner data k p := by
  induction k with
  | zero =>
    have hfresh : (⟨Idempotency.empty, 0, [], true⟩ : Shared).Fresh := ⟨rfl, rfl, rfl⟩
    exact ⟨_, .init hfresh, rfl, rfl, rfl, nofun, fun _ _ => rfl⟩
  | succ k ih =>
    obtain ⟨p, hp, hf⟩ := ih (by omega)
    exact hf.next hparse (by omega) hp

/-! ## The promise of the runner -/

/-- **Bounded concurrency.** Where Pub/Sub keeps at most `m` attempts outstanding at once, at most
`max_concurrency` deliveries process at once in every reachable state exactly when `m` is at most
`max_concurrency`: the runner itself holds nothing back. -/
theorem processing_le_iff {runner : Runner} {data : MessageData} {event : Event} (m : Nat)
    (hparse : runner.parse data = .ok event) :
    (∀ p : RunnerPool Result, (runnerSystem Result runner (· < m)).Reach p →
      processing p ≤ runner.maxConcurrency) ↔ m ≤ runner.maxConcurrency := by
  constructor
  · intro hbound
    obtain ⟨p, hp, hf⟩ := exists_processing hparse (Nat.le_refl m)
    have hle := hbound p hp
    rw [hf.processing_eq] at hle
    exact hle
  · intro hm p hp
    exact (processing_le hp).trans hm

/-- A subscription that keeps ten messages outstanding suits the default `max_concurrency`. -/
theorem hello_processing_le :
    10 ≤ helloRunner.maxConcurrency ∧ ∀ p : RunnerPool Unit,
      (runnerSystem Unit helloRunner (· < 10)).Reach p → processing p ≤ 10 := by
  have hparse : helloRunner.parse (.text "hello") = .ok helloEvent := rfl
  exact ⟨Nat.le_refl 10, (processing_le_iff 10 hparse).mpr (Nat.le_refl 10)⟩

/-- With the default of a hundred outstanding messages eleven deliveries process at once, one more
than the default `max_concurrency`. -/
theorem processing_exceeds :
    ¬ ∀ (runner : Runner) (m : Nat) (p : RunnerPool Unit),
      (runnerSystem Unit runner (· < m)).Reach p → processing p ≤ runner.maxConcurrency := by
  intro h
  have hparse : helloRunner.parse (.text "hello") = .ok helloEvent := rfl
  obtain ⟨p, hp, hf⟩ := exists_processing (k := 11) (m := 100) hparse (by omega)
  have hle := h helloRunner 100 p hp
  rw [hf.processing_eq] at hle
  exact absurd hle (by decide)

end Chattice.PubsubRunner
