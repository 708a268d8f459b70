import Chattice.Transports.PubsubRunner.IdleKeys

/-!
# First come, first served

The calls of a key hold it in the order in which they were made. A call that is overtaken was cancelled
while it waited, and never holds the key.

* `Passed` : the call has ended, or was cancelled and has not run since;
* `KeyFair` : the queue of a key is in the order of the calls, and every call made before the one that
  holds the key is over;
* `first_come_first_served` : what holds of any two calls of a key in a run.
-/

namespace Chattice.PubsubRunner.KeyedLocks

open Asyncio (Lock)
open Function (update)

variable {Key : Type}

/-! ## The invariant -/

/-- The call does not get the key any more. -/
def State.Passed (s : State Key) (key : Key) (i : Nat) : Prop :=
  s.calls[i]? = some (key, .ended) ∨
    ∃ object, s.calls[i]? = some (key, .waiting object) ∧ (s.objects object).isCancelled i = true

structure KeyFair (s : State Key) (key : Key) : Prop where
  ordered : ∀ object, s.locks key = some object → (s.objects object).tasks.Pairwise (· < ·)
  passed : ∀ (i j : Nat) (phase : Phase), i < j → s.calls[j]? = some (key, .holding) →
    s.calls[i]? = some (key, phase) → s.Passed key i

section Own

variable {s s' : State Key} {key : Key}

theorem State.Passed.not_holding {i : Nat} (h : s.Passed key i) : s.calls[i]? ≠ some (key, .holding) := by
  obtain hended | ⟨object, hwaiting, -⟩ := h
  · rw [hended]
    nofun
  · rw [hwaiting]
    nofun

/-- A call that is not the one that goes on stays over while its lock keeps its cancellation. -/
theorem State.Passed.of_calls {i : Nat} (h : s.Passed key i)
    (hcalls : ∀ phase, s.calls[i]? = some (key, phase) → s'.calls[i]? = some (key, phase))
    (hobject : ∀ object, s.calls[i]? = some (key, .waiting object) →
      (s.objects object).isCancelled i = true → (s'.objects object).isCancelled i = true) :
    s'.Passed key i := by
  obtain hended | ⟨object, hwaiting, hcancelled⟩ := h
  · exact .inl (hcalls _ hended)
  · exact .inr ⟨object, hcalls _ hwaiting, hobject object hwaiting hcancelled⟩

theorem isCancelled_update {objects : Nat → Lock Nat} {object object' i : Nat} {lock : Lock Nat}
    (hlock : (objects object).isCancelled i = true → lock.isCancelled i = true)
    (h : (objects object').isCancelled i = true) :
    (update objects object lock object').isCancelled i = true := by
  by_cases heq : object' = object
  · subst heq
    rw [Function.update_self]
    exact hlock h
  · rwa [Function.update_of_ne heq]

variable [DecidableEq Key]

theorem Unaffected.passed (h : Unaffected s s' key) (hkey : KeyOk s key) {i : Nat} (hi : s.Passed key i) :
    s'.Passed key i := by
  obtain hended | ⟨object, hwaiting, hcancelled⟩ := hi
  · exact .inl ((h.calls i _).mpr hended)
  · refine .inr ⟨object, (h.calls i _).mpr hwaiting, ?_⟩
    rw [h.objects object (hkey.waiting i object hwaiting)]
    exact hcancelled

theorem Unaffected.keyFair (h : Unaffected s s' key) (hkey : KeyOk s key) (hs : KeyFair s key) :
    KeyFair s' key where
  ordered := by
    intro object hobject
    rw [h.locks] at hobject
    rw [h.objects object hobject]
    exact hs.ordered object hobject
  passed := by
    intro i j phase hij hj hi
    exact h.passed hkey (hs.passed i j phase hij ((h.calls j _).mp hj) ((h.calls i _).mp hi))

theorem Ok.passed_withLock (hok : Ok s) {i : Nat} (h : s.Passed key i) : (s.withLock key).Passed key i := by
  refine h.of_calls (fun phase hi => by rwa [calls_withLock]) fun object hwaiting hcancelled => ?_
  have hobject := (hok.keys key).waiting i object hwaiting
  rw [State.withLock, hobject]
  exact hcancelled

theorem State.Passed.acquired {i : Nat} (h : (s.withLock key).Passed key i) : (s.acquire key).Passed key i :=
  h.of_calls (fun _ hphase => List.getElem?_snoc_eq_some.mpr (.inl hphase)) fun _ _ =>
    isCancelled_update fun hcancelled => Lock.isCancelled_acquire hcancelled _

theorem passed_resume {i object : Nat} (hi : s.calls[i]? = some (key, .waiting object))
    (hs' : s.resume i key object = some s') {j : Nat} (h : s.Passed key j) : s'.Passed key j := by
  obtain ⟨⟨lock, taken⟩, hlock, rfl⟩ := Option.map_eq_some_iff.mp hs'
  by_cases hij : j = i
  · subst hij
    obtain hended | ⟨object', hwaiting, hcancelled⟩ := h
    · rw [hi] at hended
      cases hended
    · obtain rfl : object = object' := by
        rw [hi] at hwaiting
        cases hwaiting
        rfl
      rw [Lock.resume_of_isCancelled hcancelled] at hlock
      cases hlock
      exact .inl ((getElem?_set_call hi).mpr (.inl ⟨rfl, rfl⟩))
  · have hkeeps := Lock.isCancelled_resume hlock hij
    cases taken with
    | true =>
      exact h.of_calls (fun phase hj => (getElem?_set_call hi).mpr (.inr ⟨hij, hj⟩)) fun object' _ =>
        isCancelled_update fun hcancelled => hkeeps.trans hcancelled
    | false =>
      exact h.of_calls (fun phase hj => (getElem?_set_call hi).mpr (.inr ⟨hij, hj⟩)) fun object' _ =>
        isCancelled_update fun hcancelled => hkeeps.trans hcancelled

theorem passed_release {i : Nat} (hi : s.calls[i]? = some (key, .holding)) (hs' : s.release key = .ok s')
    {j : Nat} (h : s.Passed key j) : State.Passed { s' with calls := s'.calls.set i (key, .ended) } key j := by
  obtain ⟨object, lock, -, hlock, rfl⟩ := release_cases hs'
  have hij : j ≠ i := by
    rintro rfl
    exact h.not_holding hi
  exact h.of_calls (fun phase hj => (getElem?_set_call hi).mpr (.inr ⟨hij, hj⟩)) fun object' _ =>
    isCancelled_update fun hcancelled => (Lock.isCancelled_release hlock j).trans hcancelled

theorem Step.passed (hok : Ok s) {key' : Key} (h : Step key' s s') {i : Nat} (hi : s.Passed key i) :
    s'.Passed key i := by
  by_cases hkey : key = key'
  · subst hkey
    cases h with
    | acquire =>
      exact (hok.passed_withLock hi).acquired
    | resume hj h => exact passed_resume hj h hi
    | cancel hj =>
      exact hi.of_calls (fun _ hphase => hphase) fun object _ =>
        isCancelled_update fun hcancelled => Lock.isCancelled_cancel hcancelled _
    | release hj h => exact passed_release hj h hi
  · exact (h.unaffected hok hkey).passed (hok.keys key) hi

/-! ## What a step leaves of its own key -/

/-- A step makes at most one call, with the next number, and calls keep their keys. -/
theorem Step.calls {key' : Key} (h : Step key' s s') {i : Nat} {phase : Phase}
    (hi : s'.calls[i]? = some (key, phase)) :
    (∃ phase', s.calls[i]? = some (key, phase')) ∨ i = s.calls.length := by
  have hset {j : Nat} {phase₁ phase₂ : Phase} (hj : s.calls[j]? = some (key', phase₁))
      (hi : (s.calls.set j (key', phase₂))[i]? = some (key, phase)) :
      ∃ phase', s.calls[i]? = some (key, phase') := by
    obtain ⟨rfl, heq⟩ | ⟨-, hold⟩ := (List.getElem?_set_eq_some hj).mp hi
    · obtain ⟨rfl, -⟩ := Prod.mk.inj heq
      exact ⟨_, hj⟩
    · exact ⟨_, hold⟩
  cases h with
  | acquire =>
    change ((s.withLock key').calls ++ [_])[i]? = _ at hi
    rw [calls_withLock] at hi
    obtain hold | ⟨rfl, -⟩ := List.getElem?_snoc_eq_some.mp hi
    · exact .inl ⟨phase, hold⟩
    · exact .inr rfl
  | resume hj h =>
    obtain ⟨⟨lock, taken⟩, -, rfl⟩ := Option.map_eq_some_iff.mp h
    cases taken with
    | true => exact .inl (hset hj hi)
    | false => exact .inl (hset hj hi)
  | cancel hj => exact .inl ⟨phase, hi⟩
  | release hj h =>
    obtain ⟨object, lock, -, -, rfl⟩ := release_cases h
    exact .inl (hset hj hi)

theorem Step.length_le {key' : Key} (h : Step key' s s') : s.calls.length ≤ s'.calls.length := by
  cases h with
  | acquire =>
    show s.calls.length ≤ ((s.withLock key').calls ++ [_]).length
    rw [calls_withLock, List.length_append]
    exact Nat.le_add_right _ _
  | resume hj h =>
    obtain ⟨⟨lock, taken⟩, -, rfl⟩ := Option.map_eq_some_iff.mp h
    cases taken with
    | true => exact (List.length_set ..).ge
    | false => exact (List.length_set ..).ge
  | cancel hj => exact Nat.le_refl _
  | release hj h =>
    obtain ⟨object, lock, -, -, rfl⟩ := release_cases h
    exact (List.length_set ..).ge

/-- What is to be shown of a step on a key: a call that comes to hold it finds the earlier ones passed. -/
theorem KeyFair.of_step (hs : KeyFair s key) (hok : Ok s) (h : Step key s s')
    (hordered : ∀ object, s'.locks key = some object → (s'.objects object).tasks.Pairwise (· < ·))
    (hnew : ∀ (i j : Nat) (phase : Phase), i < j → s'.calls[j]? = some (key, .holding) →
      s.calls[j]? ≠ some (key, .holding) → s.calls[i]? = some (key, phase) → s'.Passed key i) :
    KeyFair s' key where
  ordered := hordered
  passed := by
    intro i j phase hij hj hi
    have hlt : j < s.calls.length + 1 := by
      obtain ⟨phase', hold⟩ | rfl := h.calls hj
      · exact Nat.lt_succ_of_lt (List.getElem?_eq_some_iff.mp hold).1
      · exact Nat.lt_succ_self _
    obtain ⟨phase', hi'⟩ | rfl := h.calls hi
    · by_cases hold : s.calls[j]? = some (key, .holding)
      · exact h.passed hok (hs.passed i j phase' hij hold hi')
      · exact hnew i j phase' hij hj hold hi'
    · omega

theorem KeyOk.task_lt (h : KeyOk s key) {object i : Nat} (hobject : s.locks key = some object)
    (hi : i ∈ (s.objects object).tasks) : i < s.calls.length :=
  (List.getElem?_eq_some_iff.mp (((h.object object hobject).tasks i).mp hi)).1

/-- Before a call that finds the lock free, no call of the key holds it. -/
theorem KeyOk.passed_of_free (h : KeyOk s key) {object i : Nat} {phase : Phase}
    (hobject : s.locks key = some object) (hfree : (s.objects object).locked = false)
    (hi : s.calls[i]? = some (key, phase))
    (hwaits : i ∈ (s.objects object).tasks → (s.objects object).isCancelled i = true) :
    s.Passed key i := by
  cases phase with
  | ended => exact .inl hi
  | holding => exact absurd hi (h.not_holding hobject hfree i)
  | waiting object' =>
    obtain rfl := h.waiting_eq hobject hi
    exact .inr ⟨object', hi, hwaits (((h.object object' hobject).tasks i).mpr hi)⟩

theorem pairwise_update {objects : Nat → Lock Nat} {object object' : Nat} {lock : Lock Nat}
    (hlock : lock.tasks.Pairwise (· < ·)) (h : (objects object').tasks.Pairwise (· < ·)) :
    (update objects object lock object').tasks.Pairwise (· < ·) := by
  by_cases heq : object' = object
  · subst heq
    rwa [Function.update_self]
  · rwa [Function.update_of_ne heq]

theorem KeyFair.withLock (hs : KeyFair s key) (object : Nat)
    (hobject : (s.withLock key).locks key = some object) :
    ((s.withLock key).objects object).tasks.Pairwise (· < ·) := by
  unfold State.withLock at hobject ⊢
  split at hobject
  · next hlock =>
    exact hs.ordered object hobject
  · next hnone =>
    dsimp only at hobject ⊢
    rw [Function.update_self] at hobject
    cases hobject
    rw [Function.update_self]
    exact .nil

/-- A call that takes the lock at once overtakes cancelled calls only. -/
theorem KeyFair.acquire (hok : Ok s) (hs : KeyFair s key) : KeyFair (s.acquire key) key := by
  have hkey := (hok.withLock key).keys key
  have hobject := locks_withLock s key
  have hordered := hs.withLock _ hobject
  have hcases := Lock.acquire_cases ((s.withLock key).objects (s.lockFor key)) (s.withLock key).calls.length
  refine hs.of_step hok .acquire ?_ ?_
  · intro object hobject'
    obtain rfl : s.lockFor key = object := Option.some_inj.mp (hobject.symm.trans hobject')
    change (Lock.tasks (update (s.withLock key).objects (s.lockFor key) _ (s.lockFor key))).Pairwise (· < ·)
    rw [Function.update_self]
    rcases hcases with ⟨-, -, -, htasks⟩ | ⟨-, -, htasks⟩
    · rwa [htasks]
    · rw [htasks, List.pairwise_append]
      refine ⟨hordered, List.pairwise_singleton _ _, fun i hi j hj => ?_⟩
      rw [List.mem_singleton.mp hj]
      exact hkey.task_lt hobject hi
  · intro i j phase hij hj hnot hi
    rw [← calls_withLock s key] at hi hnot
    obtain hold | ⟨rfl, hnew⟩ := List.getElem?_snoc_eq_some.mp hj
    · exact absurd hold hnot
    · rcases hcases with ⟨htaken, hfree, -, -⟩ | ⟨hqueued, -, -⟩
      · exact (hkey.passed_of_free hobject hfree hi (Lock.isCancelled_of_acquire htaken)).acquired
      · rw [hqueued] at hnew
        cases hnew

/-- A call that takes the lock from the queue is the first in it. -/
theorem KeyFair.resume (hok : Ok s) (hs : KeyFair s key) {i object : Nat}
    (hi : s.calls[i]? = some (key, .waiting object)) (h : s.resume i key object = some s') :
    KeyFair s' key := by
  have hkey := hok.keys key
  have hobject := hkey.waiting i object hi
  have hordered := hs.ordered object hobject
  have hstep : Step key s s' := .resume hi h
  obtain ⟨⟨lock, taken⟩, hlock, rfl⟩ := Option.map_eq_some_iff.mp h
  have hsublist : lock.tasks.Pairwise (· < ·) := hordered.sublist (Lock.tasks_resume hlock)
  cases taken with
  | true =>
    obtain ⟨rest, hhead⟩ := (hkey.object object hobject).ok.head_of_taken hlock
    have hfree := ((hkey.object object hobject).ok.resume hlock).free rfl
    refine hs.of_step hok hstep (fun object' hobject' => pairwise_update hsublist (hs.ordered object' hobject')) ?_
    intro i' j phase hij hj hnot hi'
    obtain ⟨rfl, -⟩ | ⟨-, hold⟩ := (getElem?_set_call hi).mp hj
    · refine hstep.passed hok (hkey.passed_of_free hobject hfree hi' fun htask => ?_)
      -- a task before the first one of an ordered queue
      rw [hhead] at htask hordered
      obtain rfl | hrest := List.mem_cons.mp htask
      · exact absurd hij (Nat.lt_irrefl _)
      · exact absurd hij (Nat.lt_asymm ((List.pairwise_cons.mp hordered).1 i' hrest))
    · exact absurd hold hnot
  | false =>
    refine hs.of_step hok hstep (fun object' hobject' => pairwise_update hsublist (hs.ordered object' hobject')) ?_
    intro i' j phase hij hj hnot hi'
    obtain ⟨-, hnew⟩ | ⟨-, hold⟩ := (getElem?_set_call hi).mp hj
    · cases hnew
    · exact absurd hold hnot

theorem KeyFair.release (hok : Ok s) (hs : KeyFair s key) {i : Nat}
    (hi : s.calls[i]? = some (key, .holding)) (h : s.release key = .ok s') :
    KeyFair { s' with calls := s'.calls.set i (key, .ended) } key := by
  have hstep := Step.release hi h
  obtain ⟨object, lock, hobject, hlock, rfl⟩ := release_cases h
  have hlocked := ((hok.keys key).object object hobject).locked.mpr ⟨i, hi⟩
  obtain ⟨lock', hlock', htasks, -⟩ := Lock.release_of_locked hlocked
  obtain rfl : lock = lock' := Except.ok.inj (hlock.symm.trans hlock')
  refine hs.of_step hok hstep ?_ ?_
  · intro object' hobject'
    dsimp only at hobject'
    split at hobject'
    · rw [Function.update_self] at hobject'
      cases hobject'
    · refine pairwise_update ?_ (hs.ordered object' hobject')
      rw [htasks]
      exact hs.ordered object hobject
  · intro i' j phase hij hj hnot hi'
    obtain ⟨-, hnew⟩ | ⟨-, hold⟩ := (getElem?_set_call hi).mp hj
    · cases hnew
    · exact absurd hold hnot

theorem KeyFair.step (hok : Ok s) (hs : KeyFair s key) {key' : Key} (h : Step key' s s') :
    KeyFair s' key := by
  by_cases hkey : key = key'
  · subst hkey
    cases h with
    | acquire => exact hs.acquire hok
    | resume hi h => exact hs.resume hok hi h
    | cancel hi =>
      refine hs.of_step hok (.cancel hi) (fun object hobject => ?_) fun i j phase _ hj hnot _ => absurd hj hnot
      refine pairwise_update ?_ (hs.ordered object hobject)
      rw [Lock.tasks_cancel]
      exact hs.ordered _ ((hok.keys key).waiting _ _ hi)
    | release hi h => exact hs.release hok hi h
  · exact (h.unaffected hok hkey).keyFair (hok.keys key) hs

end Own

/-! ## Runs -/

section Runs

variable [DecidableEq Key] {s s' : State Key} {key : Key}

theorem Reach.keyFair (h : Reach s) (key : Key) : KeyFair s key := by
  induction h with
  | init => exact ⟨fun _ => nofun, fun _ _ _ _ => nofun⟩
  | step hs h ih => exact ih.step hs.ok h

theorem State.Passed.run {ops : List (Op Key)} (hs : Reach s) (h : s.run ops = some s') {i : Nat}
    (hi : s.Passed key i) : s'.Passed key i := by
  induction ops generalizing s with
  | nil =>
    cases h
    exact hi
  | cons op ops ih =>
    obtain ⟨s₁, hop, hops⟩ := Option.bind_eq_some_iff.mp h
    obtain ⟨key', hstep⟩ := perform_iff.mp ⟨op, hop⟩
    exact ih (hs.step hstep) hops (hstep.passed hs.ok hi)

/-- The calls of a key at the end of a run were made before it or during it. -/
theorem calls_of_run {ops : List (Op Key)} (h : s.run ops = some s') {i : Nat} {phase : Phase}
    (hi : s'.calls[i]? = some (key, phase)) :
    (∃ phase', s.calls[i]? = some (key, phase')) ∨ s.calls.length ≤ i := by
  induction ops generalizing s with
  | nil =>
    cases h
    exact .inl ⟨phase, hi⟩
  | cons op ops ih =>
    obtain ⟨s₁, hop, hops⟩ := Option.bind_eq_some_iff.mp h
    obtain ⟨key', hstep⟩ := perform_iff.mp ⟨op, hop⟩
    obtain ⟨phase', hi'⟩ | hle := ih hops
    · obtain hold | rfl := hstep.calls hi'
      · exact .inl hold
      · exact .inr (Nat.le_refl _)
    · exact .inr (hstep.length_le.trans hle)

/-- **Main result.** In every run, when a call holds its key, every call of that key made before it has
ended or was cancelled while it waits, and from then on only that call and later ones hold the key. -/
theorem first_come_first_served (before ops : List (Op Key)) (s s' : State Key)
    (hs : State.empty.run before = some s) (hs' : s.run ops = some s') (key : Key) (i j : Nat)
    (hj : s.calls[j]? = some (key, .holding)) :
    (∀ phase : Phase, i < j → s.calls[i]? = some (key, phase) → s.Passed key i) ∧
      (s'.calls[i]? = some (key, .holding) → j ≤ i) := by
  have hreach : Reach s := reach_iff.mpr ⟨before, hs⟩
  have hpassed (phase : Phase) (hij : i < j) : s.calls[i]? = some (key, phase) → s.Passed key i :=
    (hreach.keyFair key).passed i j phase hij hj
  refine ⟨hpassed, fun hi => ?_⟩
  by_contra hlt
  replace hlt : i < j := Nat.lt_of_not_le hlt
  obtain ⟨phase, hold⟩ | hle := calls_of_run hs' hi
  · exact ((hpassed phase hlt hold).run hreach hs').not_holding hi
  · exact absurd (List.getElem?_eq_some_iff.mp hj).1 (Nat.not_lt.mpr (hle.trans (Nat.le_of_lt hlt)))

/-- Three updates of a message: the second is cancelled while it waits, and the third comes next. -/
theorem cancelled_update_passed : ∃ s s' : State String,
    State.empty.run [.acquire "m", .acquire "m", .acquire "m", .cancel 1, .release 0, .resume 1, .resume 2] =
      some s ∧
    s.run [.release 2, .acquire "m"] = some s' ∧ s.Passed "m" 1 ∧ ¬ s'.calls[1]? = some ("m", .holding) := by
  refine ⟨_, _, rfl, rfl, ?_⟩
  obtain ⟨hpassed, hlater⟩ := first_come_first_served
    [.acquire "m", .acquire "m", .acquire "m", .cancel 1, .release 0, .resume 1, .resume 2]
    [.release 2, .acquire "m"] _ _ rfl rfl "m" 1 2 rfl
  exact ⟨hpassed .ended (by decide) rfl, fun h => absurd (hlater h) (by decide)⟩

end Runs

end Chattice.PubsubRunner.KeyedLocks
