import Chattice.Asyncio.Lock
import Chattice.Data.Entries
import Mathlib.Logic.Function.Basic

/-!
# `_KeyedLockRegistry`

The locks of the card updates, one for each message name: made by the first `acquire` of a key and dropped
by the `release` that leaves nobody behind. A call is one `acquire` with its `release`; calls of any tasks
interleave between awaits, and may be cancelled whenever they wait.

* `acquire`, `resume`, `cancel`, `release` : what the registry does between two awaits;
* `KeyOk` : a lock in use is the one the registry has, and `_waiters` counts the calls that hold it or
  wait for it;
* `Step.unaffected` : what happens to one key leaves the others as they are;
* `updates_exclusive` : in every interleaving, at most one call holds a key, its release does not raise,
  and what a call of a key waits for is another call of that key.
-/

namespace Chattice.PubsubRunner.KeyedLocks

open Asyncio (Lock)
open Function (update)

/-! ## The registry -/

/-- Where a call is: it waits for a lock object, holds the key, or has released it or was cancelled. -/
inductive Phase where
  | waiting (lock : Nat)
  | holding
  | ended
  deriving DecidableEq

/-- `_locks` has the lock object of a key, `_waiters` how many calls hold it or wait for it. `objects` are
the lock objects, numbered in the order they are made; a call is known by its number. -/
structure State (Key : Type) where
  locks : Key → Option Nat
  waiters : Key → Option Nat
  objects : Nat → Lock Nat
  made : Nat
  calls : List (Key × Phase)

/-- The entry of `_waiters` for a count: 0 is not stored. -/
def entry (n : Nat) : Option Nat := if n = 0 then none else some n

theorem getD_entry (n : Nat) : (entry n).getD 0 = n := by
  unfold entry
  split
  · next hzero => exact hzero.symm
  · rfl

variable {Key : Type} [DecidableEq Key]

namespace State

def empty : State Key := ⟨fun _ => none, fun _ => none, fun _ => .new, 0, []⟩

/-- `self._locks.get(key)`, or a new lock. -/
def lockFor (s : State Key) (key : Key) : Nat := (s.locks key).getD s.made

def withLock (s : State Key) (key : Key) : State Key :=
  match s.locks key with
  | some _ => s
  | none => { s with
      locks := update s.locks key (some s.made)
      objects := update s.objects s.made .new
      made := s.made + 1 }

/-- `acquire` up to its `await`, by a new call. -/
def acquire (s : State Key) (key : Key) : State Key :=
  let object := s.lockFor key
  let s := s.withLock key
  let taken := (s.objects object).acquire s.calls.length
  { s with
    waiters := update s.waiters key (some ((s.waiters key).getD 0 + 1))
    objects := update s.objects object taken.1
    calls := s.calls ++ [(key, if taken.2 then .holding else .waiting object)] }

/-- `_drop_waiter`: the entry is popped when nothing remains. -/
def dropWaiter (s : State Key) (key : Key) : State Key :=
  { s with waiters := update s.waiters key (entry ((s.waiters key).getD 0 - 1)) }

/-- `acquire` of call `i` after its `await`: it holds the key, or it was cancelled. -/
def resume (s : State Key) (i : Nat) (key : Key) (object : Nat) : Option (State Key) :=
  ((s.objects object).resume i).map fun taken =>
    let s := { s with objects := update s.objects object taken.1 }
    if taken.2 then { s with calls := s.calls.set i (key, .holding) }
    else { s.dropWaiter key with calls := s.calls.set i (key, .ended) }

/-- Call `i` is cancelled while it waits. -/
def cancel (s : State Key) (i object : Nat) : State Key :=
  { s with objects := update s.objects object ((s.objects object).cancel i) }

/-- `release`, which raises a `KeyError` when the key has no lock. -/
def release (s : State Key) (key : Key) : Except String (State Key) :=
  match s.locks key with
  | none => .error "KeyError"
  | some object =>
    match (s.objects object).release with
    | .error e => .error e
    | .ok lock =>
      let s := { s.dropWaiter key with objects := update s.objects object lock }
      .ok (if (s.waiters key).getD 0 = 0 then { s with locks := update s.locks key none } else s)

end State

/-- What a task may do with the key next. -/
inductive Step (key : Key) (s : State Key) : State Key → Prop where
  | acquire : Step key s (s.acquire key)
  | resume {i object : Nat} {s' : State Key} (hi : s.calls[i]? = some (key, .waiting object))
      (h : s.resume i key object = some s') : Step key s s'
  | cancel {i object : Nat} (hi : s.calls[i]? = some (key, .waiting object)) :
      Step key s (s.cancel i object)
  | release {i : Nat} {s' : State Key} (hi : s.calls[i]? = some (key, .holding))
      (h : s.release key = .ok s') : Step key s { s' with calls := s'.calls.set i (key, .ended) }

/-- The states of all interleavings. -/
inductive Reach : State Key → Prop where
  | init : Reach .empty
  | step {s s' : State Key} {key : Key} (hs : Reach s) (h : Step key s s') : Reach s'

/-! ## The invariant -/

/-- The call holds the key or waits for it. -/
def uses (key : Key) (call : Key × Phase) : Bool := decide (call.1 = key ∧ call.2 ≠ .ended)

theorem uses_iff {key : Key} {call : Key × Phase} :
    uses key call = true ↔ call.1 = key ∧ call.2 ≠ .ended := decide_eq_true_iff

/-- The lock object of a key: its queue are the calls that wait for it, and it is locked while a call holds
the key. -/
structure ObjectOk (s : State Key) (key : Key) (object : Nat) : Prop where
  made : object < s.made
  ok : (s.objects object).Ok
  tasks : ∀ i : Nat, i ∈ (s.objects object).tasks ↔ s.calls[i]? = some (key, .waiting object)
  locked : (s.objects object).locked = true ↔ ∃ i : Nat, s.calls[i]? = some (key, .holding)

structure KeyOk (s : State Key) (key : Key) : Prop where
  count : s.waiters key = entry (s.calls.countP (uses key))
  exclusive : ∀ i j : Nat,
    s.calls[i]? = some (key, .holding) → s.calls[j]? = some (key, .holding) → i = j
  holding : ∀ i : Nat, s.calls[i]? = some (key, .holding) → ∃ object, s.locks key = some object
  waiting : ∀ i object : Nat, s.calls[i]? = some (key, .waiting object) → s.locks key = some object
  object : ∀ object, s.locks key = some object → ObjectOk s key object

structure Ok (s : State Key) : Prop where
  keys : ∀ key, KeyOk s key
  distinct : ∀ key key' object, s.locks key = some object → s.locks key' = some object → key = key'

structure Unaffected (s s' : State Key) (key : Key) : Prop where
  locks : s'.locks key = s.locks key
  waiters : s'.waiters key = s.waiters key
  objects : ∀ object, s.locks key = some object → s'.objects object = s.objects object
  calls : ∀ (i : Nat) (phase : Phase), s'.calls[i]? = some (key, phase) ↔ s.calls[i]? = some (key, phase)
  count : s'.calls.countP (uses key) = s.calls.countP (uses key)
  made : s.made ≤ s'.made

namespace Unaffected

variable {s s' s'' : State Key} {key : Key}

theorem refl (s : State Key) (key : Key) : Unaffected s s key :=
  ⟨rfl, rfl, fun _ _ => rfl, fun _ _ => Iff.rfl, rfl, Nat.le_refl _⟩

theorem trans (h : Unaffected s s' key) (h' : Unaffected s' s'' key) : Unaffected s s'' key where
  locks := h'.locks.trans h.locks
  waiters := h'.waiters.trans h.waiters
  objects := fun object hobject =>
    (h'.objects object (h.locks.trans hobject)).trans (h.objects object hobject)
  calls := fun i phase => (h'.calls i phase).trans (h.calls i phase)
  count := h'.count.trans h.count
  made := Nat.le_trans h.made h'.made

theorem keyOk (h : Unaffected s s' key) (hok : KeyOk s key) : KeyOk s' key where
  count := by rw [h.waiters, h.count, hok.count]
  exclusive := by
    intro i j hi hj
    exact hok.exclusive i j ((h.calls i _).mp hi) ((h.calls j _).mp hj)
  holding := by
    intro i hi
    obtain ⟨object, hobject⟩ := hok.holding i ((h.calls i _).mp hi)
    exact ⟨object, h.locks.trans hobject⟩
  waiting := fun i object hi => h.locks.trans (hok.waiting i object ((h.calls i _).mp hi))
  object := by
    intro object hobject
    rw [h.locks] at hobject
    obtain ⟨hmade, hlock, htasks, hlocked⟩ := hok.object object hobject
    have hsame := h.objects object hobject
    refine ⟨Nat.lt_of_lt_of_le hmade h.made, by rwa [hsame], fun i => ?_, ?_⟩
    · rw [hsame, htasks i]
      exact (h.calls i _).symm
    · rw [hsame, hlocked]
      exact exists_congr fun i => (h.calls i _).symm

/-! What a further change leaves of another key. -/

variable {other : Key}

theorem setLock (h : Unaffected s s' key) (hne : key ≠ other) (lock : Option Nat) :
    Unaffected s { s' with locks := update s'.locks other lock } key :=
  h.trans { refl s' key with locks := Function.update_of_ne hne _ _ }

theorem setWaiters (h : Unaffected s s' key) (hne : key ≠ other) (n : Option Nat) :
    Unaffected s { s' with waiters := update s'.waiters other n } key :=
  h.trans { refl s' key with waiters := Function.update_of_ne hne _ _ }

theorem setObject (h : Unaffected s s' key) {object : Nat} (hobject : s.locks key ≠ some object)
    (lock : Lock Nat) : Unaffected s { s' with objects := update s'.objects object lock } key :=
  h.trans { refl s' key with
    objects := by
      intro object' hobject'
      refine Function.update_of_ne ?_ _ _
      rintro rfl
      exact hobject (h.locks.symm.trans hobject') }

theorem addMade (h : Unaffected s s' key) : Unaffected s { s' with made := s'.made + 1 } key :=
  h.trans { refl s' key with made := Nat.le_succ _ }

theorem addCall (h : Unaffected s s' key) (hne : key ≠ other) (phase : Phase) :
    Unaffected s { s' with calls := s'.calls ++ [(other, phase)] } key :=
  h.trans { refl s' key with
    calls := by
      intro i phase'
      rw [List.getElem?_snoc_eq_some]
      refine or_iff_left fun h => hne ?_
      exact (Prod.mk.inj h.2).1.symm
    count := by
      rw [List.countP_append, List.countP_singleton, if_neg]
      · rfl
      · rw [uses_iff]
        exact fun h => hne h.1.symm }

theorem setCall (h : Unaffected s s' key) (hne : key ≠ other) {i : Nat} {phase : Phase}
    (hi : s'.calls[i]? = some (other, phase)) (phase' : Phase) :
    Unaffected s { s' with calls := s'.calls.set i (other, phase') } key :=
  h.trans { refl s' key with
    calls := by
      intro j phase''
      rw [List.getElem?_set_eq_some hi]
      constructor
      · rintro (⟨-, h⟩ | ⟨-, h⟩)
        · exact absurd (Prod.mk.inj h).1.symm hne
        · exact h
      · intro h
        refine .inr ⟨?_, h⟩
        rintro rfl
        rw [hi] at h
        exact hne (Prod.mk.inj (Option.some_inj.mp h)).1.symm
    count := by
      have hset := List.countP_set_add (a := (other, phase')) hi (uses key)
      have hnot (phase : Phase) : ¬ uses key (other, phase) = true := by
        rw [uses_iff]
        exact fun h => hne h.1.symm
      rwa [if_neg (hnot _), if_neg (hnot _)] at hset }

end Unaffected

/-! ## What a step leaves of its own key -/

section Own

variable {s : State Key} {key : Key} {object : Nat}

theorem KeyOk.of_object {lock : Lock Nat} (hobject : s.locks key = some object)
    (hlock : s.objects object = lock) (hmade : object < s.made) (hok : lock.Ok)
    (hcount : s.waiters key = entry (s.calls.countP (uses key)))
    (hexclusive : ∀ i j : Nat,
      s.calls[i]? = some (key, .holding) → s.calls[j]? = some (key, .holding) → i = j)
    (hwaiting : ∀ i object' : Nat, s.calls[i]? = some (key, .waiting object') → object' = object)
    (htasks : ∀ i : Nat, i ∈ lock.tasks ↔ s.calls[i]? = some (key, .waiting object))
    (hlocked : lock.locked = true ↔ ∃ i : Nat, s.calls[i]? = some (key, .holding)) : KeyOk s key := by
  subst hlock
  refine ⟨hcount, hexclusive, fun _ _ => ⟨object, hobject⟩, ?_, ?_⟩
  · intro i object' hi
    rw [hwaiting i object' hi]
    exact hobject
  · intro object' hobject'
    obtain rfl : object = object' := Option.some_inj.mp (hobject.symm.trans hobject')
    exact ⟨hmade, hok, htasks, hlocked⟩

/-- All calls of a key wait for the same lock object. -/
theorem KeyOk.waiting_eq (h : KeyOk s key) (hobject : s.locks key = some object) {i object' : Nat}
    (hi : s.calls[i]? = some (key, .waiting object')) : object' = object :=
  Option.some_inj.mp ((h.waiting i object' hi).symm.trans hobject)

theorem KeyOk.not_holding (h : KeyOk s key) (hobject : s.locks key = some object)
    (hfree : (s.objects object).locked = false) (i : Nat) : s.calls[i]? ≠ some (key, .holding) := by
  intro hi
  rw [(h.object object hobject).locked.mpr ⟨i, hi⟩] at hfree
  cases hfree

theorem KeyOk.unused (h : KeyOk s key) (hnone : s.locks key = none) {i : Nat} {phase : Phase}
    (hi : s.calls[i]? = some (key, phase)) : phase = .ended := by
  cases phase with
  | waiting object =>
    rw [h.waiting i object hi] at hnone
    cases hnone
  | holding =>
    obtain ⟨object, hobject⟩ := h.holding i hi
    rw [hobject] at hnone
    cases hnone
  | ended => rfl

theorem KeyOk.withLock (h : KeyOk s key) : KeyOk (s.withLock key) key := by
  unfold State.withLock
  split
  · exact h
  · next hnone =>
    refine .of_object (Function.update_self ..) (Function.update_self ..) (Nat.lt_succ_self _)
      Asyncio.Lock.ok_new h.count h.exclusive ?_ ?_ ?_
    · intro i object' hi
      cases h.unused hnone hi
    · exact fun i => iff_of_false nofun fun hi => nomatch h.unused hnone hi
    · exact iff_of_false nofun fun ⟨i, hi⟩ => nomatch h.unused hnone hi

theorem KeyOk.acquired (h : KeyOk s key) (hobject : s.locks key = some object) :
    KeyOk { s with
      waiters := update s.waiters key (some ((s.waiters key).getD 0 + 1))
      objects := update s.objects object ((s.objects object).acquire s.calls.length).1
      calls := s.calls ++
        [(key, if ((s.objects object).acquire s.calls.length).2 then .holding else .waiting object)] }
      key := by
  obtain ⟨hmade, hlock, htasks, hlocked⟩ := h.object object hobject
  have hfresh : s.calls.length ∉ (s.objects object).tasks := by
    rw [htasks, List.getElem?_eq_none (Nat.le_refl _)]
    nofun
  have hcount (phase : Phase) (hphase : phase ≠ .ended) :
      update s.waiters key (some ((s.waiters key).getD 0 + 1)) key =
        entry ((s.calls ++ [(key, phase)]).countP (uses key)) := by
    have huses : uses key (key, phase) = true := uses_iff.mpr ⟨rfl, hphase⟩
    rw [Function.update_self, List.countP_append, List.countP_singleton, if_pos huses, h.count, getD_entry]
    exact (if_neg (Nat.succ_ne_zero _)).symm
  have hok := hlock.acquire hfresh
  rcases Lock.acquire_cases (s.objects object) s.calls.length with
    ⟨htaken, hfree, hlocked', htasks'⟩ | ⟨hqueued, hlocked', htasks'⟩
  · rw [htaken, if_pos rfl]
    refine .of_object hobject (Function.update_self ..) hmade hok (hcount .holding nofun) ?_ ?_ ?_ ?_
    · intro i j hi hj
      obtain hold | ⟨rfl, -⟩ := List.getElem?_snoc_eq_some.mp hi
      · exact absurd hold (h.not_holding hobject hfree i)
      · obtain hold | ⟨rfl, -⟩ := List.getElem?_snoc_eq_some.mp hj
        · exact absurd hold (h.not_holding hobject hfree j)
        · rfl
    · intro i object' hi
      obtain hold | ⟨-, hnew⟩ := List.getElem?_snoc_eq_some.mp hi
      · exact h.waiting_eq hobject hold
      · cases hnew
    · intro i
      rw [htasks', htasks i, List.getElem?_snoc_eq_some]
      exact (or_iff_left fun hnew => nomatch hnew.2).symm
    · exact iff_of_true hlocked' ⟨s.calls.length, List.getElem?_snoc_eq_some.mpr (.inr ⟨rfl, rfl⟩)⟩
  · rw [hqueued, if_neg Bool.false_ne_true]
    have hholds (i : Nat) : (s.calls ++ [(key, Phase.waiting object)])[i]? = some (key, .holding) ↔
        s.calls[i]? = some (key, .holding) := by
      rw [List.getElem?_snoc_eq_some]
      exact or_iff_left fun hnew => nomatch hnew.2
    refine .of_object hobject (Function.update_self ..) hmade hok (hcount (.waiting object) nofun) ?_ ?_ ?_ ?_
    · exact fun i j hi hj => h.exclusive i j ((hholds i).mp hi) ((hholds j).mp hj)
    · intro i object' hi
      obtain hold | ⟨-, hnew⟩ := List.getElem?_snoc_eq_some.mp hi
      · exact h.waiting_eq hobject hold
      · cases hnew
        rfl
    · intro i
      rw [htasks', List.mem_append, List.mem_singleton, htasks i, List.getElem?_snoc_eq_some]
      exact or_congr_right ⟨fun h => ⟨h, rfl⟩, And.left⟩
    · rw [hlocked', hlocked]
      exact exists_congr fun i => (hholds i).symm

omit [DecidableEq Key] in
theorem getElem?_set_call {i : Nat} {phase phase' : Phase} (hi : s.calls[i]? = some (key, phase)) {j : Nat}
    {phase'' : Phase} : (s.calls.set i (key, phase'))[j]? = some (key, phase'') ↔
      j = i ∧ phase' = phase'' ∨ j ≠ i ∧ s.calls[j]? = some (key, phase'') := by
  rw [List.getElem?_set_eq_some hi]
  exact or_congr_left (and_congr_right fun _ => ⟨fun h => (Prod.mk.inj h).2, congrArg (Prod.mk key)⟩)

theorem countP_set_uses {i : Nat} {phase phase' : Phase} (hi : s.calls[i]? = some (key, phase))
    (hphase : phase ≠ .ended) (hphase' : phase' ≠ .ended) :
    (s.calls.set i (key, phase')).countP (uses key) = s.calls.countP (uses key) := by
  have hset := List.countP_set_add (a := (key, phase')) hi (uses key)
  have huses {phase : Phase} (h : phase ≠ .ended) : uses key (key, phase) = true := uses_iff.mpr ⟨rfl, h⟩
  rw [if_pos (huses hphase), if_pos (huses hphase')] at hset
  exact Nat.add_right_cancel hset

theorem countP_set_over {i : Nat} {phase : Phase} (hi : s.calls[i]? = some (key, phase))
    (hphase : phase ≠ .ended) :
    (s.calls.set i (key, .ended)).countP (uses key) = s.calls.countP (uses key) - 1 := by
  have hset := List.countP_set_add (a := (key, Phase.ended)) hi (uses key)
  have huses : uses key (key, phase) = true := uses_iff.mpr ⟨rfl, hphase⟩
  have hover : ¬ uses key (key, .ended) = true := fun h => (uses_iff.mp h).2 rfl
  rw [if_pos huses, if_neg hover] at hset
  exact Nat.eq_sub_of_add_eq hset

theorem KeyOk.taken (h : KeyOk s key) {i : Nat} {lock : Lock Nat}
    (hi : s.calls[i]? = some (key, .waiting object)) (hr : Lock.Resumed (s.objects object) lock i true) :
    KeyOk { s with objects := update s.objects object lock, calls := s.calls.set i (key, .holding) } key := by
  have hobject := h.waiting i object hi
  obtain ⟨hmade, -, htasks, -⟩ := h.object object hobject
  have hnone := h.not_holding hobject (hr.free rfl)
  refine .of_object hobject (Function.update_self ..) hmade hr.ok ?_ ?_ ?_ ?_ ?_
  · exact h.count.trans (congrArg entry (countP_set_uses hi nofun (by nofun)).symm)
  · intro j j' hj hj'
    obtain ⟨rfl, -⟩ | ⟨-, hold⟩ := (getElem?_set_call hi).mp hj
    · obtain ⟨rfl, -⟩ | ⟨-, hold⟩ := (getElem?_set_call hi).mp hj'
      · rfl
      · exact absurd hold (hnone j')
    · exact absurd hold (hnone j)
  · intro j object' hj
    obtain ⟨-, hnew⟩ | ⟨-, hold⟩ := (getElem?_set_call hi).mp hj
    · cases hnew
    · exact h.waiting_eq hobject hold
  · intro j
    rw [hr.tasks, htasks, getElem?_set_call hi, and_comm]
    exact (or_iff_right fun hnew => nomatch hnew.2).symm
  · exact iff_of_true hr.locked ⟨i, (getElem?_set_call hi).mpr (.inl ⟨rfl, rfl⟩)⟩

theorem KeyOk.dropped (h : KeyOk s key) {i : Nat} {lock : Lock Nat}
    (hi : s.calls[i]? = some (key, .waiting object)) (hr : Lock.Resumed (s.objects object) lock i false) :
    KeyOk { s.dropWaiter key with
      objects := update s.objects object lock, calls := s.calls.set i (key, .ended) } key := by
  have hobject := h.waiting i object hi
  obtain ⟨hmade, -, htasks, hlocked⟩ := h.object object hobject
  have hcalls (j : Nat) (phase : Phase) (hphase : phase ≠ .ended) :
      (s.calls.set i (key, Phase.ended))[j]? = some (key, phase) ↔
        j ≠ i ∧ s.calls[j]? = some (key, phase) := by
    rw [getElem?_set_call hi]
    exact or_iff_right fun hnew => hphase hnew.2.symm
  have hholds (j : Nat) : (s.calls.set i (key, Phase.ended))[j]? = some (key, .holding) ↔
      s.calls[j]? = some (key, .holding) := by
    rw [hcalls j .holding nofun]
    refine and_iff_right_of_imp ?_
    rintro hj rfl
    rw [hi] at hj
    cases hj
  refine .of_object hobject (Function.update_self ..) hmade hr.ok ?_ ?_ ?_ ?_ ?_
  · show update s.waiters key _ key = _
    rw [Function.update_self, countP_set_over hi nofun, h.count, getD_entry]
  · exact fun j j' hj hj' => h.exclusive j j' ((hholds j).mp hj) ((hholds j').mp hj')
  · exact fun j object' hj => h.waiting_eq hobject ((hcalls j (.waiting object') nofun).mp hj).2
  · intro j
    rw [hr.tasks, htasks, hcalls j (.waiting object) nofun, and_comm]
  · rw [hr.locked, Bool.false_or, hlocked]
    exact exists_congr fun j => (hholds j).symm

theorem KeyOk.cancelled (h : KeyOk s key) (hobject : s.locks key = some object) (i : Nat) :
    KeyOk (s.cancel i object) key := by
  obtain ⟨hmade, hok, htasks, hlocked⟩ := h.object object hobject
  refine .of_object hobject (Function.update_self ..) hmade (hok.cancel i) h.count h.exclusive ?_ ?_ hlocked
  · exact fun j object' hj => h.waiting_eq hobject hj
  · intro j
    rw [Lock.tasks_cancel]
    exact htasks j

theorem KeyOk.exists_release (h : KeyOk s key) {i : Nat} (hi : s.calls[i]? = some (key, .holding)) :
    ∃ s', s.release key = .ok s' := by
  obtain ⟨object, hobject⟩ := h.holding i hi
  obtain ⟨lock, hrelease, -⟩ := Lock.release_of_locked ((h.object object hobject).locked.mpr ⟨i, hi⟩)
  unfold State.release
  rw [hobject]
  dsimp only
  rw [hrelease]
  exact ⟨_, rfl⟩

/-- The key's lock is kept while a call waits for it. -/
theorem release_cases {s' : State Key} (h : s.release key = .ok s') :
    ∃ object lock, s.locks key = some object ∧ (s.objects object).release = .ok lock ∧
      s' = { s.dropWaiter key with
        objects := update s.objects object lock
        locks := if (s.waiters key).getD 0 - 1 = 0 then update s.locks key none else s.locks } := by
  unfold State.release at h
  split at h
  · cases h
  · next object hobject =>
    split at h
    · cases h
    · next lock hlock =>
      refine ⟨object, lock, hobject, hlock, ?_⟩
      rw [← Except.ok.inj h]
      show (if (update s.waiters key _ key).getD 0 = 0 then _ else _) = _
      rw [Function.update_self, getD_entry]
      split <;> rfl

theorem KeyOk.released (h : KeyOk s key) {i : Nat} (hi : s.calls[i]? = some (key, .holding)) {s' : State Key}
    (hs' : s.release key = .ok s') : KeyOk { s' with calls := s'.calls.set i (key, .ended) } key := by
  obtain ⟨object, lock, hobject, hrelease, rfl⟩ := release_cases hs'
  obtain ⟨hmade, hok, htasks, hlocked⟩ := h.object object hobject
  obtain ⟨lock', hrelease', htasks', hfree⟩ := Lock.release_of_locked (hlocked.mpr ⟨i, hi⟩)
  obtain rfl : lock = lock' := Except.ok.inj (hrelease.symm.trans hrelease')
  have hnone (j : Nat) : (s.calls.set i (key, Phase.ended))[j]? ≠ some (key, .holding) := by
    intro hj
    obtain ⟨-, hnew⟩ | ⟨hne, hold⟩ := (getElem?_set_call hi).mp hj
    · cases hnew
    · exact hne (h.exclusive j i hold hi)
  have hwaits (j object' : Nat) : (s.calls.set i (key, Phase.ended))[j]? = some (key, .waiting object') ↔
      s.calls[j]? = some (key, .waiting object') := by
    rw [getElem?_set_call hi]
    refine (or_iff_right fun hnew => nomatch hnew.2).trans (and_iff_right_of_imp ?_)
    rintro hj rfl
    rw [hi] at hj
    cases hj
  have hcount : (s.waiters key).getD 0 - 1 = (s.calls.set i (key, Phase.ended)).countP (uses key) := by
    rw [countP_set_over hi nofun, h.count, getD_entry]
  by_cases hzero : (s.waiters key).getD 0 - 1 = 0
  · -- nobody is left to wait for the lock that is dropped
    have hunused (j object' : Nat) : s.calls[j]? ≠ some (key, .waiting object') := by
      intro hj
      rw [hcount, List.countP_eq_zero] at hzero
      exact hzero _ (List.mem_of_getElem? ((hwaits j object').mpr hj)) (uses_iff.mpr ⟨rfl, nofun⟩)
    refine ⟨(Function.update_self ..).trans (congrArg entry hcount), ?_, ?_, ?_, ?_⟩
    · exact fun j _ hj => absurd hj (hnone j)
    · exact fun j hj => absurd hj (hnone j)
    · exact fun j object' hj => absurd ((hwaits j object').mp hj) (hunused j object')
    · intro object' hobject'
      dsimp only at hobject'
      rw [if_pos hzero, Function.update_self] at hobject'
      cases hobject'
  · refine .of_object ?_ (Function.update_self ..) hmade (hok.release hrelease)
      ((Function.update_self ..).trans (congrArg entry hcount)) ?_ ?_ ?_ ?_
    · dsimp only
      rw [if_neg hzero]
      exact hobject
    · exact fun j _ hj => absurd hj (hnone j)
    · exact fun j object' hj => h.waiting_eq hobject ((hwaits j object').mp hj)
    · intro j
      rw [htasks', htasks]
      exact (hwaits j object).symm
    · rw [hfree]
      exact iff_of_false Bool.false_ne_true fun ⟨j, hj⟩ => hnone j hj

end Own

/-! ## What a step leaves of the other keys -/

section Others

variable {s s' : State Key} {key key' : Key}

theorem Ok.not_shared (h : Ok s) (hne : key' ≠ key) {object : Nat} (hobject : s.locks key = some object) :
    s.locks key' ≠ some object :=
  fun hobject' => hne (h.distinct key' key object hobject' hobject)

theorem Ok.not_made (h : Ok s) : s.locks key' ≠ some s.made :=
  fun hmade => Nat.lt_irrefl _ ((h.keys key').object s.made hmade).made

/-- What is to be shown of a step on a key. -/
theorem Ok.of_own (h : Ok s) (hown : KeyOk s' key) (hothers : ∀ key', key' ≠ key → Unaffected s s' key')
    (hlock : ∀ object, s'.locks key = some object → s.locks key = some object ∨ object = s.made) :
    Ok s' where
  keys := by
    intro key'
    by_cases hkey : key' = key
    · rw [hkey]
      exact hown
    · exact (hothers key' hkey).keyOk (h.keys key')
  distinct := by
    have hown_other (key' : Key) (object : Nat) (hne : key' ≠ key) (hobject : s'.locks key = some object) :
        s'.locks key' ≠ some object := by
      rw [(hothers key' hne).locks]
      obtain hold | rfl := hlock object hobject
      · exact h.not_shared hne hold
      · exact h.not_made
    intro key₁ key₂ object h₁ h₂
    by_cases hkey₁ : key₁ = key
    · subst hkey₁
      by_contra hne
      exact hown_other key₂ object (Ne.symm hne) h₁ h₂
    · by_cases hkey₂ : key₂ = key
      · subst hkey₂
        exact absurd h₁ (hown_other key₁ object hkey₁ h₂)
      · rw [(hothers key₁ hkey₁).locks] at h₁
        rw [(hothers key₂ hkey₂).locks] at h₂
        exact h.distinct key₁ key₂ object h₁ h₂

theorem locks_withLock (s : State Key) (key : Key) : (s.withLock key).locks key = some (s.lockFor key) := by
  unfold State.withLock State.lockFor
  split
  · next object hobject => rw [hobject, Option.getD_some]
  · next hnone =>
    rw [hnone, Option.getD_none]
    exact Function.update_self ..

theorem calls_withLock (s : State Key) (key : Key) : (s.withLock key).calls = s.calls := by
  unfold State.withLock
  split <;> rfl

theorem Ok.withLock_unaffected (h : Ok s) (hne : key' ≠ key) : Unaffected s (s.withLock key) key' := by
  unfold State.withLock
  split
  · exact .refl s key'
  · exact (((Unaffected.refl s key').setObject h.not_made .new).setLock hne (some s.made)).addMade

theorem Ok.withLock (h : Ok s) (key : Key) : Ok (s.withLock key) := by
  refine h.of_own (h.keys key).withLock (fun key' hne => h.withLock_unaffected hne) fun object hobject => ?_
  rw [locks_withLock] at hobject
  cases hlock : s.locks key with
  | some object' =>
    rw [State.lockFor, hlock] at hobject
    exact .inl hobject
  | none =>
    rw [State.lockFor, hlock] at hobject
    exact .inr (Option.some_inj.mp hobject).symm

theorem Ok.acquire_unaffected (h : Ok s) (hne : key' ≠ key) : Unaffected s (s.acquire key) key' := by
  have hlock := h.withLock_unaffected hne
  have hshared : s.locks key' ≠ some (s.lockFor key) := by
    rw [← hlock.locks]
    exact (h.withLock key).not_shared hne (locks_withLock s key)
  exact ((hlock.setObject hshared _).setWaiters hne _).addCall hne _

theorem Ok.resume_unaffected (h : Ok s) (hne : key' ≠ key) {i object : Nat}
    (hi : s.calls[i]? = some (key, .waiting object)) (hs' : s.resume i key object = some s') :
    Unaffected s s' key' := by
  have hshared := h.not_shared hne ((h.keys key).waiting i object hi)
  obtain ⟨⟨lock, taken⟩, -, rfl⟩ := Option.map_eq_some_iff.mp hs'
  have hsame := Unaffected.refl s key'
  cases taken with
  | true => exact (hsame.setCall hne hi .holding).setObject hshared lock
  | false => exact ((hsame.setCall hne hi .ended).setObject hshared lock).setWaiters hne _

theorem Ok.release_unaffected (h : Ok s) (hne : key' ≠ key) {i : Nat}
    (hi : s.calls[i]? = some (key, .holding)) (hs' : s.release key = .ok s') :
    Unaffected s { s' with calls := s'.calls.set i (key, .ended) } key' := by
  obtain ⟨object, lock, hobject, -, rfl⟩ := release_cases hs'
  have hcall := (Unaffected.refl s key').setCall hne hi .ended
  have hdrop := (hcall.setObject (h.not_shared hne hobject) lock).setWaiters hne (entry ((s.waiters key).getD 0 - 1))
  split
  · exact hdrop.setLock hne none
  · exact hdrop

/-- Operations on one key do not touch another. -/
theorem Step.unaffected (hok : Ok s) (h : Step key s s') (hne : key' ≠ key) : Unaffected s s' key' := by
  cases h with
  | acquire => exact hok.acquire_unaffected hne
  | resume hi h => exact hok.resume_unaffected hne hi h
  | cancel hi =>
    exact (Unaffected.refl s key').setObject (hok.not_shared hne ((hok.keys key).waiting _ _ hi)) _
  | release hi h => exact hok.release_unaffected hne hi h

end Others

/-! ## Runs -/

section Runs

variable {s s' : State Key} {key : Key}

theorem Step.keyOk (hok : Ok s) (h : Step key s s') : KeyOk s' key := by
  have hkey := hok.keys key
  cases h with
  | acquire => exact ((hok.withLock key).keys key).acquired (locks_withLock s key)
  | @resume i object s' hi h =>
    obtain ⟨⟨lock, taken⟩, hlock, rfl⟩ := Option.map_eq_some_iff.mp h
    have hresumed := (hkey.object object (hkey.waiting i object hi)).ok.resume hlock
    cases taken with
    | true => exact hkey.taken hi hresumed
    | false => exact hkey.dropped hi hresumed
  | @cancel i object hi => exact hkey.cancelled (hkey.waiting i object hi) i
  | release hi h => exact hkey.released hi h

/-- A key keeps its lock object, gets a new one, or has none. -/
theorem Step.locks (h : Step key s s') {object : Nat} (hobject : s'.locks key = some object) :
    s.locks key = some object ∨ object = s.made := by
  cases h with
  | acquire =>
    replace hobject : (s.withLock key).locks key = some object := hobject
    rw [locks_withLock, State.lockFor] at hobject
    cases hlock : s.locks key with
    | some object' =>
      rw [hlock] at hobject
      exact .inl hobject
    | none =>
      rw [hlock] at hobject
      exact .inr (Option.some_inj.mp hobject).symm
  | resume hi h =>
    obtain ⟨⟨lock, taken⟩, -, rfl⟩ := Option.map_eq_some_iff.mp h
    cases taken <;> exact .inl hobject
  | cancel hi => exact .inl hobject
  | release hi h =>
    obtain ⟨object', lock, hold, -, rfl⟩ := release_cases h
    dsimp only at hobject
    split at hobject
    · rw [Function.update_self] at hobject
      cases hobject
    · exact .inl hobject

theorem ok_empty : Ok (.empty : State Key) where
  keys := fun _ => ⟨rfl, nofun, nofun, nofun, nofun⟩
  distinct := nofun

/-- What one step preserves. -/
theorem Ok.step (hok : Ok s) (h : Step key s s') : Ok s' :=
  hok.of_own (h.keyOk hok) (fun _ hne => h.unaffected hok hne) fun _ => h.locks

theorem Reach.ok (h : Reach s) : Ok s := by
  induction h with
  | init => exact ok_empty
  | step _ h ih => exact ih.step h

/-- A call of a key that no other call uses takes it at once. -/
theorem Ok.acquire_unused (hok : Ok s) (hunused : ∀ (i : Nat) (phase : Phase),
    s.calls[i]? = some (key, phase) → phase = .ended) :
    (s.acquire key).calls = s.calls ++ [(key, .holding)] := by
  have hobject := ((hok.withLock key).keys key).object _ (locks_withLock s key)
  have hfree : ((s.withLock key).objects (s.lockFor key)).locked = false := by
    rw [Bool.eq_false_iff, ne_eq, hobject.locked, calls_withLock]
    exact fun ⟨i, hi⟩ => nomatch hunused i .holding hi
  have htasks : ((s.withLock key).objects (s.lockFor key)).tasks = [] := by
    refine List.eq_nil_iff_forall_not_mem.mpr fun i hi => ?_
    rw [hobject.tasks, calls_withLock] at hi
    cases hunused i _ hi
  show (s.withLock key).calls ++ [(key, if _ then _ else _)] = _
  rw [Lock.acquire_of_tasks_eq_nil hfree htasks, if_pos rfl, calls_withLock]

/-- While no call holds a key, a call that waits for it can run. -/
theorem KeyOk.exists_resume (h : KeyOk s key) {i object : Nat}
    (hi : s.calls[i]? = some (key, .waiting object)) (hnone : ∀ j : Nat, s.calls[j]? ≠ some (key, .holding)) :
    ∃ j : Nat, s.calls[j]? = some (key, .waiting object) ∧ (s.resume j key object).isSome = true := by
  obtain ⟨-, hlock, htasks, hlocked⟩ := h.object object (h.waiting i object hi)
  have hfree : (s.objects object).locked = false := by
    rw [Bool.eq_false_iff, ne_eq, hlocked]
    exact fun ⟨j, hj⟩ => hnone j hj
  obtain ⟨j, hj, hresume⟩ := hlock.exists_resume hfree (List.ne_nil_of_mem ((htasks i).mpr hi))
  refine ⟨j, (htasks j).mp hj, ?_⟩
  rw [State.resume, Option.isSome_map]
  exact hresume

theorem Unaffected.isSome_resume (h : Unaffected s s' key) (hok : KeyOk s key) {i object : Nat}
    (hi : s.calls[i]? = some (key, .waiting object)) :
    (s'.resume i key object).isSome = (s.resume i key object).isSome := by
  rw [State.resume, State.resume, Option.isSome_map, Option.isSome_map,
    h.objects object (hok.waiting i object hi)]

/-- **Main result.** In every interleaving at most one call holds a key, and the call that holds it can
release it. An operation on one key leaves the calls, the lock and the count of another as they are, and so
whether a call that waits for the other can run; a call takes a key at once that no other call uses, and
while no call holds a key, one of the calls that wait for it can run. -/
theorem updates_exclusive (hs : Reach s) :
    (∀ (key : Key) (i j : Nat),
      s.calls[i]? = some (key, .holding) → s.calls[j]? = some (key, .holding) → i = j) ∧
    (∀ (key : Key) (i : Nat), s.calls[i]? = some (key, .holding) → ∃ s', s.release key = .ok s') ∧
    (∀ (key key' : Key) (s' : State Key), key' ≠ key → Step key s s' →
      Unaffected s s' key' ∧ ∀ i object : Nat, s.calls[i]? = some (key', .waiting object) →
        (s'.resume i key' object).isSome = (s.resume i key' object).isSome) ∧
    (∀ key : Key, (∀ (i : Nat) (phase : Phase), s.calls[i]? = some (key, phase) → phase = .ended) →
      (s.acquire key).calls = s.calls ++ [(key, .holding)]) ∧
    ∀ (key : Key) (i object : Nat), s.calls[i]? = some (key, .waiting object) →
      (∀ j : Nat, s.calls[j]? ≠ some (key, .holding)) →
      ∃ j : Nat, s.calls[j]? = some (key, .waiting object) ∧ (s.resume j key object).isSome = true := by
  have hok := hs.ok
  refine ⟨fun key => (hok.keys key).exclusive, fun key i hi => (hok.keys key).exists_release hi, ?_,
    fun key hunused => hok.acquire_unused hunused,
    fun key i object hi hnone => (hok.keys key).exists_resume hi hnone⟩
  intro key key' s' hne hstep
  have hsame := hstep.unaffected hok hne
  exact ⟨hsame, fun i object hi => hsame.isSome_resume (hok.keys key') hi⟩

/-- One update of a message is sent, the next one waits. -/
def twoUpdates : State String := (State.empty.acquire "m").acquire "m"

theorem reach_twoUpdates : Reach twoUpdates := (Reach.init.step .acquire).step .acquire

theorem twoUpdates_exclusive :
    (∃ s', twoUpdates.release "m" = .ok s') ∧ Unaffected twoUpdates (twoUpdates.acquire "n") "m" ∧
    (twoUpdates.acquire "n").calls = [("m", .holding), ("m", .waiting 0), ("n", .holding)] := by
  obtain ⟨-, hrelease, hothers, hfree, -⟩ := updates_exclusive reach_twoUpdates
  have hother : ∀ call ∈ twoUpdates.calls, call.1 ≠ "n" := by decide
  refine ⟨hrelease "m" 0 (by decide), (hothers "n" "m" _ (by decide) .acquire).1, ?_⟩
  exact hfree "n" fun i phase hi => absurd rfl (hother _ (List.mem_of_getElem? hi))

end Runs

end Chattice.PubsubRunner.KeyedLocks
