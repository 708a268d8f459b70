import Chattice.Transports.PubsubRunner.KeyedLocks
import Mathlib.Data.List.Infix

/-!
# The entries of idle keys

A key that no call holds or waits for never has an entry in `_waiters`. Its lock stays in `_locks` when the
last call that used it was cancelled: only `release` pops the lock, and a cancelled `acquire` decrements the
count without it.

* `run` : the registry under a list of operations, one state for each list that can be performed;
* `LeavesLast` : a cancelled `acquire` runs again as the only call that uses its key;
* `idle_vacant_iff` : in a run, idle keys have no entries at any time exactly when no `acquire` leaves last.
-/

namespace Chattice.PubsubRunner.KeyedLocks

open Asyncio (Lock)
open Function (update)

variable {Key : Type} [DecidableEq Key]

/-! ## Runs as lists of operations -/

/-- What a task does next; a call is known by its number. -/
inductive Op (Key : Type) where
  | acquire (key : Key)
  | resume (i : Nat)
  | cancel (i : Nat)
  | release (i : Nat)

namespace State

/-- The operation, if the registry and the call are ready for it. -/
def perform (s : State Key) : Op Key → Option (State Key)
  | .acquire key => some (s.acquire key)
  | .resume i =>
    match s.calls[i]? with
    | some (key, .waiting object) => s.resume i key object
    | _ => none
  | .cancel i =>
    match s.calls[i]? with
    | some (_, .waiting object) => some (s.cancel i object)
    | _ => none
  | .release i =>
    match s.calls[i]? with
    | some (key, .holding) =>
      match s.release key with
      | .ok s' => some { s' with calls := s'.calls.set i (key, .ended) }
      | .error _ => none
    | _ => none

def run (s : State Key) : List (Op Key) → Option (State Key)
  | [] => some s
  | op :: ops => (s.perform op).bind fun s => s.run ops

/-- No call holds the key or waits for it. -/
def Idle (s : State Key) (key : Key) : Prop :=
  ∀ (i : Nat) (phase : Phase), s.calls[i]? = some (key, phase) → phase = .ended

/-- Neither `_locks` nor `_waiters` has an entry for the key. -/
def Vacant (s : State Key) (key : Key) : Prop := s.locks key = none ∧ s.waiters key = none

/-- The operation is the end of a cancelled `acquire`, and no other call holds its key or waits for it. -/
def LeavesLast (s : State Key) : Op Key → Prop
  | .resume i => ∃ key object, s.calls[i]? = some (key, .waiting object) ∧
      (s.objects object).isCancelled i = true ∧
      ∀ (j : Nat) (phase : Phase), s.calls[j]? = some (key, phase) → phase ≠ .ended → j = i
  | _ => False

/-- Every idle key is vacant. -/
def Swept (s : State Key) : Prop := ∀ key, s.Idle key → s.Vacant key

theorem run_snoc (s : State Key) (ops : List (Op Key)) (op : Op Key) :
    s.run (ops ++ [op]) = (s.run ops).bind fun s' => s'.perform op := by
  induction ops generalizing s with
  | nil =>
    show (s.perform op).bind some = s.perform op
    cases s.perform op <;> rfl
  | cons first ops ih =>
    rw [List.cons_append, run, run, Option.bind_assoc]
    exact Option.bind_congr fun s' _ => ih s'

theorem perform_resume {s : State Key} {i object : Nat} {key : Key}
    (hi : s.calls[i]? = some (key, .waiting object)) : s.perform (.resume i) = s.resume i key object := by
  rw [perform, hi]

end State

theorem perform_cases {s s' : State Key} {op : Op Key} (h : s.perform op = some s') :
    (∃ key, op = .acquire key ∧ s' = s.acquire key) ∨
    (∃ i key object, op = .resume i ∧ s.calls[i]? = some (key, .waiting object) ∧
      s.resume i key object = some s') ∨
    (∃ i key object, op = .cancel i ∧ s.calls[i]? = some (key, .waiting object) ∧
      s' = s.cancel i object) ∨
    ∃ i key released, op = .release i ∧ s.calls[i]? = some (key, .holding) ∧
      s.release key = .ok released ∧ s' = { released with calls := released.calls.set i (key, .ended) } := by
  cases op with
  | acquire key => exact .inl ⟨key, rfl, (Option.some_inj.mp h).symm⟩
  | resume i =>
    rw [State.perform] at h
    split at h
    · next key object hi => exact .inr (.inl ⟨i, key, object, rfl, hi, h⟩)
    · cases h
  | cancel i =>
    rw [State.perform] at h
    split at h
    · next key object hi => exact .inr (.inr (.inl ⟨i, key, object, rfl, hi, (Option.some_inj.mp h).symm⟩))
    · cases h
  | release i =>
    rw [State.perform] at h
    split at h
    · next key hi =>
      split at h
      · next released hreleased =>
        exact .inr (.inr (.inr ⟨i, key, released, rfl, hi, hreleased, (Option.some_inj.mp h).symm⟩))
      · cases h
    · cases h

/-- The operations are the steps. -/
theorem perform_iff {s s' : State Key} : (∃ op, s.perform op = some s') ↔ ∃ key, Step key s s' := by
  constructor
  · rintro ⟨op, h⟩
    obtain ⟨key, -, rfl⟩ | ⟨i, key, object, -, hi, hresume⟩ | ⟨i, key, object, -, hi, rfl⟩ |
      ⟨i, key, released, -, hi, hrelease, rfl⟩ := perform_cases h
    · exact ⟨key, .acquire⟩
    · exact ⟨key, .resume hi hresume⟩
    · exact ⟨key, .cancel hi⟩
    · exact ⟨key, .release hi hrelease⟩
  · rintro ⟨key, h⟩
    cases h with
    | acquire => exact ⟨.acquire key, rfl⟩
    | @resume i object s' hi h => exact ⟨.resume i, (State.perform_resume hi).trans h⟩
    | @cancel i object hi =>
      refine ⟨.cancel i, ?_⟩
      rw [State.perform, hi]
    | @release i s' hi h =>
      refine ⟨.release i, ?_⟩
      rw [State.perform, hi]
      dsimp only
      rw [h]

/-- The runs reach the states of all interleavings. -/
theorem reach_iff {s : State Key} : Reach s ↔ ∃ ops, State.empty.run ops = some s := by
  constructor
  · intro h
    induction h with
    | init => exact ⟨[], rfl⟩
    | step _ h ih =>
      obtain ⟨ops, hops⟩ := ih
      obtain ⟨op, hop⟩ := perform_iff.mpr ⟨_, h⟩
      refine ⟨ops ++ [op], ?_⟩
      rw [State.run_snoc, hops, Option.bind_some, hop]
  · rintro ⟨ops, h⟩
    induction ops using List.reverseRecOn generalizing s with
    | nil =>
      cases h
      exact .init
    | append_singleton ops op ih =>
      rw [State.run_snoc] at h
      obtain ⟨s₁, hops, hop⟩ := Option.bind_eq_some_iff.mp h
      obtain ⟨key, hstep⟩ := perform_iff.mp ⟨op, hop⟩
      exact (ih hops).step hstep

/-! ## Idle keys -/

section Idle

variable {s s' : State Key} {key : Key}

theorem State.Idle.countP (h : s.Idle key) : s.calls.countP (uses key) = 0 := by
  refine List.countP_eq_zero.mpr fun call hcall huses => ?_
  obtain ⟨i, hi⟩ := List.getElem?_of_mem hcall
  obtain ⟨rfl, hphase⟩ := uses_iff.mp huses
  exact hphase (h i call.2 hi)

theorem KeyOk.waiters_of_idle (h : KeyOk s key) (hidle : s.Idle key) : s.waiters key = none := by
  rw [h.count, hidle.countP]
  exact if_pos rfl

theorem Unaffected.vacant (h : Unaffected s s' key) (hs : s.Idle key → s.Vacant key) (hidle : s'.Idle key) :
    s'.Vacant key := by
  obtain ⟨hlocks, hwaiters⟩ := hs fun i phase hi => hidle i phase ((h.calls i phase).mpr hi)
  exact ⟨h.locks.trans hlocks, h.waiters.trans hwaiters⟩

theorem not_idle_acquire (s : State Key) (key : Key) : ¬ (s.acquire key).Idle key := by
  intro hidle
  have hover := hidle (s.withLock key).calls.length _ (List.getElem?_snoc_eq_some.mpr (.inr ⟨rfl, rfl⟩))
  split at hover <;> cases hover

/-- A call that runs on leaves its key idle only when it was cancelled and every other call is over. -/
theorem idle_resume {i object : Nat} (hi : s.calls[i]? = some (key, .waiting object))
    (h : s.resume i key object = some s') (hidle : s'.Idle key) : s.LeavesLast (.resume i) := by
  obtain ⟨⟨lock, taken⟩, hlock, rfl⟩ := Option.map_eq_some_iff.mp h
  cases taken with
  | true =>
    have hover := hidle i .holding ((getElem?_set_call hi).mpr (.inl ⟨rfl, rfl⟩))
    cases hover
  | false =>
    refine ⟨key, object, hi, Lock.isCancelled_of_resume hlock, fun j phase hj hphase => ?_⟩
    by_contra hne
    exact hphase (hidle j phase ((getElem?_set_call hi).mpr (.inr ⟨hne, hj⟩)))

theorem locks_release_of_idle (hkey : KeyOk s key) {i : Nat} (hi : s.calls[i]? = some (key, .holding))
    (h : s.release key = .ok s')
    (hidle : State.Idle { s' with calls := s'.calls.set i (key, .ended) } key) : s'.locks key = none := by
  obtain ⟨object, lock, -, -, rfl⟩ := release_cases h
  have hlast : (s.waiters key).getD 0 - 1 = 0 := by
    rw [hkey.count, getD_entry, ← countP_set_over hi nofun]
    exact hidle.countP
  dsimp only
  rw [if_pos hlast, Function.update_self]

/-- The key of an operation loses its lock when it becomes idle, unless its last `acquire` was cancelled. -/
theorem perform_own (hok : Ok s) {op : Op Key} (h : s.perform op = some s') (hop : ¬ s.LeavesLast op) :
    ∃ key, Step key s s' ∧ (s'.Idle key → s'.locks key = none) := by
  obtain ⟨key, rfl, rfl⟩ | ⟨i, key, object, rfl, hi, hresume⟩ | ⟨i, key, object, rfl, hi, rfl⟩ |
    ⟨i, key, released, rfl, hi, hrelease, rfl⟩ := perform_cases h
  · exact ⟨key, .acquire, fun hidle => absurd hidle (not_idle_acquire s key)⟩
  · exact ⟨key, .resume hi hresume, fun hidle => absurd (idle_resume hi hresume hidle) hop⟩
  · refine ⟨key, .cancel hi, fun hidle => ?_⟩
    cases hidle i (.waiting object) hi
  · exact ⟨key, .release hi hrelease, locks_release_of_idle (hok.keys key) hi hrelease⟩

theorem State.Swept.perform (hs : s.Swept) (hok : Ok s) {op : Op Key} (h : s.perform op = some s')
    (hop : ¬ s.LeavesLast op) : s'.Swept := by
  obtain ⟨key, hstep, hlocks⟩ := perform_own hok h hop
  intro key' hidle
  by_cases hkey : key' = key
  · subst hkey
    exact ⟨hlocks hidle, ((hok.step hstep).keys key').waiters_of_idle hidle⟩
  · exact (hstep.unaffected hok hkey).vacant (hs key') hidle

omit [DecidableEq Key] in
theorem idle_set_ended {i : Nat} {phase : Phase} (hi : s.calls[i]? = some (key, phase))
    (hothers : ∀ (j : Nat) (phase : Phase), s.calls[j]? = some (key, phase) → phase ≠ .ended → j = i)
    (hcalls : s'.calls = s.calls.set i (key, .ended)) : s'.Idle key := by
  intro j phase' hj
  rw [hcalls] at hj
  obtain ⟨-, hnew⟩ | ⟨hne, hold⟩ := (getElem?_set_call hi).mp hj
  · exact hnew.symm
  · by_contra hphase
    exact hne (hothers j phase' hold hphase)

theorem resume_of_isCancelled {i object : Nat} (h : (s.objects object).isCancelled i = true) :
    s.resume i key object = some { s.dropWaiter key with
      objects := update s.objects object ((s.objects object).leave i)
      calls := s.calls.set i (key, .ended) } := by
  rw [State.resume, Lock.resume_of_isCancelled h]
  rfl

/-- The lock of a key stays behind when a cancelled `acquire` leaves last. -/
theorem State.LeavesLast.perform (hok : Ok s) {op : Op Key} (hop : s.LeavesLast op) :
    ∃ s', s.perform op = some s' ∧ ¬ s'.Swept := by
  cases op with
  | resume i =>
    obtain ⟨key, object, hi, hcancelled, hothers⟩ := hop
    refine ⟨_, (State.perform_resume hi).trans (resume_of_isCancelled hcancelled), fun hswept => ?_⟩
    have hlocks := (hswept key (idle_set_ended hi hothers rfl)).1
    cases ((hok.keys key).waiting i object hi).symm.trans hlocks
  | acquire key => cases hop
  | cancel i => cases hop
  | release i => cases hop

end Idle

theorem swept_run {ops : List (Op Key)} {s : State Key} (hs : State.empty.run ops = some s)
    (hops : ∀ (before : List (Op Key)) (op : Op Key) (s' : State Key),
      before ++ [op] <+: ops → State.empty.run before = some s' → ¬ s'.LeavesLast op) : s.Swept := by
  induction ops using List.reverseRecOn generalizing s with
  | nil =>
    cases hs
    exact fun _ _ => ⟨rfl, rfl⟩
  | append_singleton ops op ih =>
    rw [State.run_snoc] at hs
    obtain ⟨s₁, hs₁, hop⟩ := Option.bind_eq_some_iff.mp hs
    have hswept : s₁.Swept := ih hs₁ fun before op' s' hbefore =>
      hops before op' s' (hbefore.trans (List.prefix_append ops [op]))
    exact hswept.perform (reach_iff.mpr ⟨ops, hs₁⟩).ok hop (hops ops op s₁ (List.prefix_refl _) hs₁)

/-- **Main result.** In a run, neither `_locks` nor `_waiters` ever has an entry for a key that no call holds
or waits for exactly when no cancelled `acquire` runs again as the only call that uses its key. -/
theorem idle_vacant_iff (ops : List (Op Key)) :
    (∀ (before : List (Op Key)) (s : State Key), before <+: ops → State.empty.run before = some s →
      ∀ key, s.Idle key → s.Vacant key) ↔
    ∀ (before : List (Op Key)) (op : Op Key) (s : State Key), before ++ [op] <+: ops →
      State.empty.run before = some s → ¬ s.LeavesLast op := by
  constructor
  · intro hvacant before op s hbefore hs hop
    obtain ⟨s', hs', hleft⟩ := hop.perform (reach_iff.mpr ⟨before, hs⟩).ok
    refine hleft (hvacant (before ++ [op]) s' hbefore ?_)
    rw [State.run_snoc, hs, Option.bind_some, hs']
  · intro hops before s hbefore hs
    exact swept_run hs fun before' op s' hbefore' => hops before' op s' (hbefore'.trans hbefore)

/-- The second update of a message is cancelled when the first one has just released its lock to it. -/
theorem cancelled_woken_leaves_lock : ∃ s : State String,
    State.empty.run [.acquire "m", .acquire "m", .release 0, .cancel 1, .resume 1] = some s ∧
    s.Idle "m" ∧ s.locks "m" = some 0 ∧ ¬ s.Vacant "m" := by
  refine ⟨_, rfl, fun i phase hi => ?_, rfl, ?_⟩
  · have hover : ∀ call ∈ [("m", Phase.ended), ("m", Phase.ended)], call.2 = .ended := by decide
    exact hover _ (List.mem_of_getElem? hi)
  · rintro ⟨hlocks, -⟩
    cases hlocks

end Chattice.PubsubRunner.KeyedLocks
