import Chattice.Client.Lifecycle

/-!
# What holds of the `Bot` at every step

* `Shared.Le` : tasks are only added, an outcome is final, and a closed `Bot` publishes no client;
  `botWorld_grows` : every call and every effect goes up in it;
* `Shared.Inv` : of each kind, every task but the one in the slot has failed, a cached client is what a
  task has returned, and only the cached clients have been published;
* `Inv.answer`, `Inv.drop`, `Inv.fail`, `Inv.finish` : the steps keep it.
-/

namespace Chattice.Lifecycle

open Asyncio

def Running (kind : Kind) (task : Nat) (s : Shared) : Prop := (s.tasks kind)[task]? = some none

/-- A task that has ended with `o`. -/
def Ended (kind : Kind) (task : Nat) (o : Except Exc kind.Val) (s : Shared) : Prop :=
  (s.tasks kind)[task]? = some (some o)

/-- A task that is no longer in its slot. -/
def Dropped (kind : Kind) (task : Nat) (s : Shared) : Prop :=
  task < (s.tasks kind).length ∧ s.slot kind ≠ some task

theorem Ended.lt_length {kind : Kind} {task : Nat} {o : Except Exc kind.Val} {s : Shared}
    (h : Ended kind task o s) : task < (s.tasks kind).length := (List.getElem?_eq_some_iff.mp h).1

theorem Ended.not_running {kind : Kind} {task : Nat} {o : Except Exc kind.Val} {s : Shared}
    (h : Ended kind task o s) : ¬ Running kind task s := by
  intro hrun
  rw [Running, show (s.tasks kind)[task]? = _ from h] at hrun
  cases hrun

theorem Ended.unique {kind : Kind} {task : Nat} {o o' : Except Exc kind.Val} {s : Shared}
    (h : Ended kind task o s) (h' : Ended kind task o' s) : o = o' := by
  have heq := h.symm.trans h'
  simpa using heq

theorem ended_congr {kind : Kind} {task : Nat} {o : Except Exc kind.Val} {s s' : Shared}
    (h : s'.tasks = s.tasks) : Ended kind task o s' ↔ Ended kind task o s := by
  unfold Ended
  rw [h]

theorem running_congr {kind : Kind} {task : Nat} {s s' : Shared} (h : s'.tasks = s.tasks) :
    Running kind task s' ↔ Running kind task s := by
  unfold Running
  rw [h]

/-- What never changes back. -/
structure Shared.Le (s s' : Shared) : Prop where
  ended : ∀ kind task o, Ended kind task o s → Ended kind task o s'
  length : ∀ kind, (s.tasks kind).length ≤ (s'.tasks kind).length
  closed : s.closed = true → s'.closed = true ∧ s'.published = s.published

theorem Shared.Le.refl (s : Shared) : s.Le s :=
  ⟨fun _ _ _ h => h, fun _ => Nat.le_refl _, fun h => ⟨h, rfl⟩⟩

theorem Shared.Le.trans {s s' s'' : Shared} (h : s.Le s') (h' : s'.Le s'') : s.Le s'' where
  ended := fun kind task o ho => h'.ended kind task o (h.ended kind task o ho)
  length := fun kind => (h.length kind).trans (h'.length kind)
  closed := fun hc => ⟨(h'.closed (h.closed hc).1).1,
    (h'.closed (h.closed hc).1).2.trans (h.closed hc).2⟩

/-! ## Statuses -/

section Statuses

variable {kind kind' : Kind} {task task' : Nat} {s : Shared}

theorem getTask_tasks (kind kind' : Kind) (s : Shared) :
    ((getTask kind s).2.tasks kind') = s.tasks kind' ∨
      s.slot kind = none ∧ kind' = kind ∧ ((getTask kind s).2.tasks kind') = s.tasks kind' ++ [none] := by
  unfold getTask
  cases hslot : s.slot kind with
  | some task => exact .inl rfl
  | none =>
    by_cases hk : kind' = kind
    · subst hk
      exact .inr ⟨rfl, rfl, Function.update_self ..⟩
    · exact .inl (Function.update_of_ne hk ..)

theorem ended_getTask {o : Except Exc kind'.Val} :
    Ended kind' task o (getTask kind s).2 ↔ Ended kind' task o s := by
  unfold Ended
  rcases getTask_tasks kind kind' s with h | ⟨-, -, h⟩
  · rw [h]
  · rw [h, List.getElem?_append]
    split
    · rfl
    · next hlt =>
      rw [List.getElem?_eq_none (Nat.not_lt.mp hlt)]
      cases task - (s.tasks kind').length <;> simp

theorem settle_tasks_self (o : Except Exc kind.Val) :
    (settle kind task o s).tasks kind = (s.tasks kind).modify task fun status =>
      some (status.getD o) := Function.update_self ..

theorem settle_tasks_of_ne (o : Except Exc kind.Val) (h : kind' ≠ kind) :
    (settle kind task o s).tasks kind' = s.tasks kind' := Function.update_of_ne h ..

theorem settle_length (o : Except Exc kind.Val) :
    ((settle kind task o s).tasks kind').length = (s.tasks kind').length := by
  by_cases hk : kind' = kind
  · subst hk
    rw [settle_tasks_self, List.length_modify]
  · rw [settle_tasks_of_ne o hk]

theorem Ended.settle {o : Except Exc kind.Val} {o' : Except Exc kind'.Val}
    (h : Ended kind' task' o' s) : Ended kind' task' o' (settle kind task o s) := by
  unfold Ended at *
  by_cases hk : kind' = kind
  · subst hk
    rw [settle_tasks_self]
    by_cases htask : task = task'
    · rw [htask, List.getElem?_modify_eq, h]
      rfl
    · rw [List.getElem?_modify_ne _ _ htask, h]
  · rw [settle_tasks_of_ne o hk, h]

theorem Running.settle {o : Except Exc kind.Val} (h : Running kind task s) :
    Ended kind task o (settle kind task o s) := by
  rw [Ended, settle_tasks_self, List.getElem?_modify_eq, show (s.tasks kind)[task]? = _ from h]
  rfl

theorem ended_of_settle {o : Except Exc kind.Val} {o' : Except Exc kind'.Val}
    (h : Ended kind' task' o' (settle kind task o s)) :
    Ended kind' task' o' s ∨ kind' = kind ∧ task' = task ∧ HEq o' o := by
  by_cases hk : kind' = kind
  · subst hk
    rw [Ended, settle_tasks_self] at h
    by_cases htask : task = task'
    · subst htask
      rw [List.getElem?_modify_eq] at h
      cases hstatus : (s.tasks kind')[task]? with
      | none => simp [hstatus] at h
      | some status =>
        rw [hstatus] at h
        cases status with
        | none => exact .inr ⟨rfl, rfl, heq_of_eq (by simpa [eq_comm] using h)⟩
        | some o'' => exact .inl (hstatus.trans h)
    · rw [List.getElem?_modify_ne _ _ htask] at h
      exact .inl h
  · rw [Ended, settle_tasks_of_ne o hk] at h
    exact .inl h

end Statuses

/-! ## The state only grows -/

section Grows

variable {config : Config} {kind : Kind} {task : Nat} {s s' : Shared}

@[simp] theorem getTask_closed : (getTask kind s).2.closed = s.closed := by
  unfold getTask
  split <;> rfl

@[simp] theorem getTask_published : (getTask kind s).2.published = s.published := by
  unfold getTask
  split <;> rfl

@[simp] theorem cached_getTask (kind' : Kind) : cached kind' (getTask kind s).2 = cached kind' s := by
  unfold getTask
  split
  · rfl
  · cases kind' <;> rfl

@[simp] theorem getTask_resolved : (getTask kind s).2.resolved = s.resolved := by
  unfold getTask
  split <;> rfl

theorem getTask_le : s.Le (getTask kind s).2 where
  ended := fun _ _ _ h => ended_getTask.mpr h
  length := by
    intro kind'
    rcases getTask_tasks kind kind' s with h | ⟨-, -, h⟩
    · rw [h]
    · rw [h, List.length_append]
      exact Nat.le_add_right _ _
  closed := fun h => ⟨by rw [getTask_closed, h], getTask_published⟩

/-- The first step of a caller takes a task, or nothing. -/
theorem request_state (kind : Kind) (s : Shared) :
    (request kind s).2 = s ∨ (request kind s).2 = (getTask kind s).2 := by
  unfold request
  split
  · exact .inl rfl
  · exact .inr rfl

/-- The first step of a shared task takes another one, or nothing. -/
theorem start_state (config : Config) (kind : Kind) (s : Shared) :
    (start config kind s).2 = s ∨ ∃ kind', (start config kind s).2 = (getTask kind' s).2 := by
  unfold start
  split
  · exact .inl rfl
  · cases kind with
    | credentials => exact .inl (by dsimp only; split <;> rfl)
    | userCredentials =>
      dsimp only
      split
      · exact .inl rfl
      · split
        · exact .inl rfl
        · exact .inr ⟨_, rfl⟩
    | client => exact .inr ⟨_, rfl⟩
    | userClient => exact .inr ⟨_, rfl⟩

@[simp] theorem drop_tasks : (drop kind task s).tasks = s.tasks := by
  unfold drop
  split <;> rfl

@[simp] theorem drop_resolved : (drop kind task s).resolved = s.resolved := by
  unfold drop
  split <;> rfl

theorem drop_le : s.Le (drop kind task s) := by
  unfold drop
  split
  · exact ⟨fun _ _ _ h => h, fun _ => Nat.le_refl _, fun h => ⟨h, rfl⟩⟩
  · exact .refl s

theorem settle_le {o : Except Exc kind.Val} : s.Le (settle kind task o s) where
  ended := fun _ _ _ h => h.settle
  length := fun _ => Nat.le_of_eq (settle_length o).symm
  closed := fun h => ⟨h, rfl⟩

theorem le_of_open (hopen : ¬ s.closed = true) (htasks : s'.tasks = s.tasks) : s.Le s' where
  ended := fun _ _ _ h => (ended_congr htasks).mpr h
  length := fun kind => by rw [htasks]
  closed := fun h => absurd h hopen

theorem buildClient_le {credentials : Option Credentials} (hopen : ¬ s.closed = true) :
    s.Le (buildClient config task credentials s).2 := by
  unfold buildClient
  split
  · exact le_of_open hopen rfl
  · split
    · exact .refl s
    · exact le_of_open hopen rfl

theorem finish_le {credentials : Option Credentials} :
    s.Le (finish config kind task credentials s) := by
  cases kind with
  | credentials =>
    have hle : s.Le { s with resolved := some credentials } :=
      ⟨fun _ _ _ h => h, fun _ => Nat.le_refl _, fun h => ⟨h, rfl⟩⟩
    exact hle.trans settle_le
  | userCredentials =>
    have hle : s.Le { s with resolvedUser := some credentials } :=
      ⟨fun _ _ _ h => h, fun _ => Nat.le_refl _, fun h => ⟨h, rfl⟩⟩
    exact hle.trans settle_le
  | client =>
    change s.Le (finishClient config task credentials s)
    unfold finishClient
    split
    · exact settle_le
    · next hopen => exact (buildClient_le hopen).trans settle_le
  | userClient =>
    change s.Le (finishUserClient config task credentials s)
    unfold finishUserClient
    split
    · exact settle_le
    · split
      · exact settle_le
      · next hopen =>
        refine .trans (le_of_open hopen ?_) settle_le
        unfold buildUserClient
        split <;> rfl

/-- The last step of a task settles it, and changes none of the others. -/
theorem finish_eq (config : Config) (kind : Kind) (task : Nat) (credentials : Option Credentials)
    (s : Shared) : ∃ o s', finish config kind task credentials s = settle kind task o s' ∧
      s'.tasks = s.tasks ∧ s'.slot = s.slot ∧ (kind ≠ .credentials → s'.resolved = s.resolved) := by
  cases kind with
  | credentials => exact ⟨_, _, rfl, rfl, rfl, fun h => absurd rfl h⟩
  | userCredentials => exact ⟨_, _, rfl, rfl, rfl, fun _ => rfl⟩
  | client =>
    change ∃ o s', finishClient config task credentials s = settle .client task o s' ∧ _
    unfold finishClient buildClient
    split
    · exact ⟨_, _, rfl, rfl, rfl, fun _ => rfl⟩
    · split
      · exact ⟨_, _, rfl, rfl, rfl, fun _ => rfl⟩
      · split
        · exact ⟨_, _, rfl, rfl, rfl, fun _ => rfl⟩
        · exact ⟨_, _, rfl, rfl, rfl, fun _ => rfl⟩
  | userClient =>
    change ∃ o s', finishUserClient config task credentials s = settle .userClient task o s' ∧ _
    unfold finishUserClient buildUserClient
    split
    · exact ⟨_, _, rfl, rfl, rfl, fun _ => rfl⟩
    · split
      · exact ⟨_, _, rfl, rfl, rfl, fun _ => rfl⟩
      · split
        · exact ⟨_, _, rfl, rfl, rfl, fun _ => rfl⟩
        · exact ⟨_, _, rfl, rfl, rfl, fun _ => rfl⟩

theorem ended_finish {kind' : Kind} {task' : Nat} {o : Except Exc kind'.Val}
    {credentials : Option Credentials} (h : Ended kind' task' o (finish config kind task credentials s)) :
    Ended kind' task' o s ∨ kind' = kind ∧ task' = task := by
  obtain ⟨o', s', heq, htasks, -, -⟩ := finish_eq config kind task credentials s
  rw [heq] at h
  rcases ended_of_settle h with hold | ⟨hkind, htask, -⟩
  · exact .inl ((ended_congr htasks).mp hold)
  · exact .inr ⟨hkind, htask⟩

/-- What a call may do to the `Bot`: nothing, get a task, or close it. -/
theorem answer_cases {c : Call} {r : Outcome Exc c.Res} (ha : Answer config c s r s') :
    s' = s ∨ (∃ kind, s' = (getTask kind s).2) ∨
      ¬ s.closed = true ∧ s' = { s with closed := true } := by
  cases c with
  | request kind =>
    rcases ha with ⟨-, rfl⟩ | ⟨-, rfl⟩
    · exact (request_state kind s).imp_right fun h => .inl ⟨kind, h⟩
    · exact .inl rfl
  | start kind =>
    obtain ⟨-, rfl⟩ := ha
    exact (start_state config kind s).imp_right .inl
  | join kind task waiter => exact .inl ha.2
  | provider kind => exact .inl ha.2
  | beginClose =>
    rw [ha.2]
    unfold beginClose
    split
    · exact .inl rfl
    · next hopen => exact .inr (.inr ⟨hopen, rfl⟩)
  | clients => exact .inl ha.2
  | closeTransport transport => exact .inl ha.2

theorem answer_le {c : Call} {r : Outcome Exc c.Res} (ha : Answer config c s r s') : s.Le s' := by
  rcases answer_cases ha with rfl | ⟨kind, rfl⟩ | ⟨hopen, rfl⟩
  · exact .refl _
  · exact getTask_le
  · exact le_of_open hopen rfl

theorem ended_answer {o : Except Exc kind.Val} {c : Call} {r : Outcome Exc c.Res}
    (ha : Answer config c s r s') : Ended kind task o s' ↔ Ended kind task o s := by
  rcases answer_cases ha with rfl | ⟨kind', rfl⟩ | ⟨-, rfl⟩
  · rfl
  · exact ended_getTask
  · rfl

theorem answer_resolved {c : Call} {r : Outcome Exc c.Res} (ha : Answer config c s r s') :
    s'.resolved = s.resolved := by
  rcases answer_cases ha with rfl | ⟨kind', rfl⟩ | ⟨-, rfl⟩
  · rfl
  · exact getTask_resolved
  · rfl

/-- No call drops a task: `getTask` fills an empty slot with a new one. -/
theorem dropped_answer {c : Call} {r : Outcome Exc c.Res} (ha : Answer config c s r s') :
    Dropped kind task s' ↔ Dropped kind task s := by
  rcases answer_cases ha with rfl | ⟨kind', rfl⟩ | ⟨-, rfl⟩
  · rfl
  · unfold Dropped getTask
    split
    · rfl
    · next hslot =>
      dsimp only
      by_cases hk : kind = kind'
      · subst hk
        rw [Function.update_self, Function.update_self, List.length_append, List.length_singleton,
          hslot]
        grind
      · rw [Function.update_of_ne hk, Function.update_of_ne hk]
  · rfl

/-- A waiter that is raised the failure of a task drops that task and no other one. -/
theorem dropped_drop {kind' : Kind} {task' : Nat} (hlt : task < (s.tasks kind).length) :
    Dropped kind' task' (drop kind task s) ↔ Dropped kind' task' s ∨ kind' = kind ∧ task' = task := by
  have hslot : (drop kind task s).slot kind' =
      if kind' = kind ∧ s.slot kind = some task then none else s.slot kind' := by
    unfold drop
    by_cases hk : kind' = kind
    · subst hk
      split <;> simp [*]
    · split <;> simp [hk]
  rw [Dropped, Dropped, drop_tasks, hslot]
  grind

theorem dropped_settle {kind' : Kind} {task' : Nat} {o : Except Exc kind.Val} :
    Dropped kind' task' (settle kind task o s) ↔ Dropped kind' task' s := by
  unfold Dropped
  rw [settle_length]
  rfl

theorem dropped_finish {kind' : Kind} {task' : Nat} {credentials : Option Credentials} :
    Dropped kind' task' (finish config kind task credentials s) ↔ Dropped kind' task' s := by
  obtain ⟨o, s', heq, htasks, hslot, -⟩ := finish_eq config kind task credentials s
  rw [heq, dropped_settle]
  unfold Dropped
  rw [htasks, hslot]

theorem botWorld_grows (config : Config) : (botWorld config).Grows Shared.Le where
  refl := .refl
  trans := fun _ _ _ h h' => h.trans h'
  act := by
    intro e s
    cases e with
    | drop kind task => exact drop_le
    | finish kind task credentials => exact finish_le
    | fail kind task e => exact settle_le
    | answered kind o => exact .refl s
    | closed o => exact .refl s
  answer := fun _ _ _ _ ha => answer_le ha

end Grows

/-! ## The invariant -/

/-- Of each kind, the task in the slot is the last one, every other one has failed, and a cached client is
what a task has returned. Only cached clients have been published. -/
structure Shared.Inv (s : Shared) : Prop where
  slot : ∀ kind task, s.slot kind = some task → task + 1 = (s.tasks kind).length
  failed : ∀ kind task, task < (s.tasks kind).length → s.slot kind ≠ some task →
    ∃ e, Ended kind task (.error e) s
  cached : ∀ kind value, cached kind s = some value → ∃ task, Ended kind task (.ok value) s
  published : ∀ transport ∈ s.published,
    Lifecycle.cached .client s = some transport ∨ Lifecycle.cached .userClient s = some transport

namespace Shared.Inv

variable {config : Config} {kind : Kind} {task : Nat} {s s' : Shared}

theorem new : Shared.new.Inv where
  slot := nofun
  failed := fun _ _ h => absurd h (Nat.not_lt_zero _)
  cached := fun kind _ h => by cases kind <;> cases h
  published := nofun

theorem lt_length (h : Running kind task s) : task < (s.tasks kind).length :=
  (List.getElem?_eq_some_iff.mp h).1

/-- A running task is in the slot. -/
theorem slot_of_running (hI : s.Inv) (h : Running kind task s) : s.slot kind = some task := by
  by_contra hslot
  obtain ⟨e, he⟩ := hI.failed kind task (lt_length h) hslot
  exact he.not_running h

/-- A task that has returned is in the slot. -/
theorem slot_of_returned (hI : s.Inv) {value : kind.Val} (h : Ended kind task (.ok value) s) :
    s.slot kind = some task := by
  by_contra hslot
  obtain ⟨e, he⟩ := hI.failed kind task h.lt_length hslot
  cases he.unique h

/-- While a task runs no other one has returned. -/
theorem not_returned (hI : s.Inv) (h : Running kind task s) {task' : Nat} {value : kind.Val} :
    ¬ Ended kind task' (.ok value) s := by
  intro h'
  obtain rfl : task' = task :=
    Option.some.inj ((hI.slot_of_returned h').symm.trans (hI.slot_of_running h))
  exact h'.not_running h

theorem cached_of_running (hI : s.Inv) (h : Running kind task s) : Lifecycle.cached kind s = none := by
  cases hcached : Lifecycle.cached kind s with
  | none => rfl
  | some value =>
    obtain ⟨task', h'⟩ := hI.cached kind value hcached
    exact absurd h' (hI.not_returned h)

theorem getTask (hI : s.Inv) (kind : Kind) : (getTask kind s).2.Inv where
  slot := by
    intro kind' task' hslot
    unfold Lifecycle.getTask at hslot ⊢
    cases hs : s.slot kind with
    | some task =>
      rw [hs] at hslot
      exact hI.slot kind' task' hslot
    | none =>
      rw [hs] at hslot
      dsimp only at hslot ⊢
      by_cases hk : kind' = kind
      · subst hk
        rw [Function.update_self] at hslot ⊢
        rw [List.length_append, ← Option.some.inj hslot]
        rfl
      · rw [Function.update_of_ne hk] at hslot ⊢
        exact hI.slot kind' task' hslot
  failed := by
    intro kind' task' hlt hslot
    suffices h : ∃ e, Ended kind' task' (.error e) s from h.imp fun e he => ended_getTask.mpr he
    unfold Lifecycle.getTask at hslot hlt
    cases hs : s.slot kind with
    | some task =>
      rw [hs] at hslot hlt
      exact hI.failed kind' task' hlt hslot
    | none =>
      rw [hs] at hslot hlt
      dsimp only at hslot hlt
      by_cases hk : kind' = kind
      · subst hk
        rw [Function.update_self] at hslot hlt
        rw [List.length_append, List.length_singleton] at hlt
        refine hI.failed kind' task' ?_ (by rw [hs]; exact nofun)
        exact Nat.lt_of_le_of_ne (Nat.le_of_lt_succ hlt) fun heq => hslot (congrArg some heq.symm)
      · rw [Function.update_of_ne hk] at hslot hlt
        exact hI.failed kind' task' hlt hslot
  cached := by
    intro kind' value h
    rw [cached_getTask] at h
    exact (hI.cached kind' value h).imp fun _ ht => ended_getTask.mpr ht
  published := by
    intro transport h
    rw [getTask_published] at h
    rw [cached_getTask, cached_getTask]
    exact hI.published transport h

/-- Only a task that has failed is dropped. -/
theorem drop (hI : s.Inv) {e : Exc} (he : Ended kind task (.error e) s) : (drop kind task s).Inv := by
  unfold Lifecycle.drop
  split
  · next hslot =>
    refine ⟨fun kind' task' h => ?_, fun kind' task' hlt h => ?_, fun kind' value h => ?_,
      hI.published⟩
    · replace h : Function.update s.slot kind none kind' = some task' := h
      by_cases hk : kind' = kind
      · rw [hk, Function.update_self] at h
        cases h
      · rw [Function.update_of_ne hk] at h
        exact hI.slot kind' task' h
    · replace h : Function.update s.slot kind none kind' ≠ some task' := h
      by_cases hk : kind' = kind
      · subst hk
        by_cases ht : task' = task
        · exact ⟨e, ht ▸ he⟩
        · exact hI.failed kind' task' hlt fun heq => ht (Option.some.inj (heq.symm.trans hslot))
      · rw [Function.update_of_ne hk] at h
        exact hI.failed kind' task' hlt h
    · refine hI.cached kind' value ?_
      cases kind' <;> exact h
  · exact hI

theorem fail (hI : s.Inv) (kind : Kind) (task : Nat) (e : Exc) :
    (settle kind task (.error e) s).Inv where
  slot := fun kind' task' hslot => by
    rw [settle_length]
    exact hI.slot kind' task' hslot
  failed := fun kind' task' hlt hslot => by
    rw [settle_length] at hlt
    exact (hI.failed kind' task' hlt hslot).imp fun _ he => he.settle
  cached := fun kind' value hcached => by
    refine (hI.cached kind' value ?_).imp fun _ ht => ht.settle
    cases kind' <;> exact hcached
  published := hI.published

theorem succeed (hI : s.Inv) (h : Running kind task s) (value : kind.Val)
    (hslot : s'.slot = s.slot) (htasks : s'.tasks = s.tasks)
    (hcached : ∀ kind', Lifecycle.cached kind' s' = Lifecycle.cached kind' s ∨
      ∃ heq : kind' = kind, Lifecycle.cached kind' s' = some (heq ▸ value))
    (hpublished : ∀ transport ∈ s'.published,
      Lifecycle.cached .client s' = some transport ∨ Lifecycle.cached .userClient s' = some transport) :
    (settle kind task (.ok value) s').Inv where
  slot := fun kind' task' h' => by
    rw [settle_length, htasks]
    exact hI.slot kind' task' (hslot ▸ h')
  failed := fun kind' task' hlt h' => by
    rw [settle_length, htasks] at hlt
    obtain ⟨e, he⟩ := hI.failed kind' task' hlt (hslot ▸ h')
    exact ⟨e, ((ended_congr htasks).mpr he).settle⟩
  cached := fun kind' value' h' => by
    replace h' : Lifecycle.cached kind' s' = some value' := by cases kind' <;> exact h'
    rcases hcached kind' with hold | ⟨rfl, hnew⟩
    · obtain ⟨task', ht⟩ := hI.cached kind' value' (hold ▸ h')
      exact ⟨task', ((ended_congr htasks).mpr ht).settle⟩
    · obtain rfl : value = value' := Option.some.inj (hnew.symm.trans h')
      exact ⟨task, ((running_congr htasks).mpr h).settle⟩
  published := hpublished

theorem publish (hI : s.Inv) (h : Running .client task s) (transport : Transport) :
    (settle .client task (.ok transport) (publish transport s)).Inv := by
  refine hI.succeed h transport rfl rfl (fun kind' => ?_) fun transport' hmem => ?_
  · cases kind' with
    | client => exact .inr ⟨rfl, rfl⟩
    | credentials => exact .inl rfl
    | userCredentials => exact .inl rfl
    | userClient => exact .inl rfl
  · rcases List.mem_append.mp hmem with hold | hnew
    · rcases hI.published transport' hold with hclient | huser
      · rw [hI.cached_of_running h] at hclient
        cases hclient
      · exact .inr huser
    · rw [List.mem_singleton.mp hnew]
      exact .inl rfl

theorem publishUser (hI : s.Inv) (h : Running .userClient task s) (transport : Transport) :
    (settle .userClient task (.ok transport) (publishUser transport s)).Inv := by
  refine hI.succeed h transport rfl rfl (fun kind' => ?_) fun transport' hmem => ?_
  · cases kind' with
    | userClient => exact .inr ⟨rfl, rfl⟩
    | credentials => exact .inl rfl
    | userCredentials => exact .inl rfl
    | client => exact .inl rfl
  · rcases List.mem_append.mp hmem with hold | hnew
    · rcases hI.published transport' hold with hclient | huser
      · exact .inl hclient
      · rw [hI.cached_of_running h] at huser
        cases huser
    · rw [List.mem_singleton.mp hnew]
      exact .inr rfl

theorem finish (hI : s.Inv) (h : Running kind task s) (credentials : Option Credentials) :
    (finish config kind task credentials s).Inv := by
  cases kind with
  | credentials =>
    exact hI.succeed h credentials rfl rfl (fun kind' => .inl (by cases kind' <;> rfl)) hI.published
  | userCredentials =>
    exact hI.succeed h credentials rfl rfl (fun kind' => .inl (by cases kind' <;> rfl)) hI.published
  | client =>
    change (finishClient config task credentials s).Inv
    unfold finishClient buildClient
    split
    · exact hI.fail _ _ _
    · split
      · exact hI.publish h _
      · split
        · exact hI.fail _ _ _
        · exact hI.publish h _
  | userClient =>
    change (finishUserClient config task credentials s).Inv
    unfold finishUserClient buildUserClient
    split
    · exact hI.fail _ _ _
    · split
      · exact hI.fail _ _ _
      · split
        · exact hI.publishUser h _
        · exact hI.publishUser h _

theorem answer (hI : s.Inv) {c : Call} {r : Outcome Exc c.Res} (ha : Answer config c s r s') :
    s'.Inv := by
  rcases answer_cases ha with rfl | ⟨kind, rfl⟩ | ⟨-, rfl⟩
  · exact hI
  · exact hI.getTask kind
  · refine ⟨hI.slot, hI.failed, fun kind value h => hI.cached kind value ?_, hI.published⟩
    cases kind <;> exact h

end Shared.Inv

end Chattice.Lifecycle
