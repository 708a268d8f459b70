import Mathlib.Data.List.Nodup

/-!
# `asyncio.Lock`

A lock is a flag and a queue of tasks, each with the future it awaits. An operation is what runs between
two awaits.

* `acquire`, `resume`, `cancel`, `release` : a task takes the lock or queues up, runs again once its
  future is done, is cancelled while it waits, and gives the lock back;
* `Ok` : only the first task in the queue is ever woken, and only while the lock is free; a free lock has
  woken, or is about to hear of, the first task in its queue;
* `Ok.acquire`, `Ok.resume`, `Ok.cancel`, `Ok.release` : every operation keeps it, and a task that takes
  the lock finds it free;
* `Ok.exists_resume` : while the lock is free, a task in its queue can run;
* `Ok.head_of_taken`, `isCancelled_of_acquire` : a task takes the lock as the first of its queue, or past
  cancelled tasks only.
-/

namespace Asyncio

/-- The future of a waiting task. A task may be cancelled after its future was set to wake it. -/
inductive Fut where
  | pending | woken | cancelled | wokenCancelled
  deriving DecidableEq, Repr

namespace Fut

/-- The lock has set the future. -/
def granted : Fut → Bool
  | .woken | .wokenCancelled => true
  | _ => false

/-- `task.cancel()` -/
def cancel : Fut → Fut
  | .pending => .cancelled
  | .woken => .wokenCancelled
  | fut => fut

@[simp]
theorem granted_cancel (fut : Fut) : fut.cancel.granted = fut.granted := by
  cases fut <;> rfl

theorem cancel_ne_pending (fut : Fut) : fut.cancel ≠ .pending := by
  cases fut <;> nofun

end Fut

structure Lock (T : Type) where
  locked : Bool
  waiters : List (T × Fut)

namespace Lock

variable {T : Type}

/-- `asyncio.Lock()` -/
def new : Lock T := ⟨false, []⟩

def tasks (l : Lock T) : List T := l.waiters.map Prod.fst

/-- `_wake_up_first`: nothing happens when its future is done. -/
def wakeUpFirst (l : Lock T) : Lock T :=
  match l.waiters with
  | (t, .pending) :: rest => { l with waiters := (t, .woken) :: rest }
  | _ => l

/-- `acquire` up to its `await`: the lock is taken at once, or the task queues up. -/
def acquire (l : Lock T) (t : T) : Lock T × Bool :=
  if l.locked = false ∧ l.waiters.all (fun w => w.2 == .cancelled) then ({ l with locked := true }, true)
  else ({ l with waiters := l.waiters ++ [(t, .pending)] }, false)

/-- `release` -/
def release (l : Lock T) : Except String (Lock T) :=
  if l.locked then .ok (wakeUpFirst { l with locked := false }) else .error "Lock is not acquired."

section Queue

variable [DecidableEq T]

def remove (l : Lock T) (t : T) : Lock T :=
  { l with waiters := l.waiters.filter fun w => w.1 ≠ t }

def leave (l : Lock T) (t : T) : Lock T :=
  if l.locked then l.remove t else (l.remove t).wakeUpFirst

/-- `acquire` after its `await`, and whether it has taken the lock; a pending future does not run. -/
def resume (l : Lock T) (t : T) : Option (Lock T × Bool) :=
  match l.waiters.lookup t with
  | none | some .pending => none
  | some .woken => some ({ l.remove t with locked := true }, true)
  | some .cancelled | some .wokenCancelled => some (l.leave t, false)

/-- The task was cancelled while it waited, and has not run since. -/
def isCancelled (l : Lock T) (t : T) : Bool :=
  match l.waiters.lookup t with
  | some .cancelled | some .wokenCancelled => true
  | _ => false

/-- The task is cancelled while it waits. -/
def cancel (l : Lock T) (t : T) : Lock T :=
  { l with waiters := l.waiters.map fun w => if w.1 = t then (w.1, w.2.cancel) else w }

end Queue

/-! ## The invariant -/

structure Ok (l : Lock T) : Prop where
  nodup : l.tasks.Nodup
  rest : ∀ w ∈ l.waiters.tail, w.2.granted = false
  locked : l.locked = true → ∀ w ∈ l.waiters, w.2.granted = false
  awake : l.locked = false → ∀ w ∈ l.waiters.head?, w.2 ≠ .pending

theorem ok_new : (new : Lock T).Ok where
  nodup := .nil
  rest := nofun
  locked := nofun
  awake := nofun

theorem tasks_wakeUpFirst (l : Lock T) : l.wakeUpFirst.tasks = l.tasks := by
  unfold wakeUpFirst
  split
  · next hwaiters => rw [tasks, tasks, hwaiters, List.map_cons, List.map_cons]
  · rfl

theorem locked_wakeUpFirst (l : Lock T) : l.wakeUpFirst.locked = l.locked := by
  unfold wakeUpFirst
  split <;> rfl

theorem ok_wakeUpFirst {l : Lock T} (hnodup : l.tasks.Nodup)
    (hrest : ∀ w ∈ l.waiters.tail, w.2.granted = false) (hfree : l.locked = false) :
    l.wakeUpFirst.Ok := by
  have hlocked : l.wakeUpFirst.locked = true → ∀ w ∈ l.wakeUpFirst.waiters, w.2.granted = false := by
    intro h
    rw [locked_wakeUpFirst, hfree] at h
    cases h
  refine ⟨by rwa [tasks_wakeUpFirst], ?_, hlocked, ?_⟩
  · unfold wakeUpFirst
    split
    · next hwaiters =>
      rw [hwaiters] at hrest
      exact hrest
    · exact hrest
  · intro _ w hw
    unfold wakeUpFirst at hw
    split at hw
    · cases hw
      nofun
    · next hother =>
      rintro hpending
      cases hwaiters : l.waiters with
      | nil =>
        rw [hwaiters] at hw
        cases hw
      | cons head tail =>
        rw [hwaiters] at hw
        cases hw
        exact hother w.1 tail (by rw [hwaiters, ← hpending])

/-! ## The operations -/

theorem Ok.release {l l' : Lock T} (h : l.Ok) (hl' : l.release = .ok l') : l'.Ok := by
  unfold Lock.release at hl'
  split at hl'
  · cases hl'
    exact ok_wakeUpFirst h.nodup h.rest rfl
  · cases hl'

theorem release_of_locked {l : Lock T} (hlocked : l.locked = true) :
    ∃ l', l.release = .ok l' ∧ l'.tasks = l.tasks ∧ l'.locked = false := by
  refine ⟨_, if_pos hlocked, tasks_wakeUpFirst _, locked_wakeUpFirst _⟩

theorem acquire_cases (l : Lock T) (t : T) :
    ((l.acquire t).2 = true ∧ l.locked = false ∧ (l.acquire t).1.locked = true ∧
      (l.acquire t).1.tasks = l.tasks) ∨
    ((l.acquire t).2 = false ∧ (l.acquire t).1.locked = l.locked ∧
      (l.acquire t).1.tasks = l.tasks ++ [t]) := by
  unfold acquire
  split
  · next h => exact .inl ⟨rfl, h.1, rfl, rfl⟩
  · refine .inr ⟨rfl, rfl, ?_⟩
    rw [tasks, List.map_append]
    rfl

theorem acquire_of_tasks_eq_nil {l : Lock T} (hfree : l.locked = false) (htasks : l.tasks = []) (t : T) :
    (l.acquire t).2 = true := by
  unfold acquire
  rw [if_pos]
  rw [List.map_eq_nil_iff.mp htasks]
  exact ⟨hfree, rfl⟩

theorem Ok.acquire {l : Lock T} (h : l.Ok) {t : T} (ht : t ∉ l.tasks) : (l.acquire t).1.Ok := by
  unfold Lock.acquire
  split
  · next hfree =>
    have hcancelled : ∀ w ∈ l.waiters, w.2.granted = false := by
      intro w hw
      rw [beq_iff_eq.mp (List.all_eq_true.mp hfree.2 w hw)]
      rfl
    exact ⟨h.nodup, h.rest, fun _ => hcancelled, nofun⟩
  · next htaken =>
    refine ⟨?_, ?_, ?_, ?_⟩
    · rw [tasks, List.map_append]
      exact List.nodup_append.mpr ⟨h.nodup, List.nodup_singleton _, by
        rintro a ha b hb rfl
        rw [List.mem_singleton.mp hb] at ha
        exact ht ha⟩
    · intro w hw
      cases hwaiters : l.waiters with
      | nil =>
        rw [hwaiters] at hw
        cases hw
      | cons head tail =>
        rw [hwaiters] at hw
        obtain hold | hnew := List.mem_append.mp hw
        · exact h.rest w (by rwa [hwaiters])
        · rw [List.mem_singleton.mp hnew]
          rfl
    · intro hlocked w hw
      obtain hold | hnew := List.mem_append.mp hw
      · exact h.locked hlocked w hold
      · rw [List.mem_singleton.mp hnew]
        rfl
    · intro hfree w hw
      cases hwaiters : l.waiters with
      | nil =>
        rw [hwaiters] at htaken
        exact absurd ⟨hfree, rfl⟩ htaken
      | cons head tail =>
        rw [hwaiters] at hw
        exact h.awake hfree w (by rwa [hwaiters])

/-- A task with a granted future is the first in the queue of a free lock. -/
theorem Ok.head_of_granted {l : Lock T} (h : l.Ok) {w : T × Fut} (hw : w ∈ l.waiters)
    (hgranted : w.2.granted = true) : l.locked = false ∧ l.waiters = w :: l.waiters.tail := by
  constructor
  · cases hlocked : l.locked with
    | false => rfl
    | true =>
      rw [h.locked hlocked w hw] at hgranted
      cases hgranted
  · cases hwaiters : l.waiters with
    | nil =>
      rw [hwaiters] at hw
      cases hw
    | cons head rest =>
      have hrest := h.rest w
      rw [hwaiters] at hw hrest
      obtain rfl | htail := List.mem_cons.mp hw
      · rfl
      · rw [hrest htail] at hgranted
        cases hgranted

variable [DecidableEq T]

theorem tasks_cancel (l : Lock T) (t : T) : (l.cancel t).tasks = l.tasks := by
  rw [tasks, cancel, List.map_map]
  refine List.map_congr_left fun w _ => ?_
  show (if w.1 = t then (w.1, w.2.cancel) else w).1 = w.1
  split <;> rfl

theorem Ok.cancel {l : Lock T} (h : l.Ok) (t : T) : (l.cancel t).Ok := by
  have hgranted (w : T × Fut) : (if w.1 = t then (w.1, w.2.cancel) else w).2.granted = w.2.granted := by
    split
    · exact w.2.granted_cancel
    · rfl
  refine ⟨by rw [tasks_cancel]; exact h.nodup, ?_, ?_, ?_⟩
  · intro w hw
    rw [Lock.cancel, ← List.map_tail] at hw
    obtain ⟨w', hw', rfl⟩ := List.mem_map.mp hw
    rw [hgranted]
    exact h.rest w' hw'
  · intro hlocked w hw
    obtain ⟨w', hw', rfl⟩ := List.mem_map.mp hw
    rw [hgranted]
    exact h.locked hlocked w' hw'
  · intro hfree w hw
    rw [Lock.cancel, List.head?_map] at hw
    obtain ⟨w', hw', rfl⟩ := Option.map_eq_some_iff.mp hw
    split
    · exact w'.2.cancel_ne_pending
    · exact h.awake hfree w' hw'

theorem mem_tasks_remove {l : Lock T} {t t' : T} :
    t' ∈ (l.remove t).tasks ↔ t' ∈ l.tasks ∧ t' ≠ t := by
  simp [tasks, remove]

theorem nodup_remove {l : Lock T} (h : l.tasks.Nodup) (t : T) : (l.remove t).tasks.Nodup :=
  h.sublist (List.Sublist.map _ List.filter_sublist)

/-- The first task may leave the queue, and so may another. -/
theorem rest_remove {l : Lock T} (h : ∀ w ∈ l.waiters.tail, w.2.granted = false) (t : T) :
    ∀ w ∈ (l.remove t).waiters.tail, w.2.granted = false := by
  intro w hw
  unfold remove at hw
  cases hwaiters : l.waiters with
  | nil =>
    rw [hwaiters] at hw
    cases hw
  | cons head rest =>
    rw [hwaiters] at h
    rw [hwaiters, List.filter_cons] at hw
    split at hw
    · exact h w (List.mem_filter.mp hw).1
    · exact h w (List.mem_filter.mp (List.mem_of_mem_tail hw)).1

theorem mem_waiters_of_lookup {l : Lock T} {t : T} {fut : Fut} (h : l.waiters.lookup t = some fut) :
    (t, fut) ∈ l.waiters := by
  obtain ⟨l₁, l₂, heq, -⟩ := List.lookup_eq_some_iff.mp h
  rw [heq]
  exact List.mem_append_right _ List.mem_cons_self

theorem resume_of_isCancelled {l : Lock T} {t : T} (h : l.isCancelled t = true) :
    l.resume t = some (l.leave t, false) := by
  unfold isCancelled at h
  unfold resume
  split at h
  · next hlookup => rw [hlookup]
  · next hlookup => rw [hlookup]
  · cases h

theorem isCancelled_of_resume {l l' : Lock T} {t : T} (h : l.resume t = some (l', false)) :
    l.isCancelled t = true := by
  unfold resume at h
  unfold isCancelled
  split at h
  · cases h
  · cases h
  · cases h
  · next hlookup => rw [hlookup]
  · next hlookup => rw [hlookup]

theorem locked_leave (l : Lock T) (t : T) : (l.leave t).locked = l.locked := by
  unfold leave
  split
  · rfl
  · exact locked_wakeUpFirst _

theorem mem_tasks_leave {l : Lock T} {t t' : T} :
    t' ∈ (l.leave t).tasks ↔ t' ∈ l.tasks ∧ t' ≠ t := by
  unfold leave
  split
  · exact mem_tasks_remove
  · rw [tasks_wakeUpFirst]
    exact mem_tasks_remove

theorem Ok.leave {l : Lock T} (h : l.Ok) (t : T) : (l.leave t).Ok := by
  unfold Lock.leave
  split
  · next hlocked =>
    refine ⟨nodup_remove h.nodup t, rest_remove h.rest t, ?_, ?_⟩
    · intro _ w hw
      exact h.locked hlocked w (List.mem_filter.mp hw).1
    · intro hfree
      rw [show (l.remove t).locked = l.locked from rfl, hlocked] at hfree
      cases hfree
  · next hfree =>
    exact ok_wakeUpFirst (nodup_remove h.nodup t) (rest_remove h.rest t) (Bool.eq_false_iff.mpr hfree)

/-- A task that is woken leaves the queue with the lock, which is free. -/
theorem Ok.take {l : Lock T} (h : l.Ok) {t : T} (ht : (t, .woken) ∈ l.waiters) :
    l.locked = false ∧ Ok { l.remove t with locked := true } := by
  obtain ⟨hfree, hhead⟩ := h.head_of_granted ht rfl
  have hothers : ∀ w ∈ (l.remove t).waiters, w.2.granted = false := by
    intro w hw
    obtain ⟨hw, hne⟩ := List.mem_filter.mp hw
    rw [hhead] at hw
    obtain rfl | htail := List.mem_cons.mp hw
    · simp at hne
    · exact h.rest w htail
  exact ⟨hfree, nodup_remove h.nodup t, rest_remove h.rest t, fun _ => hothers, nofun⟩

/-- How a task runs again: it takes the lock, which is free, or it goes. -/
structure Resumed (l l' : Lock T) (t : T) (taken : Bool) : Prop where
  ok : l'.Ok
  tasks : ∀ t', t' ∈ l'.tasks ↔ t' ∈ l.tasks ∧ t' ≠ t
  free : taken = true → l.locked = false
  locked : l'.locked = (taken || l.locked)

theorem Ok.resume {l : Lock T} (h : l.Ok) {t : T} {r : Lock T × Bool} (hr : l.resume t = some r) :
    Resumed l r.1 t r.2 := by
  unfold Lock.resume at hr
  split at hr
  · cases hr
  · cases hr
  · next hlookup =>
    cases hr
    obtain ⟨hfree, hok⟩ := h.take (mem_waiters_of_lookup hlookup)
    exact ⟨hok, fun _ => mem_tasks_remove, fun _ => hfree, rfl⟩
  · cases hr
    exact ⟨h.leave t, fun _ => mem_tasks_leave, nofun, locked_leave l t⟩
  · cases hr
    exact ⟨h.leave t, fun _ => mem_tasks_leave, nofun, locked_leave l t⟩

theorem Ok.exists_resume {l : Lock T} (h : l.Ok) (hfree : l.locked = false) (hwaiters : l.tasks ≠ []) :
    ∃ t ∈ l.tasks, (l.resume t).isSome = true := by
  cases heq : l.waiters with
  | nil =>
    rw [tasks, heq] at hwaiters
    exact absurd rfl hwaiters
  | cons head rest =>
    obtain ⟨t, fut⟩ := head
    have hawake : fut ≠ .pending := h.awake hfree (t, fut) (by rw [heq]; rfl)
    refine ⟨t, by rw [tasks, heq]; exact List.mem_cons_self, ?_⟩
    unfold Lock.resume
    rw [heq, List.lookup_cons_self]
    cases fut with
    | pending => exact absurd rfl hawake
    | _ => rfl

/-! ## The order of the queue -/

section Order

variable {T : Type}

variable [DecidableEq T]

theorem isCancelled_iff {l : Lock T} {t : T} : l.isCancelled t = true ↔
    l.waiters.lookup t = some .cancelled ∨ l.waiters.lookup t = some .wokenCancelled := by
  unfold isCancelled
  split <;> simp_all

theorem isCancelled_congr {l l' : Lock T} {t : T} (h : l'.waiters.lookup t = l.waiters.lookup t) :
    l'.isCancelled t = l.isCancelled t := by
  rw [isCancelled, isCancelled, h]

/-- A lock that is taken at once leaves behind a queue of cancelled tasks. -/
theorem isCancelled_of_acquire {l : Lock T} {t t' : T} (h : (l.acquire t).2 = true) (ht' : t' ∈ l.tasks) :
    l.isCancelled t' = true := by
  unfold acquire at h
  split at h
  · next hfree =>
    cases hlookup : l.waiters.lookup t' with
    | none =>
      obtain ⟨w, hw, rfl⟩ := List.mem_map.mp ht'
      exact absurd (List.lookup_eq_none_iff.mp hlookup w hw) (by simp)
    | some fut =>
      have hfut := List.all_eq_true.mp hfree.2 _ (mem_waiters_of_lookup hlookup)
      rw [isCancelled_iff, hlookup]
      exact .inl (congrArg some (beq_iff_eq.mp hfut))
  · cases h

/-- Only a future that is still pending is set. -/
@[simp]
theorem isCancelled_wakeUpFirst (l : Lock T) (t : T) : l.wakeUpFirst.isCancelled t = l.isCancelled t := by
  unfold wakeUpFirst
  split
  · next first rest hwaiters =>
    rw [isCancelled, isCancelled, hwaiters, List.lookup_cons, List.lookup_cons]
    cases t == first <;> rfl
  · rfl

theorem lookup_remove (l : Lock T) {t t' : T} (hne : t' ≠ t) :
    (l.remove t).waiters.lookup t' = l.waiters.lookup t' := by
  unfold remove
  induction l.waiters with
  | nil => rfl
  | cons w rest ih =>
    rw [List.filter_cons, List.lookup_cons]
    split
    · rw [List.lookup_cons, ih]
    · next hw =>
      obtain rfl : w.1 = t := by simpa using hw
      rw [ih, beq_eq_false_iff_ne.mpr hne]

theorem isCancelled_leave (l : Lock T) {t t' : T} (hne : t' ≠ t) :
    (l.leave t).isCancelled t' = l.isCancelled t' := by
  have hremove : (l.remove t).isCancelled t' = l.isCancelled t' := isCancelled_congr (lookup_remove l hne)
  unfold leave
  split
  · exact hremove
  · rw [isCancelled_wakeUpFirst, hremove]

theorem isCancelled_resume {l : Lock T} {t t' : T} {r : Lock T × Bool} (h : l.resume t = some r)
    (hne : t' ≠ t) : r.1.isCancelled t' = l.isCancelled t' := by
  unfold resume at h
  split at h
  · cases h
  · cases h
  · cases h
    exact isCancelled_congr (lookup_remove l hne)
  · cases h
    exact isCancelled_leave l hne
  · cases h
    exact isCancelled_leave l hne

theorem isCancelled_release {l l' : Lock T} (h : l.release = .ok l') (t : T) :
    l'.isCancelled t = l.isCancelled t := by
  unfold release at h
  split at h
  · cases h
    exact isCancelled_wakeUpFirst _ t
  · cases h

theorem isCancelled_acquire {l : Lock T} {t' : T} (h : l.isCancelled t' = true) (t : T) :
    (l.acquire t).1.isCancelled t' = true := by
  unfold acquire
  split
  · exact h
  · refine (isCancelled_congr ?_).trans h
    cases hlookup : l.waiters.lookup t' with
    | none => simp [isCancelled, hlookup] at h
    | some fut => rw [List.lookup_append, hlookup, Option.some_or]

theorem lookup_cancel (l : Lock T) (t t' : T) : (l.cancel t).waiters.lookup t' =
    (l.waiters.lookup t').map fun fut => if t' = t then fut.cancel else fut := by
  unfold cancel
  induction l.waiters with
  | nil => rfl
  | cons w rest ih =>
    obtain ⟨first, fut⟩ := w
    have hfirst : (if first = t then (first, fut.cancel) else (first, fut)) =
        (first, if first = t then fut.cancel else fut) := by split <;> rfl
    rw [List.map_cons, hfirst, List.lookup_cons, List.lookup_cons, ih]
    by_cases hw : t' = first
    · subst hw
      rw [beq_self_eq_true]
      rfl
    · rw [beq_eq_false_iff_ne.mpr hw]

theorem isCancelled_cancel {l : Lock T} {t' : T} (h : l.isCancelled t' = true) (t : T) :
    (l.cancel t).isCancelled t' = true := by
  rw [isCancelled_iff, lookup_cancel]
  obtain h | h := isCancelled_iff.mp h
  · left
    rw [h]
    split <;> rfl
  · right
    rw [h]
    split <;> rfl

/-- A task that takes the lock from the queue is the first in it. -/
theorem Ok.head_of_taken {l l' : Lock T} (h : l.Ok) {t : T} (ht : l.resume t = some (l', true)) :
    ∃ rest, l.tasks = t :: rest := by
  unfold Lock.resume at ht
  split at ht
  · cases ht
  · cases ht
  · next hlookup =>
    obtain ⟨-, hhead⟩ := h.head_of_granted (mem_waiters_of_lookup hlookup) rfl
    rw [tasks, hhead]
    exact ⟨_, rfl⟩
  · cases ht
  · cases ht

theorem tasks_remove (l : Lock T) (t : T) : (l.remove t).tasks.Sublist l.tasks :=
  List.filter_sublist.map _

/-- A task that runs again leaves the others in their order. -/
theorem tasks_resume {l : Lock T} {t : T} {r : Lock T × Bool} (h : l.resume t = some r) :
    r.1.tasks.Sublist l.tasks := by
  have hleave : (l.leave t).tasks.Sublist l.tasks := by
    unfold leave
    split
    · exact tasks_remove l t
    · rw [tasks_wakeUpFirst]
      exact tasks_remove l t
  unfold resume at h
  split at h
  · cases h
  · cases h
  · cases h
    exact tasks_remove l t
  · cases h
    exact hleave
  · cases h
    exact hleave

end Order

end Lock

end Asyncio
