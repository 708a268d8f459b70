import Chattice.Data.Entries
import Mathlib.Data.List.Infix

/-!
# `_schedule` against `close`

Pub/Sub calls `_schedule` in threads of its own, while `close` runs in the event loop: every access to
`_loop` and `_scheduled` is a step, and the steps interleave in any order. A runner is followed from its
subscription on.

* `Callback.move`, `perform` : what a thread, an attempt and a `close` do next;
* `Unrecorded` : a callback that has the loop in hand and has not put the future into `_scheduled`;
* `Sound`, `Drained` : what holds up to the snapshot of `_scheduled`, and from it on;
* `close_drains_iff` : a `close` that returns has waited for every attempt, and none starts afterwards,
  exactly when no callback is unrecorded while it takes the snapshot.
-/

namespace Chattice.PubsubRunner.Shutdown

/-! ## The callbacks -/

/-- Where a `_schedule` is. It reads `self._loop` twice: for the test, and for the call of
`run_coroutine_threadsafe`. -/
inductive Phase where
  | entered
  | checked
  | ready (loop : Bool)
  | submitted
  | recorded
  | returned
  | raised
  deriving DecidableEq, Repr

/-- The attempt that a callback starts, up to the end of its future. -/
inductive Attempt where
  | none | running | ended
  deriving DecidableEq, Repr

structure Callback where
  phase : Phase
  attempt : Attempt
  deriving DecidableEq, Repr

inductive Move where
  | check | read | submit | refuse | watch | finish
  deriving DecidableEq, Repr

/-- The steps of a callback and of its attempt that leave `_scheduled` alone. `run_coroutine_threadsafe`
raises a `RuntimeError`, which is caught, for a loop that is closed, and an `AttributeError` for `None`. -/
def Callback.move (loop : Bool) : Move → Callback → Option Callback
  | .check, ⟨.entered, attempt⟩ => some ⟨if loop then .checked else .returned, attempt⟩
  | .read, ⟨.checked, attempt⟩ => some ⟨.ready loop, attempt⟩
  | .submit, ⟨.ready true, _⟩ => some ⟨.submitted, .running⟩
  | .submit, ⟨.ready false, attempt⟩ => some ⟨.raised, attempt⟩
  | .refuse, ⟨.ready true, attempt⟩ => some ⟨.returned, attempt⟩
  | .watch, ⟨.recorded, attempt⟩ => some ⟨.returned, attempt⟩
  | .finish, ⟨phase, .running⟩ => some ⟨phase, .ended⟩
  | _, _ => none

/-! ## The runner -/

/-- Where a `close` is: it waits for the subscriber, or for the futures it found in `_scheduled`. -/
inductive Closer where
  | closing
  | draining (futures : List Nat)
  | returned
  | failed
  deriving DecidableEq, Repr

/-- A future is known by the number of its callback. -/
structure State where
  /-- `self._loop is not None` -/
  loop : Bool
  closed : Bool
  scheduled : List Nat
  callbacks : List Callback
  closers : List Closer
  deriving DecidableEq, Repr

inductive Op where
  | call
  | move (i : Nat) (m : Move)
  | record (i : Nat)
  | discard (i : Nat)
  | close
  | drain (c : Nat)
  | join (c : Nat)
  | fail (c : Nat)
  deriving DecidableEq, Repr

namespace State

def subscribed : State := ⟨true, false, [], [], []⟩

def running (s : State) (i : Nat) : Bool := s.callbacks[i]?.any (·.attempt = .running)

/-- The operation, if its thread is ready for it. -/
def perform (s : State) : Op → Option State
  | .call => some { s with callbacks := s.callbacks ++ [⟨.entered, .none⟩] }
  | .move i m => (s.callbacks[i]?.bind (Callback.move s.loop m)).map fun callback =>
      { s with callbacks := s.callbacks.set i callback }
  | .record i =>
    match s.callbacks[i]? with
    | some ⟨.submitted, attempt⟩ => some { s with
        callbacks := s.callbacks.set i ⟨.recorded, attempt⟩
        scheduled := i :: s.scheduled }
    | _ => none
  | .discard i =>
    if s.callbacks[i]? = some ⟨.returned, .ended⟩ then
      some { s with scheduled := s.scheduled.filter (· ≠ i) }
    else none
  | .close =>
    if s.closed then some { s with closers := s.closers ++ [.returned] }
    else some { s with closed := true, loop := false, closers := s.closers ++ [.closing] }
  | .drain c =>
    if s.closers[c]? = some .closing then
      some { s with
        scheduled := []
        closers := s.closers.set c (if s.scheduled = [] then .returned else .draining s.scheduled) }
    else none
  | .join c =>
    match s.closers[c]? with
    | some (.draining futures) =>
      if futures.all (fun i => !s.running i) then
        some { s with closers := s.closers.set c .returned }
      else none
    | _ => none
  | .fail c =>
    match s.closers[c]? with
    | some .closing | some (.draining _) => some { s with closers := s.closers.set c .failed }
    | _ => none

def run (s : State) : List Op → Option State
  | [] => some s
  | op :: ops => (s.perform op).bind fun s => s.run ops

/-- The callback has the loop, and its attempt is not in `_scheduled` although it may run. -/
def Unrecorded (s : State) (i : Nat) : Prop :=
  ∃ callback, s.callbacks[i]? = some callback ∧
    (callback.phase = .ready true ∨ callback.phase = .submitted ∧ callback.attempt = .running)

theorem running_iff {s : State} {i : Nat} :
    s.running i = true ↔ ∃ callback, s.callbacks[i]? = some callback ∧ callback.attempt = .running := by
  unfold running
  cases s.callbacks[i]? with
  | none => simp
  | some callback => simp

end State

/-- What an operation needs, and what it does. -/
inductive Step (s : State) : State → Prop where
  | call : Step s { s with callbacks := s.callbacks ++ [⟨.entered, .none⟩] }
  | move {i : Nat} {m : Move} {callback callback' : Callback} (hi : s.callbacks[i]? = some callback)
      (hmove : callback.move s.loop m = some callback') :
      Step s { s with callbacks := s.callbacks.set i callback' }
  | record {i : Nat} {attempt : Attempt} (hi : s.callbacks[i]? = some ⟨.submitted, attempt⟩) :
      Step s { s with
        callbacks := s.callbacks.set i ⟨.recorded, attempt⟩
        scheduled := i :: s.scheduled }
  | discard {i : Nat} (hi : s.callbacks[i]? = some ⟨.returned, .ended⟩) :
      Step s { s with scheduled := s.scheduled.filter (· ≠ i) }
  | closed (hclosed : s.closed = true) : Step s { s with closers := s.closers ++ [.returned] }
  | close (hopen : s.closed = false) :
      Step s { s with closed := true, loop := false, closers := s.closers ++ [.closing] }
  | drain {c : Nat} (hc : s.closers[c]? = some .closing) :
      Step s { s with
        scheduled := []
        closers := s.closers.set c (if s.scheduled = [] then .returned else .draining s.scheduled) }
  | join {c : Nat} {futures : List Nat} (hc : s.closers[c]? = some (.draining futures))
      (hended : ∀ i ∈ futures, s.running i = false) :
      Step s { s with closers := s.closers.set c .returned }
  | fail {c : Nat} {closer : Closer} (hc : s.closers[c]? = some closer) (hcloser : closer ≠ .returned) :
      Step s { s with closers := s.closers.set c .failed }

theorem perform_step {s s' : State} {op : Op} (h : s.perform op = some s') : Step s s' := by
  cases op with
  | call =>
    cases h
    exact .call
  | move i m =>
    obtain ⟨callback', hmove, rfl⟩ := Option.map_eq_some_iff.mp h
    obtain ⟨callback, hi, hmove⟩ := Option.bind_eq_some_iff.mp hmove
    exact .move hi hmove
  | record i =>
    rw [State.perform] at h
    split at h
    · next attempt hi =>
      cases h
      exact .record hi
    · cases h
  | discard i =>
    rw [State.perform] at h
    split at h
    · next hi =>
      cases h
      exact .discard hi
    · cases h
  | close =>
    rw [State.perform] at h
    split at h
    · next hclosed =>
      cases h
      exact .closed hclosed
    · next hopen =>
      cases h
      exact .close (Bool.eq_false_iff.mpr hopen)
  | drain c =>
    rw [State.perform] at h
    split at h
    · next hc =>
      cases h
      exact .drain hc
    · cases h
  | join c =>
    rw [State.perform] at h
    split at h
    · next futures hc =>
      split at h
      · next hended =>
        cases h
        exact .join hc fun i hi => by simpa using List.all_eq_true.mp hended i hi
      · cases h
    · cases h
  | fail c =>
    rw [State.perform] at h
    split at h
    · next hc =>
      cases h
      exact .fail hc (by intro h; cases h)
    · next futures hc =>
      cases h
      exact .fail hc (by intro h; cases h)
    · cases h

/-! ## Up to the snapshot -/

/-- What is known of a callback while `_scheduled` has not been emptied, by whether it has its future. -/
def Callback.Ok (callback : Callback) (kept : Prop) : Prop :=
  match callback.phase with
  | .entered | .checked | .ready _ | .raised => callback.attempt = .none ∧ ¬ kept
  | .submitted => ¬ kept
  | .recorded | .returned => callback.attempt = .running → kept

theorem Callback.Ok.move {callback callback' : Callback} {kept : Prop} (h : callback.Ok kept) {loop : Bool}
    {m : Move} (hmove : callback.move loop m = some callback') : callback'.Ok kept := by
  unfold Callback.move at hmove
  split at hmove
  · -- `check`
    cases hmove
    obtain ⟨rfl, hkept⟩ := h
    cases loop with
    | true => exact ⟨rfl, hkept⟩
    | false =>
      intro hrunning
      cases hrunning
  · cases hmove
    exact h
  · cases hmove
    exact h.2
  · cases hmove
    exact h
  · -- `refuse`
    cases hmove
    obtain ⟨rfl, -⟩ := h
    intro hrunning
    cases hrunning
  · cases hmove
    exact h
  · -- `finish`
    next phase =>
    cases hmove
    cases phase with
    | submitted => exact h
    | recorded =>
      intro hrunning
      cases hrunning
    | returned =>
      intro hrunning
      cases hrunning
    | entered => cases h.1
    | checked => cases h.1
    | ready loop => cases h.1
    | raised => cases h.1
  · cases hmove

/-- No snapshot has been taken: the `close` that found the runner open waits for the subscriber. -/
def State.Undrained (s : State) : Prop := ∀ closer, s.closers[0]? = some closer → closer = .closing

structure Sound (s : State) : Prop where
  closers : ∀ (c : Nat) (closer : Closer), s.closers[c]? = some closer → closer ≠ .returned → c = 0
  closed : s.closed = false → s.closers = []
  loop : s.loop = true → s.closed = false
  members : ∀ i ∈ s.scheduled, i < s.callbacks.length
  callbacks : s.Undrained → ∀ (i : Nat) (callback : Callback), s.callbacks[i]? = some callback →
    callback.Ok (i ∈ s.scheduled)

theorem sound_subscribed : Sound .subscribed where
  closers := by
    intro c closer hc
    cases hc
  closed := fun _ => rfl
  loop := fun _ => rfl
  members := by
    intro i hi
    cases hi
  callbacks := by
    intro _ i callback hi
    cases hi

theorem lt_length_set {l : List Callback} {i j : Nat} {callback : Callback} (h : j < l.length) :
    j < (l.set i callback).length := by
  rwa [List.length_set]

section Steps

variable {s s' : State}

theorem Sound.update (hs : Sound s) {i : Nat} {callback callback' : Callback} {scheduled : List Nat}
    (hi : s.callbacks[i]? = some callback) (hlt : ∀ j ∈ scheduled, j = i ∨ j ∈ s.scheduled)
    (hothers : ∀ j, j ≠ i → (j ∈ scheduled ↔ j ∈ s.scheduled))
    (hown : callback.Ok (i ∈ s.scheduled) → callback'.Ok (i ∈ scheduled)) :
    Sound { s with callbacks := s.callbacks.set i callback', scheduled := scheduled } where
  closers := hs.closers
  closed := hs.closed
  loop := hs.loop
  members := by
    intro j hj
    refine lt_length_set ?_
    obtain rfl | hold := hlt j hj
    · exact (List.getElem?_eq_some_iff.mp hi).1
    · exact hs.members j hold
  callbacks := by
    intro hundrained j callback'' hj
    have hok := hs.callbacks hundrained
    obtain ⟨rfl, rfl⟩ | ⟨hne, hold⟩ := (List.getElem?_set_eq_some hi).mp hj
    · exact hown (hok j callback hi)
    · dsimp only
      rw [propext (hothers j hne)]
      exact hok j callback'' hold

theorem Sound.setCloser (hs : Sound s) {c : Nat} {closer closer' : Closer} {scheduled : List Nat}
    (hc : s.closers[c]? = some closer) (hcloser : closer ≠ .returned) (hcloser' : closer' ≠ .closing)
    (hscheduled : ∀ i ∈ scheduled, i ∈ s.scheduled) :
    Sound { s with scheduled := scheduled, closers := s.closers.set c closer' } where
  closers := by
    intro c' closer'' hc' hreturned
    obtain ⟨rfl, -⟩ | ⟨-, hold⟩ := (List.getElem?_set_eq_some hc).mp hc'
    · exact hs.closers c' closer hc hcloser
    · exact hs.closers c' closer'' hold hreturned
  closed := by
    intro hopen
    rw [hs.closed hopen] at hc
    cases hc
  loop := hs.loop
  members := fun i hi => hs.members i (hscheduled i hi)
  callbacks := by
    intro hundrained
    obtain rfl := hs.closers c closer hc hcloser
    exact absurd (hundrained closer' ((List.getElem?_set_eq_some hc).mpr (.inl ⟨rfl, rfl⟩))) hcloser'

theorem Sound.step (hs : Sound s) (h : Step s s') : Sound s' := by
  cases h with
  | call =>
    refine ⟨hs.closers, hs.closed, hs.loop, fun i hi => ?_, fun hundrained i callback hi => ?_⟩
    · exact Nat.lt_of_lt_of_le (hs.members i hi) (by simp)
    · obtain hold | ⟨rfl, rfl⟩ := List.getElem?_snoc_eq_some.mp hi
      · exact hs.callbacks hundrained i callback hold
      · exact ⟨rfl, fun hmem => Nat.lt_irrefl _ (hs.members _ hmem)⟩
  | move hi hmove => exact hs.update hi (fun j hj => .inr hj) (fun _ _ => Iff.rfl) fun hok => hok.move hmove
  | @record i attempt hi =>
    refine hs.update hi (fun j hj => List.mem_cons.mp hj) (fun j hne => ?_) fun _ _ => List.mem_cons_self
    exact List.mem_cons.trans (or_iff_right hne)
  | @discard i hi =>
    refine ⟨hs.closers, hs.closed, hs.loop, fun j hj => ?_, fun hundrained j callback hj => ?_⟩
    · exact hs.members j (List.mem_filter.mp hj).1
    · have hok := hs.callbacks hundrained j callback hj
      by_cases hij : j = i
      · -- the attempt has ended, so its future may go
        subst hij
        obtain rfl := Option.some_inj.mp (hi.symm.trans hj)
        intro hrunning
        cases hrunning
      · have hmem : j ∈ s.scheduled.filter (· ≠ i) ↔ j ∈ s.scheduled := by
          rw [List.mem_filter]
          exact and_iff_left (by simpa using hij)
        dsimp only
        rwa [propext hmem]
  | closed hclosed =>
    refine ⟨fun c closer hc hreturned => ?_, fun hopen => ?_, hs.loop, hs.members, fun hundrained => ?_⟩
    · obtain hold | ⟨-, rfl⟩ := List.getElem?_snoc_eq_some.mp hc
      · exact hs.closers c closer hold hreturned
      · exact absurd rfl hreturned
    · rw [hclosed] at hopen
      cases hopen
    · exact hs.callbacks fun closer hc => hundrained closer (List.getElem?_snoc_eq_some.mpr (.inl hc))
  | close hopen =>
    have hempty := hs.closed hopen
    refine ⟨fun c closer hc _ => ?_, fun h => (by cases h), fun h => (by cases h), hs.members, fun _ => ?_⟩
    · rw [hempty] at hc
      obtain hold | ⟨rfl, -⟩ := List.getElem?_snoc_eq_some.mp hc
      · cases hold
      · rfl
    · refine hs.callbacks fun closer hc => ?_
      rw [hempty] at hc
      cases hc
  | drain hc =>
    refine hs.setCloser hc (by intro h; cases h) ?_ fun i hi => by cases hi
    split
    · intro h; cases h
    · intro h; cases h
  | join hc hended => exact hs.setCloser hc (by intro h; cases h) (by intro h; cases h) fun _ hi => hi
  | fail hc hcloser => exact hs.setCloser hc hcloser (by intro h; cases h) fun _ hi => hi

end Steps

/-! ## From the snapshot on -/

/-- The `close` number `c` has found `futures` in `_scheduled`, and they are all that may still run. -/
structure Drained (c : Nat) (futures : List Nat) (s : State) : Prop where
  loop : s.loop = false
  closed : s.closed = true
  made : c < s.closers.length
  closer : ∀ closer, s.closers[c]? = some closer → closer = .draining futures ∨ closer = .failed ∨
    closer = .returned ∧ ∀ i ∈ futures, s.running i = false
  recorded : ∀ i, ¬ s.Unrecorded i
  running : ∀ i, s.running i = true → i ∈ futures

theorem Callback.move_closed {callback callback' : Callback} {m : Move}
    (h : callback.move false m = some callback') (hready : callback.phase ≠ .ready true) :
    callback'.phase ≠ .ready true ∧ (callback'.attempt = .running → callback.attempt = .running) ∧
      (callback'.phase = .submitted → callback.phase = .submitted) := by
  unfold Callback.move at h
  split at h
  · cases h
    exact ⟨(by intro h; cases h), id, (by intro h; cases h)⟩
  · cases h
    exact ⟨(by intro h; cases h), id, (by intro h; cases h)⟩
  · exact absurd rfl hready
  · cases h
    exact ⟨(by intro h; cases h), id, (by intro h; cases h)⟩
  · exact absurd rfl hready
  · cases h
    exact ⟨(by intro h; cases h), id, (by intro h; cases h)⟩
  · cases h
    exact ⟨hready, (by intro h; cases h), id⟩
  · cases h

section Drain

variable {s s' : State} {c : Nat} {futures : List Nat}

theorem Drained.of_callbacks (h : Drained c futures s) (callbacks : List Callback) (scheduled : List Nat)
    (hcallbacks : ∀ (i : Nat) (callback' : Callback), callbacks[i]? = some callback' → callback' = ⟨.entered, .none⟩ ∨
      ∃ callback, s.callbacks[i]? = some callback ∧ (callback'.phase = .ready true → callback.phase = .ready true) ∧
        (callback'.attempt = .running → callback.attempt = .running) ∧
        (callback'.phase = .submitted → callback.phase = .submitted)) :
    Drained c futures { s with callbacks := callbacks, scheduled := scheduled } := by
  have hrunning (i : Nat) (hi : State.running { s with callbacks := callbacks, scheduled := scheduled } i = true) :
      s.running i = true := by
    obtain ⟨callback', hcallback', hattempt⟩ := State.running_iff.mp hi
    obtain rfl | ⟨callback, hcallback, -, hkeeps, -⟩ := hcallbacks i callback' hcallback'
    · cases hattempt
    · exact State.running_iff.mpr ⟨callback, hcallback, hkeeps hattempt⟩
  refine ⟨h.loop, h.closed, h.made, fun closer hc => ?_, fun i => ?_, fun i hi => h.running i (hrunning i hi)⟩
  · obtain hdraining | hfailed | ⟨hreturned, hended⟩ := h.closer closer hc
    · exact .inl hdraining
    · exact .inr (.inl hfailed)
    · refine .inr (.inr ⟨hreturned, fun i hi => ?_⟩)
      exact Bool.eq_false_iff.mpr fun hi' => Bool.eq_false_iff.mp (hended i hi) (hrunning i hi')
  · rintro ⟨callback', hcallback', hunrecorded⟩
    obtain rfl | ⟨callback, hcallback, hready, hattempt, hsubmitted⟩ := hcallbacks i callback' hcallback'
    · obtain hready | ⟨hsubmitted, -⟩ := hunrecorded
      · cases hready
      · cases hsubmitted
    · exact h.recorded i ⟨callback, hcallback, hunrecorded.imp hready fun h => ⟨hsubmitted h.1, hattempt h.2⟩⟩

theorem Drained.step (h : Drained c futures s) (hs' : Step s s') : Drained c futures s' := by
  have hcloser {closers : List Closer} (hmade : s.closers.length ≤ closers.length)
      (hclosers : ∀ closer, closers[c]? = some closer → s.closers[c]? = some closer ∨ closer = .failed ∨
        closer = .returned ∧ ∀ i ∈ futures, s.running i = false) (scheduled : List Nat) :
      Drained c futures { s with scheduled := scheduled, closers := closers } :=
    ⟨h.loop, h.closed, Nat.lt_of_lt_of_le h.made hmade,
      fun closer hc => (hclosers closer hc).elim (h.closer closer) .inr, h.recorded, h.running⟩
  cases hs' with
  | call =>
    refine h.of_callbacks _ _ fun i callback' hi => ?_
    obtain hold | ⟨-, rfl⟩ := List.getElem?_snoc_eq_some.mp hi
    · exact .inr ⟨callback', hold, id, id, id⟩
    · exact .inl rfl
  | @move i m callback callback' hi hmove =>
    refine h.of_callbacks _ _ fun j callback'' hj => .inr ?_
    obtain ⟨rfl, rfl⟩ | ⟨-, hold⟩ := (List.getElem?_set_eq_some hi).mp hj
    · rw [h.loop] at hmove
      obtain ⟨hready, hattempt, hsubmitted⟩ :=
        Callback.move_closed hmove fun hready => h.recorded j ⟨callback, hi, .inl hready⟩
      exact ⟨callback, hi, fun h => absurd h hready, hattempt, hsubmitted⟩
    · exact ⟨callback'', hold, id, id, id⟩
  | @record i attempt hi =>
    refine h.of_callbacks _ _ fun j callback'' hj => .inr ?_
    obtain ⟨rfl, rfl⟩ | ⟨-, hold⟩ := (List.getElem?_set_eq_some hi).mp hj
    · exact ⟨_, hi, (by intro h; cases h), id, (by intro h; cases h)⟩
    · exact ⟨callback'', hold, id, id, id⟩
  | discard hi => exact h.of_callbacks _ _ fun j callback'' hj => .inr ⟨callback'', hj, id, id, id⟩
  | closed hclosed =>
    refine hcloser (by simp) (fun closer hc => .inl ?_) _
    rwa [List.getElem?_append_left h.made] at hc
  | close hopen =>
    rw [h.closed] at hopen
    cases hopen
  | @drain c' hc' =>
    refine hcloser (List.length_set ..).ge (fun closer hc => .inl ?_) _
    obtain ⟨rfl, -⟩ | ⟨-, hold⟩ := (List.getElem?_set_eq_some hc').mp hc
    · obtain h | h | ⟨h, -⟩ := h.closer _ hc' <;> cases h
    · exact hold
  | @join c' futures' hc' hended =>
    refine hcloser (List.length_set ..).ge (fun closer hc => ?_) _
    obtain ⟨rfl, rfl⟩ | ⟨-, hold⟩ := (List.getElem?_set_eq_some hc').mp hc
    · obtain h | h | ⟨h, -⟩ := h.closer _ hc'
      · cases h
        exact .inr (.inr ⟨rfl, hended⟩)
      · cases h
      · cases h
    · exact .inl hold
  | @fail c' closer' hc' hcloser' =>
    refine hcloser (List.length_set ..).ge (fun closer hc => ?_) _
    obtain ⟨-, rfl⟩ | ⟨-, hold⟩ := (List.getElem?_set_eq_some hc').mp hc
    · exact .inr (.inl rfl)
    · exact .inl hold

theorem Drained.run {ops : List Op} (h : Drained c futures s) (hs' : s.run ops = some s') :
    Drained c futures s' := by
  induction ops generalizing s with
  | nil =>
    cases hs'
    exact h
  | cons op ops ih =>
    obtain ⟨s₁, hop, hops⟩ := Option.bind_eq_some_iff.mp hs'
    exact ih (h.step (perform_step hop)) hops

theorem Sound.run {ops : List Op} (h : Sound s) (hs' : s.run ops = some s') : Sound s' := by
  induction ops generalizing s with
  | nil =>
    cases hs'
    exact h
  | cons op ops ih =>
    obtain ⟨s₁, hop, hops⟩ := Option.bind_eq_some_iff.mp hs'
    exact ih (h.step (perform_step hop)) hops

/-- The snapshot has every attempt that runs, where no callback is unrecorded. -/
theorem Sound.drained (hs : Sound s) (hc : s.closers[c]? = some .closing) (hnone : ∀ i, ¬ s.Unrecorded i)
    (hs' : s.perform (.drain c) = some s') : Drained c s.scheduled s' := by
  obtain rfl := hs.closers c _ hc (by intro h; cases h)
  have hundrained : s.Undrained := by
    intro closer hcloser
    rw [hc] at hcloser
    exact (Option.some_inj.mp hcloser).symm
  have hclosed : s.closed = true := by
    rw [← Bool.not_eq_false]
    intro hopen
    rw [hs.closed hopen] at hc
    cases hc
  have hrunning (i : Nat) (hi : s.running i = true) : i ∈ s.scheduled := by
    obtain ⟨⟨phase, attempt⟩, hcallback, rfl⟩ := State.running_iff.mp hi
    have hok := hs.callbacks hundrained i _ hcallback
    cases phase with
    | submitted => exact absurd ⟨_, hcallback, .inr ⟨rfl, rfl⟩⟩ (hnone i)
    | recorded => exact hok rfl
    | returned => exact hok rfl
    | entered => cases hok.1
    | checked => cases hok.1
    | ready loop => cases hok.1
    | raised => cases hok.1
  rw [State.perform, if_pos hc] at hs'
  cases hs'
  refine ⟨?_, hclosed, ?_, fun closer hcloser => ?_, hnone, hrunning⟩
  · rw [← Bool.not_eq_true]
    intro hloop
    rw [hs.loop hloop] at hclosed
    cases hclosed
  · rw [List.length_set]
    exact (List.getElem?_eq_some_iff.mp hc).1
  · obtain ⟨-, rfl⟩ | ⟨hne, -⟩ := (List.getElem?_set_eq_some hc).mp hcloser
    · split
      · next hempty =>
        refine .inr (.inr ⟨rfl, fun i hi => ?_⟩)
        rw [hempty] at hi
        cases hi
      · exact .inl rfl
    · exact absurd rfl hne

/-! ## An unrecorded callback -/

theorem run_append (s : State) (ops ops' : List Op) :
    s.run (ops ++ ops') = (s.run ops).bind fun s => s.run ops' := by
  induction ops generalizing s with
  | nil => rfl
  | cons op ops ih =>
    rw [List.cons_append, State.run, State.run, Option.bind_assoc]
    exact Option.bind_congr fun s' _ => ih s'

theorem running_set (s : State) {i j : Nat} (hne : j ≠ i) (callback : Callback) :
    State.running { s with callbacks := s.callbacks.set i callback } j = s.running j := by
  rw [State.running, State.running, List.getElem?_set_ne (Ne.symm hne)]

theorem exists_finish (futures : List Nat) (s : State) : ∃ ops s', s.run ops = some s' ∧
    s'.closers = s.closers ∧ (∀ i ∈ futures, s'.running i = false) ∧
    ∀ i, i ∉ futures → s'.running i = s.running i := by
  induction futures generalizing s with
  | nil => exact ⟨[], s, rfl, rfl, (fun i hi => by cases hi), fun i _ => rfl⟩
  | cons j futures ih =>
    by_cases hj : s.running j = true
    · obtain ⟨⟨phase, attempt⟩, hcallback, rfl⟩ := State.running_iff.mp hj
      obtain ⟨ops, s', hops, hclosers, hended, hothers⟩ :=
        ih { s with callbacks := s.callbacks.set j ⟨phase, .ended⟩ }
      have hfinish : s.perform (.move j .finish) =
          some { s with callbacks := s.callbacks.set j ⟨phase, .ended⟩ } := by
        rw [State.perform, hcallback]
        rfl
      have hover : State.running { s with callbacks := s.callbacks.set j ⟨phase, .ended⟩ } j = false := by
        rw [State.running, List.getElem?_set_self (List.getElem?_eq_some_iff.mp hcallback).1]
        rfl
      refine ⟨.move j .finish :: ops, s', ?_, hclosers, fun i hi => ?_, fun i hi => ?_⟩
      · rw [State.run, hfinish]
        exact hops
      · by_cases hrest : i ∈ futures
        · exact hended i hrest
        · obtain rfl := (List.mem_cons.mp hi).resolve_right hrest
          exact (hothers i hrest).trans hover
      · obtain ⟨hne, hrest⟩ := not_or.mp (mt List.mem_cons.mpr hi)
        exact (hothers i hrest).trans (running_set s hne _)
    · obtain ⟨ops, s', hops, hclosers, hended, hothers⟩ := ih s
      refine ⟨ops, s', hops, hclosers, fun i hi => ?_, fun i hi => hothers i fun hmem => hi (List.mem_cons_of_mem j hmem)⟩
      by_cases hrest : i ∈ futures
      · exact hended i hrest
      · obtain rfl := (List.mem_cons.mp hi).resolve_right hrest
        exact (hothers i hrest).trans (Bool.eq_false_iff.mpr hj)

/-- A `close` that has taken its snapshot may return while the attempts outside of it go on. -/
theorem exists_return (hc : s.closers[c]? = some .returned ∨ s.closers[c]? = some (.draining futures)) :
    ∃ ops s', s.run ops = some s' ∧ s'.closers[c]? = some .returned ∧
      ∀ i, i ∉ futures → s'.running i = s.running i := by
  obtain hreturned | hdraining := hc
  · exact ⟨[], s, rfl, hreturned, fun i _ => rfl⟩
  · obtain ⟨ops, s', hops, hclosers, hended, hothers⟩ := exists_finish futures s
    have hjoin : s'.perform (.join c) = some { s' with closers := s'.closers.set c .returned } := by
      rw [State.perform, hclosers, hdraining]
      dsimp only
      rw [if_pos]
      exact List.all_eq_true.mpr fun i hi => by rw [hended i hi]; rfl
    refine ⟨ops ++ [.join c], { s' with closers := s'.closers.set c .returned }, ?_, ?_, hothers⟩
    · rw [run_append, hops, Option.bind_some, State.run, hjoin]
      rfl
    · refine List.getElem?_set_self ?_
      rw [hclosers]
      exact (List.getElem?_eq_some_iff.mp hdraining).1

/-- An unrecorded callback runs its attempt past the `close`. -/
theorem Sound.exists_escape (hs : Sound s) (hc : s.closers[c]? = some .closing) {i : Nat}
    (hi : s.Unrecorded i) : ∃ ops s', s.run (.drain c :: ops) = some s' ∧
      s'.closers[c]? = some .returned ∧ s'.running i = true := by
  obtain rfl := hs.closers c _ hc (by intro h; cases h)
  have hundrained : s.Undrained := by
    intro closer hcloser
    rw [hc] at hcloser
    exact (Option.some_inj.mp hcloser).symm
  obtain ⟨⟨phase, attempt⟩, hcallback, hphase⟩ := hi
  have hok := hs.callbacks hundrained i _ hcallback
  have hmissing : i ∉ s.scheduled := by
    obtain rfl | ⟨rfl, -⟩ := hphase
    · exact hok.2
    · exact hok
  have hlt := (List.getElem?_eq_some_iff.mp hcallback).1
  -- the callback submits its attempt if it has not done so
  obtain ⟨ops, callbacks, hsubmit, hrunning⟩ : ∃ (ops : List Op) (callbacks : List Callback),
      (∀ scheduled closers, State.run { s with scheduled := scheduled, closers := closers } ops =
        some { s with scheduled := scheduled, closers := closers, callbacks := callbacks }) ∧
      callbacks[i]?.any (·.attempt = .running) = true := by
    obtain hready | ⟨-, hrunning⟩ := hphase
    · obtain rfl : phase = .ready true := hready
      refine ⟨[.move i .submit], s.callbacks.set i ⟨.submitted, .running⟩, fun scheduled closers => ?_, ?_⟩
      · rw [State.run, State.perform]
        dsimp only
        rw [hcallback]
        rfl
      · rw [List.getElem?_set_self hlt]
        rfl
    · obtain rfl : attempt = .running := hrunning
      refine ⟨[], s.callbacks, fun scheduled closers => rfl, ?_⟩
      rw [hcallback]
      rfl
  have hlength := (List.getElem?_eq_some_iff.mp hc).1
  have hcloser (closer : Closer) : (s.closers.set 0 closer)[0]? = some closer := List.getElem?_set_self hlength
  have hsnapshot : (s.closers.set 0 (if s.scheduled = [] then .returned else .draining s.scheduled))[0]? =
      some .returned ∨ (s.closers.set 0 (if s.scheduled = [] then .returned else .draining s.scheduled))[0]? =
      some (.draining s.scheduled) := by
    rw [hcloser]
    split
    · exact .inl rfl
    · exact .inr rfl
  obtain ⟨ops', s', hops', hreturned, hothers⟩ := exists_return (s := { s with
    scheduled := []
    closers := s.closers.set 0 (if s.scheduled = [] then .returned else .draining s.scheduled)
    callbacks := callbacks }) hsnapshot
  refine ⟨ops ++ ops', s', ?_, hreturned, (hothers i hmissing).trans hrunning⟩
  rw [State.run, State.perform, if_pos hc, Option.bind_some, run_append, hsubmit, Option.bind_some, hops']

/-- **Main result.** A `close` about to take its snapshot of `_scheduled` has waited, whenever it returns,
for every attempt, and none runs at any time after its return, exactly when no callback is unrecorded. -/
theorem close_drains_iff (ops : List Op) (s : State) (c : Nat) (hs : State.subscribed.run ops = some s)
    (hc : s.closers[c]? = some .closing) :
    (∀ (ops' : List Op) (s' : State), s.run (.drain c :: ops') = some s' →
      s'.closers[c]? = some .returned → ∀ i, s'.running i = false) ↔ ∀ i, ¬ s.Unrecorded i := by
  have hsound : Sound s := sound_subscribed.run hs
  constructor
  · intro hdrains i hi
    obtain ⟨ops', s', hops', hreturned, hrunning⟩ := hsound.exists_escape hc hi
    rw [hdrains ops' s' hops' hreturned i] at hrunning
    cases hrunning
  · intro hnone ops' s' hops' hreturned i
    obtain ⟨s₁, hdrain, hrest⟩ := Option.bind_eq_some_iff.mp hops'
    have hdrained := (hsound.drained hc hnone hdrain).run hrest
    rw [← Bool.not_eq_true]
    intro hrunning
    obtain h | h | ⟨-, hended⟩ := hdrained.closer _ hreturned
    · cases h
    · cases h
    · rw [hended i (hdrained.running i hrunning)] at hrunning
      cases hrunning

/-- A `close` that begins between the first read of `_loop` and the second drains, one that begins after
the second does not. -/
theorem close_between_reads : ∃ early late : State,
    State.subscribed.run [.call, .move 0 .check, .close, .move 0 .read] = some early ∧
    State.subscribed.run [.call, .move 0 .check, .move 0 .read, .close] = some late ∧
    (∀ (ops' : List Op) (s' : State), early.run (.drain 0 :: ops') = some s' →
      s'.closers[0]? = some .returned → ∀ i, s'.running i = false) ∧
    ¬ ∀ (ops' : List Op) (s' : State), late.run (.drain 0 :: ops') = some s' →
      s'.closers[0]? = some .returned → ∀ i, s'.running i = false := by
  refine ⟨_, _, rfl, rfl, (close_drains_iff [.call, .move 0 .check, .close, .move 0 .read] _ 0 rfl rfl).mpr ?_,
    fun h => (close_drains_iff [.call, .move 0 .check, .move 0 .read, .close] _ 0 rfl rfl).mp h 0
      ⟨_, rfl, .inl rfl⟩⟩
  rintro i ⟨callback, hi, hphase⟩
  have hentry : ∀ callback ∈ [(⟨.ready false, .none⟩ : Callback)],
      callback.phase ≠ .ready true ∧ callback.phase ≠ .submitted := by decide
  obtain ⟨hready, hsubmitted⟩ := hentry callback (List.mem_of_getElem? hi)
  obtain h | ⟨h, -⟩ := hphase
  · exact hready h
  · exact hsubmitted h

end Drain

end Chattice.PubsubRunner.Shutdown
