import Chattice.Transports.PubsubRunner.Handle

/-!
# How often `_handle` settles its delivery

A run settles the delivery once for each ACK and each NACK in its trace.

* `process_settles` : the block of a `FIRST` claim, from the settle counts of its parts;
* `handle_settles_at_most_once` : a complete run settles at most once, unless the task is cancelled
  while it awaits the `delivery_acked` hook; the ACK is then followed by the NACK of the
  `except CancelledError` branch;
* `handle_settles_exactly_once` : a run that is not cancelled settles exactly once, unless the
  delivery carries no attempt number and the processing of its `FIRST` claim raises; the
  `except Exception` branch then compares `None` with the limit and raises before it settles.
-/

namespace Chattice.PubsubRunner

open Asyncio Asyncio.Coro
open Idempotency (ClaimResult)

variable {Result : Type}

abbrev Trace (Result : Type) := List (Asyncio.Event (sig Result))

def isSettle : Asyncio.Event (sig Result) → Bool
  | .acted (.ack _) | .acted .nack => true
  | _ => false

/-- How often the run has called `message.ack()` or `message.nack()`. -/
def settles (t : Trace Result) : Nat := t.countP isSettle

def isAckedHookCancelled : Asyncio.Event (sig Result) → Bool
  | .called (.hook .deliveryAcked _ _) .cancelled => true
  | _ => false

/-- The task is cancelled while it awaits the `delivery_acked` hook. -/
def ackedHookCancelled (t : Trace Result) : Bool := t.any isAckedHookCancelled

/-- A step of the processing of a `FIRST` claim raises: the dispatch, the answer (other than by
`CapabilityNotSupported`), the message to the space, or `complete`. -/
def isStepFailure : Asyncio.Event (sig Result) → Bool
  | .called (.feedUpdate _) (.raised _) => true
  | .called (.answer _ _) (.raised e) => !e.capabilityNotSupported
  | .called (.createMessage _ _) (.raised _) => true
  | .called (.complete _ _) (.raised _) => true
  | _ => false

def isFirstClaim : Asyncio.Event (sig Result) → Bool
  | .called (.claim _ _ _) (.ret .first) => true
  | _ => false

def parseFails (runner : Runner) (message : Message) : Bool :=
  match runner.parse message.data with
  | .ok _ => false
  | .error _ => true

/-- The attempt won the claim and parsing or a later step of its processing raised. -/
def processingFailed (runner : Runner) (message : Message) (t : Trace Result) : Bool :=
  t.any isFirstClaim && (parseFails runner message || t.any isStepFailure)

/-- The task is cancelled at one of its awaits. The last await, on the renewal task the attempt has
just cancelled itself, does not count. -/
def isCancellation : Asyncio.Event (sig Result) → Bool
  | .called (.renewal _) _ => false
  | .called _ .cancelled => true
  | _ => false

def wasCancelled (t : Trace Result) : Bool := t.any isCancellation

@[simp] theorem settles_nil : settles ([] : Trace Result) = 0 := rfl

@[simp] theorem settles_cons (e : Asyncio.Event (sig Result)) (t : Trace Result) :
    settles (e :: t) = settles t + if isSettle e then 1 else 0 := by
  simp [settles, List.countP_cons]

@[simp] theorem settles_append (t₁ t₂ : Trace Result) :
    settles (t₁ ++ t₂) = settles t₁ + settles t₂ := by
  simp [settles]

@[simp] theorem ackedHookCancelled_nil : ackedHookCancelled ([] : Trace Result) = false := rfl

@[simp] theorem ackedHookCancelled_cons (e : Asyncio.Event (sig Result)) (t : Trace Result) :
    ackedHookCancelled (e :: t) = (isAckedHookCancelled e || ackedHookCancelled t) := rfl

@[simp] theorem ackedHookCancelled_append (t₁ t₂ : Trace Result) :
    ackedHookCancelled (t₁ ++ t₂) = (ackedHookCancelled t₁ || ackedHookCancelled t₂) := by
  simp [ackedHookCancelled]

@[simp] theorem wasCancelled_nil : wasCancelled ([] : Trace Result) = false := rfl

@[simp] theorem wasCancelled_cons (e : Asyncio.Event (sig Result)) (t : Trace Result) :
    wasCancelled (e :: t) = (isCancellation e || wasCancelled t) := rfl

@[simp] theorem wasCancelled_append (t₁ t₂ : Trace Result) :
    wasCancelled (t₁ ++ t₂) = (wasCancelled t₁ || wasCancelled t₂) := by
  simp [wasCancelled]

/-! ## The parts -/

/-- A hook is awaited at most once; only its cancellation ends the attempt. -/
theorem maybeHook_runs {runner : Runner} {name : HookName} {id : String} {event : Option Event}
    {t : Trace Result} {o : Outcome Exc Unit} (h : Runs (maybeHook runner name id event) t o) :
    (t = [] ∧ o = .ret ()) ∨
      ∃ r, t = [.called (.hook name id event) r] ∧
        o = if r.isCancelled then .cancelled else .ret () := by
  unfold maybeHook at h
  split at h
  · obtain ⟨r, t', rfl, hrest⟩ := runs_call_andThen.mp h
    refine .inr ⟨r, ?_⟩
    cases r <;> simp only [pure_eq, cancel, runs_done] at hrest <;>
      simp [hrest, Outcome.isCancelled]
  · exact .inl (runs_done.mp h)

theorem notifyPoison_runs {runner : Runner} {event : Option Event} {errorClass : String}
    {t : Trace Result} {o : Outcome Exc Unit}
    (h : Runs (notifyPoison runner event errorClass) t o) :
    (t = [] ∧ o = .ret ()) ∨
      ∃ space text r, t = [.called (.createMessage space text) r] ∧
        o = if r.isCancelled then .cancelled else .ret () := by
  unfold notifyPoison at h
  split at h
  · obtain ⟨r, t', rfl, hrest⟩ := runs_call_andThen.mp h
    refine .inr ⟨_, _, r, ?_⟩
    cases r <;> simp only [pure_eq, cancel, runs_done] at hrest <;>
      simp [hrest, Outcome.isCancelled]
  · exact .inl (runs_done.mp h)

theorem joinRenewal_runs {owner : String} {t : Trace Result} {o : Outcome Exc Unit}
    (h : Runs (joinRenewal owner) t o) :
    o = .ret () ∧ ∃ r, t = [.acted (.cancelRenewal owner), .called (.renewal owner) r] := by
  obtain ⟨t', rfl, hrest⟩ := runs_act_bind.mp h
  obtain ⟨r, t'', rfl, hdone⟩ := runs_call_andThen.mp hrest
  obtain ⟨rfl, rfl⟩ := runs_done.mp hdone
  exact ⟨rfl, r, rfl⟩

/-! ## Dispatch, answer and success -/

/-- What the body of the `try` has done when it ends with `o`: it returns after one ACK, it raises
before the ACK, and it is cancelled before the ACK or in the hook after it. -/
def DispatchEnds (t : Trace Result) : Outcome Exc Unit → Prop
  | .ret _ => settles t = 1 ∧ ackedHookCancelled t = false ∧ t.any isStepFailure = false
  | .raised _ => settles t = 0 ∧ ackedHookCancelled t = false ∧ t.any isStepFailure = true
  | .cancelled =>
    settles t = (if ackedHookCancelled t then 1 else 0) ∧ wasCancelled t = true

theorem DispatchEnds.cons {e : Asyncio.Event (sig Result)} {t : Trace Result}
    {o : Outcome Exc Unit} (h : DispatchEnds t o) (hs : isSettle e = false)
    (ha : isAckedHookCancelled e = false) (hf : isStepFailure e = false) :
    DispatchEnds (e :: t) o := by
  cases o with
  | ret a => simpa [DispatchEnds, hs, ha, hf] using h
  | raised error => simpa [DispatchEnds, hs, ha, hf] using h
  | cancelled =>
    obtain ⟨hn, hc⟩ := h
    exact ⟨by simpa [hs, ha] using hn, by simp [hc]⟩

theorem succeed_ends {runner : Runner} {message : Message} {owner : String} {event : Event}
    {t : Trace Result} {o : Outcome Exc Unit}
    (h : Runs (succeed runner message owner event) t o) : DispatchEnds t o := by
  obtain ⟨r, t', rfl, hrest⟩ := runs_call_andThen.mp h
  cases r with
  | cancelled =>
    obtain ⟨rfl, rfl⟩ := runs_done.mp hrest
    exact ⟨rfl, rfl⟩
  | raised error =>
    obtain ⟨rfl, rfl⟩ := runs_done.mp hrest
    exact ⟨rfl, rfl, rfl⟩
  | ret a =>
    obtain ⟨t'', rfl, hhook⟩ := runs_act_bind.mp hrest
    obtain ⟨rfl, rfl⟩ | ⟨r, rfl, rfl⟩ := maybeHook_runs hhook
    · exact ⟨rfl, rfl, rfl⟩
    · cases r
      · exact ⟨rfl, rfl, rfl⟩
      · exact ⟨rfl, rfl, rfl⟩
      · exact ⟨rfl, rfl⟩

theorem completeAck_ends {key owner : String} {site : AckSite} {t : Trace Result}
    {o : Outcome Exc Unit}
    (h : Runs (S := sig Result) (do awaitCall (.complete key owner); perform (.ack site)) t o) :
    DispatchEnds t o := by
  obtain ⟨r, t', rfl, hrest⟩ := runs_call_andThen.mp h
  cases r with
  | cancelled =>
    obtain ⟨rfl, rfl⟩ := runs_done.mp hrest
    exact ⟨rfl, rfl⟩
  | raised error =>
    obtain ⟨rfl, rfl⟩ := runs_done.mp hrest
    exact ⟨rfl, rfl, rfl⟩
  | ret a =>
    obtain ⟨t'', rfl, hdone⟩ := runs_emit.mp hrest
    obtain ⟨rfl, rfl⟩ := runs_done.mp hdone
    exact ⟨rfl, rfl, rfl⟩

theorem capabilityRejected_ends {runner : Runner} {message : Message} {owner : String}
    {event : Event} {error : Exc} {t : Trace Result} {o : Outcome Exc Unit}
    (hcap : error.capabilityNotSupported = true)
    (h : Runs (capabilityRejected runner message owner event error) t o) : DispatchEnds t o := by
  unfold capabilityRejected at h
  rw [if_pos hcap] at h
  split at h
  · obtain ⟨r, t', rfl, hrest⟩ := runs_call_andThen.mp h
    cases r with
    | cancelled =>
      obtain ⟨rfl, rfl⟩ := runs_done.mp hrest
      exact ⟨rfl, rfl⟩
    | raised error =>
      obtain ⟨rfl, rfl⟩ := runs_done.mp hrest
      exact ⟨rfl, rfl, rfl⟩
    | ret a => exact (completeAck_ends hrest).cons rfl rfl rfl
  · exact completeAck_ends h

theorem dispatch_ends {runner : Runner} {message : Message} {owner : String} {event : Event}
    {t : Trace Result} {o : Outcome Exc Unit}
    (h : Runs (dispatch runner message owner event) t o) : DispatchEnds t o := by
  obtain ⟨r, t', rfl, hrest⟩ := runs_call_andThen.mp h
  cases r with
  | cancelled =>
    obtain ⟨rfl, rfl⟩ := runs_done.mp hrest
    exact ⟨rfl, rfl⟩
  | raised error =>
    obtain ⟨rfl, rfl⟩ := runs_done.mp hrest
    exact ⟨rfl, rfl, rfl⟩
  | ret result =>
    refine DispatchEnds.cons ?_ rfl rfl rfl
    obtain ⟨r, t'', rfl, hanswer⟩ := runs_call_andThen.mp hrest
    cases r with
    | cancelled =>
      obtain ⟨rfl, rfl⟩ := runs_done.mp hanswer
      exact ⟨rfl, rfl⟩
    | ret operation => exact (succeed_ends hanswer).cons rfl rfl rfl
    | raised error =>
      by_cases hcap : error.capabilityNotSupported = true
      · exact (capabilityRejected_ends hcap hanswer).cons rfl rfl (by simp [isStepFailure, hcap])
      · simp only [capabilityRejected, if_neg hcap] at hanswer
        obtain ⟨rfl, rfl⟩ := runs_done.mp hanswer
        exact ⟨rfl, rfl, by simp [isStepFailure, hcap]⟩

/-! ## The failure branch -/

/-- The release of the failure branch is awaited once; its exceptions are logged only. -/
theorem release_runs {key owner : String} {next : Unit → Coro (sig Result) Unit}
    {t : Trace Result} {o : Outcome Exc Unit}
    (h : Runs ((tryElse (awaitCall (.release key owner)) (fun _ => pure ())
      fun _ => pure ()).bind next) t o) :
    (t = [.called (.release key owner) .cancelled] ∧ o = .cancelled) ∨
      ∃ r t', t = .called (.release key owner) r :: t' ∧ r.isCancelled = false ∧
        Runs (next ()) t' o := by
  obtain ⟨t₁, o₁, t₂, h₁, h₂, rfl⟩ := runs_andThen.mp h
  obtain ⟨r, t', rfl, hrest⟩ := runs_call_andThen.mp h₁
  cases r with
  | cancelled =>
    obtain ⟨rfl, rfl⟩ := runs_done.mp hrest
    obtain ⟨rfl, rfl⟩ := runs_done.mp h₂
    exact .inl ⟨rfl, rfl⟩
  | raised e =>
    obtain ⟨rfl, rfl⟩ := runs_done.mp hrest
    exact .inr ⟨_, t₂, rfl, rfl, h₂⟩
  | ret a =>
    obtain ⟨rfl, rfl⟩ := runs_done.mp hrest
    exact .inr ⟨_, t₂, rfl, rfl, h₂⟩

/-- What a failure branch that settles at most once has done. -/
structure FailureEnds (message : Message) (t : Trace Result) : Prop where
  hook : ackedHookCancelled t = false
  once : settles t ≤ 1
  settled : wasCancelled t = false → settles t = if message.deliveryAttempt.isSome then 1 else 0

theorem failDelivery_ends {runner : Runner} {message : Message} {owner : String}
    {event : Option Event} {error : Exc} {t : Trace Result} {o : Outcome Exc Unit}
    (h : Runs (failDelivery runner message owner event error) t o) : FailureEnds message t := by
  obtain ⟨rfl, rfl⟩ | ⟨r, t', rfl, hr, hrest⟩ := release_runs h
  · exact ⟨rfl, Nat.zero_le _, fun hc => by simp [isCancellation] at hc⟩
  · split at hrest
    · next hnone =>
      obtain ⟨rfl, rfl⟩ := runs_done.mp hrest
      exact ⟨rfl, Nat.zero_le _, fun _ => by simp [hnone, isSettle]⟩
    · next attempt hsome =>
      split at hrest
      · -- the poison branch: the notification, then the ACK
        obtain ⟨t₁, o₁, t₂, h₁, h₂, rfl⟩ := runs_andThen.mp hrest
        obtain ⟨rfl, rfl⟩ | ⟨space, text, r', rfl, rfl⟩ := notifyPoison_runs h₁
        · obtain ⟨t₃, rfl, hdone⟩ := runs_emit.mp h₂
          obtain ⟨rfl, rfl⟩ := runs_done.mp hdone
          exact ⟨rfl, Nat.le_refl _, fun _ => by simp [hsome, isSettle]⟩
        · by_cases hr' : r'.isCancelled = true
          · rw [if_pos hr'] at h₂
            obtain ⟨rfl, rfl⟩ := runs_done.mp h₂
            refine ⟨rfl, Nat.zero_le _, fun hc => ?_⟩
            cases r' <;> simp [isCancellation, Outcome.isCancelled] at hr' hc
          · rw [if_neg hr'] at h₂
            obtain ⟨t₃, rfl, hdone⟩ := runs_emit.mp h₂
            obtain ⟨rfl, rfl⟩ := runs_done.mp hdone
            exact ⟨rfl, Nat.le_refl _, fun _ => by simp [hsome, isSettle]⟩
      · -- the NACK, then the hook
        obtain ⟨t₂, rfl, hhook⟩ := runs_act_bind.mp hrest
        obtain ⟨rfl, rfl⟩ | ⟨r', rfl, rfl⟩ := maybeHook_runs hhook
        · exact ⟨rfl, Nat.le_refl _, fun _ => by simp [hsome, isSettle]⟩
        · exact ⟨rfl, Nat.le_refl _, fun _ => by simp [hsome, isSettle]⟩

/-! ## The block of a `FIRST` claim and the whole attempt -/

theorem processBody_ends {runner : Runner} {message : Message} {owner : String}
    {t : Trace Result} {o : Outcome Exc Unit}
    (h : Runs (S := sig Result) (do
      perform (.startRenewal (dedupeKey runner message) owner)
      let event ← ofExcept (runner.parse message.data)
      dispatch runner message owner event) t o) :
    (parseFails runner message = false ∧ DispatchEnds t o) ∨
      (parseFails runner message = true ∧ settles t = 0 ∧ ackedHookCancelled t = false ∧
        o.isRaised = true) := by
  obtain ⟨t', rfl, hrest⟩ := runs_act_bind.mp h
  unfold parseFails
  cases hp : runner.parse message.data with
  | error e =>
    rw [hp] at hrest
    obtain ⟨rfl, rfl⟩ := runs_done.mp hrest
    exact .inr ⟨rfl, rfl, rfl, rfl⟩
  | ok event =>
    rw [hp] at hrest
    exact .inl ⟨rfl, (dispatch_ends hrest).cons rfl rfl rfl⟩

/-- The settle count of the block of a `FIRST` claim. -/
structure ProcessEnds (runner : Runner) (message : Message) (t : Trace Result) : Prop where
  once : settles t ≤ 1 ↔ ackedHookCancelled t = false
  settled : wasCancelled t = false →
    (settles t = 1 ↔ message.deliveryAttempt.isSome = true ∨
      (parseFails runner message || t.any isStepFailure) = false)

/-- The body raised: the failure branch alone decides. -/
theorem ProcessEnds.of_failure {runner : Runner} {message : Message} {t₁ t₂ : Trace Result}
    (hs : settles t₁ = 0) (hh : ackedHookCancelled t₁ = false)
    (hf : (parseFails runner message || t₁.any isStepFailure) = true)
    (h : FailureEnds message t₂) : ProcessEnds runner message (t₁ ++ t₂) where
  once := by simp [hs, hh, h.hook, h.once]
  settled := by
    intro hc
    rw [wasCancelled_append, Bool.or_eq_false_iff] at hc
    have hcount := h.settled hc.2
    rw [Bool.or_eq_true] at hf
    rw [settles_append, hs, hcount, List.any_append]
    cases hattempt : message.deliveryAttempt <;> rcases hf with hf | hf <;> simp [hf]

theorem processTry_settles {runner : Runner} {message : Message} {owner : String}
    {t : Trace Result} {o : Outcome Exc Unit}
    (h : Runs (S := sig Result) (tryCancel
      (do
        perform (.startRenewal (dedupeKey runner message) owner)
        let event ← ofExcept (runner.parse message.data)
        dispatch runner message owner event)
      (perform .nack)
      (failDelivery runner message owner (runner.parse message.data).toOption)) t o) :
    ProcessEnds runner message t := by
  obtain ⟨t₁, o₁, t₂, h₁, h₂, rfl⟩ := runs_andThen.mp h
  obtain ⟨hparse, hends⟩ | ⟨hparse, hs, hh, hraised⟩ := processBody_ends h₁
  · cases o₁ with
    | ret a =>
      obtain ⟨rfl, rfl⟩ := runs_done.mp h₂
      obtain ⟨hs, hh, hf⟩ := hends
      exact ⟨by simp [hs, hh], fun _ => by simp [hs, hf, hparse]⟩
    | raised e =>
      obtain ⟨hs, hh, hf⟩ := hends
      exact .of_failure hs hh (by simp [hf]) (failDelivery_ends h₂)
    | cancelled =>
      -- the NACK of the cancellation branch: a second settle when the hook was cancelled
      obtain ⟨t₃, rfl, hdone⟩ := runs_act_bind.mp h₂
      obtain ⟨rfl, rfl⟩ := runs_done.mp hdone
      obtain ⟨hs, hc⟩ := hends
      refine ⟨?_, fun hc' => by simp [hc] at hc'⟩
      cases hh : ackedHookCancelled t₁ <;> simp [hs, hh, isSettle, isAckedHookCancelled]
  · cases o₁ with
    | ret a => cases hraised
    | cancelled => cases hraised
    | raised e => exact .of_failure hs hh (by simp [hparse]) (failDelivery_ends h₂)

theorem process_settles {runner : Runner} {message : Message} {owner : String}
    {t : Trace Result} {o : Outcome Exc Unit}
    (h : Runs (process runner message owner) t o) : ProcessEnds runner message t := by
  obtain ⟨t₁, o₁, t₂, h₁, h₂, rfl⟩ := runs_andThen.mp h
  obtain ⟨t₃, o₃, t₄, h₃, h₄, rfl⟩ := runs_andThen.mp h₂
  obtain ⟨rfl, r, rfl⟩ := joinRenewal_runs h₃
  obtain ⟨rfl, rfl⟩ := runs_done.mp h₄
  have hends := processTry_settles h₁
  refine ⟨?_, fun hc => ?_⟩
  · simpa [isSettle, isAckedHookCancelled] using hends.once
  · have hc₁ : wasCancelled t₁ = false := by
      simp only [wasCancelled_append, Bool.or_eq_false_iff] at hc
      exact hc.1
    simpa [isSettle, isStepFailure] using hends.settled hc₁

/-- An attempt that does not win the claim settles once, and calls nothing else. -/
theorem handle_cases {runner : Runner} {message : Message} {owner : String} {t : Trace Result}
    {o : Outcome Exc Unit} (h : Runs (handle runner message owner) t o) :
    ∃ r t', t = .called (.claim (dedupeKey runner message) owner defaultLeaseSeconds) r :: t' ∧
      ((r = .cancelled ∧ t' = []) ∨
        (r.isCancelled = false ∧ r ≠ .ret .first ∧ (t' = [.acted (.ack .duplicate)] ∨ t' = [.acted .nack])) ∨
        (r = .ret .first ∧ Runs (process runner message owner) t' o)) := by
  obtain ⟨r, t', rfl, hrest⟩ := runs_call_andThen.mp h
  refine ⟨r, t', rfl, ?_⟩
  cases r with
  | cancelled => exact .inl ⟨rfl, (runs_done.mp hrest).1⟩
  | raised e =>
    obtain ⟨t'', rfl, hdone⟩ := runs_emit.mp hrest
    obtain ⟨rfl, rfl⟩ := runs_done.mp hdone
    exact .inr (.inl ⟨rfl, nofun, .inr rfl⟩)
  | ret claim =>
    cases claim with
    | first => exact .inr (.inr ⟨rfl, hrest⟩)
    | completed =>
      obtain ⟨t'', rfl, hdone⟩ := runs_emit.mp hrest
      obtain ⟨rfl, rfl⟩ := runs_done.mp hdone
      exact .inr (.inl ⟨rfl, nofun, .inl rfl⟩)
    | active =>
      obtain ⟨t'', rfl, hdone⟩ := runs_emit.mp hrest
      obtain ⟨rfl, rfl⟩ := runs_done.mp hdone
      exact .inr (.inl ⟨rfl, nofun, .inr rfl⟩)

@[simp] theorem isFirstClaim_acted (e : Effect) :
    isFirstClaim (.acted e : Asyncio.Event (sig Result)) = false := rfl

theorem isFirstClaim_of_ne {key owner : String} {lease : Rat} {r : Outcome Exc ClaimResult}
    (h : r ≠ .ret .first) :
    isFirstClaim (.called (.claim key owner lease) r : Asyncio.Event (sig Result)) = false := by
  rcases r with claim | e | _
  · cases claim
    · exact absurd rfl h
    · rfl
    · rfl
  · rfl
  · rfl

/-- **At most one settle.** A run settles its delivery at most once exactly when the task is not
cancelled while it awaits the `delivery_acked` hook. -/
theorem handle_settles_at_most_once {runner : Runner} {message : Message} {owner : String}
    {t : Trace Result} {o : Outcome Exc Unit} (h : Runs (handle runner message owner) t o) :
    settles t ≤ 1 ↔ ackedHookCancelled t = false := by
  obtain ⟨r, t', rfl, ⟨rfl, rfl⟩ | ⟨-, -, rfl | rfl⟩ | ⟨rfl, hrest⟩⟩ := handle_cases h
  · simp [isSettle, isAckedHookCancelled]
  · simp [isSettle, isAckedHookCancelled]
  · simp [isSettle, isAckedHookCancelled]
  · simpa [isSettle, isAckedHookCancelled] using (process_settles hrest).once

/-- A `MESSAGE` event in a known space. -/
def helloEvent : Event where
  raw := .dict [("type", .str "MESSAGE"), ("message", .dict [("text", .str "hello")])]
  eventTime := none
  actor := none
  space := some ⟨some "spaces/A", none, none, none, none⟩
  thread := none
  dialog := none
  locale := none
  timezone := none
  body := .message "hello" (some ⟨none⟩) none none none

/-- A runner with the defaults of the source, every hook, and a parser that reads `helloEvent`. -/
def helloRunner : Runner where
  subscription := "projects/P/subscriptions/S"
  hasBot := true
  maxConcurrency := 10
  maxConcurrency_pos := by decide
  maxDeliveryAttempts := 5
  hooks := some fun _ => true
  parse := fun _ => .ok helloEvent

/-- The claim is won and every call returns, except that the dispatch ends with `feed` and the
`delivery_acked` hook with `acked`. -/
def helloAnswers (feed acked : Outcome Exc Unit) : (c : Call Unit) → Outcome Exc c.Res
  | .claim .. => .ret .first
  | .feedUpdate _ => feed
  | .answer .. => .ret none
  | .hook .deliveryAcked _ _ => acked
  | .hook .deliveryNacked _ _ | .hook .beforeOutbound _ _ | .hook .afterOutbound _ _ => .ret ()
  | .createMessage .. | .complete .. | .release .. => .ret ()
  | .renewal _ => .cancelled

/-- The run of an attempt for a message with the given attempt number. -/
def helloRun (deliveryAttempt : Option Int) (feed acked : Outcome Exc Unit) :
    Trace Unit × Outcome Exc Unit :=
  (handle helloRunner ⟨"m-1", .text "hello", deliveryAttempt⟩ "owner-1").runWith
    (helloAnswers feed acked)

/-- An undisturbed attempt settles at most once. -/
theorem hello_settles_at_most_once : settles (helloRun (some 1) (.ret ()) (.ret ())).1 ≤ 1 :=
  (handle_settles_at_most_once (runs_runWith _ _)).mpr (by decide)

/-- The task is cancelled in the `delivery_acked` hook: the delivery is ACKed and then NACKed. -/
theorem handle_acks_and_nacks :
    ¬ ∀ (runner : Runner) (message : Message) (owner : String) (t : Trace Unit)
      (o : Outcome Exc Unit), Runs (handle runner message owner) t o → settles t ≤ 1 := by
  intro h
  have hrun : settles (helloRun (some 1) (.ret ()) .cancelled).1 ≤ 1 :=
    h _ _ _ _ _ (runs_runWith _ _)
  exact absurd hrun (by decide)

/-- **Exactly one settle.** A run that is not cancelled settles its delivery exactly once when the
delivery carries an attempt number or the processing of its claim does not raise, and only then. -/
theorem handle_settles_exactly_once {runner : Runner} {message : Message} {owner : String}
    {t : Trace Result} {o : Outcome Exc Unit} (h : Runs (handle runner message owner) t o)
    (hc : wasCancelled t = false) :
    settles t = 1 ↔
      message.deliveryAttempt.isSome = true ∨ processingFailed runner message t = false := by
  obtain ⟨r, t', rfl, ⟨rfl, rfl⟩ | ⟨-, hr, ht⟩ | ⟨rfl, hrest⟩⟩ := handle_cases h
  · simp [isCancellation] at hc
  · have hclaim : isFirstClaim (.called (.claim (dedupeKey runner message) owner
        defaultLeaseSeconds) r : Asyncio.Event (sig Result)) = false :=
      isFirstClaim_of_ne hr
    rcases ht with rfl | rfl
    · simp [isSettle, processingFailed, hclaim]
    · simp [isSettle, processingFailed, hclaim]
  · have hc' : wasCancelled t' = false := by simpa [isCancellation] using hc
    simpa [isSettle, processingFailed, isFirstClaim, isStepFailure] using
      (process_settles hrest).settled hc'

/-- An undisturbed attempt settles exactly once, also without an attempt number. -/
theorem hello_settles_exactly_once : settles (helloRun none (.ret ()) (.ret ())).1 = 1 :=
  (handle_settles_exactly_once (runs_runWith _ _) (by decide)).mpr (.inr (by decide))

/-- The exception of a handler for a delivery without an attempt number: neither ACK nor NACK. -/
theorem handle_never_settles :
    ¬ ∀ (runner : Runner) (message : Message) (owner : String) (t : Trace Unit)
      (o : Outcome Exc Unit), Runs (handle runner message owner) t o → wasCancelled t = false →
        settles t = 1 := by
  intro h
  have hrun : settles (helloRun none (.raised ⟨false, "RuntimeError", "boom"⟩) (.ret ())).1 = 1 :=
    h _ _ _ _ _ (runs_runWith _ _) (by decide)
  exact absurd hrun (by decide)

end Chattice.PubsubRunner
