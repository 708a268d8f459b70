import Chattice.Asyncio.RunM
import Chattice.Dispatcher.Dispatcher

/-!
# `Dispatcher.feed_update`

One event is routed inside two `try` statements: an ordinary exception of routing is offered to the
error observers, and whatever happens the `after_event` hook is called and the context-local bot is
reset. The coroutine awaits the event hooks and the two kinds of routing; log records are left out.

* `feedUpdate` : the coroutine;
* `FeedDispatcher.feedUpdate` : its run with the routing of a dispatcher;
* `Settles` : how an event ends, by what routing and the error pass end with;
* `feedUpdate_contract` : what holds of every run.
-/

namespace Chattice.Routing

open Asyncio Asyncio.Coro

variable {V : Type}

/-- An exception on its way out, and the `__cause__` that `raise … from …` has given it. -/
structure Failure where
  raised : Raised
  cause : Option Exc := none

/-- `exc`, when it is an `Exception`. -/
def Failure.exception (failure : Failure) : Option Exc :=
  match failure.raised with
  | .exception e => some e
  | _ => none

/-- `raise failure from e` -/
def Failure.raiseFrom (failure : Failure) (e : Exc) : Failure := { failure with cause := some e }

/-- What `after_event` gets as `error`. -/
inductive EventError where
  | raised (failure : Failure)
  | cancelledError

inductive HookCall (V : Type) where
  | beforeEvent (event : Routed) (data : Context V)
  | afterEvent (event : Routed) (data : Context V) (result : Option V) (error : Option EventError)

/-- The calls `feed_update` awaits. -/
inductive FeedCall (V : Type) where
  | hook (call : HookCall V)
  | routeEvent (event : Routed) (data : Context V)
  | routePass (event : Routed) (data : Context V) (name : ObserverName)

def FeedCall.Res : FeedCall V → Type
  | .hook _ => Unit
  | .routeEvent .. | .routePass .. => DispatchOutcome V

/-- `_set_current_bot`, which keeps the old value in its token, and `_reset_current_bot`. -/
inductive BotEffect (V : Type) where
  | set (bot : Option V)
  | reset

abbrev feedSig (V : Type) : Sig where
  Call := FeedCall V
  Res := FeedCall.Res
  Eff := BotEffect V
  Exc := Failure

abbrev Feed (V α : Type) := Coro (feedSig V) α

abbrev awaitFeed (c : FeedCall V) : Feed V c.Res := call (S := feedSig V) c

/-- What `Dispatcher.__init__` keeps for `feed_update`. `providesBefore` and `providesAfter` say
which of the event hooks there are; `state` is the `FSMContext` of an event, with a storage. -/
structure FeedSettings (V : Type) where
  bot : Option V
  previewCapabilities : V
  state : Option (Routed → V)
  providesBefore : Bool
  providesAfter : Bool

/-- `data[key] = value` -/
def Context.set (data : Context V) (key : String) (value : V) : Context V :=
  match data with
  | [] => [(key, value)]
  | (k, v) :: rest => if k = key then (k, value) :: rest else (k, v) :: Context.set rest key value

def FeedSettings.data (d : FeedSettings V) (event : Routed) (context : Context V) : Context V :=
  let data :=
    match d.bot with
    | some bot => if context.has "bot" then context else context.set "bot" bot
    | none => context
  let data := data.set "preview_capabilities" d.previewCapabilities
  match d.state with
  | some state => data.set "state" (state event)
  | none => data

/-- `data.get("bot")`, read before `preview_capabilities` and `state` are set. -/
def FeedSettings.contextualBot (d : FeedSettings V) (context : Context V) : Option V :=
  if context.has "bot" then context.lookup "bot" else d.bot

/-- `_maybe_hook`: an ordinary exception of a hook is swallowed. -/
def maybeEventHook (provided : Bool) (c : HookCall V) : Feed V Unit :=
  if provided then
    (awaitFeed (.hook c)).andThen fun
      | .ret () => done (.ret ())
      | .raised failure =>
        match failure.exception with
        | some _ => done (.ret ())
        | none => done (.raised failure)
      | .cancelled => done .cancelled
  else done (.ret ())

/-- The local variables when the `finally` block runs, and how the `try` block has ended. -/
structure Pending (V : Type) where
  result : Option V := none
  error : Option EventError := none
  ended : Outcome Failure Unit

/-- The error pass for the exception `e` of routing. `same` is the identity of exception objects. -/
def routeError (same : Exc → Exc → Bool) (event : Routed) (data : Context V) (failure : Failure)
    (e : Exc) : Feed V (Pending V) :=
  (awaitFeed (.routePass (.error event e) data .error)).andThen fun
    | .ret outcome =>
      if outcome.handled then
        done (.ret { result := outcome.result, error := some (.raised failure), ended := .ret () })
      else done (.ret { error := some (.raised failure), ended := .raised failure })
    | .raised failure' =>
      match failure'.exception with
      | some e' =>
        if same e' e then
          done (.ret { error := some (.raised failure), ended := .raised failure' })
        else
          done (.ret { error := some (.raised failure), ended := .raised (failure'.raiseFrom e) })
      | none => done (.ret { error := some (.raised failure), ended := .raised failure' })
    | .cancelled => done (.ret { error := some (.raised failure), ended := .cancelled })

/-- The inner `try` statement. -/
def routeAndHandle (same : Exc → Exc → Bool) (event : Routed) (data : Context V) :
    Feed V (Pending V) :=
  (awaitFeed (.routeEvent event data)).andThen fun
    | .ret outcome =>
      done (.ret { result := if outcome.handled then outcome.result else none, ended := .ret () })
    | .raised failure =>
      match failure.exception with
      | some e => routeError same event data failure e
      | none => done (.ret { error := some (.raised failure), ended := .raised failure })
    | .cancelled => done (.ret { error := some .cancelledError, ended := .cancelled })

/-- The body of the outer `try` statement. -/
def feedBody (same : Exc → Exc → Bool) (d : FeedSettings V) (event : Routed) (data : Context V) :
    Feed V (Pending V) :=
  (maybeEventHook d.providesBefore (.beforeEvent event data)).andThen fun
    | .ret () => routeAndHandle same event data
    | .raised failure => done (.ret { ended := .raised failure })
    | .cancelled => done (.ret { ended := .cancelled })

/-- How `feed_update` ends: as the `try` block has, unless `after_event` raises. -/
def Pending.conclude (p : Pending V) : Outcome Failure Unit → Outcome Failure (Option V)
  | .ret () =>
    match p.ended with
    | .ret () => .ret p.result
    | .raised failure => .raised failure
    | .cancelled => .cancelled
  | .raised failure => .raised failure
  | .cancelled => .cancelled

/-- `Dispatcher.feed_update` -/
def feedUpdate (same : Exc → Exc → Bool) (d : FeedSettings V) (event : Routed)
    (context : Context V) : Feed V (Option V) :=
  let data := d.data event context
  emit (.set (d.contextualBot context))
    ((feedBody same d event data).andThen fun
      | .ret p =>
        (maybeEventHook d.providesAfter (.afterEvent event data p.result p.error)).andThen fun
          | ended => emit .reset (done (p.conclude ended))
      | .raised failure => done (.raised failure)
      | .cancelled => done .cancelled)

/-! ## The dispatcher -/

/-- A dispatcher with what `feed_update` uses of it; an event hook may be missing. -/
structure FeedDispatcher (m : Type → Type) (V : Type) extends Dispatcher m V where
  bot : Option V
  previewCapabilities : V
  state : Option (Routed → V)
  beforeEvent : Option (Routed → Context V → m (Except Raised Unit))
  afterEvent :
    Option (Routed → Context V → Option V → Option EventError → m (Except Raised Unit))

/-- A callable's result or exception as the outcome of an awaited call. -/
def toOutcome {α : Type} : Except Raised α → Outcome Failure α
  | .ok a => .ret a
  | .error raised => .raised { raised }

namespace FeedDispatcher

variable {m : Type → Type} [Monad m]

def settings (d : FeedDispatcher m V) : FeedSettings V where
  bot := d.bot
  previewCapabilities := d.previewCapabilities
  state := d.state
  providesBefore := d.beforeEvent.isSome
  providesAfter := d.afterEvent.isSome

/-- What the awaited calls do: the hooks, and routing in the tree of the dispatcher. -/
def answer (d : FeedDispatcher m V) : (c : FeedCall V) → m (Outcome Failure c.Res)
  | .hook (.beforeEvent event data) =>
    match d.beforeEvent with
    | some hook => toOutcome <$> hook event data
    | none => pure (.ret ())
  | .hook (.afterEvent event data result error) =>
    match d.afterEvent with
    | some hook => toOutcome <$> hook event data result error
    | none => pure (.ret ())
  | .routeEvent event data => toOutcome <$> d.routeEvent event data
  | .routePass event data name => toOutcome <$> routePass d.hooks d.router event data name

/-- `feed_update` of the dispatcher: what it has called, and how it ends. -/
def feedUpdate (same : Exc → Exc → Bool) (d : FeedDispatcher m V) (event : Routed)
    (context : Context V) : m (List (Asyncio.Event (feedSig V)) × Outcome Failure (Option V)) :=
  (Routing.feedUpdate same d.settings event context).runM d.answer

end FeedDispatcher

/-! ## The contract -/

abbrev Line (V : Type) := Asyncio.Event (feedSig V)

/-- The context-local bot, and the old values the open tokens keep. -/
structure BotVar (V : Type) where
  current : Option V
  saved : List (Option V)

/-- What the lines of a trace make of the context-local bot: an awaited call may leave any value. -/
inductive BotRun : BotVar V → List (Line V) → BotVar V → Prop where
  | nil (v : BotVar V) : BotRun v [] v
  | set {bot current : Option V} {saved : List (Option V)} {t : List (Line V)} {v : BotVar V}
      (h : BotRun ⟨bot, current :: saved⟩ t v) : BotRun ⟨current, saved⟩ (.acted (.set bot) :: t) v
  | reset {old current : Option V} {saved : List (Option V)} {t : List (Line V)} {v : BotVar V}
      (h : BotRun ⟨old, saved⟩ t v) : BotRun ⟨current, old :: saved⟩ (.acted .reset :: t) v
  | call {c : FeedCall V} {r : Outcome Failure c.Res} {left current : Option V}
      {saved : List (Option V)} {t : List (Line V)} {v : BotVar V}
      (h : BotRun ⟨left, saved⟩ t v) : BotRun ⟨current, saved⟩ (.called c r :: t) v

def Line.isAfterEvent : Line V → Bool
  | .called (.hook (.afterEvent ..)) _ => true
  | _ => false

def Line.isRouting : Line V → Bool
  | .called (.routeEvent ..) _ | .called (.routePass ..) _ => true
  | _ => false

/-- A hook call returns or raises an `Exception`. -/
def Line.Harmless : Line V → Prop
  | .called (.hook _) r => r = .ret () ∨ ∃ failure e, r = .raised failure ∧ failure.exception = some e
  | _ => True

/-- The `error` pass over the exception `e` of the event, and what it ends with. -/
def errorPass (event : Routed) (data : Context V) (e : Exc)
    (r : Outcome Failure (DispatchOutcome V)) : List (Line V) :=
  [.called (.routePass (.error event e) data .error) r]

/-- How an event ends when the hooks raise exceptions only: by what routing ends with and, when that
is an exception, by what the one error pass ends with. -/
inductive Settles (same : Exc → Exc → Bool) (event : Routed) (data : Context V) :
    Outcome Failure (DispatchOutcome V) → List (Line V) → Outcome Failure (Option V) → Prop where
  | routed (outcome : DispatchOutcome V) : Settles same event data (.ret outcome) []
      (.ret (if outcome.handled then outcome.result else none))
  | interrupted {failure : Failure} (h : failure.exception = none) :
      Settles same event data (.raised failure) [] (.raised failure)
  | cancelled : Settles same event data .cancelled [] .cancelled
  | handled {failure : Failure} {e : Exc} (he : failure.exception = some e)
      {outcome : DispatchOutcome V} (h : outcome.handled = true) :
      Settles same event data (.raised failure) (errorPass event data e (.ret outcome))
        (.ret outcome.result)
  | unhandled {failure : Failure} {e : Exc} (he : failure.exception = some e)
      {outcome : DispatchOutcome V} (h : outcome.handled = false) :
      Settles same event data (.raised failure) (errorPass event data e (.ret outcome))
        (.raised failure)
  | raisedAgain {failure failure' : Failure} {e e' : Exc} (he : failure.exception = some e)
      (he' : failure'.exception = some e') (h : same e' e = true) :
      Settles same event data (.raised failure) (errorPass event data e (.raised failure'))
        (.raised failure')
  | raisedAnother {failure failure' : Failure} {e e' : Exc} (he : failure.exception = some e)
      (he' : failure'.exception = some e') (h : same e' e = false) :
      Settles same event data (.raised failure) (errorPass event data e (.raised failure'))
        (.raised (failure'.raiseFrom e))
  | errorInterrupted {failure failure' : Failure} {e : Exc} (he : failure.exception = some e)
      (he' : failure'.exception = none) :
      Settles same event data (.raised failure) (errorPass event data e (.raised failure'))
        (.raised failure')
  | errorCancelled {failure : Failure} {e : Exc} (he : failure.exception = some e) :
      Settles same event data (.raised failure) (errorPass event data e .cancelled) .cancelled

/-- What a run of `feed_update` keeps to: the context-local bot is what it was, `after_event` is
called once where there is one, and, when the hooks raise exceptions only, the event is routed once,
with at most one error pass after it, and settled by these two. -/
structure Contract (same : Exc → Exc → Bool) (d : FeedSettings V) (event : Routed)
    (context : Context V) (t : List (Line V)) (o : Outcome Failure (Option V)) : Prop where
  restores : ∀ v v', BotRun v t v' → v' = v
  reports : t.countP Line.isAfterEvent = if d.providesAfter then 1 else 0
  settles : (∀ line ∈ t, line.Harmless) → ∃ found passes,
    t.filter Line.isRouting =
      .called (.routeEvent event (d.data event context)) found :: passes ∧
    Settles same event (d.data event context) found passes o

/-! ## The runs -/

theorem runs_maybeEventHook {provided : Bool} {c : HookCall V} {t : List (Line V)}
    {o : Outcome Failure Unit} (h : Runs (maybeEventHook provided c) t o) :
    (provided = true ∧ ∃ r, t = [.called (.hook c) r] ∧
        (Line.Harmless (.called (.hook c) r) → o = .ret ())) ∨
      (provided = false ∧ t = [] ∧ o = .ret ()) := by
  cases provided with
  | true =>
    obtain ⟨r, t', rfl, hrest⟩ := runs_call_andThen.mp h
    refine .inl ⟨rfl, r, ?_⟩
    match r with
    | .ret () =>
      obtain ⟨rfl, rfl⟩ := runs_done.mp hrest
      exact ⟨rfl, fun _ => rfl⟩
    | .raised failure =>
      dsimp only at hrest
      cases hexception : failure.exception with
      | some e =>
        rw [hexception] at hrest
        obtain ⟨rfl, rfl⟩ := runs_done.mp hrest
        exact ⟨rfl, fun _ => rfl⟩
      | none =>
        rw [hexception] at hrest
        obtain ⟨rfl, rfl⟩ := runs_done.mp hrest
        refine ⟨rfl, ?_⟩
        rintro (hret | ⟨failure', e, hraised, he⟩)
        · cases hret
        · cases hraised
          cases hexception.symm.trans he
    | .cancelled =>
      obtain ⟨rfl, rfl⟩ := runs_done.mp hrest
      refine ⟨rfl, ?_⟩
      rintro (hret | ⟨failure', e, hraised, he⟩)
      · cases hret
      · cases hraised
  | false =>
    obtain ⟨rfl, rfl⟩ := runs_done.mp h
    exact .inr ⟨rfl, rfl, rfl⟩

/-- What the `try` block has done, in the trace, and the local variables it leaves. -/
def Routes (same : Exc → Exc → Bool) (event : Routed) (data : Context V) (t : List (Line V))
    (p : Pending V) : Prop :=
  ∃ found passes, t = .called (.routeEvent event data) found :: passes ∧
    (∀ line ∈ passes, Line.isRouting line = true) ∧
    Settles same event data found passes (p.conclude (.ret ()))

variable {same : Exc → Exc → Bool} {event : Routed} {data : Context V}

theorem runs_routeError {failure : Failure} {e : Exc} (he : failure.exception = some e)
    {t : List (Line V)} {o : Outcome Failure (Pending V)}
    (h : Runs (routeError same event data failure e) t o) :
    ∃ r p, t = errorPass event data e r ∧ o = .ret p ∧
      Settles same event data (.raised failure) t (p.conclude (.ret ())) := by
  obtain ⟨r, t', rfl, hrest⟩ := runs_call_andThen.mp h
  match r with
  | .ret outcome =>
    dsimp only at hrest
    split at hrest
    next hhandled =>
      obtain ⟨rfl, rfl⟩ := runs_done.mp hrest
      exact ⟨_, _, rfl, rfl, .handled he hhandled⟩
    next hhandled =>
      obtain ⟨rfl, rfl⟩ := runs_done.mp hrest
      exact ⟨_, _, rfl, rfl, .unhandled he (eq_false_of_ne_true hhandled)⟩
  | .raised failure' =>
    dsimp only at hrest
    cases he' : failure'.exception with
    | some e' =>
      simp only [he'] at hrest
      split at hrest
      next hsame =>
        obtain ⟨rfl, rfl⟩ := runs_done.mp hrest
        exact ⟨_, _, rfl, rfl, .raisedAgain he he' hsame⟩
      next hsame =>
        obtain ⟨rfl, rfl⟩ := runs_done.mp hrest
        exact ⟨_, _, rfl, rfl, .raisedAnother he he' (eq_false_of_ne_true hsame)⟩
    | none =>
      simp only [he'] at hrest
      obtain ⟨rfl, rfl⟩ := runs_done.mp hrest
      exact ⟨_, _, rfl, rfl, .errorInterrupted he he'⟩
  | .cancelled =>
    obtain ⟨rfl, rfl⟩ := runs_done.mp hrest
    exact ⟨_, _, rfl, rfl, .errorCancelled he⟩

theorem runs_routeAndHandle {t : List (Line V)} {o : Outcome Failure (Pending V)}
    (h : Runs (routeAndHandle same event data) t o) :
    ∃ p, o = .ret p ∧ Routes same event data t p := by
  obtain ⟨r, t', rfl, hrest⟩ := runs_call_andThen.mp h
  match r with
  | .ret outcome =>
    obtain ⟨rfl, rfl⟩ := runs_done.mp hrest
    exact ⟨_, rfl, _, _, rfl, List.forall_mem_nil _, .routed outcome⟩
  | .raised failure =>
    dsimp only at hrest
    cases he : failure.exception with
    | some e =>
      simp only [he] at hrest
      obtain ⟨r, p, rfl, rfl, hsettles⟩ := runs_routeError he hrest
      refine ⟨p, rfl, _, _, rfl, fun line hline => ?_, hsettles⟩
      rw [List.mem_singleton.mp hline]
      rfl
    | none =>
      simp only [he] at hrest
      obtain ⟨rfl, rfl⟩ := runs_done.mp hrest
      exact ⟨_, rfl, _, _, rfl, List.forall_mem_nil _, .interrupted he⟩
  | .cancelled =>
    obtain ⟨rfl, rfl⟩ := runs_done.mp hrest
    exact ⟨_, rfl, _, _, rfl, List.forall_mem_nil _, .cancelled⟩

/-- A call, but not the one of `after_event`. -/
def Line.Inner : Line V → Prop
  | .called (.hook (.afterEvent ..)) _ => False
  | .called _ _ => True
  | .acted _ => False

theorem Line.inner_of_isRouting {line : Line V} (h : Line.isRouting line = true) :
    Line.Inner line := by
  cases line with
  | acted effect => cases h
  | called c r =>
    cases c with
    | hook c => cases h
    | routeEvent event data => trivial
    | routePass event data name => trivial

theorem Routes.inner {t : List (Line V)} {p : Pending V} (h : Routes same event data t p) :
    ∀ line ∈ t, Line.Inner line := by
  obtain ⟨found, passes, rfl, hpasses, -⟩ := h
  exact List.forall_mem_cons.mpr ⟨trivial, fun line hline =>
    Line.inner_of_isRouting (hpasses line hline)⟩

theorem Routes.filter {t : List (Line V)} {p : Pending V} (h : Routes same event data t p) :
    t.filter Line.isRouting = t := by
  obtain ⟨found, passes, rfl, hpasses, -⟩ := h
  exact List.filter_eq_self.mpr (List.forall_mem_cons.mpr ⟨rfl, hpasses⟩)

/-- The body of the outer `try` statement always leaves its local variables. -/
theorem runs_feedBody {d : FeedSettings V} {t : List (Line V)} {o : Outcome Failure (Pending V)}
    (h : Runs (feedBody same d event data) t o) :
    ∃ p, o = .ret p ∧ (∀ line ∈ t, Line.Inner line) ∧
      ((∀ line ∈ t, Line.Harmless line) →
        Routes same event data (t.filter Line.isRouting) p) := by
  obtain ⟨t₁, o₁, t₂, hhook, hrest, rfl⟩ := runs_andThen.mp h
  have hbefore : (∀ line ∈ t₁, Line.Inner line) ∧ t₁.filter Line.isRouting = [] ∧
      ((∀ line ∈ t₁, Line.Harmless line) → o₁ = .ret ()) := by
    obtain ⟨-, r, rfl, hquiet⟩ | ⟨-, rfl, rfl⟩ := runs_maybeEventHook hhook
    · exact ⟨List.forall_mem_singleton.mpr trivial, rfl, fun h => hquiet (h _ (.head _))⟩
    · exact ⟨List.forall_mem_nil _, rfl, fun _ => rfl⟩
  obtain ⟨hinner, hsilent, hquiet⟩ := hbefore
  match o₁ with
  | .ret () =>
    obtain ⟨p, rfl, hroutes⟩ := runs_routeAndHandle hrest
    refine ⟨p, rfl, List.forall_mem_append.mpr ⟨hinner, hroutes.inner⟩, fun _ => ?_⟩
    rw [List.filter_append, hsilent, List.nil_append, hroutes.filter]
    exact hroutes
  | .raised failure =>
    obtain ⟨rfl, rfl⟩ := runs_done.mp hrest
    rw [List.append_nil]
    exact ⟨_, rfl, hinner, fun hharmless => nomatch hquiet hharmless⟩
  | .cancelled =>
    obtain ⟨rfl, rfl⟩ := runs_done.mp hrest
    rw [List.append_nil]
    exact ⟨_, rfl, hinner, fun hharmless => nomatch hquiet hharmless⟩

/-! ## The contract of a run -/

/-- Only `set` and `reset` touch the saved values. -/
theorem BotRun.calls {t₁ t₂ : List (Line V)} {v v' : BotVar V}
    (hcalls : ∀ line ∈ t₁, ∃ c r, line = .called c r) (h : BotRun v (t₁ ++ t₂) v') :
    ∃ left, BotRun ⟨left, v.saved⟩ t₂ v' := by
  induction t₁ generalizing v with
  | nil => exact ⟨v.current, h⟩
  | cons line t₁ ih =>
    obtain ⟨⟨c, r, rfl⟩, hrest⟩ := List.forall_mem_cons.mp hcalls
    cases h with
    | call h =>
      obtain ⟨left, hleft⟩ := ih hrest h
      exact ⟨left, hleft⟩

theorem Line.isCall_of_inner {line : Line V} (h : Line.Inner line) : ∃ c r, line = .called c r := by
  cases line with
  | acted effect => exact absurd h id
  | called c r => exact ⟨c, r, rfl⟩

theorem Line.not_isAfterEvent_of_inner {line : Line V} (h : Line.Inner line) :
    ¬ Line.isAfterEvent line = true := by
  cases line with
  | acted effect => exact absurd h id
  | called c r =>
    cases c with
    | hook c =>
      cases c with
      | beforeEvent event data => exact Bool.false_ne_true
      | afterEvent event data result error => exact absurd h id
    | routeEvent event data => exact Bool.false_ne_true
    | routePass event data name => exact Bool.false_ne_true

/-- **The contract of `feed_update`.** It holds of every run, whatever the awaited calls end with. -/
theorem contract_of_runs {d : FeedSettings V} {context : Context V} {t : List (Line V)}
    {o : Outcome Failure (Option V)} (h : Runs (feedUpdate same d event context) t o) :
    Contract same d event context t o := by
  obtain ⟨t', rfl, htry⟩ := runs_emit.mp h
  obtain ⟨t₁, o₁, t₂, hbody, hfinally, rfl⟩ := runs_andThen.mp htry
  obtain ⟨p, rfl, hinner, hroutes⟩ := runs_feedBody hbody
  obtain ⟨t₃, ended, t₄, hafter, hreset, rfl⟩ := runs_andThen.mp hfinally
  obtain ⟨t₅, rfl, hdone⟩ := runs_emit.mp hreset
  obtain ⟨rfl, rfl⟩ := runs_done.mp hdone
  -- the call of `after_event`, where there is one
  have hlast : (∀ line ∈ t₃, ∃ c r, line = .called c r) ∧
      t₃.countP Line.isAfterEvent = (if d.providesAfter then 1 else 0) ∧
      t₃.filter Line.isRouting = [] ∧ ((∀ line ∈ t₃, Line.Harmless line) → ended = .ret ()) := by
    obtain ⟨hprovided, r, rfl, hquiet⟩ | ⟨hprovided, rfl, rfl⟩ := runs_maybeEventHook hafter
    · refine ⟨List.forall_mem_singleton.mpr ⟨_, _, rfl⟩, ?_, rfl, fun h => hquiet (h _ (.head _))⟩
      rw [hprovided]
      rfl
    · refine ⟨List.forall_mem_nil _, ?_, rfl, fun _ => rfl⟩
      rw [hprovided]
      rfl
  obtain ⟨hcalls, hcount, hsilent, hquiet⟩ := hlast
  refine ⟨fun v v' hbot => ?_, ?_, fun hharmless => ?_⟩
  · cases hbot with
    | set hbot =>
      obtain ⟨left, hbot⟩ := hbot.calls fun line hline => Line.isCall_of_inner (hinner line hline)
      obtain ⟨left', hbot⟩ := hbot.calls hcalls
      cases hbot with
      | reset hbot =>
        cases hbot
        rfl
  · have hnone : t₁.countP Line.isAfterEvent = 0 :=
      List.countP_eq_zero.mpr fun line hline => Line.not_isAfterEvent_of_inner (hinner line hline)
    rw [List.countP_cons_of_neg Bool.false_ne_true, List.countP_append, List.countP_append, hnone,
      hcount]
    exact Nat.zero_add _
  · have hsub : ∀ {t : List (Line V)}, t ⊆ t₁ ++ (t₃ ++ [.acted .reset]) →
        ∀ line ∈ t, Line.Harmless line := fun ht line hline =>
      hharmless line (List.mem_cons_of_mem _ (ht hline))
    obtain ⟨found, passes, hfilter, -, hsettles⟩ :=
      hroutes (hsub (List.subset_append_left t₁ _))
    obtain rfl := hquiet (hsub (List.subset_append_of_subset_right t₁
      (List.subset_append_left t₃ _)))
    refine ⟨found, passes, ?_, hsettles⟩
    rw [List.filter_cons_of_neg Bool.false_ne_true, List.filter_append, List.filter_append, hsilent,
      hfilter]
    exact List.append_nil _

/-- **Main result.** In every monad, for every dispatcher and event, `feed_update` keeps to its
contract whatever the hooks, the filters, the middleware and the handlers do. -/
theorem feedUpdate_contract {m : Type → Type} [Monad m] [LawfulMonad m] (same : Exc → Exc → Bool)
    (d : FeedDispatcher m V) (event : Routed) (context : Context V) :
    Always (fun run => Contract same d.settings event context run.1 run.2)
      (d.feedUpdate same event context) := by
  have hruns := Coro.runM_always d.answer (Routing.feedUpdate same d.settings event context)
  exact hruns.mono fun run hrun => contract_of_runs hrun

section Example

/-- A message handler raises, an error handler answers 7, and the hook before the event fails. -/
def failing : FeedDispatcher Id Nat where
  router := .mk "dispatcher"
    (fun
      | .message => ⟨[], [⟨"app.broken", [], fun _ _ =>
          .error (.exception { classes := ["ValueError", "Exception"], message := [] })⟩]⟩
      | .error => ⟨[], [⟨"app.answer", [], fun _ _ => .ok 7⟩]⟩
      | _ => ⟨[], []⟩) [] []
  hooks := ⟨none, none⟩
  strictInteractions := false
  bot := none
  previewCapabilities := 0
  state := none
  beforeEvent := some fun _ _ =>
    .error (.exception { classes := ["RuntimeError", "Exception"], message := [] })
  afterEvent := none

def hello : Routed :=
  .event ⟨.null, none, none, none, none, none, none, none, .message "hi" none none none none⟩

/-- The answer of the error handler is the result of the event. -/
theorem failing_contract :
    Always (fun run => Contract (fun _ _ => false) failing.settings hello [] run.1 run.2)
        (failing.feedUpdate (fun _ _ => false) hello []) ∧
      (failing.feedUpdate (fun _ _ => false) hello []).2 = .ret (some 7) :=
  ⟨feedUpdate_contract (fun _ _ => false) failing hello [], rfl⟩

end Example

end Chattice.Routing
