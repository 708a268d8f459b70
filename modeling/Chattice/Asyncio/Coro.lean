import Mathlib.Data.List.Basic

/-!
# Coroutines with exceptions and cancellation

A coroutine is a tree. It ends with an outcome, or it performs a synchronous effect and goes on, or
it suspends at an awaited call and goes on with whatever that call ends with: a value, an exception,
or the cancellation of the task at this very await.

* `Coro.andThen` : go on with the outcome of a block; sequencing and the three forms of `try` are
  instances of it;
* `Runs c t o` : `c` has a complete run with trace `t` (the awaited calls with their outcomes and the
  effects, in order) that ends with `o`;
* `runs_andThen` : the runs of a sequence are the concatenations of the runs of its parts;
* `runWith` : the run under a fixed answer for every call, to evaluate one run.
-/

namespace Asyncio

/-- How an awaited call, a block or a whole coroutine ends. -/
inductive Outcome (ε α : Type) where
  | ret (a : α)
  | raised (e : ε)
  | cancelled
  deriving DecidableEq, Repr

namespace Outcome

def isCancelled {ε α : Type} : Outcome ε α → Bool
  | .cancelled => true
  | _ => false

def isRaised {ε α : Type} : Outcome ε α → Bool
  | .raised _ => true
  | _ => false

end Outcome

/-- What a family of coroutines may do: the calls it awaits with the type of their results, its
synchronous effects, and its exceptions (`Exception` only: a cancellation is not one of them). -/
structure Sig where
  Call : Type
  Res : Call → Type
  Eff : Type
  Exc : Type

/-- A coroutine of signature `S` with results in `α`. -/
inductive Coro (S : Sig) (α : Type) : Type where
  | done (o : Outcome S.Exc α)
  | emit (e : S.Eff) (next : Coro S α)
  | await (c : S.Call) (next : Outcome S.Exc (S.Res c) → Coro S α)

/-- One line of a trace. -/
inductive Event (S : Sig) : Type where
  | called (c : S.Call) (o : Outcome S.Exc (S.Res c))
  | acted (e : S.Eff)

variable {S : Sig} {α β : Type}

namespace Coro

/-- Go on with the outcome of `c`, whichever it is. -/
def andThen : Coro S α → (Outcome S.Exc α → Coro S β) → Coro S β
  | done o, f => f o
  | emit e next, f => emit e (next.andThen f)
  | await c next, f => await c fun o => (next o).andThen f

/-- Sequencing: an exception or a cancellation of the first part ends the whole. -/
def bind (c : Coro S α) (f : α → Coro S β) : Coro S β :=
  c.andThen fun
    | .ret a => f a
    | .raised e => done (.raised e)
    | .cancelled => done .cancelled

instance : Monad (Coro S) where
  pure a := done (.ret a)
  bind := Coro.bind

/-- `await c`. -/
def call (c : S.Call) : Coro S (S.Res c) := await c done

/-- Perform `e` without suspending. -/
def act (e : S.Eff) : Coro S Unit := emit e (done (.ret ()))

/-- `raise e`. -/
def raise (e : S.Exc) : Coro S α := done (.raised e)

/-- The task goes on unwinding with its cancellation. -/
def cancel : Coro S α := done .cancelled

def ofExcept : Except S.Exc α → Coro S α
  | .ok a => done (.ret a)
  | .error e => done (.raised e)

/-- `try: x = body` / `except Exception as e: handler e` / `else: next x`. A handler that lets an
exception pass raises it again; a cancellation of the body is not caught. -/
def tryElse (body : Coro S α) (handler : S.Exc → Coro S β) (next : α → Coro S β) : Coro S β :=
  body.andThen fun
    | .ret a => next a
    | .raised e => handler e
    | .cancelled => cancel

/-- `try: body` / `except CancelledError: onCancel; raise` / `except Exception as e: handler e`.
Neither branch catches what the other one raises. -/
def tryCancel (body : Coro S α) (onCancel : Coro S Unit) (handler : S.Exc → Coro S α) : Coro S α :=
  body.andThen fun
    | .ret a => done (.ret a)
    | .raised e => handler e
    | .cancelled => onCancel.bind fun _ => cancel

/-- `try: body` / `finally: last`. The outcome is the body's unless `last` itself fails. -/
def tryFinally (body : Coro S α) (last : Coro S Unit) : Coro S α :=
  body.andThen fun o => last.bind fun _ => done o

/-- `try: c` / `except CancelledError: pass` / `except Exception: log`. -/
def swallow (c : Coro S α) : Coro S Unit := c.andThen fun _ => done (.ret ())

/-- `for a in items: … await f a …`, collecting the results. -/
def forEach (f : α → Coro S β) : List α → Coro S (List β)
  | [] => done (.ret [])
  | a :: items => (f a).bind fun b => (forEach f items).bind fun bs => done (.ret (b :: bs))

@[simp] theorem pure_eq (a : α) : (pure a : Coro S α) = done (.ret a) := rfl

@[simp] theorem bind_eq (c : Coro S α) (f : α → Coro S β) : c >>= f = c.bind f := rfl

/-- The run under a fixed answer for every call: its trace and its outcome. -/
def runWith (answer : (c : S.Call) → Outcome S.Exc (S.Res c)) :
    Coro S α → List (Event S) × Outcome S.Exc α
  | done o => ([], o)
  | emit e next => ((.acted e) :: (next.runWith answer).1, (next.runWith answer).2)
  | await c next =>
    (.called c (answer c) :: ((next (answer c)).runWith answer).1,
      ((next (answer c)).runWith answer).2)

end Coro

open Coro

/-! ## Complete runs -/

/-- `c` has a complete run with trace `t` and outcome `o`. -/
inductive Runs : Coro S α → List (Event S) → Outcome S.Exc α → Prop where
  | done (o : Outcome S.Exc α) : Runs (done o) [] o
  | emit {e : S.Eff} {next : Coro S α} {t : List (Event S)} {o : Outcome S.Exc α}
      (h : Runs next t o) : Runs (emit e next) (.acted e :: t) o
  | await {c : S.Call} {next : Outcome S.Exc (S.Res c) → Coro S α} {t : List (Event S)}
      {o : Outcome S.Exc α} (r : Outcome S.Exc (S.Res c)) (h : Runs (next r) t o) :
      Runs (await c next) (.called c r :: t) o

theorem runs_runWith (answer : (c : S.Call) → Outcome S.Exc (S.Res c)) (c : Coro S α) :
    Runs c (c.runWith answer).1 (c.runWith answer).2 := by
  induction c with
  | done o => exact .done o
  | emit e next ih => exact .emit ih
  | await c next ih => exact .await (answer c) (ih (answer c))

@[simp] theorem runs_done {o o' : Outcome S.Exc α} {t : List (Event S)} :
    Runs (done o) t o' ↔ t = [] ∧ o' = o := by
  constructor
  · rintro ⟨⟩
    exact ⟨rfl, rfl⟩
  · rintro ⟨rfl, rfl⟩
    exact .done _

@[simp] theorem runs_emit {e : S.Eff} {next : Coro S α} {t : List (Event S)}
    {o : Outcome S.Exc α} :
    Runs (emit e next) t o ↔ ∃ t', t = .acted e :: t' ∧ Runs next t' o := by
  constructor
  · rintro ⟨⟩
    exact ⟨_, rfl, ‹_›⟩
  · rintro ⟨t', rfl, h⟩
    exact .emit h

@[simp] theorem runs_await {c : S.Call} {next : Outcome S.Exc (S.Res c) → Coro S α}
    {t : List (Event S)} {o : Outcome S.Exc α} :
    Runs (await c next) t o ↔ ∃ r t', t = .called c r :: t' ∧ Runs (next r) t' o := by
  constructor
  · rintro ⟨⟩
    exact ⟨_, _, rfl, ‹_›⟩
  · rintro ⟨r, t', rfl, h⟩
    exact .await r h

/-- The runs of a sequence: a run of the first part, then a run of what follows its outcome. -/
theorem runs_andThen {c : Coro S α} {f : Outcome S.Exc α → Coro S β} {t : List (Event S)}
    {o : Outcome S.Exc β} :
    Runs (c.andThen f) t o ↔ ∃ t₁ o₁ t₂, Runs c t₁ o₁ ∧ Runs (f o₁) t₂ o ∧ t = t₁ ++ t₂ := by
  induction c generalizing t with
  | done o₀ =>
    constructor
    · intro h
      exact ⟨[], o₀, t, .done o₀, h, rfl⟩
    · rintro ⟨t₁, o₁, t₂, h₁, h₂, rfl⟩
      obtain ⟨rfl, rfl⟩ := runs_done.mp h₁
      exact h₂
  | emit e next ih =>
    constructor
    · intro h
      obtain ⟨t', rfl, hnext⟩ := runs_emit.mp h
      obtain ⟨t₁, o₁, t₂, h₁, h₂, rfl⟩ := ih.mp hnext
      exact ⟨_, o₁, t₂, .emit h₁, h₂, rfl⟩
    · rintro ⟨t₁, o₁, t₂, h₁, h₂, rfl⟩
      obtain ⟨t', rfl, hnext⟩ := runs_emit.mp h₁
      exact .emit (ih.mpr ⟨t', o₁, t₂, hnext, h₂, rfl⟩)
  | await c next ih =>
    constructor
    · intro h
      obtain ⟨r, t', rfl, hnext⟩ := runs_await.mp h
      obtain ⟨t₁, o₁, t₂, h₁, h₂, rfl⟩ := (ih r).mp hnext
      exact ⟨_, o₁, t₂, .await r h₁, h₂, rfl⟩
    · rintro ⟨t₁, o₁, t₂, h₁, h₂, rfl⟩
      obtain ⟨r, t', rfl, hnext⟩ := runs_await.mp h₁
      exact .await r ((ih r).mpr ⟨t', o₁, t₂, hnext, h₂, rfl⟩)

theorem runs_call_andThen {c : S.Call} {f : Outcome S.Exc (S.Res c) → Coro S β}
    {t : List (Event S)} {o : Outcome S.Exc β} :
    Runs ((call c).andThen f) t o ↔ ∃ r t', t = .called c r :: t' ∧ Runs (f r) t' o :=
  runs_await

theorem runs_act_bind {e : S.Eff} {f : Unit → Coro S β} {t : List (Event S)}
    {o : Outcome S.Exc β} :
    Runs ((act e).bind f) t o ↔ ∃ t', t = .acted e :: t' ∧ Runs (f ()) t' o :=
  runs_emit

end Asyncio
