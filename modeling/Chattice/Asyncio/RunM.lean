import Chattice.Asyncio.Coro

/-!
# Coroutines whose calls are answered by computations

`runM` runs a coroutine in a monad, asking a computation for the answer of each awaited call, and
records the trace. What holds of every run then holds of whatever the monad does (`runM_always`).
-/

namespace Asyncio

variable {m : Type → Type} [Monad m] {S : Sig} {α β : Type}

/-- Every result of the computation satisfies `p`: the computation is one into the subtype. -/
def Always (p : α → Prop) (x : m α) : Prop := ∃ y : m {a // p a}, Subtype.val <$> y = x

/-- The run with the answers that `answer` computes: its trace and its outcome. -/
def Coro.runM (answer : (c : S.Call) → m (Outcome S.Exc (S.Res c))) :
    Coro S α → m (List (Event S) × Outcome S.Exc α)
  | done o => pure ([], o)
  | emit e next => do
    let (t, o) ← next.runM answer
    return (.acted e :: t, o)
  | await c next => do
    let r ← answer c
    let (t, o) ← (next r).runM answer
    return (.called c r :: t, o)

namespace Always

variable [LawfulMonad m]

theorem mono {p q : α → Prop} {x : m α} (hx : Always p x) (h : ∀ a, p a → q a) : Always q x := by
  obtain ⟨y, rfl⟩ := hx
  exact ⟨(fun a => ⟨a.1, h a.1 a.2⟩) <$> y, by rw [← comp_map]; rfl⟩

theorem pure {p : α → Prop} {a : α} (ha : p a) : Always p (Pure.pure a : m α) :=
  ⟨Pure.pure ⟨a, ha⟩, map_pure _ _⟩

theorem bind {q : β → Prop} (x : m α) {f : α → m β} (h : ∀ a, Always q (f a)) :
    Always q (x >>= f) := by
  choose y hy using h
  refine ⟨x >>= y, ?_⟩
  rw [map_bind]
  exact bind_congr hy

theorem map {p : α → Prop} {q : β → Prop} {x : m α} {f : α → β} (hx : Always p x)
    (h : ∀ a, p a → q (f a)) : Always q (f <$> x) := by
  obtain ⟨y, rfl⟩ := hx
  refine ⟨(fun a => ⟨f a.1, h a.1 a.2⟩) <$> y, ?_⟩
  rw [← comp_map, ← comp_map]
  rfl

end Always

/-- What the monad runs is a run of the coroutine. -/
theorem Coro.runM_always [LawfulMonad m] (answer : (c : S.Call) → m (Outcome S.Exc (S.Res c)))
    (c : Coro S α) : Always (fun run => Runs c run.1 run.2) (c.runM answer) := by
  induction c with
  | done o => exact .pure (.done o)
  | emit e next ih =>
    rw [Coro.runM, ← map_eq_pure_bind]
    exact ih.map fun run hrun => .emit hrun
  | await c next ih =>
    rw [Coro.runM]
    refine .bind (answer c) fun r => ?_
    rw [← map_eq_pure_bind]
    exact (ih r).map fun run hrun => .await r hrun

end Asyncio
