import Chattice.Asyncio.Rejection

/-!
# Loops that go on

Two loops over a list: one that stops at the first failure and keeps the items before it, and one that
makes every attempt and keeps the outcomes.

* `Attempts f items t os` : one run of `f` for each item, in order, with these outcomes;
* `runs_attemptEach`, `runs_forEachWhile` : the runs of the two loops.
-/

namespace Asyncio

open Coro

variable {S : Sig} {α β : Type}

/-- `for a in items: try: await f a` / `except BaseException`, collecting how each pass has ended. -/
def Coro.attemptEach (f : α → Coro S β) : List α → Coro S (List (Outcome S.Exc β))
  | [] => done (.ret [])
  | a :: items => (f a).andThen fun o => (attemptEach f items).bind fun os => done (.ret (o :: os))

/-- `for a in items: await f a`, with the items whose pass has returned and how the loop has ended. -/
def Coro.forEachWhile (f : α → Coro S Unit) : List α → Coro S (List α × Outcome S.Exc Unit)
  | [] => done (.ret ([], .ret ()))
  | a :: items => (f a).andThen fun
    | .ret () => (forEachWhile f items).bind fun r => done (.ret (a :: r.1, r.2))
    | o => done (.ret ([], o))

inductive Attempts (f : α → Coro S β) : List α → List (Event S) → List (Outcome S.Exc β) → Prop where
  | nil : Attempts f [] [] []
  | cons {a : α} {items : List α} {t t' : List (Event S)} {o : Outcome S.Exc β}
      {os : List (Outcome S.Exc β)} (first : Runs (f a) t o) (rest : Attempts f items t' os) :
      Attempts f (a :: items) (t ++ t') (o :: os)

theorem runs_call {c : S.Call} {t : List (Event S)} {o : Outcome S.Exc (S.Res c)} :
    Runs (call c) t o ↔ t = [.called c o] := by
  constructor
  · intro h
    obtain ⟨r, t', rfl, hdone⟩ := runs_await.mp h
    obtain ⟨rfl, rfl⟩ := runs_done.mp hdone
    rfl
  · rintro rfl
    exact .await o (.done o)

theorem runs_bind_done {c : Coro S α} {g : α → β} {t : List (Event S)} {a : α}
    (h : Runs c t (.ret a)) : Runs (c.bind fun a => done (.ret (g a))) t (.ret (g a)) :=
  runs_bind_ret.mpr ⟨t, a, [], h, .done _, (List.append_nil t).symm⟩

theorem runs_attemptEach {f : α → Coro S β} {items : List α} {t : List (Event S)}
    {o : Outcome S.Exc (List (Outcome S.Exc β))} :
    Runs (attemptEach f items) t o ↔ ∃ os, o = .ret os ∧ Attempts f items t os := by
  induction items generalizing t o with
  | nil =>
    rw [attemptEach, runs_done]
    constructor
    · rintro ⟨rfl, rfl⟩
      exact ⟨[], rfl, .nil⟩
    · rintro ⟨os, rfl, ⟨⟩⟩
      exact ⟨rfl, rfl⟩
  | cons a items ih =>
    rw [attemptEach, runs_andThen]
    constructor
    · rintro ⟨t₁, o₁, t₂, hfirst, hrest, rfl⟩
      obtain ⟨t₃, os, t₄, hitems, hdone, rfl⟩ | ⟨e, hitems, -⟩ | ⟨hitems, -⟩ := runs_bind.mp hrest
      · obtain ⟨rfl, rfl⟩ := runs_done.mp hdone
        obtain ⟨os', heq, hattempts⟩ := ih.mp hitems
        cases heq
        rw [List.append_nil]
        exact ⟨_, rfl, .cons hfirst hattempts⟩
      · obtain ⟨os, heq, -⟩ := ih.mp hitems
        cases heq
      · obtain ⟨os, heq, -⟩ := ih.mp hitems
        cases heq
    · rintro ⟨_, rfl, ⟨⟩⟩
      next t₁ t₂ o₁ os hfirst hrest =>
      exact ⟨t₁, o₁, t₂, hfirst, runs_bind_done (ih.mpr ⟨os, rfl, hrest⟩), rfl⟩

/-- Some passes have returned, and the next one has not. -/
structure Broken (f : α → Coro S Unit) (items : List α) (t : List (Event S)) (begun : List α) (a : α)
    (rest : List α) (failure : Outcome S.Exc Unit) : Prop where
  items_eq : items = begun ++ a :: rest
  fails : failure ≠ .ret ()
  runs : ∃ t₁ t₂, Attempts f begun t₁ (List.replicate begun.length (.ret ())) ∧
    Runs (f a) t₂ failure ∧ t = t₁ ++ t₂

theorem Broken.cons {f : α → Coro S Unit} {items begun rest : List α} {t t₀ : List (Event S)} {a : α}
    {failure : Outcome S.Exc Unit} (h : Broken f items t begun a rest failure) {first : α}
    (hfirst : Runs (f first) t₀ (.ret ())) :
    Broken f (first :: items) (t₀ ++ t) (first :: begun) a rest failure where
  items_eq := by rw [h.items_eq, List.cons_append]
  fails := h.fails
  runs := by
    obtain ⟨t₁, t₂, hbegun, hrun, rfl⟩ := h.runs
    exact ⟨t₀ ++ t₁, t₂, .cons hfirst hbegun, hrun, (List.append_assoc t₀ t₁ t₂).symm⟩

/-- The loop goes through all items, or stops at the first pass that does not return. -/
theorem runs_forEachWhile {f : α → Coro S Unit} {items : List α} {t : List (Event S)}
    {o : Outcome S.Exc (List α × Outcome S.Exc Unit)} :
    Runs (forEachWhile f items) t o ↔
      (o = .ret (items, .ret ()) ∧ Attempts f items t (List.replicate items.length (.ret ()))) ∨
      ∃ begun a rest failure, o = .ret (begun, failure) ∧ Broken f items t begun a rest failure := by
  induction items generalizing t o with
  | nil =>
    rw [forEachWhile, runs_done]
    constructor
    · rintro ⟨rfl, rfl⟩
      exact .inl ⟨rfl, .nil⟩
    · rintro (⟨rfl, ⟨⟩⟩ | ⟨begun, a, rest, failure, -, hbroken⟩)
      · exact ⟨rfl, rfl⟩
      · exact absurd hbroken.items_eq.symm (List.append_ne_nil_of_right_ne_nil _ (List.cons_ne_nil _ _))
  | cons first items ih =>
    rw [forEachWhile, runs_andThen]
    constructor
    · rintro ⟨t₁, o₁, t₂, hfirst, hrest, rfl⟩
      cases o₁ with
      | ret u =>
        obtain ⟨t₃, r, t₄, hitems, hdone, rfl⟩ | ⟨e, hitems, -⟩ | ⟨hitems, -⟩ := runs_bind.mp hrest
        · obtain ⟨rfl, rfl⟩ := runs_done.mp hdone
          rw [List.append_nil]
          obtain ⟨heq, hall⟩ | ⟨begun, a, rest, failure, heq, hbroken⟩ := ih.mp hitems
          · cases heq
            exact .inl ⟨rfl, .cons hfirst hall⟩
          · cases heq
            exact .inr ⟨_, _, _, _, rfl, hbroken.cons hfirst⟩
        · obtain ⟨heq, -⟩ | ⟨_, _, _, _, heq, -⟩ := ih.mp hitems <;> cases heq
        · obtain ⟨heq, -⟩ | ⟨_, _, _, _, heq, -⟩ := ih.mp hitems <;> cases heq
      | raised e =>
        obtain ⟨rfl, rfl⟩ := runs_done.mp hrest
        exact .inr ⟨[], first, items, .raised e, rfl, rfl, nofun, [], t₁, .nil, hfirst, by simp⟩
      | cancelled =>
        obtain ⟨rfl, rfl⟩ := runs_done.mp hrest
        exact .inr ⟨[], first, items, .cancelled, rfl, rfl, nofun, [], t₁, .nil, hfirst, by simp⟩
    · rintro (⟨rfl, ⟨⟩⟩ | ⟨begun, a, rest, failure, rfl, hbroken⟩)
      · next t₁ t₂ hfirst hrest =>
        exact ⟨t₁, .ret (), t₂, hfirst, runs_bind_done (ih.mpr (.inl ⟨rfl, hrest⟩)), rfl⟩
      · obtain ⟨t₁, t₂, hbegun, hrun, rfl⟩ := hbroken.runs
        cases hbegun with
        | nil =>
          obtain ⟨rfl, rfl⟩ := List.cons.inj hbroken.items_eq
          refine ⟨t₂, failure, [], hrun, ?_, (List.append_nil t₂).symm⟩
          cases failure with
          | ret u => exact absurd rfl hbroken.fails
          | raised e => exact .done _
          | cancelled => exact .done _
        | cons hfirst hothers =>
          next others u₁ u₂ =>
          obtain ⟨rfl, hitems⟩ := List.cons.inj hbroken.items_eq
          refine ⟨u₁, .ret (), u₂ ++ t₂, hfirst, ?_, List.append_assoc _ _ _⟩
          have hloop : Runs (forEachWhile f items) (u₂ ++ t₂) (.ret (others, failure)) :=
            ih.mpr (.inr ⟨others, a, rest, failure, rfl, hitems, hbroken.fails, u₂, t₂, hothers, hrun,
              rfl⟩)
          exact runs_bind_ret.mpr ⟨_, _, [], hloop, .done _, (List.append_nil _).symm⟩

theorem runs_attemptEach_bind {γ : Type} {f : α → Coro S β} {items : List α}
    {g : List (Outcome S.Exc β) → Coro S γ} {t : List (Event S)} {o : Outcome S.Exc γ} :
    Runs ((attemptEach f items).bind g) t o ↔
      ∃ t₁ os t₂, Attempts f items t₁ os ∧ Runs (g os) t₂ o ∧ t = t₁ ++ t₂ := by
  rw [runs_bind]
  constructor
  · rintro (⟨t₁, os, t₂, hitems, hrest, rfl⟩ | ⟨e, hitems, -⟩ | ⟨hitems, -⟩)
    · obtain ⟨os', heq, hattempts⟩ := runs_attemptEach.mp hitems
      cases heq
      exact ⟨t₁, os, t₂, hattempts, hrest, rfl⟩
    · obtain ⟨os, heq, -⟩ := runs_attemptEach.mp hitems
      cases heq
    · obtain ⟨os, heq, -⟩ := runs_attemptEach.mp hitems
      cases heq
  · rintro ⟨t₁, os, t₂, hattempts, hrest, rfl⟩
    exact .inl ⟨t₁, os, t₂, runs_attemptEach.mpr ⟨os, rfl, hattempts⟩, hrest, rfl⟩

theorem runs_forEachWhile_bind {γ : Type} {f : α → Coro S Unit} {items : List α}
    {g : List α × Outcome S.Exc Unit → Coro S γ} {t : List (Event S)} {o : Outcome S.Exc γ} :
    Runs ((forEachWhile f items).bind g) t o ↔
      (∃ t₁ t₂, Attempts f items t₁ (List.replicate items.length (.ret ())) ∧
        Runs (g (items, .ret ())) t₂ o ∧ t = t₁ ++ t₂) ∨
      ∃ begun a rest failure t₁ t₂, Broken f items t₁ begun a rest failure ∧
        Runs (g (begun, failure)) t₂ o ∧ t = t₁ ++ t₂ := by
  rw [runs_bind]
  constructor
  · rintro (⟨t₁, r, t₂, hitems, hrest, rfl⟩ | ⟨e, hitems, -⟩ | ⟨hitems, -⟩)
    · obtain ⟨heq, hall⟩ | ⟨begun, a, rest, failure, heq, hbroken⟩ := runs_forEachWhile.mp hitems
      · cases heq
        exact .inl ⟨t₁, t₂, hall, hrest, rfl⟩
      · cases heq
        exact .inr ⟨begun, a, rest, failure, t₁, t₂, hbroken, hrest, rfl⟩
    · obtain ⟨heq, -⟩ | ⟨_, _, _, _, heq, -⟩ := runs_forEachWhile.mp hitems <;> cases heq
    · obtain ⟨heq, -⟩ | ⟨_, _, _, _, heq, -⟩ := runs_forEachWhile.mp hitems <;> cases heq
  · rintro (⟨t₁, t₂, hall, hrest, rfl⟩ | ⟨begun, a, rest, failure, t₁, t₂, hbroken, hrest, rfl⟩)
    · exact .inl ⟨t₁, _, t₂, runs_forEachWhile.mpr (.inl ⟨rfl, hall⟩), hrest, rfl⟩
    · exact .inl ⟨t₁, _, t₂, runs_forEachWhile.mpr (.inr ⟨begun, a, rest, failure, rfl, hbroken⟩),
        hrest, rfl⟩

end Asyncio
