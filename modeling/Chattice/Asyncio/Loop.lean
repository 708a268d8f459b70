import Chattice.Asyncio.Rejection

/-!
# The runs of a loop

A run of `forEach` goes through its items in order; it stops at the first pass that fails.

* `Passes f items t bs` : every pass returned, with the traces one after the other;
* `runs_forEach` : a run is such passes, then at most one that fails.
-/

namespace Asyncio

open Coro

variable {S : Sig} {α β : Type}

theorem runs_ofExcept {e : Except S.Exc α} {t : List (Event S)} {o : Outcome S.Exc α}
    (h : Runs (ofExcept e) t o) : t = [] := by
  cases e with
  | ok a => exact (runs_done.mp h).1
  | error e => exact (runs_done.mp h).1

/-- Every pass over the items returned. -/
inductive Passes (f : α → Coro S β) : List α → List (Event S) → List β → Prop where
  | nil : Passes f [] [] []
  | cons {a : α} {items : List α} {t t' : List (Event S)} {b : β} {bs : List β}
      (first : Runs (f a) t (.ret b)) (rest : Passes f items t' bs) :
      Passes f (a :: items) (t ++ t') (b :: bs)

inductive Outcome.Fails {ε : Type} : Outcome ε α → Outcome ε β → Prop where
  | raised (e : ε) : Outcome.Fails (.raised e) (.raised e)
  | cancelled : Outcome.Fails .cancelled .cancelled

/-- Some passes returned and the next one failed. -/
structure Stopped (f : α → Coro S β) (items : List α) (t : List (Event S))
    (o : Outcome S.Exc (List β)) (done : List α) (a : α) (t₁ t₂ : List (Event S)) (bs : List β)
    (o' : Outcome S.Exc β) : Prop where
  items_eq : ∃ rest, items = done ++ a :: rest
  passes : Passes f done t₁ bs
  run : Runs (f a) t₂ o'
  fails : o'.Fails o
  trace_eq : t = t₁ ++ t₂

theorem Stopped.cons {f : α → Coro S β} {items done : List α} {t t₀ t₁ t₂ : List (Event S)}
    {o : Outcome S.Exc (List β)} {a first : α} {b : β} {bs : List β} {o' : Outcome S.Exc β}
    (h : Stopped f items t o done a t₁ t₂ bs o') (hfirst : Runs (f first) t₀ (.ret b)) :
    Stopped f (first :: items) (t₀ ++ t) o (first :: done) a (t₀ ++ t₁) t₂ (b :: bs) o' where
  items_eq := by
    obtain ⟨rest, rfl⟩ := h.items_eq
    exact ⟨rest, rfl⟩
  passes := .cons hfirst h.passes
  run := h.run
  fails := h.fails
  trace_eq := by rw [h.trace_eq, List.append_assoc]

/-- **The run of a loop.** -/
theorem runs_forEach {f : α → Coro S β} {items : List α} {t : List (Event S)}
    {o : Outcome S.Exc (List β)} (h : Runs (forEach f items) t o) :
    (∃ bs, o = .ret bs ∧ Passes f items t bs) ∨
      ∃ done a t₁ t₂ bs o', Stopped f items t o done a t₁ t₂ bs o' := by
  induction items generalizing t o with
  | nil =>
    obtain ⟨rfl, rfl⟩ := runs_done.mp h
    exact .inl ⟨[], rfl, .nil⟩
  | cons first items ih =>
    obtain ⟨t₀, b, t', hfirst, hrest, rfl⟩ | ⟨e, hfirst, rfl⟩ | ⟨hfirst, rfl⟩ := runs_bind.mp h
    · obtain ⟨t₁, bs, t₂, hitems, hdone, rfl⟩ | ⟨e, hitems, rfl⟩ | ⟨hitems, rfl⟩ := runs_bind.mp hrest
      · obtain ⟨rfl, rfl⟩ := runs_done.mp hdone
        rw [List.append_nil]
        obtain ⟨bs', heq, hpasses⟩ | ⟨done, a, u₁, u₂, bs', o', hstopped⟩ := ih hitems
        · cases heq
          exact .inl ⟨_, rfl, .cons hfirst hpasses⟩
        · cases hstopped.fails
      · obtain ⟨bs', heq, -⟩ | ⟨done, a, u₁, u₂, bs', o', hstopped⟩ := ih hitems
        · cases heq
        · cases hstopped.fails
          exact .inr ⟨_, _, _, _, _, _, { hstopped.cons hfirst with fails := .raised e }⟩
      · obtain ⟨bs', heq, -⟩ | ⟨done, a, u₁, u₂, bs', o', hstopped⟩ := ih hitems
        · cases heq
        · cases hstopped.fails
          exact .inr ⟨_, _, _, _, _, _, { hstopped.cons hfirst with fails := .cancelled }⟩
    · exact .inr ⟨[], first, [], t, [], _, ⟨items, rfl⟩, .nil, hfirst, .raised e, rfl⟩
    · exact .inr ⟨[], first, [], t, [], _, ⟨items, rfl⟩, .nil, hfirst, .cancelled, rfl⟩

end Asyncio
