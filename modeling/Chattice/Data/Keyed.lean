import Mathlib.Logic.Function.Basic

/-!
# Stores with one entry a key

A store that serves every call from the entry of the call's key, given by what a call does to an
entry (`step`).

* `run` : a sequence of calls, and their results in order;
* `run_simulates` : two stores whose entries simulate each other return the same results.
-/

namespace Chattice.Keyed

variable {K σ τ C R : Type} [DecidableEq K]

/-- A call on a key: the store it leaves, and its result. -/
def call (step : σ → C → σ × R) (store : K → σ) (key : K) (c : C) : (K → σ) × R :=
  (Function.update store key (step (store key) c).1, (step (store key) c).2)

def run (step : σ → C → σ × R) (store : K → σ) : List (K × C) → (K → σ) × List R
  | [] => (store, [])
  | (key, c) :: calls =>
    ((run step (call step store key c).1 calls).1,
      (call step store key c).2 :: (run step (call step store key c).1 calls).2)

variable {C' R' : Type} {step : σ → C → σ × R} {step' : τ → C' → τ × R'}

theorem call_simulates {Rel : σ → τ → Prop} {store : K → σ} {store' : K → τ} (key : K) {c : C}
    {c' : C'} (hstep : Rel (step (store key) c).1 (step' (store' key) c').1)
    (h : ∀ k, Rel (store k) (store' k)) (k : K) :
    Rel ((call step store key c).1 k) ((call step' store' key c').1 k) := by
  by_cases hk : k = key
  · subst hk
    simp only [call, Function.update_self]
    exact hstep
  · simp only [call, Function.update_of_ne hk]
    exact h k

theorem run_map (step : σ → C → σ × R) (g : C' → C) (store : K → σ) (calls : List (K × C')) :
    run step store (calls.map fun c => (c.1, g c.2)) = run (fun s c => step s (g c)) store calls := by
  induction calls generalizing store with
  | nil => rfl
  | cons first calls ih =>
    rw [List.map_cons, run, ih]
    rfl

/-- Two stores whose entries are related, by a relation every call keeps and under which every call
returns the same, return the same results. Calls and results are translated by `g` and `f`. -/
theorem run_simulates (Rel : σ → τ → Prop) {g : C → C'} {f : R' → R}
    (hstep : ∀ s t c, Rel s t → Rel (step s c).1 (step' t (g c)).1 ∧
      (step s c).2 = f (step' t (g c)).2)
    {store : K → σ} {store' : K → τ} (h : ∀ k, Rel (store k) (store' k)) (calls : List (K × C)) :
    (run step store calls).2 =
      (run step' store' (calls.map fun c => (c.1, g c.2))).2.map f := by
  induction calls generalizing store store' with
  | nil => rfl
  | cons first calls ih =>
    obtain ⟨key, c⟩ := first
    obtain ⟨hentry, hresult⟩ := hstep _ _ c (h key)
    have hrest := ih (call_simulates key hentry h)
    rw [List.map_cons, run, run, List.map_cons, hrest]
    exact congrArg (· :: _) hresult

end Chattice.Keyed
