import Chattice.Data.Entries
import Mathlib.Data.List.Nodup

/-!
# Calls that take effect at one step

Any number of clients call operations on a shared state. A call goes from phase to phase in atomic
steps; at most one of them is the step at which it takes effect, and the log records these in the
order in which they happen.

* `Machine`, `Machine.Reach` : the clients, and the states of all interleavings from one shared state;
* `Replays` : calls executed one after the other on the abstract state;
* `Simulation` : what has to be shown of one step;
* `Simulation.linearizes` : in every reachable state the log is a sequential execution, and it names
  exactly the calls that have taken effect, each once, with its result.
-/

namespace Concurrency

variable {X P σ R α : Type}

/-! ## Interleavings -/

/-- What a client does. In `Step i x p s p' s' r` client number `i`, calling `x`, goes from phase `p`
to `p'`; `r` is the result of the call, if it takes effect at this step. -/
structure Machine (X P σ R : Type) where
  start : X → P
  Step : Nat → X → P → σ → P → σ → Option R → Prop

/-- The shared state, the clients with their phases, and the calls in the order in which they have
taken effect. -/
structure State (X P σ R : Type) where
  shared : σ
  clients : List (X × P)
  log : List (Nat × X × R)

namespace Machine

/-- The states of all interleavings from `s₀`. -/
inductive Reach (M : Machine X P σ R) (s₀ : σ) : State X P σ R → Prop where
  | init : Reach M s₀ ⟨s₀, [], []⟩
  | call {s : State X P σ R} (hs : Reach M s₀ s) (x : X) :
      Reach M s₀ { s with clients := s.clients ++ [(x, M.start x)] }
  | step {s : State X P σ R} {i : Nat} {x : X} {p p' : P} {s' : σ} {r : Option R}
      (hs : Reach M s₀ s) (hi : s.clients[i]? = some (x, p)) (h : M.Step i x p s.shared p' s' r) :
      Reach M s₀ ⟨s', s.clients.set i (x, p'), s.log ++ (r.map fun r => (i, x, r)).toList⟩

/-- The runs whose steps all meet a condition. -/
def restrict (M : Machine X P σ R) (C : Nat → X → P → σ → P → σ → Prop) : Machine X P σ R where
  start := M.start
  Step := fun i x p s p' s' r => M.Step i x p s p' s' r ∧ C i x p s p' s'

theorem Reach.of_restrict {M : Machine X P σ R} {C : Nat → X → P → σ → P → σ → Prop} {s₀ : σ}
    {s : State X P σ R} (hs : (M.restrict C).Reach s₀ s) : M.Reach s₀ s := by
  induction hs with
  | init => exact .init
  | call hs x ih => exact ih.call x
  | step hs hi h ih => exact ih.step hi h.1

end Machine

/-! ## Sequential executions -/

/-- The calls executed one after the other: `Exec x a r b` when the call `x` takes the abstract state
from `a` to `b` and returns `r`. -/
def Replays (Exec : X → α → R → α → Prop) : α → List (Nat × X × R) → α → Prop
  | a, [], b => a = b
  | a, (_, x, r) :: log, b => ∃ c, Exec x a r c ∧ Replays Exec c log b

theorem Replays.append {Exec : X → α → R → α → Prop} {a b c : α} {log log' : List (Nat × X × R)}
    (h : Replays Exec a log b) (h' : Replays Exec b log' c) : Replays Exec a (log ++ log') c := by
  induction log generalizing a with
  | nil =>
    obtain rfl : a = b := h
    exact h'
  | cons entry log ih =>
    obtain ⟨d, hexec, hrest⟩ := h
    exact ⟨d, hexec, ih hrest⟩

theorem Replays.snoc {Exec : X → α → R → α → Prop} {a b c : α} {log : List (Nat × X × R)} {i : Nat}
    {x : X} {r : R} (h : Replays Exec a log b) (hexec : Exec x b r c) :
    Replays Exec a (log ++ [(i, x, r)]) c :=
  h.append ⟨c, hexec, rfl⟩

/-- Some order of the calls that have taken effect is a sequential execution with their results. -/
def Sequential (Exec : X → α → R → α → Prop) (effect : P → Option R) (a : α) (clients : List (X × P))
    (b : α) : Prop :=
  ∃ order, Replays Exec a order b ∧ (order.map Prod.fst).Nodup ∧
    ∀ i x r, (i, x, r) ∈ order ↔ ∃ p, clients[i]? = some (x, p) ∧ effect p = some r

/-! ## The simulation -/

/-- What one step keeps. `knows i x p s` is what client `i`, calling `x`, knows of the shared state in
phase `p`, whatever the others do; `effect p` is the result of a call that has taken effect. -/
structure Simulation (M : Machine X P σ R) (Exec : X → α → R → α → Prop) where
  view : σ → α
  inv : σ → Prop
  knows : Nat → X → P → σ → Prop
  effect : P → Option R
  start : ∀ i x s, inv s → knows i x (M.start x) s
  start_effect : ∀ x, effect (M.start x) = none
  kept : ∀ {i x p s p' s' r}, inv s → knows i x p s → M.Step i x p s p' s' r →
    inv s' ∧ knows i x p' s'
  stable : ∀ {i x p s p' s' r}, inv s → knows i x p s → M.Step i x p s p' s' r →
    ∀ j y q, j ≠ i → knows j y q s → knows j y q s'
  silent : ∀ {i x p s p' s'}, inv s → knows i x p s → M.Step i x p s p' s' none →
    view s' = view s ∧ effect p' = effect p
  effective : ∀ {i x p s p' s' r}, inv s → knows i x p s → M.Step i x p s p' s' (some r) →
    Exec x (view s) r (view s') ∧ effect p = none ∧ effect p' = some r

namespace Simulation

variable {M : Machine X P σ R} {Exec : X → α → R → α → Prop}

structure Inv (sim : Simulation M Exec) (s₀ : σ) (s : State X P σ R) : Prop where
  inv : sim.inv s.shared
  knows : ∀ i x p, s.clients[i]? = some (x, p) → sim.knows i x p s.shared
  replays : Replays Exec (sim.view s₀) s.log (sim.view s.shared)
  nodup : (s.log.map Prod.fst).Nodup
  mem_log : ∀ i x r, (i, x, r) ∈ s.log ↔
    ∃ p, s.clients[i]? = some (x, p) ∧ sim.effect p = some r

theorem Inv.call {sim : Simulation M Exec} {s₀ : σ} {s : State X P σ R} (h : sim.Inv s₀ s) (x : X) :
    sim.Inv s₀ { s with clients := s.clients ++ [(x, M.start x)] } where
  inv := h.inv
  knows := by
    intro i y p hi
    obtain hold | ⟨-, hnew⟩ := List.getElem?_snoc_eq_some.mp hi
    · exact h.knows i y p hold
    · cases hnew
      exact sim.start i x s.shared h.inv
  replays := h.replays
  nodup := h.nodup
  mem_log := by
    intro i y r
    rw [h.mem_log]
    constructor
    · rintro ⟨p, hi, heffect⟩
      exact ⟨p, List.getElem?_snoc_eq_some.mpr (.inl hi), heffect⟩
    · rintro ⟨p, hi, heffect⟩
      obtain hold | ⟨-, hnew⟩ := List.getElem?_snoc_eq_some.mp hi
      · exact ⟨p, hold, heffect⟩
      · -- the new call has not taken effect
        cases hnew
        rw [sim.start_effect] at heffect
        cases heffect

theorem Inv.step {sim : Simulation M Exec} {s₀ : σ} {s : State X P σ R} (h : sim.Inv s₀ s) {i : Nat}
    {x : X} {p p' : P} {s' : σ} {r : Option R} (hi : s.clients[i]? = some (x, p))
    (hstep : M.Step i x p s.shared p' s' r) :
    sim.Inv s₀ ⟨s', s.clients.set i (x, p'), s.log ++ (r.map fun r => (i, x, r)).toList⟩ := by
  have hknows := h.knows i x p hi
  have hclient {j : Nat} {y : X} {q : P} :=
    List.getElem?_set_eq_some (a := (x, p')) (b := (y, q)) (j := j) hi
  obtain ⟨hinv, hself⟩ := sim.kept h.inv hknows hstep
  have hall : ∀ j y q, (s.clients.set i (x, p'))[j]? = some (y, q) → sim.knows j y q s' := by
    intro j y q hj
    obtain ⟨rfl, heq⟩ | ⟨hne, hold⟩ := hclient.mp hj
    · cases heq
      exact hself
    · exact sim.stable h.inv hknows hstep j y q hne (h.knows j y q hold)
  cases r with
  | none =>
    obtain ⟨hview, heffect⟩ := sim.silent h.inv hknows hstep
    have hlog : s.log ++ (Option.map (fun r => (i, x, r)) (none : Option R)).toList = s.log :=
      List.append_nil _
    rw [hlog]
    refine ⟨hinv, hall, hview ▸ h.replays, h.nodup, fun j y r => ?_⟩
    rw [h.mem_log]
    constructor
    · rintro ⟨q, hj, hq⟩
      by_cases hij : j = i
      · subst hij
        rw [hi] at hj
        obtain ⟨rfl, rfl⟩ := Prod.mk.inj (Option.some_inj.mp hj)
        exact ⟨p', hclient.mpr (.inl ⟨rfl, rfl⟩), heffect.trans hq⟩
      · exact ⟨q, hclient.mpr (.inr ⟨hij, hj⟩), hq⟩
    · rintro ⟨q, hj, hq⟩
      obtain ⟨rfl, heq⟩ | ⟨-, hold⟩ := hclient.mp hj
      · cases heq
        exact ⟨p, hi, heffect.symm.trans hq⟩
      · exact ⟨q, hold, hq⟩
  | some r =>
    obtain ⟨hexec, hbefore, hafter⟩ := sim.effective h.inv hknows hstep
    -- a call that takes effect now is not in the log yet
    have hfresh : i ∉ s.log.map Prod.fst := by
      intro hmem
      obtain ⟨⟨j, y, r'⟩, hentry, rfl⟩ := List.mem_map.mp hmem
      obtain ⟨q, hq, heffect⟩ := (h.mem_log _ _ _).mp hentry
      rw [hi] at hq
      obtain ⟨rfl, rfl⟩ := Prod.mk.inj (Option.some_inj.mp hq)
      rw [hbefore] at heffect
      cases heffect
    refine ⟨hinv, hall, h.replays.snoc hexec, ?_, fun j y r' => ?_⟩
    · rw [List.map_append]
      exact List.nodup_append'.mpr ⟨h.nodup, List.nodup_singleton _,
        List.disjoint_singleton.mpr hfresh⟩
    · rw [List.mem_append]
      constructor
      · rintro (hold | hnew)
        · obtain ⟨q, hj, hq⟩ := (h.mem_log _ _ _).mp hold
          have hij : j ≠ i := by
            rintro rfl
            exact hfresh (List.mem_map.mpr ⟨_, hold, rfl⟩)
          exact ⟨q, hclient.mpr (.inr ⟨hij, hj⟩), hq⟩
        · obtain ⟨rfl, rfl, rfl⟩ : j = i ∧ y = x ∧ r' = r := by
            simpa using hnew
          exact ⟨p', hclient.mpr (.inl ⟨rfl, rfl⟩), hafter⟩
      · rintro ⟨q, hj, hq⟩
        obtain ⟨rfl, heq⟩ | ⟨-, hold⟩ := hclient.mp hj
        · cases heq
          obtain rfl := Option.some_inj.mp (hafter.symm.trans hq)
          exact .inr (List.mem_singleton.mpr rfl)
        · exact .inl ((h.mem_log _ _ _).mpr ⟨q, hold, hq⟩)

theorem inv_of_reach (sim : Simulation M Exec) {s₀ : σ} (h₀ : sim.inv s₀) {s : State X P σ R}
    (hs : M.Reach s₀ s) : sim.Inv s₀ s := by
  induction hs with
  | init => exact ⟨h₀, nofun, rfl, List.nodup_nil, fun i x r => ⟨nofun, nofun⟩⟩
  | call hs x ih => exact ih.call x
  | step hs hi h ih => exact ih.step hi h

/-- **Linearizability.** In every reachable state, the log is a sequential execution that leads to the
view of the shared state, and it names exactly the calls that have taken effect, each once. -/
theorem linearizes (sim : Simulation M Exec) {s₀ : σ} (h₀ : sim.inv s₀) {s : State X P σ R}
    (hs : M.Reach s₀ s) :
    Replays Exec (sim.view s₀) s.log (sim.view s.shared) ∧ (s.log.map Prod.fst).Nodup ∧
      ∀ i x r, (i, x, r) ∈ s.log ↔ ∃ p, s.clients[i]? = some (x, p) ∧ sim.effect p = some r := by
  have hinv := sim.inv_of_reach h₀ hs
  exact ⟨hinv.replays, hinv.nodup, hinv.mem_log⟩

end Simulation

end Concurrency
