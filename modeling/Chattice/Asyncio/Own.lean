import Chattice.Asyncio.Pool
import Mathlib.Data.List.Nodup

/-!
# What a task knows of its own steps

Where no task is created twice, the entries of the log that a task has made are its own: no other
task adds one. A proof about one task may use them across an await, beside the invariant and a
preorder `R` along which the state only grows.

* `own x log` : the entries of task `x`;
* `World.Grows W R` : every answered call and every effect goes up in `R`;
* `wpOwn W R x I P c Q h` : weakest precondition of `c`, where across an await the own entries stay as
  they are and the state grows, and `P` holds of the awaited call and the own entries at every await;
* `OwnInvariant.reach` : the invariant rule; in every reachable state the invariant holds, and `P` of
  every task at an await;
* `Owned.awaiting_le_one` : calls that only one job may await have at most one task at them.
-/

namespace Asyncio

variable {S : Sig} {X σ α β : Type} [DecidableEq X]

def Entry.job : Entry S X σ → X
  | .called x .. => x
  | .acted x .. => x

def Entry.pre : Entry S X σ → σ
  | .called _ _ _ pre => pre
  | .acted _ _ pre => pre

/-- The entries of task `x`. -/
def own (x : X) (log : List (Entry S X σ)) : List (Entry S X σ) := log.filter fun e => e.job = x

theorem own_append (x : X) (log log' : List (Entry S X σ)) :
    own x (log ++ log') = own x log ++ own x log' := List.filter_append ..

theorem mem_own {x : X} {log : List (Entry S X σ)} {e : Entry S X σ} :
    e ∈ own x log ↔ e ∈ log ∧ e.job = x := by
  simp [own]

@[simp] theorem own_call (x : X) (c : S.Call) (r : Outcome S.Exc (S.Res c)) (s : σ)
    (h : History S X σ) : own x (h.call x c r s).log = own x h.log ++ [.called x c r h.state] := by
  simp [own, Entry.job]

@[simp] theorem own_act (W : World S σ) (x : X) (e : S.Eff) (h : History S X σ) :
    own x (h.act W x e).log = own x h.log ++ [.acted x e h.state] := by
  simp [own, History.act, Entry.job]

theorem own_eq_nil {x y : X} {log : List (Entry S X σ)} (hlog : ∀ e ∈ log, e.job = y) (h : y ≠ x) :
    own x log = [] := by
  refine List.filter_eq_nil_iff.mpr fun e he => ?_
  rw [hlog e he, decide_eq_true_eq]
  exact h

/-- The state only grows along the preorder `R`. -/
structure World.Grows (W : World S σ) (R : σ → σ → Prop) : Prop where
  refl : ∀ s, R s s
  trans : ∀ s s' s'', R s s' → R s' s'' → R s s''
  act : ∀ e s, R s (W.act e s)
  answer : ∀ c s r s', W.Answer c s r s' → R s s'

namespace Coro

variable {W : World S σ} {R : σ → σ → Prop} {x : X} {I : History S X σ → Prop}
  {P : S.Call → List (Entry S X σ) → Prop}

/-- The weakest precondition of `c` for `Q`. Other tasks may run at an await; they leave a longer
history that satisfies `I` again, with a state that has grown and no new entry of `x`. -/
def wpOwn (W : World S σ) (R : σ → σ → Prop) (x : X) (I : History S X σ → Prop)
    (P : S.Call → List (Entry S X σ) → Prop) :
    Coro S α → (Outcome S.Exc α → History S X σ → Prop) → History S X σ → Prop
  | done o, Q, h => Q o h
  | emit e next, Q, h => next.wpOwn W R x I P Q (h.act W x e)
  | await c next, Q, h =>
    (I h ∧ P c (own x h.log)) ∧
      ∀ h', h.log <+: h'.log → own x h'.log = own x h.log → R h.state h'.state → I h' →
        ∀ r s, W.Answer c h'.state r s → (next r).wpOwn W R x I P Q (h'.call x c r s)

/-- A task at an await satisfies `P` and is safe to resume. -/
def ParkedOwn (W : World S σ) (R : σ → σ → Prop) (x : X) (I : History S X σ → Prop)
    (P : S.Call → List (Entry S X σ) → Prop) (c : Coro S Unit) (h : History S X σ) : Prop :=
  match c with
  | await c next =>
    P c (own x h.log) ∧
      ∀ h', h.log <+: h'.log → own x h'.log = own x h.log → R h.state h'.state → I h' →
        ∀ r s, W.Answer c h'.state r s → (next r).wpOwn W R x I P (fun _ => I) (h'.call x c r s)
  | _ => True

theorem wpOwn_andThen {c : Coro S α} {f : Outcome S.Exc α → Coro S β}
    {Q : Outcome S.Exc β → History S X σ → Prop} {h : History S X σ} :
    (c.andThen f).wpOwn W R x I P Q h ↔ c.wpOwn W R x I P (fun o => (f o).wpOwn W R x I P Q) h := by
  induction c generalizing h with
  | done o => rfl
  | emit e next ih => exact ih
  | await c next ih =>
    refine and_congr_right fun _ => ?_
    constructor
    · intro hc h' hle hown hR hI r s ha
      exact (ih r).mp (hc h' hle hown hR hI r s ha)
    · intro hc h' hle hown hR hI r s ha
      exact (ih r).mpr (hc h' hle hown hR hI r s ha)

theorem wpOwn_mono {c : Coro S α} {Q Q' : Outcome S.Exc α → History S X σ → Prop}
    (hQ : ∀ o h, Q o h → Q' o h) {h : History S X σ} (hc : c.wpOwn W R x I P Q h) :
    c.wpOwn W R x I P Q' h := by
  induction c generalizing h with
  | done o => exact hQ o h hc
  | emit e next ih => exact ih hc
  | await c next ih =>
    exact ⟨hc.1, fun h' hle hown hR hI r s ha => ih r (hc.2 h' hle hown hR hI r s ha)⟩

theorem ParkedOwn.mono (hW : W.Grows R) {c : Coro S Unit} {h h' : History S X σ}
    (hc : c.ParkedOwn W R x I P h) (hle : h.log <+: h'.log) (hown : own x h'.log = own x h.log)
    (hR : R h.state h'.state) : c.ParkedOwn W R x I P h' := by
  cases c with
  | done o => exact trivial
  | emit e next => exact trivial
  | await c next =>
    refine ⟨hown ▸ hc.1, fun h'' hle' hown' hR' => ?_⟩
    exact hc.2 h'' (hle.trans hle') (hown'.trans hown) (hW.trans _ _ _ hR hR')

/-- A task that keeps `I` reaches its next await, or its end, with `I`; it adds entries of its own. -/
theorem wpOwn_advance (hW : W.Grows R) {c : Coro S Unit} {h : History S X σ}
    (hc : c.wpOwn W R x I P (fun _ => I) h) :
    I (c.advance W x h).2 ∧ (c.advance W x h).1.ParkedOwn W R x I P (c.advance W x h).2 ∧
      R h.state (c.advance W x h).2.state ∧
        ∃ log, (c.advance W x h).2.log = h.log ++ log ∧ ∀ e ∈ log, e.job = x := by
  induction c generalizing h with
  | done o => exact ⟨hc, trivial, hW.refl _, [], (List.append_nil _).symm, nofun⟩
  | emit e next ih =>
    obtain ⟨hI, hparked, hR, log, hlog, hjob⟩ := ih hc
    refine ⟨hI, hparked, hW.trans _ _ _ (hW.act e h.state) hR, .acted x e h.state :: log, ?_, ?_⟩
    · refine hlog.trans ?_
      rw [History.act, List.append_assoc, List.singleton_append]
    · exact List.forall_mem_cons.mpr ⟨rfl, hjob⟩
  | await c next ih =>
    exact ⟨hc.1.1, ⟨hc.1.2, hc.2⟩, hW.refl _, [], (List.append_nil _).symm, nofun⟩

end Coro

open Coro

omit [DecidableEq X] in
theorem World.Grows.advance {W : World S σ} {R : σ → σ → Prop} (hW : W.Grows R) (x : X)
    (c : Coro S Unit) (h : History S X σ) : R h.state (c.advance W x h).2.state := by
  induction c generalizing h with
  | done o => exact hW.refl _
  | emit e next ih => exact hW.trans _ _ _ (hW.act e h.state) (ih (h.act W x e))
  | await c next ih => exact hW.refl _

def Pool.jobs (p : Pool S X σ) : List X := p.tasks.map Prod.fst

namespace System

/-- `I` holds initially, the environment keeps it, no task is created twice, and every task keeps `I`
from await to await, with `P` of what it awaits. -/
structure OwnInvariant (Y : System S X σ) (R : σ → σ → Prop) (I : History S X σ → Prop)
    (P : X → S.Call → List (Entry S X σ) → Prop) : Prop where
  init : ∀ s, Y.Init s → I ⟨s, []⟩
  env : ∀ h s, I h → Y.Env h.state s → R h.state s ∧ I ⟨s, h.log⟩
  grows : Y.world.Grows R
  fresh : ∀ p x, Y.Admits p x → x ∉ p.jobs
  body : ∀ p x, Y.Admits p x → I p.hist → own x p.hist.log = [] →
    (Y.body x).wpOwn Y.world R x I (P x) (fun _ => I) p.hist

/-- What `OwnInvariant` keeps of a pool. -/
structure Owned (Y : System S X σ) (R : σ → σ → Prop) (I : History S X σ → Prop)
    (P : X → S.Call → List (Entry S X σ) → Prop) (p : Pool S X σ) : Prop where
  inv : I p.hist
  parked : ∀ task ∈ p.tasks, task.2.ParkedOwn Y.world R task.1 I (P task.1) p.hist
  nodup : p.jobs.Nodup
  made : ∀ e ∈ p.hist.log, e.job ∈ p.jobs

namespace Owned

variable {Y : System S X σ} {R : σ → σ → Prop} {I : History S X σ → Prop}
  {P : X → S.Call → List (Entry S X σ) → Prop} {p : Pool S X σ}

theorem spawn (hY : Y.OwnInvariant R I P) (h : Owned Y R I P p) {x : X} (hx : Y.Admits p x) :
    Owned Y R I P (p.spawn Y.world x (Y.body x)) := by
  have hfresh := hY.fresh p x hx
  have hown : own x p.hist.log = [] := by
    refine List.filter_eq_nil_iff.mpr fun e he hjob => hfresh ?_
    rw [← of_decide_eq_true hjob]
    exact h.made e he
  obtain ⟨hI, hnew, hR, log, hlog, hjob⟩ := wpOwn_advance hY.grows (hY.body p x hx h.inv hown)
  have hjobs : (p.spawn Y.world x (Y.body x)).jobs = p.jobs ++ [x] := List.map_append
  refine ⟨hI, fun task htask => ?_, ?_, fun e he => ?_⟩
  · rcases List.mem_append.mp htask with hold | hlast
    · have hne : x ≠ task.1 := fun heq => hfresh (heq ▸ List.mem_map_of_mem hold)
      refine (h.parked task hold).mono hY.grows ⟨log, hlog.symm⟩ ?_ hR
      exact (congrArg (own task.1) hlog).trans
        ((own_append ..).trans (by rw [own_eq_nil hjob hne, List.append_nil]))
    · rw [List.mem_singleton.mp hlast]
      exact hnew
  · rw [hjobs]
    exact List.nodup_append.mpr ⟨h.nodup, List.nodup_singleton x, fun y hy z hz =>
      fun heq => hfresh (List.mem_singleton.mp hz ▸ heq ▸ hy)⟩
  · rw [hjobs]
    rcases List.mem_append.mp (hlog ▸ he) with hold | hlast
    · exact List.mem_append_left _ (h.made e hold)
    · rw [hjob e hlast]
      exact List.mem_append_right _ List.mem_cons_self

theorem resume (hY : Y.OwnInvariant R I P) (h : Owned Y R I P p) {i : Nat} {x : X} {c : S.Call}
    {next : Outcome S.Exc (S.Res c) → Coro S Unit} {r : Outcome S.Exc (S.Res c)} {s : σ}
    (hi : p.tasks[i]? = some (x, await c next)) (ha : Y.world.Answer c p.hist.state r s) :
    Owned Y R I P (p.resume Y.world i x c next r s) := by
  obtain ⟨hlt, hget⟩ := List.getElem?_eq_some_iff.mp hi
  have hmem : (x, await c next) ∈ p.tasks := List.mem_of_getElem? hi
  have hwp := (h.parked _ hmem).2 p.hist List.prefix_rfl rfl (hY.grows.refl _) h.inv r s ha
  obtain ⟨hI, hnew, hR, log, hlog, hjob⟩ := wpOwn_advance hY.grows hwp
  have hlog' : (p.resume Y.world i x c next r s).hist.log =
      p.hist.log ++ (.called x c r p.hist.state :: log) := by
    refine hlog.trans ?_
    rw [History.call_log, List.append_assoc, List.singleton_append]
  have hjob' : ∀ e ∈ (.called x c r p.hist.state :: log), e.job = x :=
    List.forall_mem_cons.mpr ⟨rfl, hjob⟩
  have hjobs : (p.resume Y.world i x c next r s).jobs = p.jobs := by
    unfold Pool.jobs Pool.resume
    rw [List.map_set]
    refine List.ext_getElem? fun j => ?_
    rw [List.getElem?_set]
    split
    · next hij => rw [← hij, List.getElem?_map, hi, List.length_map, if_pos hlt]; rfl
    · rfl
  have hnodup : (p.resume Y.world i x c next r s).jobs.Nodup := hjobs ▸ h.nodup
  refine ⟨hI, fun task htask => ?_, hnodup, fun e he => ?_⟩
  · by_cases hx : task.1 = x
    · -- the resumed task is the only one of its job
      have hset := List.mem_set hlt (a := (x, ((next r).advance Y.world x (p.hist.call x c r s)).1))
      rw [List.inj_on_of_nodup_map hnodup htask hset hx]
      exact hnew
    · rcases List.mem_or_eq_of_mem_set htask with hold | hlast
      · have hR' := hY.grows.trans _ _ _ (hY.grows.answer _ _ _ _ ha) hR
        refine (h.parked task hold).mono hY.grows ⟨_, hlog'.symm⟩ ?_ hR'
        rw [hlog', own_append, own_eq_nil hjob' (Ne.symm hx), List.append_nil]
      · exact absurd (congrArg Prod.fst hlast) hx
  · rw [hjobs]
    rcases List.mem_append.mp (hlog' ▸ he) with hold | hlast
    · exact h.made e hold
    · rw [hjob' e hlast]
      exact List.mem_map_of_mem hmem

end Owned

/-- **The invariant rule** for tasks that know their own steps. -/
theorem OwnInvariant.reach {Y : System S X σ} {R : σ → σ → Prop} {I : History S X σ → Prop}
    {P : X → S.Call → List (Entry S X σ) → Prop} (hY : Y.OwnInvariant R I P) {p : Pool S X σ}
    (hp : Y.Reach p) : Owned Y R I P p := by
  induction hp with
  | init hs => exact ⟨hY.init _ hs, nofun, List.nodup_nil, nofun⟩
  | env hp hs ih =>
    obtain ⟨hR, hI⟩ := hY.env _ _ ih.inv hs
    exact ⟨hI, fun task htask => (ih.parked task htask).mono hY.grows List.prefix_rfl rfl hR,
      ih.nodup, ih.made⟩
  | spawn hp hx ih => exact ih.spawn hY hx
  | resume hp hi ha ih => exact ih.resume hY hi ha

end System

end Asyncio
