import Chattice.Asyncio.Coro
import Mathlib.Data.List.Infix

/-!
# Tasks of one event loop

Any number of coroutines share a state. A task that is resumed takes the outcome of the call it
awaits and runs, without interruption, to its next await or to its end; between two such steps the
environment may change the state and new tasks may be created. The history keeps, beside the state,
every answered call and every effect with the state it found.

* `wp W x I c Q h` : weakest precondition of `c` run by task `x` from the history `h`, when `I` holds
  of the history at every await; what a task knows across an await is what any longer history keeps;
* `wp_andThen` : the rule of sequencing, from which the rules of the other combinators follow;
* `Explained J log` : every entry is justified by what came before it;
* `System.Reach.unfinished_le` : a bound on the tasks admitted at once bounds the tasks at once;
* `System.Invariant.reach` : an invariant of the environment that every body keeps, in the sense of
  `wp`, holds in every reachable state.
-/

namespace Asyncio

/-- What the effects and the awaited calls do to the shared state. -/
structure World (S : Sig) (σ : Type) where
  act : S.Eff → σ → σ
  Answer : (c : S.Call) → σ → Outcome S.Exc (S.Res c) → σ → Prop

/-- An answered call or an effect of task `x`, with the state it found. -/
inductive Entry (S : Sig) (X σ : Type) : Type where
  | called (x : X) (c : S.Call) (r : Outcome S.Exc (S.Res c)) (pre : σ)
  | acted (x : X) (e : S.Eff) (pre : σ)

/-- The shared state and what has happened, oldest first. -/
structure History (S : Sig) (X σ : Type) where
  state : σ
  log : List (Entry S X σ)

/-- The tasks of the loop with what is left of them. -/
structure Pool (S : Sig) (X σ : Type) where
  hist : History S X σ
  tasks : List (X × Coro S Unit)

variable {S : Sig} {X σ α β : Type}

namespace History

def act (W : World S σ) (x : X) (e : S.Eff) (h : History S X σ) : History S X σ :=
  ⟨W.act e h.state, h.log ++ [.acted x e h.state]⟩

def call (x : X) (c : S.Call) (r : Outcome S.Exc (S.Res c)) (s : σ) (h : History S X σ) :
    History S X σ :=
  ⟨s, h.log ++ [.called x c r h.state]⟩

@[simp] theorem act_state (W : World S σ) (x : X) (e : S.Eff) (h : History S X σ) :
    (h.act W x e).state = W.act e h.state := rfl

@[simp] theorem call_log (x : X) (c : S.Call) (r : Outcome S.Exc (S.Res c)) (s : σ)
    (h : History S X σ) : (h.call x c r s).log = h.log ++ [.called x c r h.state] := rfl

end History

/-- Every entry of the log satisfies `J` of what came before it. -/
def Explained (J : List (Entry S X σ) → Entry S X σ → Prop) (log : List (Entry S X σ)) : Prop :=
  ∀ l₁ e l₂, log = l₁ ++ e :: l₂ → J l₁ e

theorem explained_nil (J : List (Entry S X σ) → Entry S X σ → Prop) : Explained J [] := by
  intro l₁ e l₂ h
  exact absurd h.symm (by simp)

theorem explained_snoc {J : List (Entry S X σ) → Entry S X σ → Prop} {log : List (Entry S X σ)}
    {e : Entry S X σ} : Explained J (log ++ [e]) ↔ Explained J log ∧ J log e := by
  constructor
  · intro h
    refine ⟨fun l₁ e' l₂ heq => h l₁ e' (l₂ ++ [e]) ?_, h log e [] rfl⟩
    rw [heq, List.append_assoc, List.cons_append]
  · rintro ⟨hlog, hlast⟩ l₁ e' l₂ heq
    rcases List.eq_nil_or_concat l₂ with rfl | ⟨l, a, rfl⟩
    · obtain ⟨rfl, hsingle⟩ := List.append_inj' heq rfl
      rw [← List.singleton_inj.mp hsingle]
      exact hlast
    · rw [List.concat_eq_append, ← List.cons_append, ← List.append_assoc] at heq
      obtain ⟨hinit, -⟩ := List.append_inj' heq rfl
      exact hlog l₁ e' l hinit

namespace Coro

def isDone : Coro S α → Bool
  | done _ => true
  | _ => false

def awaited : Coro S α → Option S.Call
  | await c _ => some c
  | _ => none

/-- Run the effects of `c` up to its next await or its end. -/
def advance (W : World S σ) (x : X) : Coro S α → History S X σ → Coro S α × History S X σ
  | emit e next, h => next.advance W x (h.act W x e)
  | done o, h => (done o, h)
  | await c next, h => (await c next, h)

/-- The weakest precondition of `c` for the postcondition `Q`. At an await the history satisfies `I`
and other tasks may run; they leave a longer history that satisfies `I` again. -/
def wp (W : World S σ) (x : X) (I : History S X σ → Prop) :
    Coro S α → (Outcome S.Exc α → History S X σ → Prop) → History S X σ → Prop
  | done o, Q, h => Q o h
  | emit e next, Q, h => next.wp W x I Q (h.act W x e)
  | await c next, Q, h =>
    I h ∧ ∀ h', h.log <+: h'.log → I h' → ∀ r s, W.Answer c h'.state r s →
      (next r).wp W x I Q (h'.call x c r s)

/-- A task at an await is safe to resume after any longer history. -/
def Parked (W : World S σ) (x : X) (I : History S X σ → Prop) (c : Coro S Unit)
    (h : History S X σ) : Prop :=
  match c with
  | await c next =>
    ∀ h', h.log <+: h'.log → I h' → ∀ r s, W.Answer c h'.state r s →
      (next r).wp W x I (fun _ => I) (h'.call x c r s)
  | _ => True

variable {W : World S σ} {x : X} {I : History S X σ → Prop}

theorem wp_andThen {c : Coro S α} {f : Outcome S.Exc α → Coro S β}
    {Q : Outcome S.Exc β → History S X σ → Prop} {h : History S X σ} :
    (c.andThen f).wp W x I Q h ↔ c.wp W x I (fun o => (f o).wp W x I Q) h := by
  induction c generalizing h with
  | done o => rfl
  | emit e next ih => exact ih
  | await c next ih =>
    refine and_congr_right fun _ => ?_
    constructor
    · intro hc h' hle hI r s ha
      exact (ih r).mp (hc h' hle hI r s ha)
    · intro hc h' hle hI r s ha
      exact (ih r).mpr (hc h' hle hI r s ha)

theorem wp_mono {c : Coro S α} {Q Q' : Outcome S.Exc α → History S X σ → Prop}
    (hQ : ∀ o h, Q o h → Q' o h) {h : History S X σ} (hc : c.wp W x I Q h) :
    c.wp W x I Q' h := by
  induction c generalizing h with
  | done o => exact hQ o h hc
  | emit e next ih => exact ih hc
  | await c next ih =>
    exact ⟨hc.1, fun h' hle hI r s ha => ih r (hc.2 h' hle hI r s ha)⟩

theorem wp_seq {c : Coro S α} {f : Outcome S.Exc α → Coro S β}
    {Q : Outcome S.Exc β → History S X σ → Prop} {h : History S X σ}
    (hc : c.wp W x I (fun _ => I) h) (hf : ∀ o h, I h → (f o).wp W x I Q h) :
    (c.andThen f).wp W x I Q h := by
  rw [wp_andThen]
  exact wp_mono hf hc

theorem Parked.mono {c : Coro S Unit} {h h' : History S X σ} (hc : c.Parked W x I h)
    (hle : h.log <+: h'.log) : c.Parked W x I h' := by
  cases c with
  | done o => exact trivial
  | emit e next => exact trivial
  | await c next => exact fun h'' hle' => hc h'' (hle.trans hle')

/-- A task that keeps `I` reaches its next await, or its end, with `I`. -/
theorem wp_advance {c : Coro S Unit} {h : History S X σ} (hc : c.wp W x I (fun _ => I) h) :
    I (c.advance W x h).2 ∧ (c.advance W x h).1.Parked W x I (c.advance W x h).2 ∧
      h.log <+: (c.advance W x h).2.log := by
  induction c generalizing h with
  | done o => exact ⟨hc, trivial, List.prefix_rfl⟩
  | emit e next ih =>
    obtain ⟨hI, hparked, hle⟩ := ih hc
    exact ⟨hI, hparked, (List.prefix_append _ _).trans hle⟩
  | await c next ih => exact ⟨hc.1, hc.2, List.prefix_rfl⟩

end Coro

open Coro

/-! ## Systems -/

/-- A loop: the shared state, the coroutine of each task, what the environment does, and when a new
task may be created. -/
structure System (S : Sig) (X σ : Type) where
  world : World S σ
  body : X → Coro S Unit
  Init : σ → Prop
  Env : σ → σ → Prop
  Admits : Pool S X σ → X → Prop

namespace Pool

/-- Create task `x`; it runs to its first await. -/
def spawn (W : World S σ) (p : Pool S X σ) (x : X) (c : Coro S Unit) : Pool S X σ :=
  ⟨(c.advance W x p.hist).2, p.tasks ++ [(x, (c.advance W x p.hist).1)]⟩

/-- Resume task number `i`, that awaits `c`, with the outcome `r`. -/
def resume (W : World S σ) (p : Pool S X σ) (i : Nat) (x : X) (c : S.Call)
    (next : Outcome S.Exc (S.Res c) → Coro S Unit) (r : Outcome S.Exc (S.Res c)) (s : σ) :
    Pool S X σ :=
  ⟨((next r).advance W x (p.hist.call x c r s)).2,
    p.tasks.set i (x, ((next r).advance W x (p.hist.call x c r s)).1)⟩

/-- Resume task number `i` with what `reply` answers to the call it awaits, if it awaits one. -/
def reply (W : World S σ) (answer : (c : S.Call) → σ → Outcome S.Exc (S.Res c) × σ) (p : Pool S X σ)
    (i : Nat) : Pool S X σ :=
  match p.tasks[i]? with
  | some (x, .await c next) =>
    p.resume W i x c next (answer c p.hist.state).1 (answer c p.hist.state).2
  | _ => p

def unfinished (p : Pool S X σ) : Nat := p.tasks.countP fun task => !task.2.isDone

/-- How many tasks await a call that satisfies `P`. -/
def awaiting (P : S.Call → Bool) (p : Pool S X σ) : Nat :=
  p.tasks.countP fun task => task.2.awaited.any P

theorem awaiting_le_unfinished (P : S.Call → Bool) (p : Pool S X σ) :
    p.awaiting P ≤ p.unfinished := by
  refine List.countP_mono_left fun task _ h => ?_
  cases hc : task.2 with
  | done o => simp [hc, awaited] at h
  | emit e next => rfl
  | await c next => rfl

end Pool

namespace System

/-- The states of the runs of `Y`. -/
inductive Reach (Y : System S X σ) : Pool S X σ → Prop where
  | init {s : σ} (hs : Y.Init s) : Reach Y ⟨⟨s, []⟩, []⟩
  | env {p : Pool S X σ} {s : σ} (hp : Reach Y p) (hs : Y.Env p.hist.state s) :
      Reach Y ⟨⟨s, p.hist.log⟩, p.tasks⟩
  | spawn {p : Pool S X σ} {x : X} (hp : Reach Y p) (hx : Y.Admits p x) :
      Reach Y (p.spawn Y.world x (Y.body x))
  | resume {p : Pool S X σ} {i : Nat} {x : X} {c : S.Call}
      {next : Outcome S.Exc (S.Res c) → Coro S Unit} {r : Outcome S.Exc (S.Res c)} {s : σ}
      (hp : Reach Y p) (hi : p.tasks[i]? = some (x, await c next))
      (ha : Y.world.Answer c p.hist.state r s) : Reach Y (p.resume Y.world i x c next r s)

theorem Reach.start {Y : System S X σ} {p : Pool S X σ} {x : X} {c : S.Call}
    {next : Outcome S.Exc (S.Res c) → Coro S Unit} {r : Outcome S.Exc (S.Res c)} {s : σ}
    {rest : Coro S Unit} {h : History S X σ} (hp : Y.Reach p) (hx : Y.Admits p x)
    (hbody : Y.body x = await c next) (ha : Y.world.Answer c p.hist.state r s)
    (hadvance : (next r).advance Y.world x (p.hist.call x c r s) = (rest, h)) :
    Y.Reach ⟨h, p.tasks ++ [(x, rest)]⟩ := by
  have hspawned := Reach.spawn hp hx
  rw [hbody] at hspawned
  have hlast : (p.tasks ++ [(x, await c next)])[p.tasks.length]? = some (x, await c next) :=
    List.getElem?_concat_length
  have hresumed := Reach.resume hspawned hlast ha
  unfold Pool.spawn Pool.resume at hresumed
  simp only [advance] at hresumed
  rw [hadvance, List.set_append_right _ _ (Nat.le_refl _), Nat.sub_self] at hresumed
  exact hresumed

/-- A run in which every call ends the way `answer` says, to evaluate one run. -/
theorem Reach.reply {Y : System S X σ} {answer : (c : S.Call) → σ → Outcome S.Exc (S.Res c) × σ}
    (hanswer : ∀ c s, Y.world.Answer c s (answer c s).1 (answer c s).2) {p : Pool S X σ}
    (hp : Y.Reach p) (i : Nat) : Y.Reach (p.reply Y.world answer i) := by
  unfold Pool.reply
  split
  · next hi => exact .resume hp hi (hanswer _ _)
  · exact hp

/-- Where a task is created only while fewer than `m` are unfinished, at most `m` ever are. -/
theorem Reach.unfinished_le {Y : System S X σ} {m : Nat}
    (hY : ∀ p x, Y.Admits p x → p.unfinished < m) {p : Pool S X σ} (hp : Y.Reach p) :
    p.unfinished ≤ m := by
  induction hp with
  | init hs => exact Nat.zero_le m
  | env hp hs ih => exact ih
  | @spawn p x hp hx ih =>
    have hlt : p.tasks.countP (fun task => !task.2.isDone) < m := hY p x hx
    have hnew := List.countP_le_length (p := fun task : X × Coro S Unit => !task.2.isDone)
      (l := [(x, ((Y.body x).advance Y.world x p.hist).1)])
    rw [List.length_singleton] at hnew
    rw [Pool.unfinished, Pool.spawn, List.countP_append]
    omega
  | @resume p i x c next r s hp hi ha ih =>
    obtain ⟨hlt, hget⟩ := List.getElem?_eq_some_iff.mp hi
    -- the resumed task was unfinished, so whatever replaces it adds nothing
    have hpos : 0 < p.tasks.countP (fun task => !task.2.isDone) :=
      List.countP_pos_iff.mpr ⟨_, List.mem_of_getElem? hi, rfl⟩
    have hle : p.tasks.countP (fun task => !task.2.isDone) ≤ m := ih
    rw [Pool.unfinished, Pool.resume, List.countP_set hlt, hget,
      if_pos (show (!(await c next : Coro S Unit).isDone) = true from rfl)]
    refine le_trans (Nat.add_le_add_left (m := 1) ?_ _) (by omega)
    split
    · exact Nat.le_refl 1
    · exact Nat.zero_le 1

/-- `I` holds initially, the environment keeps it, and every task keeps it from await to await. -/
structure Invariant (Y : System S X σ) (I : History S X σ → Prop) : Prop where
  init : ∀ s, Y.Init s → I ⟨s, []⟩
  env : ∀ h s, I h → Y.Env h.state s → I ⟨s, h.log⟩
  body : ∀ x h, I h → (Y.body x).wp Y.world x I (fun _ => I) h

/-- An invariant holds in every reachable state, and every task there is safe to resume. -/
theorem Invariant.reach_parked {Y : System S X σ} {I : History S X σ → Prop} (hY : Y.Invariant I)
    {p : Pool S X σ} (hp : Y.Reach p) :
    I p.hist ∧ ∀ task ∈ p.tasks, task.2.Parked Y.world task.1 I p.hist := by
  induction hp with
  | init hs => exact ⟨hY.init _ hs, nofun⟩
  | env hp hs ih =>
    obtain ⟨hI, hparked⟩ := ih
    exact ⟨hY.env _ _ hI hs, fun task htask => (hparked task htask).mono List.prefix_rfl⟩
  | @spawn p x hp hx ih =>
    obtain ⟨hI, hparked⟩ := ih
    obtain ⟨hI', hnew, hle⟩ := wp_advance (hY.body x p.hist hI)
    refine ⟨hI', fun task htask => ?_⟩
    rcases List.mem_append.mp htask with hold | hlast
    · exact (hparked task hold).mono hle
    · rw [List.mem_singleton.mp hlast]
      exact hnew
  | @resume p i x c next r s hp hi ha ih =>
    obtain ⟨hI, hparked⟩ := ih
    have hwp := hparked _ (List.mem_of_getElem? hi) p.hist List.prefix_rfl hI r s ha
    obtain ⟨hI', hnew, hle⟩ := wp_advance hwp
    refine ⟨hI', fun task htask => ?_⟩
    rcases List.mem_or_eq_of_mem_set htask with hold | hset
    · exact (hparked task hold).mono ((List.prefix_append _ _).trans hle)
    · rw [hset]
      exact hnew

/-- **The invariant rule.** -/
theorem Invariant.reach {Y : System S X σ} {I : History S X σ → Prop} (hY : Y.Invariant I)
    {p : Pool S X σ} (hp : Y.Reach p) : I p.hist :=
  (hY.reach_parked hp).1

end System

end Asyncio
