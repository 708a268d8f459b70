import Chattice.Asyncio.Calls
import Chattice.Asyncio.Own

/-!
# Tasks that are told apart

Facts about the tasks of a loop that need nothing of the shared state but what the calls of a body do to it.

* `wp_of_within` : a body keeps what the calls it keeps to leave as it is;
* `System.Reach.distinct` : where a task is created only with a new token, no two tasks share one.
-/

namespace Asyncio

open Coro

variable {S : Sig} {X σ K α : Type}

/-- A coroutine keeps what its effects and the calls it keeps to leave as it is. -/
theorem wp_of_within {W : World S σ} {x : X} {I : History S X σ → Prop} {P : S.Call → Prop}
    (hact : ∀ e h, I h → I (h.act W x e))
    (hcall : ∀ c h r s, P c → I h → W.Answer c h.state r s → I (h.call x c r s)) {c : Coro S α}
    (hc : c.Within P) {h : History S X σ} (hI : I h) : c.wp W x I (fun _ => I) h := by
  induction c generalizing h with
  | done o => exact hI
  | emit e next ih => exact ih hc (hact e h hI)
  | await c next ih =>
    refine ⟨hI, fun h' _ hI' r s ha => ?_⟩
    exact ih r (fun k hk => hc k (.inr ⟨r, hk⟩)) (hcall c h' r s (hc c (.inl rfl)) hI' ha)

theorem advance_log (W : World S σ) (x : X) (c : Coro S α) (h : History S X σ) :
    ∃ log, (c.advance W x h).2.log = h.log ++ log ∧ ∀ e ∈ log, e.job = x := by
  induction c generalizing h with
  | done o => exact ⟨[], (List.append_nil _).symm, fun e he => by cases he⟩
  | emit e next ih =>
    obtain ⟨log, hlog, hjob⟩ := ih (h.act W x e)
    refine ⟨.acted x e h.state :: log, ?_, fun e' he' => ?_⟩
    · rw [advance, hlog, History.act, List.append_assoc]
      rfl
    · obtain rfl | hrest := List.mem_cons.mp he'
      · rfl
      · exact hjob e' hrest
  | await c next ih => exact ⟨[], (List.append_nil _).symm, fun e he => by cases he⟩

theorem Pool.jobs_resume {W : World S σ} {p : Pool S X σ} {i : Nat} {x : X} {c : S.Call}
    {next : Outcome S.Exc (S.Res c) → Coro S Unit} {r : Outcome S.Exc (S.Res c)} {s : σ}
    (hi : p.tasks[i]? = some (x, await c next)) : (p.resume W i x c next r s).jobs = p.jobs := by
  have hx : (p.tasks.map Prod.fst)[i]? = some x := by rw [List.getElem?_map, hi]; rfl
  rw [Pool.jobs, Pool.resume, List.map_set]
  refine List.ext_getElem? fun j => ?_
  by_cases hij : i = j
  · rw [← hij, List.getElem?_set_self (List.getElem?_eq_some_iff.mp hx).1, Pool.jobs, hx]
  · rw [List.getElem?_set_ne hij]
    rfl

/-- Where a task is created only with a new token, the tokens of all tasks are distinct, and every entry is
one of a task. -/
theorem System.Reach.distinct {Y : System S X σ} {f : X → K}
    (hY : ∀ p x, Y.Admits p x → ∀ task ∈ p.tasks, f task.1 ≠ f x) {p : Pool S X σ} (hp : Y.Reach p) :
    (p.jobs.map f).Nodup ∧ ∀ e ∈ p.hist.log, e.job ∈ p.jobs := by
  induction hp with
  | init hs => exact ⟨.nil, fun e he => by cases he⟩
  | env hp hs ih => exact ih
  | @spawn p x hp hx ih =>
    obtain ⟨hnodup, hmade⟩ := ih
    obtain ⟨log, hlog, hjob⟩ := advance_log Y.world x (Y.body x) p.hist
    have hjobs : (p.spawn Y.world x (Y.body x)).jobs = p.jobs ++ [x] := List.map_append
    refine ⟨?_, fun e he => ?_⟩
    · rw [hjobs, List.map_append, List.nodup_append]
      refine ⟨hnodup, List.nodup_singleton _, fun a ha b hb => ?_⟩
      obtain ⟨y, hy, rfl⟩ := List.mem_map.mp ha
      obtain ⟨task, htask, rfl⟩ := List.mem_map.mp hy
      rw [List.mem_singleton.mp hb]
      exact hY p x hx task htask
    · rw [hjobs, List.mem_append]
      obtain hold | hnew := List.mem_append.mp (hlog ▸ he)
      · exact .inl (hmade e hold)
      · exact .inr (List.mem_singleton.mpr (hjob e hnew))
  | @resume p i x c next r s hp hi ha ih =>
    obtain ⟨hnodup, hmade⟩ := ih
    obtain ⟨log, hlog, hjob⟩ := advance_log Y.world x (next r) (p.hist.call x c r s)
    have hx : x ∈ p.jobs := List.mem_map_of_mem (f := Prod.fst) (List.mem_of_getElem? hi)
    rw [Pool.jobs_resume hi]
    refine ⟨hnodup, fun e he => ?_⟩
    obtain hold | hnew := List.mem_append.mp (hlog ▸ he)
    · obtain hold | hcalled := List.mem_append.mp hold
      · exact hmade e hold
      · rw [List.mem_singleton.mp hcalled]
        exact hx
    · rw [hjob e hnew]
      exact hx

theorem System.Reach.admitted {Y : System S X σ} {P : X → Prop} (hY : ∀ p x, Y.Admits p x → P x)
    {p : Pool S X σ} (hp : Y.Reach p) : ∀ x ∈ p.jobs, P x := by
  induction hp with
  | init hs => exact fun x hx => by cases hx
  | env hp hs ih => exact ih
  | @spawn p x hp hx ih =>
    have hjobs : (p.spawn Y.world x (Y.body x)).jobs = p.jobs ++ [x] := List.map_append
    rw [hjobs]
    intro y hy
    obtain hold | hnew := List.mem_append.mp hy
    · exact ih y hold
    · rw [List.mem_singleton.mp hnew]
      exact hY p x hx
  | resume hp hi ha ih =>
    rw [Pool.jobs_resume hi]
    exact ih

end Asyncio
