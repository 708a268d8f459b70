import Chattice.Asyncio.Jobs

/-!
# States made of parts

The tasks of a loop share a state with one part for each key. A task belongs to one part, or to none, and
its calls read and write that part only. Then what happens to one part, and to the tasks that belong to it,
is a run in which that part and these tasks are all there is.

* `Pool.part` : what one part has of a loop;
* `Parted` : the calls of a task keep to the part of the task;
* `System.Reach.part` : the part of a run is a run of its own.
-/

namespace Asyncio

open Coro

variable {S : Sig} {X K T α : Type} [DecidableEq K]

/-- The entry, with the part of the state it found. -/
def Entry.at (k : K) : Entry S X (K → T) → Entry S X T
  | .called x c r pre => .called x c r (pre k)
  | .acted x e pre => .acted x e (pre k)

/-- One part of the state, and the entries of its tasks. -/
def History.part (key : X → Option K) (k : K) (h : History S X (K → T)) : History S X T :=
  ⟨h.state k, (h.log.filter fun e => key e.job = some k).map (Entry.at k)⟩

/-- One part of the state, its tasks and their entries. -/
def Pool.part (key : X → Option K) (k : K) (p : Pool S X (K → T)) : Pool S X T :=
  ⟨p.hist.part key k, p.tasks.filter fun task => key task.1 = some k⟩

/-- `Y` is made of the systems `Z k`: a task of part `k` does in `Y` what it does in `Z k`. -/
structure Parted (Y : System S X (K → T)) (Z : K → System S X T) (key : X → Option K)
    (partOf : S.Call → Option K) : Prop where
  body : ∀ k x, (Z k).body x = Y.body x
  keeps : ∀ x, (Y.body x).Within fun c => partOf c = none ∨ partOf c = key x
  act : ∀ e s, Y.world.act e s = s
  actPart : ∀ k e t, (Z k).world.act e t = t
  answer : ∀ k c s r s', partOf c = some k → Y.world.Answer c s r s' →
    (Z k).world.Answer c (s k) r (s' k) ∧ ∀ j, j ≠ k → s' j = s j
  outside : ∀ c s r s', partOf c = none → Y.world.Answer c s r s' →
    s' = s ∧ ∀ k, (Z k).world.Answer c (s k) r (s k)
  init : ∀ k s, Y.Init s → (Z k).Init (s k)
  env : ∀ k s s', Y.Env s s' → s' k = s k ∨ (Z k).Env (s k) (s' k)
  admits : ∀ k p x, Y.Admits p x → key x = some k → (Z k).Admits (p.part key k) x

/-! ## Filtered lists -/

theorem filter_set_of_pos {A : Type} {f : A → Bool} {l : List A} {i : Nat} {a b : A} (hi : l[i]? = some a)
    (ha : f a = true) (hb : f b = true) :
    ∃ j : Nat, (l.filter f)[j]? = some a ∧ (l.set i b).filter f = (l.filter f).set j b := by
  induction l generalizing i with
  | nil => cases hi
  | cons c l ih =>
    cases i with
    | zero =>
      cases hi
      refine ⟨0, ?_, ?_⟩
      · rw [List.filter_cons_of_pos ha]
        rfl
      · rw [List.set_cons_zero, List.filter_cons_of_pos hb, List.filter_cons_of_pos ha, List.set_cons_zero]
    | succ i =>
      obtain ⟨j, hj, hset⟩ := ih hi
      rw [List.set_cons_succ]
      cases hc : f c with
      | true =>
        refine ⟨j + 1, ?_, ?_⟩
        · rw [List.filter_cons_of_pos hc]
          exact hj
        · rw [List.filter_cons_of_pos hc, List.filter_cons_of_pos hc, List.set_cons_succ, hset]
      | false =>
        have hneg : ¬ f c = true := by rw [hc]; exact Bool.false_ne_true
        refine ⟨j, ?_, ?_⟩
        · rw [List.filter_cons_of_neg hneg]
          exact hj
        · rw [List.filter_cons_of_neg hneg, List.filter_cons_of_neg hneg, hset]

theorem filter_set_of_neg {A : Type} {f : A → Bool} {l : List A} {i : Nat} {a b : A} (hi : l[i]? = some a)
    (ha : ¬ f a = true) (hb : ¬ f b = true) : (l.set i b).filter f = l.filter f := by
  induction l generalizing i with
  | nil => cases hi
  | cons c l ih =>
    cases i with
    | zero =>
      cases hi
      rw [List.set_cons_zero, List.filter_cons_of_neg hb, List.filter_cons_of_neg ha]
    | succ i =>
      rw [List.set_cons_succ, List.filter_cons, List.filter_cons, ih hi]

/-! ## Steps -/

variable {Y : System S X (K → T)} {Z : K → System S X T} {key : X → Option K} {partOf : S.Call → Option K}
  {k : K} {x : X}

/-- A task of the part runs to its next await as it does in the part. -/
theorem advance_part (hY : Parted Y Z key partOf) (hx : key x = some k) (c : Coro S α)
    (h : History S X (K → T)) :
    (c.advance (Z k).world x (h.part key k)) =
      ((c.advance Y.world x h).1, (c.advance Y.world x h).2.part key k) := by
  induction c generalizing h with
  | done o => rfl
  | await c next ih => rfl
  | emit e next ih =>
    have hact : (h.part key k).act (Z k).world x e = (h.act Y.world x e).part key k := by
      unfold History.part History.act
      rw [hY.act, hY.actPart, List.filter_append, List.map_append,
        List.filter_cons_of_pos (by simp [Entry.job, hx])]
      rfl
    rw [advance, advance, hact]
    exact ih _

theorem advance_part_of_ne (hY : Parted Y Z key partOf) (hx : key x ≠ some k) (c : Coro S α)
    (h : History S X (K → T)) : (c.advance Y.world x h).2.part key k = h.part key k := by
  induction c generalizing h with
  | done o => rfl
  | await c next ih => rfl
  | emit e next ih =>
    rw [advance, ih]
    unfold History.part History.act
    rw [hY.act, List.filter_append, List.filter_cons_of_neg (by simp [Entry.job, hx]),
      List.filter_nil, List.append_nil]

omit [DecidableEq K] in
/-- What is left of a coroutine calls nothing new. -/
theorem within_advance {P : S.Call → Prop} (W : World S (K → T)) (c : Coro S α) (hc : c.Within P)
    (h : History S X (K → T)) : (c.advance W x h).1.Within P := by
  induction c generalizing h with
  | done o => exact hc
  | await c next ih => exact hc
  | emit e next ih => exact ih hc _

theorem call_part (hx : key x = some k) {c : S.Call} {r : Outcome S.Exc (S.Res c)} {s : K → T}
    {h : History S X (K → T)} : (h.call x c r s).part key k = (h.part key k).call x c r (s k) := by
  unfold History.part History.call
  rw [List.filter_append, List.map_append, List.filter_cons_of_pos (by simp [Entry.job, hx])]
  rfl

theorem call_part_of_ne (hx : key x ≠ some k) {c : S.Call} {r : Outcome S.Exc (S.Res c)} {s : K → T}
    {h : History S X (K → T)} (hs : s k = h.state k) : (h.call x c r s).part key k = h.part key k := by
  unfold History.part History.call
  dsimp only
  rw [List.filter_append, List.filter_cons_of_neg (by simp [Entry.job, hx]), List.filter_nil,
    List.append_nil, hs]

theorem spawn_part (hY : Parted Y Z key partOf) (hx : key x = some k) (p : Pool S X (K → T)) :
    (p.spawn Y.world x (Y.body x)).part key k = (p.part key k).spawn (Z k).world x ((Z k).body x) := by
  have hadvance := advance_part hY hx (Y.body x) p.hist
  unfold Pool.spawn
  rw [hY.body, Pool.part, Pool.part]
  dsimp only
  rw [hadvance, List.filter_append, List.filter_cons_of_pos (by simp [hx]), List.filter_nil]

theorem spawn_part_of_ne (hY : Parted Y Z key partOf) (hx : key x ≠ some k) (p : Pool S X (K → T)) :
    (p.spawn Y.world x (Y.body x)).part key k = p.part key k := by
  unfold Pool.spawn Pool.part
  dsimp only
  rw [advance_part_of_ne hY hx, List.filter_append, List.filter_cons_of_neg (by simp [hx]),
    List.filter_nil, List.append_nil]

/-- **The part of a run is a run of the part.** -/
theorem System.Reach.part (hY : Parted Y Z key partOf) {p : Pool S X (K → T)} (hp : Y.Reach p) (k : K) :
    (Z k).Reach (p.part key k) := by
  suffices hall : (Z k).Reach (p.part key k) ∧
      ∀ task ∈ p.tasks, task.2.Within fun c => partOf c = none ∨ partOf c = key task.1 from hall.1
  induction hp with
  | init hs => exact ⟨.init (hY.init k _ hs), nofun⟩
  | @env p s hp hs ih =>
    refine ⟨?_, ih.2⟩
    obtain hsame | hstep := hY.env k _ _ hs
    · have hpart : Pool.part key k ⟨⟨s, p.hist.log⟩, p.tasks⟩ = p.part key k := by
        unfold Pool.part History.part
        dsimp only
        rw [hsame]
      rw [hpart]
      exact ih.1
    · exact .env ih.1 hstep
  | @spawn p x hp hx ih =>
    refine ⟨?_, fun task htask => ?_⟩
    · by_cases hkey : key x = some k
      · rw [spawn_part hY hkey]
        exact .spawn ih.1 (hY.admits k p x hx hkey)
      · rw [spawn_part_of_ne hY hkey]
        exact ih.1
    · obtain hold | hnew := List.mem_append.mp htask
      · exact ih.2 task hold
      · rw [List.mem_singleton.mp hnew]
        exact within_advance _ _ (hY.keeps x) _
  | @resume p i x c next r s hp hi ha ih =>
    have hwithin := ih.2 _ (List.mem_of_getElem? hi)
    have hnext : (next r).Within fun c => partOf c = none ∨ partOf c = key x :=
      fun c' hc' => hwithin c' (.inr ⟨r, hc'⟩)
    refine ⟨?_, fun task htask => ?_⟩
    · by_cases hkey : key x = some k
      · obtain ⟨j, hj, hset⟩ := filter_set_of_pos (f := fun task => key task.1 = some k)
          (b := (x, ((next r).advance Y.world x (p.hist.call x c r s)).1)) hi (by simp [hkey])
          (by simp [hkey])
        have hanswer : (Z k).world.Answer c (p.hist.state k) r (s k) := by
          obtain hnone | hpart := hwithin c (.inl rfl)
          · obtain ⟨rfl, hlocal⟩ := hY.outside c _ r s hnone ha
            exact hlocal k
          · exact (hY.answer k c _ r s (hpart.trans hkey) ha).1
        have hresumed := Reach.resume ih.1 hj hanswer
        have hadvance := advance_part hY hkey (next r) (p.hist.call x c r s)
        rw [call_part hkey] at hadvance
        unfold Pool.resume at hresumed ⊢
        unfold Pool.part at hresumed ⊢
        dsimp only at hresumed ⊢
        rw [hadvance] at hresumed
        rw [hset]
        exact hresumed
      · have hsame : s k = p.hist.state k := by
          cases hpart : partOf c with
          | none => rw [(hY.outside c _ r s hpart ha).1]
          | some other =>
            have hother : key x = some other := by
              obtain hnone | hmine := hwithin c (.inl rfl)
              · rw [hpart] at hnone
                cases hnone
              · rw [← hmine, hpart]
            refine (hY.answer other c _ r s hpart ha).2 k fun heq => hkey ?_
            rw [hother, heq]
        have hunchanged : (p.resume Y.world i x c next r s).part key k = p.part key k := by
          unfold Pool.resume Pool.part
          dsimp only
          rw [advance_part_of_ne hY hkey, call_part_of_ne hkey hsame,
            filter_set_of_neg hi (by simp [hkey]) (by simp [hkey])]
        rw [hunchanged]
        exact ih.1
    · obtain hold | hset := List.mem_or_eq_of_mem_set htask
      · exact ih.2 task hold
      · rw [hset]
        exact within_advance _ _ hnext _

end Asyncio
