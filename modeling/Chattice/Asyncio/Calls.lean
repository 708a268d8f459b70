import Chattice.Asyncio.Coro
import Mathlib.Data.List.Forall2

/-!
# What a coroutine may call, and how it may end

`c.Ends o`, `c.Returns a` and `c.Calls k` say that some run of `c` ends with `o`, returns `a`, or
awaits `k`. They are computed from the parts of `c`; the rules below are the simp set for them.

* `ends_iff_runs`, `calls_iff_runs` : the meaning in terms of complete runs;
* `calls_bind`, `returns_bind` : sequencing;
* `returns_forEach` : a loop returns the list of what its passes return;
* `forall₂_comp` : two loops, the second over the results of the first;
* `within_bind` : a coroutine keeps to the calls its parts keep to.
-/

namespace Asyncio

open Coro

variable {S : Sig} {α β : Type}

namespace Coro

/-- Some run of the coroutine ends with `o`. -/
def Ends : Coro S α → Outcome S.Exc α → Prop
  | done o', o => o = o'
  | emit _ next, o => next.Ends o
  | await _ next, o => ∃ r, (next r).Ends o

/-- Some run of the coroutine returns `a`. -/
def Returns (c : Coro S α) (a : α) : Prop := c.Ends (.ret a)

/-- Some run of the coroutine awaits `k`. -/
def Calls (k : S.Call) : Coro S α → Prop
  | done _ => False
  | emit _ next => next.Calls k
  | await c next => k = c ∨ ∃ r, (next r).Calls k

end Coro

theorem ends_iff_runs {c : Coro S α} {o : Outcome S.Exc α} : c.Ends o ↔ ∃ t, Runs c t o := by
  induction c with
  | done o' =>
    constructor
    · rintro rfl
      exact ⟨[], .done _⟩
    · rintro ⟨t, h⟩
      exact (runs_done.mp h).2
  | emit e next ih =>
    constructor
    · intro h
      obtain ⟨t, ht⟩ := ih.mp h
      exact ⟨_, .emit ht⟩
    · rintro ⟨t, h⟩
      obtain ⟨t', -, hnext⟩ := runs_emit.mp h
      exact ih.mpr ⟨t', hnext⟩
  | await c next ih =>
    constructor
    · rintro ⟨r, h⟩
      obtain ⟨t, ht⟩ := (ih r).mp h
      exact ⟨_, .await r ht⟩
    · rintro ⟨t, h⟩
      obtain ⟨r, t', -, hnext⟩ := runs_await.mp h
      exact ⟨r, (ih r).mpr ⟨t', hnext⟩⟩

/-- Every coroutine has a complete run: each awaited call can at least be cancelled. -/
theorem exists_runs (c : Coro S α) : ∃ t o, Runs c t o :=
  ⟨_, _, runs_runWith (fun _ => .cancelled) c⟩

theorem calls_iff_runs {c : Coro S α} {k : S.Call} :
    c.Calls k ↔ ∃ t o r, Runs c t o ∧ .called k r ∈ t := by
  induction c with
  | done o' =>
    constructor
    · exact False.elim
    · rintro ⟨t, o, r, h, hmem⟩
      rw [(runs_done.mp h).1] at hmem
      exact absurd hmem List.not_mem_nil
  | emit e next ih =>
    constructor
    · intro h
      obtain ⟨t, o, r, ht, hmem⟩ := ih.mp h
      exact ⟨_, o, r, .emit ht, .tail _ hmem⟩
    · rintro ⟨t, o, r, h, hmem⟩
      obtain ⟨t', rfl, hnext⟩ := runs_emit.mp h
      obtain hhead | htail := List.mem_cons.mp hmem
      · cases hhead
      · exact ih.mpr ⟨t', o, r, hnext, htail⟩
  | await c next ih =>
    constructor
    · rintro (rfl | ⟨r, h⟩)
      · obtain ⟨t, o, ht⟩ := exists_runs (next .cancelled)
        exact ⟨_, o, .cancelled, .await _ ht, .head _⟩
      · obtain ⟨t, o, r', ht, hmem⟩ := (ih r).mp h
        exact ⟨_, o, r', .await r ht, .tail _ hmem⟩
    · rintro ⟨t, o, r, h, hmem⟩
      obtain ⟨r', t', rfl, hnext⟩ := runs_await.mp h
      obtain hhead | htail := List.mem_cons.mp hmem
      · cases hhead
        exact .inl rfl
      · exact .inr ⟨r', (ih r').mpr ⟨t', o, r, hnext, htail⟩⟩

/-! ## Rules -/

@[simp] theorem returns_done {o : Outcome S.Exc α} {a : α} :
    (done o : Coro S α).Returns a ↔ o = .ret a := eq_comm

@[simp] theorem returns_raise {e : S.Exc} {a : α} : ¬ (raise e : Coro S α).Returns a := nofun

@[simp] theorem calls_done {o : Outcome S.Exc α} {k : S.Call} :
    ¬ (done o : Coro S α).Calls k := id

theorem ends_andThen {c : Coro S α} {f : Outcome S.Exc α → Coro S β} {o : Outcome S.Exc β} :
    (c.andThen f).Ends o ↔ ∃ o', c.Ends o' ∧ (f o').Ends o := by
  induction c with
  | done o' => exact ⟨fun h => ⟨o', rfl, h⟩, fun ⟨_, heq, h⟩ => heq ▸ h⟩
  | emit e next ih => exact ih
  | await c next ih =>
    constructor
    · rintro ⟨r, h⟩
      obtain ⟨o', ho', hf⟩ := (ih r).mp h
      exact ⟨o', ⟨r, ho'⟩, hf⟩
    · rintro ⟨o', ⟨r, ho'⟩, hf⟩
      exact ⟨r, (ih r).mpr ⟨o', ho', hf⟩⟩

theorem calls_andThen {c : Coro S α} {f : Outcome S.Exc α → Coro S β} {k : S.Call} :
    (c.andThen f).Calls k ↔ c.Calls k ∨ ∃ o, c.Ends o ∧ (f o).Calls k := by
  induction c with
  | done o' =>
    constructor
    · intro h
      exact .inr ⟨o', rfl, h⟩
    · rintro (h | ⟨_, rfl, h⟩)
      · exact h.elim
      · exact h
  | emit e next ih => exact ih
  | await c next ih =>
    constructor
    · rintro (rfl | ⟨r, h⟩)
      · exact .inl (.inl rfl)
      · obtain hc | ⟨o, ho, hf⟩ := (ih r).mp h
        · exact .inl (.inr ⟨r, hc⟩)
        · exact .inr ⟨o, ⟨r, ho⟩, hf⟩
    · rintro ((rfl | ⟨r, hc⟩) | ⟨o, ⟨r, ho⟩, hf⟩)
      · exact .inl rfl
      · exact .inr ⟨r, (ih r).mpr (.inl hc)⟩
      · exact .inr ⟨r, (ih r).mpr (.inr ⟨o, ho, hf⟩)⟩

@[simp] theorem returns_call {c : S.Call} {a : S.Res c} :
    (call c : Coro S (S.Res c)).Returns a :=
  ⟨.ret a, rfl⟩

@[simp] theorem calls_call {c k : S.Call} : (call c : Coro S (S.Res c)).Calls k ↔ k = c := by
  constructor
  · rintro (h | ⟨_, h⟩)
    · exact h
    · exact h.elim
  · exact .inl

@[simp] theorem returns_ofExcept {e : Except S.Exc α} {a : α} :
    (ofExcept e : Coro S α).Returns a ↔ e = .ok a := by
  cases e with
  | ok b => rw [Coro.ofExcept, returns_done, Outcome.ret.injEq, Except.ok.injEq]
  | error e => simp [Coro.ofExcept]

@[simp] theorem calls_ofExcept {e : Except S.Exc α} {k : S.Call} :
    ¬ (ofExcept e : Coro S α).Calls k := by
  cases e <;> exact id

@[simp] theorem returns_bind {c : Coro S α} {f : α → Coro S β} {b : β} :
    (c.bind f).Returns b ↔ ∃ a, c.Returns a ∧ (f a).Returns b := by
  unfold Coro.bind Returns
  rw [ends_andThen]
  constructor
  · rintro ⟨o, ho, hf⟩
    cases o with
    | ret a => exact ⟨a, ho, hf⟩
    | raised e => cases hf
    | cancelled => cases hf
  · rintro ⟨a, ha, hf⟩
    exact ⟨.ret a, ha, hf⟩

@[simp] theorem calls_bind {c : Coro S α} {f : α → Coro S β} {k : S.Call} :
    (c.bind f).Calls k ↔ c.Calls k ∨ ∃ a, c.Returns a ∧ (f a).Calls k := by
  unfold Coro.bind
  rw [calls_andThen]
  refine or_congr_right ⟨?_, ?_⟩
  · rintro ⟨o, ho, hf⟩
    cases o with
    | ret a => exact ⟨a, ho, hf⟩
    | raised e => exact absurd hf calls_done
    | cancelled => exact absurd hf calls_done
  · rintro ⟨a, ha, hf⟩
    exact ⟨.ret a, ha, hf⟩

theorem calls_ofExcept_bind {e : Except S.Exc α} {f : α → Coro S β} {k : S.Call} :
    ((Coro.ofExcept e).bind f).Calls k ↔ ∃ a, e = .ok a ∧ (f a).Calls k := by
  simp only [calls_bind, calls_ofExcept, false_or, returns_ofExcept]

/-- A `try` whose handlers raise returns through its `else` part only. -/
theorem returns_tryElse {body : Coro S α} {handler : S.Exc → Coro S β} {next : α → Coro S β}
    {b : β} (hraise : ∀ e, ¬ (handler e).Returns b) :
    (tryElse body handler next).Returns b ↔ ∃ a, body.Returns a ∧ (next a).Returns b := by
  unfold tryElse Returns
  rw [ends_andThen]
  constructor
  · rintro ⟨o, ho, hf⟩
    cases o with
    | ret a => exact ⟨a, ho, hf⟩
    | raised e => exact absurd hf (hraise e)
    | cancelled => cases hf
  · rintro ⟨a, ha, hf⟩
    exact ⟨.ret a, ha, hf⟩

/-- A `try` whose handlers call nothing calls what its body and its `else` part call. -/
theorem calls_tryElse {body : Coro S α} {handler : S.Exc → Coro S β} {next : α → Coro S β}
    {k : S.Call} (hquiet : ∀ e, ¬ (handler e).Calls k) :
    (tryElse body handler next).Calls k ↔
      body.Calls k ∨ ∃ a, body.Returns a ∧ (next a).Calls k := by
  unfold tryElse
  rw [calls_andThen]
  refine or_congr_right ⟨?_, ?_⟩
  · rintro ⟨o, ho, hf⟩
    cases o with
    | ret a => exact ⟨a, ho, hf⟩
    | raised e => exact absurd hf (hquiet e)
    | cancelled => exact absurd hf calls_done
  · rintro ⟨a, ha, hf⟩
    exact ⟨.ret a, ha, hf⟩

theorem returns_forEach {f : α → Coro S β} {items : List α} {bs : List β} :
    (forEach f items).Returns bs ↔ List.Forall₂ (fun a b => (f a).Returns b) items bs := by
  induction items generalizing bs with
  | nil =>
    rw [List.forall₂_nil_left_iff, forEach, returns_done, Outcome.ret.injEq, eq_comm]
  | cons a items ih =>
    rw [forEach, returns_bind, List.forall₂_cons_left_iff]
    constructor
    · rintro ⟨b, hb, hrest⟩
      obtain ⟨bs', hbs', hdone⟩ := returns_bind.mp hrest
      rw [returns_done, Outcome.ret.injEq] at hdone
      exact ⟨b, bs', hb, ih.mp hbs', hdone.symm⟩
    · rintro ⟨b, bs', hb, hbs', rfl⟩
      exact ⟨b, hb, returns_bind.mpr ⟨bs', ih.mpr hbs', rfl⟩⟩

theorem forall₂_comp {γ : Type} {R : α → β → Prop} {Q : β → γ → Prop} {l : List α}
    {n : List γ} :
    (∃ m, List.Forall₂ R l m ∧ List.Forall₂ Q m n) ↔
      List.Forall₂ (fun a c => ∃ b, R a b ∧ Q b c) l n := by
  constructor
  · rintro ⟨m, hl, hn⟩
    induction hl generalizing n with
    | nil =>
      rw [List.forall₂_nil_left_iff.mp hn]
      exact .nil
    | cons hab _ ih =>
      obtain ⟨c, n', hbc, hn', rfl⟩ := List.forall₂_cons_left_iff.mp hn
      exact .cons ⟨_, hab, hbc⟩ (ih hn')
  · intro h
    induction h with
    | nil => exact ⟨[], .nil, .nil⟩
    | cons hac _ ih =>
      obtain ⟨b, hab, hbc⟩ := hac
      obtain ⟨m, hl, hn⟩ := ih
      exact ⟨b :: m, .cons hab hl, .cons hbc hn⟩

/-! ## Coroutines that keep to some calls -/

namespace Coro

/-- Whatever the coroutine awaits satisfies `P`. -/
def Within (P : S.Call → Prop) (c : Coro S α) : Prop := ∀ k, c.Calls k → P k

end Coro

section Within

variable {P : S.Call → Prop}

theorem within_done {o : Outcome S.Exc α} : (done o : Coro S α).Within P :=
  fun _ h => absurd h calls_done

theorem within_call {c : S.Call} (h : P c) : (call c : Coro S (S.Res c)).Within P := by
  intro k hk
  rw [calls_call.mp hk]
  exact h

theorem within_ofExcept {e : Except S.Exc α} : (ofExcept e : Coro S α).Within P :=
  fun _ h => absurd h calls_ofExcept

theorem within_andThen {c : Coro S α} {f : Outcome S.Exc α → Coro S β} (hc : c.Within P)
    (hf : ∀ o, (f o).Within P) : (c.andThen f).Within P := by
  intro k hk
  obtain h | ⟨o, -, h⟩ := calls_andThen.mp hk
  · exact hc k h
  · exact hf o k h

theorem within_bind {c : Coro S α} {f : α → Coro S β} (hc : c.Within P)
    (hf : ∀ a, (f a).Within P) : (c.bind f).Within P := by
  refine within_andThen hc fun o => ?_
  cases o with
  | ret a => exact hf a
  | raised e => exact within_done
  | cancelled => exact within_done

theorem within_tryElse {body : Coro S α} {handler : S.Exc → Coro S β} {next : α → Coro S β}
    (hbody : body.Within P) (hhandler : ∀ e, (handler e).Within P) (hnext : ∀ a, (next a).Within P) :
    (tryElse body handler next).Within P := by
  refine within_andThen hbody fun o => ?_
  cases o with
  | ret a => exact hnext a
  | raised e => exact hhandler e
  | cancelled => exact within_done

theorem within_act {e : S.Eff} : (act e : Coro S Unit).Within P := fun _ h => h.elim

theorem within_swallow {c : Coro S α} (hc : c.Within P) : (swallow c).Within P :=
  within_andThen hc fun _ => within_done

theorem within_tryFinally {body : Coro S α} {last : Coro S Unit} (hbody : body.Within P)
    (hlast : last.Within P) : (tryFinally body last).Within P :=
  within_andThen hbody fun _ => within_bind hlast fun _ => within_done

theorem within_tryCancel {body : Coro S α} {onCancel : Coro S Unit} {handler : S.Exc → Coro S α}
    (hbody : body.Within P) (hcancel : onCancel.Within P) (hhandler : ∀ e, (handler e).Within P) :
    (tryCancel body onCancel handler).Within P := by
  refine within_andThen hbody fun o => ?_
  cases o with
  | ret a => exact within_done
  | raised e => exact hhandler e
  | cancelled => exact within_bind hcancel fun _ => within_done

theorem within_forEach {f : α → Coro S β} {items : List α} (hf : ∀ a, (f a).Within P) :
    (forEach f items).Within P := by
  induction items with
  | nil => exact within_done
  | cons a items ih => exact within_bind (hf a) fun b => within_bind ih fun bs => within_done

end Within

end Asyncio
