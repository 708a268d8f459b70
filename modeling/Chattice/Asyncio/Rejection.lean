import Chattice.Asyncio.Calls

/-!
# Rejections and effects

A coroutine may refuse a request by an exception of its own. A `Policy` says which awaited calls
take effect outside, which exceptions are refusals, and which entries of a trace an exception may
come from instead. A run is local when its trace has no such entry.

* `Rejects` : some local run ends with a refusal;
* `Harmless` : a local run that ends with a refusal has taken no effect;
* `harmless_bind` : what a quiet first part leaves to the rest;
* `harmless_after` : a first part that takes effects and never refuses by itself is harmless exactly
  when, after it has taken one, the rest never refuses.
-/

namespace Asyncio

open Coro

/-- What counts as an effect, as a refusal, and as a foreign cause of one. -/
structure Policy (S : Sig) where
  effect : S.Call → Bool
  refusal : S.Exc → Bool
  foreign : Event S → Bool

variable {S : Sig} {α β γ : Type}

/-! ## Runs of a sequence -/

theorem runs_bind {c : Coro S α} {f : α → Coro S β} {t : List (Event S)} {o : Outcome S.Exc β} :
    Runs (c.bind f) t o ↔
      (∃ t₁ a t₂, Runs c t₁ (.ret a) ∧ Runs (f a) t₂ o ∧ t = t₁ ++ t₂) ∨
      (∃ e, Runs c t (.raised e) ∧ o = .raised e) ∨ (Runs c t .cancelled ∧ o = .cancelled) := by
  rw [Coro.bind, runs_andThen]
  constructor
  · rintro ⟨t₁, o₁, t₂, h₁, h₂, rfl⟩
    cases o₁ with
    | ret a => exact .inl ⟨t₁, a, t₂, h₁, h₂, rfl⟩
    | raised e =>
      obtain ⟨rfl, rfl⟩ := runs_done.mp h₂
      rw [List.append_nil]
      exact .inr (.inl ⟨e, h₁, rfl⟩)
    | cancelled =>
      obtain ⟨rfl, rfl⟩ := runs_done.mp h₂
      rw [List.append_nil]
      exact .inr (.inr ⟨h₁, rfl⟩)
  · rintro (⟨t₁, a, t₂, h₁, h₂, rfl⟩ | ⟨e, h, rfl⟩ | ⟨h, rfl⟩)
    · exact ⟨t₁, .ret a, t₂, h₁, h₂, rfl⟩
    · exact ⟨t, .raised e, [], h, .done _, (List.append_nil t).symm⟩
    · exact ⟨t, .cancelled, [], h, .done _, (List.append_nil t).symm⟩

theorem runs_bind_ret {c : Coro S α} {f : α → Coro S β} {t : List (Event S)} {b : β} :
    Runs (c.bind f) t (.ret b) ↔
      ∃ t₁ a t₂, Runs c t₁ (.ret a) ∧ Runs (f a) t₂ (.ret b) ∧ t = t₁ ++ t₂ := by
  rw [runs_bind]
  refine or_iff_left ?_
  rintro (⟨e, -, h⟩ | ⟨-, h⟩)
  · cases h
  · cases h

namespace Policy

variable (p : Policy S)

def Local (t : List (Event S)) : Prop := ∀ event ∈ t, p.foreign event = false

def Touched (t : List (Event S)) : Prop := ∃ k r, Event.called k r ∈ t ∧ p.effect k = true

def Rejects (c : Coro S α) : Prop :=
  ∃ t e, Runs c t (.raised e) ∧ p.Local t ∧ p.refusal e = true

/-- A local run that refuses has taken no effect. -/
def Harmless (c : Coro S α) : Prop :=
  ∀ t e, Runs c t (.raised e) → p.Local t → p.refusal e = true → ¬ p.Touched t

/-- The coroutine takes no effect, and a run that returns is local. -/
def Quiet (c : Coro S α) : Prop :=
  ∀ t o, Runs c t o → ¬ p.Touched t ∧ ∀ a, o = .ret a → p.Local t

/-- A run that returns is local, and no local run refuses. -/
def Willing (c : Coro S α) : Prop :=
  (∀ t a, Runs c t (.ret a) → p.Local t) ∧ ¬ p.Rejects c

/-- Once a local run has taken an effect it neither returns nor refuses. -/
def Final (c : Coro S α) : Prop :=
  ∀ t o, Runs c t o → p.Local t → p.Touched t →
    (∀ a, o ≠ .ret a) ∧ ∀ e, o = .raised e → p.refusal e = false

variable {p}

theorem local_append {t₁ t₂ : List (Event S)} : p.Local (t₁ ++ t₂) ↔ p.Local t₁ ∧ p.Local t₂ := by
  unfold Local
  simp only [List.mem_append, or_imp, forall_and]

theorem touched_append {t₁ t₂ : List (Event S)} :
    p.Touched (t₁ ++ t₂) ↔ p.Touched t₁ ∨ p.Touched t₂ := by
  unfold Touched
  simp only [List.mem_append, or_and_right, exists_or]

theorem local_nil : p.Local [] := List.forall_mem_nil _

theorem not_touched_nil : ¬ p.Touched [] := by
  rintro ⟨k, r, hmem, -⟩
  exact List.not_mem_nil hmem

/-! ## Quiet parts -/

theorem quiet_done {o : Outcome S.Exc α} : p.Quiet (done o : Coro S α) := by
  intro t o' h
  obtain ⟨rfl, rfl⟩ := runs_done.mp h
  exact ⟨not_touched_nil, fun _ _ => local_nil⟩

theorem quiet_ofExcept {e : Except S.Exc α} : p.Quiet (ofExcept e : Coro S α) := by
  cases e <;> exact quiet_done

theorem quiet_call {k : S.Call} (hk : p.effect k = false)
    (hr : ∀ a, p.foreign (.called k (.ret a)) = false) :
    p.Quiet (call k : Coro S (S.Res k)) := by
  intro t o h
  obtain ⟨r, t', rfl, hdone⟩ := runs_await.mp h
  obtain ⟨rfl, rfl⟩ := runs_done.mp hdone
  constructor
  · rintro ⟨k', r', hmem, heffect⟩
    cases List.mem_singleton.mp hmem
    rw [hk] at heffect
    cases heffect
  · rintro a rfl event hevent
    rw [List.mem_singleton.mp hevent]
    exact hr a

theorem quiet_bind {c : Coro S α} {f : α → Coro S β} (hc : p.Quiet c) (hf : ∀ a, p.Quiet (f a)) :
    p.Quiet (c.bind f) := by
  intro t o h
  obtain ⟨t₁, a, t₂, h₁, h₂, rfl⟩ | ⟨e, h', rfl⟩ | ⟨h', rfl⟩ := runs_bind.mp h
  · have hfirst := hc t₁ (.ret a) h₁
    have hsecond := hf a t₂ o h₂
    refine ⟨fun htouched => ?_, fun b hb => local_append.mpr ⟨hfirst.2 a rfl, hsecond.2 b hb⟩⟩
    exact (touched_append.mp htouched).elim hfirst.1 hsecond.1
  · exact ⟨(hc t _ h').1, nofun⟩
  · exact ⟨(hc t _ h').1, nofun⟩

theorem quiet_tryElse {body : Coro S α} {handler : S.Exc → Coro S β} {next : α → Coro S β}
    (hbody : p.Quiet body) (hhandler : ∀ e, ∃ e', handler e = raise e')
    (hnext : ∀ a, p.Quiet (next a)) : p.Quiet (tryElse body handler next) := by
  intro t o h
  obtain ⟨t₁, o₁, t₂, h₁, h₂, rfl⟩ := runs_andThen.mp h
  have hfirst := hbody t₁ o₁ h₁
  cases o₁ with
  | ret a =>
    have hsecond := hnext a t₂ o h₂
    refine ⟨fun htouched => ?_, fun b hb => local_append.mpr ⟨hfirst.2 a rfl, hsecond.2 b hb⟩⟩
    exact (touched_append.mp htouched).elim hfirst.1 hsecond.1
  | raised e =>
    obtain ⟨e', he'⟩ := hhandler e
    simp only [he'] at h₂
    obtain ⟨rfl, rfl⟩ := runs_done.mp h₂
    rw [List.append_nil]
    exact ⟨hfirst.1, nofun⟩
  | cancelled =>
    obtain ⟨rfl, rfl⟩ := runs_done.mp h₂
    rw [List.append_nil]
    exact ⟨hfirst.1, nofun⟩

theorem quiet_forEach {f : α → Coro S β} {items : List α} (hf : ∀ a, p.Quiet (f a)) :
    p.Quiet (forEach f items) := by
  induction items with
  | nil => exact quiet_done
  | cons a items ih => exact quiet_bind (hf a) fun b => quiet_bind ih fun bs => quiet_done

theorem Quiet.within {c : Coro S α} (h : p.Quiet c) : c.Within fun k => p.effect k = false := by
  intro k hk
  obtain ⟨t, o, r, hrun, hmem⟩ := calls_iff_runs.mp hk
  by_contra heffect
  exact (h t o hrun).1 ⟨k, r, hmem, eq_true_of_ne_false heffect⟩

theorem returns_iff_runs {c : Coro S α} {a : α} : c.Returns a ↔ ∃ t, Runs c t (.ret a) :=
  ends_iff_runs

/-! ## Sequences -/

theorem harmless_bind {c : Coro S α} {f : α → Coro S β} (hc : p.Quiet c) :
    p.Harmless (c.bind f) ↔ ∀ a, c.Returns a → p.Harmless (f a) := by
  constructor
  · intro h a ha t e hrun hlocal he htouched
    obtain ⟨t₁, h₁⟩ := returns_iff_runs.mp ha
    refine h (t₁ ++ t) e (runs_bind.mpr (.inl ⟨t₁, a, t, h₁, hrun, rfl⟩)) ?_ he ?_
    · exact local_append.mpr ⟨(hc t₁ _ h₁).2 a rfl, hlocal⟩
    · exact touched_append.mpr (.inr htouched)
  · intro h t e hrun hlocal he
    obtain ⟨t₁, a, t₂, h₁, h₂, rfl⟩ | ⟨e', h', -⟩ | ⟨h', -⟩ := runs_bind.mp hrun
    · intro htouched
      have hrest := h a (returns_iff_runs.mpr ⟨t₁, h₁⟩) t₂ e h₂ (local_append.mp hlocal).2 he
      exact (touched_append.mp htouched).elim (hc t₁ _ h₁).1 hrest
    · exact (hc t _ h').1
    · exact (hc t _ h').1

theorem rejects_bind {c : Coro S α} {f : α → Coro S β} (hc : p.Quiet c) :
    p.Rejects (c.bind f) ↔ p.Rejects c ∨ ∃ a, c.Returns a ∧ p.Rejects (f a) := by
  constructor
  · rintro ⟨t, e, hrun, hlocal, he⟩
    obtain ⟨t₁, a, t₂, h₁, h₂, rfl⟩ | ⟨e', h', heq⟩ | ⟨-, heq⟩ := runs_bind.mp hrun
    · exact .inr ⟨a, returns_iff_runs.mpr ⟨t₁, h₁⟩, t₂, e, h₂, (local_append.mp hlocal).2, he⟩
    · cases heq
      exact .inl ⟨t, e, h', hlocal, he⟩
    · cases heq
  · rintro (⟨t, e, h', hlocal, he⟩ | ⟨a, ha, t₂, e, h₂, hlocal, he⟩)
    · exact ⟨t, e, runs_bind.mpr (.inr (.inl ⟨e, h', rfl⟩)), hlocal, he⟩
    · obtain ⟨t₁, h₁⟩ := returns_iff_runs.mp ha
      refine ⟨t₁ ++ t₂, e, runs_bind.mpr (.inl ⟨t₁, a, t₂, h₁, h₂, rfl⟩), ?_, he⟩
      exact local_append.mpr ⟨(hc t₁ _ h₁).2 a rfl, hlocal⟩

theorem rejects_ofExcept {e : Except S.Exc α} :
    p.Rejects (ofExcept e : Coro S α) ↔ ∃ error, e = .error error ∧ p.refusal error = true := by
  cases e with
  | ok a =>
    constructor
    · rintro ⟨t, error, h, -⟩
      cases (runs_done.mp h).2
    · rintro ⟨error, h, -⟩
      cases h
  | error error =>
    constructor
    · rintro ⟨t, error', h, -, hrefusal⟩
      cases (runs_done.mp h).2
      exact ⟨error, rfl, hrefusal⟩
    · rintro ⟨error', h, hrefusal⟩
      cases h
      exact ⟨[], error, .done _, local_nil, hrefusal⟩

/-- A sequence whose first part takes effects without ever refusing, and whose rest is final, is
harmless when the rest never refuses after an effect. -/
theorem harmless_after {c : Coro S α} {f : α → Coro S β} (hc : p.Willing c)
    (hf : ∀ a, p.Final (f a)) :
    p.Harmless (c.bind f) ↔
      ∀ a t, Runs c t (.ret a) → p.Touched t → ¬ p.Rejects (f a) := by
  constructor
  · rintro h a t₁ h₁ htouched ⟨t₂, e, h₂, hlocal, he⟩
    refine h (t₁ ++ t₂) e (runs_bind.mpr (.inl ⟨t₁, a, t₂, h₁, h₂, rfl⟩)) ?_ he ?_
    · exact local_append.mpr ⟨hc.1 t₁ a h₁, hlocal⟩
    · exact touched_append.mpr (.inl htouched)
  · intro h t e hrun hlocal he htouched
    obtain ⟨t₁, a, t₂, h₁, h₂, rfl⟩ | ⟨e', h', heq⟩ | ⟨-, heq⟩ := runs_bind.mp hrun
    · obtain hfirst | hsecond := touched_append.mp htouched
      · exact h a t₁ h₁ hfirst ⟨t₂, e, h₂, (local_append.mp hlocal).2, he⟩
      · have hrefusal := (hf a t₂ _ h₂ (local_append.mp hlocal).2 hsecond).2 e rfl
        rw [he] at hrefusal
        cases hrefusal
    · cases heq
      exact hc.2 ⟨t, e, h', hlocal, he⟩
    · cases heq

/-! ## Final parts -/

theorem Quiet.final {c : Coro S α} (h : p.Quiet c) : p.Final c :=
  fun t o hrun _ htouched => absurd htouched (h t o hrun).1

theorem final_bind {c : Coro S α} {f : α → Coro S β} (hc : p.Final c) (hf : ∀ a, p.Final (f a)) :
    p.Final (c.bind f) := by
  intro t o h hlocal htouched
  obtain ⟨t₁, a, t₂, h₁, h₂, rfl⟩ | ⟨e, h', rfl⟩ | ⟨h', rfl⟩ := runs_bind.mp h
  · obtain ⟨hfirst, hsecond⟩ := local_append.mp hlocal
    obtain h | h := touched_append.mp htouched
    · exact absurd rfl ((hc t₁ _ h₁ hfirst h).1 a)
    · exact hf a t₂ o h₂ hsecond h
  · refine ⟨nofun, fun e' heq => ?_⟩
    cases heq
    exact (hc t _ h' hlocal htouched).2 e rfl
  · exact ⟨nofun, nofun⟩

theorem final_forEach {f : α → Coro S β} {items : List α} (hf : ∀ a, p.Final (f a)) :
    p.Final (forEach f items) := by
  induction items with
  | nil => exact quiet_done.final
  | cons a items ih => exact final_bind (hf a) fun b => final_bind ih fun bs => quiet_done.final

/-! ## Willing parts -/

theorem willing_bind {c : Coro S α} {f : α → Coro S β} (hc : p.Willing c)
    (hf : ∀ a, p.Willing (f a)) : p.Willing (c.bind f) := by
  constructor
  · intro t b h
    obtain ⟨t₁, a, t₂, h₁, h₂, rfl⟩ | ⟨e, -, heq⟩ | ⟨-, heq⟩ := runs_bind.mp h
    · exact local_append.mpr ⟨hc.1 t₁ a h₁, (hf a).1 t₂ b h₂⟩
    · cases heq
    · cases heq
  · rintro ⟨t, e, h, hlocal, he⟩
    obtain ⟨t₁, a, t₂, h₁, h₂, rfl⟩ | ⟨e', h', heq⟩ | ⟨-, heq⟩ := runs_bind.mp h
    · exact (hf a).2 ⟨t₂, e, h₂, (local_append.mp hlocal).2, he⟩
    · cases heq
      exact hc.2 ⟨t, e, h', hlocal, he⟩
    · cases heq

theorem willing_ret {a : α} : p.Willing (done (.ret a) : Coro S α) := by
  constructor
  · intro t b h
    obtain ⟨rfl, -⟩ := runs_done.mp h
    exact local_nil
  · rintro ⟨t, e, h, -⟩
    cases (runs_done.mp h).2

theorem willing_raise {e : S.Exc} (he : p.refusal e = false) : p.Willing (raise e : Coro S α) := by
  constructor
  · intro t a h
    cases (runs_done.mp h).2
  · rintro ⟨t, e', h, -, hrefusal⟩
    cases (runs_done.mp h).2
    rw [he] at hrefusal
    cases hrefusal

theorem willing_ofExcept {e : Except S.Exc α} (he : ∀ error, e = .error error → p.refusal error = false) :
    p.Willing (ofExcept e : Coro S α) := by
  cases e with
  | ok a => exact willing_ret
  | error error => exact willing_raise (he error rfl)

theorem willing_tryElse {body : Coro S α} {handler : S.Exc → Coro S β} {next : α → Coro S β}
    (hbody : ∀ t a, Runs body t (.ret a) → p.Local t)
    (hhandler : ∀ e, ∃ e', handler e = raise e')
    (hrefusal : ∀ t e e', Runs body t (.raised e) → p.Local t → handler e = raise e' →
      p.refusal e' = false)
    (hnext : ∀ a, p.Willing (next a)) : p.Willing (tryElse body handler next) := by
  constructor
  · intro t b h
    obtain ⟨t₁, o₁, t₂, h₁, h₂, rfl⟩ := runs_andThen.mp h
    cases o₁ with
    | ret a => exact local_append.mpr ⟨hbody t₁ a h₁, (hnext a).1 t₂ b h₂⟩
    | raised e =>
      obtain ⟨e', he'⟩ := hhandler e
      simp only [he'] at h₂
      cases (runs_done.mp h₂).2
    | cancelled => cases (runs_done.mp h₂).2
  · rintro ⟨t, e, h, hlocal, he⟩
    obtain ⟨t₁, o₁, t₂, h₁, h₂, rfl⟩ := runs_andThen.mp h
    obtain ⟨hfirst, hsecond⟩ := local_append.mp hlocal
    cases o₁ with
    | ret a => exact (hnext a).2 ⟨t₂, e, h₂, hsecond, he⟩
    | raised e₁ =>
      obtain ⟨e', he'⟩ := hhandler e₁
      have hquiet := hrefusal t₁ e₁ e' h₁ hfirst he'
      simp only [he'] at h₂
      cases (runs_done.mp h₂).2
      rw [hquiet] at he
      cases he
    | cancelled => cases (runs_done.mp h₂).2

theorem willing_forEach {f : α → Coro S β} {items : List α} (hf : ∀ a, p.Willing (f a)) :
    p.Willing (forEach f items) := by
  induction items with
  | nil => exact willing_ret
  | cons a items ih => exact willing_bind (hf a) fun b => willing_bind ih fun bs => willing_ret

end Policy

end Asyncio
