import Chattice.Asyncio.Jobs
import Chattice.Idempotency.Memory

/-!
# Who holds a key

The tasks of a loop claim keys of one `MemoryIdempotencyStorage` and settle them, each under its own owner
token. Whatever else they do, two of them win a key and keep it only where a lease has run out.

* `LeaseView` : a loop seen as tasks that share a store;
* `Holds` : the task has won the key, and has not released it;
* `Lapsed` : some claim of the key has found the task's lease expired;
* `LeaseView.lapsed_of_holds` : of two tasks that hold a key, one has lapsed.
-/

namespace Chattice.Idempotency

open Asyncio Asyncio.Coro

variable {S : Sig} {X σ : Type}

/-! ## One entry -/

/-- A claim outlasts every call but its owner's `release` and a claim that finds its lease expired. -/
theorem Call.run_of_held {c : Call} {held : Claim} (hc : c ≠ .release held.owner) :
    (∃ claim, (c.run (some held)).1 = some claim ∧ claim.owner = held.owner) ∨
      ∃ owner leaseSeconds now now', c = .claim owner leaseSeconds now now' ∧ held.completed = false ∧
        held.leaseUntil ≤ now := by
  cases c with
  | claim owner leaseSeconds now now' =>
    by_cases hexpired : held.completed = false ∧ held.leaseUntil ≤ now
    · exact .inr ⟨owner, leaseSeconds, now, now', rfl, hexpired⟩
    · have hprune : pruneExpired now (some held) = some held := if_neg hexpired
      rw [run, Idempotency.claim, hprune]
      exact .inl ⟨held, rfl, rfl⟩
  | complete owner =>
    rw [run, Idempotency.complete]
    split
    · exact .inl ⟨_, rfl, rfl⟩
    · exact .inl ⟨held, rfl, rfl⟩
  | release owner =>
    have hother : held.owner ≠ owner := fun h => hc (by rw [h])
    exact .inl ⟨held, if_neg hother, rfl⟩
  | renew owner leaseSeconds now =>
    rw [run, Idempotency.renew]
    split
    · exact .inl ⟨held, rfl, rfl⟩
    · exact .inl ⟨_, rfl, rfl⟩

theorem claim_first {owner : String} {leaseSeconds now now' : Rat} {entry : Option Claim}
    (h : (claim owner leaseSeconds now now' entry).2 = .first) :
    (claim owner leaseSeconds now now' entry).1 = some ⟨owner, now' + leaseSeconds, false⟩ := by
  unfold claim at h ⊢
  split
  · rfl
  · next claim hclaim =>
    rw [hclaim] at h
    dsimp only at h
    split at h <;> cases h

/-- Whoever has a claim got it, with its lease, from a claim or from a renewal. -/
theorem Call.run_origin {c : Call} {entry : Option Claim} {claim : Claim} (h : (c.run entry).1 = some claim)
    (hrenew : ∀ owner leaseSeconds now, c ≠ .renew owner leaseSeconds now) :
    (∃ old, entry = some old ∧ old.owner = claim.owner ∧ old.leaseUntil = claim.leaseUntil) ∨
      ∃ owner leaseSeconds now now', c = .claim owner leaseSeconds now now' ∧
        claim = ⟨owner, now' + leaseSeconds, false⟩ := by
  cases c with
  | claim owner leaseSeconds now now' =>
    rw [run, Idempotency.claim] at h
    cases hprune : pruneExpired now entry with
    | none =>
      rw [hprune] at h
      exact .inr ⟨owner, leaseSeconds, now, now', rfl, (Option.some_inj.mp h).symm⟩
    | some old =>
      rw [hprune] at h
      obtain rfl : old = claim := Option.some_inj.mp h
      refine .inl ⟨old, ?_, rfl, rfl⟩
      cases entry with
      | none => cases hprune
      | some held =>
        rw [pruneExpired] at hprune
        split at hprune
        · cases hprune
        · exact hprune
  | complete owner =>
    cases entry with
    | none => cases h
    | some held =>
      rw [run, Idempotency.complete] at h
      split at h
      · obtain rfl : { held with completed := true } = claim := Option.some_inj.mp h
        exact .inl ⟨held, rfl, rfl, rfl⟩
      · exact .inl ⟨claim, h, rfl, rfl⟩
  | release owner =>
    cases entry with
    | none => cases h
    | some held =>
      rw [run, Idempotency.release] at h
      split at h
      · cases h
      · exact .inl ⟨claim, h, rfl, rfl⟩
  | renew owner leaseSeconds now => exact absurd rfl (hrenew owner leaseSeconds now)

/-! ## A loop over a store -/

/-- What a task asks of the store. -/
inductive StoreCall where
  | claim (key owner : String) (leaseSeconds : Rat)
  | settle (key owner : String) (completes : Bool)

namespace StoreCall

def owner : StoreCall → String
  | claim _ owner _ | settle _ owner _ => owner

/-- The call that settles a key: `complete` or `release`. -/
def settling (owner : String) (completes : Bool) : Call :=
  if completes then .complete owner else .release owner

end StoreCall

/-- A loop whose tasks share a store. A store method takes effect or, when it raises or is cancelled,
perhaps not; the environment renews leases; every task uses its own owner token. -/
structure LeaseView (Y : System S X σ) where
  claims : σ → Claims
  clock : σ → Rat
  owner : X → String
  call : S.Call → Option StoreCall
  /-- The claim has answered `FIRST`. -/
  First : (c : S.Call) → Outcome S.Exc (S.Res c) → Prop
  act : ∀ e s, claims (Y.world.act e s) = claims s
  env : ∀ s s', Y.Env s s' → claims s' = claims s ∨
    ∃ key owner leaseSeconds now, claims s' = step (claims s) (key, .renew owner leaseSeconds now)
  other : ∀ c s r s', call c = none → Y.world.Answer c s r s' → claims s' = claims s
  claim : ∀ c key owner leaseSeconds s r s', call c = some (.claim key owner leaseSeconds) →
    Y.world.Answer c s r s' → claims s' = claims s ∧ ¬ First c r ∨
      ∃ now, claims s' = step (claims s) (key, .claim owner leaseSeconds (clock s) now) ∧
        (First c r → (Idempotency.claim owner leaseSeconds (clock s) now (claims s key)).2 = .first)
  settle : ∀ c key owner completes s r s', call c = some (.settle key owner completes) →
    Y.world.Answer c s r s' → claims s' = claims s ∨
      claims s' = step (claims s) (key, StoreCall.settling owner completes)
  calls : ∀ x, (Y.body x).Within fun c => ∀ storeCall, call c = some storeCall → storeCall.owner = owner x
  fresh : ∀ p x, Y.Admits p x → ∀ task ∈ p.tasks, owner task.1 ≠ owner x

namespace LeaseView

variable {Y : System S X σ} (V : LeaseView Y)

/-- The task has won the key, and has not released it. -/
def Holds (x : X) (key : String) (log : List (Entry S X σ)) : Prop :=
  (∃ c r pre leaseSeconds, .called x c r pre ∈ log ∧ V.call c = some (.claim key (V.owner x) leaseSeconds) ∧
    V.First c r) ∧
  ∀ c r pre, .called x c r pre ∈ log → V.call c ≠ some (.settle key (V.owner x) false)

/-- Some claim of the key has found the task's lease expired. -/
def Lapsed (x : X) (key : String) (log : List (Entry S X σ)) : Prop :=
  ∃ y c r pre owner leaseSeconds leaseUntil, .called y c r pre ∈ log ∧
    V.call c = some (.claim key owner leaseSeconds) ∧
    V.claims pre key = some ⟨V.owner x, leaseUntil, false⟩ ∧ leaseUntil ≤ V.clock pre

/-- The store has the task's claim, completed or not. -/
def Kept (x : X) (key : String) (s : σ) : Prop := ∃ claim, V.claims s key = some claim ∧ claim.owner = V.owner x

/-- The tasks of a log have distinct owner tokens. -/
def Distinct (log : List (Entry S X σ)) : Prop :=
  ∀ e ∈ log, ∀ e' ∈ log, V.owner e.job = V.owner e'.job → e.job = e'.job

/-- A task that holds a key has its claim in the store, or has lapsed. -/
def Guarded (h : History S X σ) : Prop :=
  V.Distinct h.log → ∀ x key, V.Holds x key h.log → V.Kept x key h.state ∨ V.Lapsed x key h.log

variable {V}

theorem Distinct.mono {log log' : List (Entry S X σ)} (h : V.Distinct log') (hle : log <+: log') :
    V.Distinct log :=
  fun e he e' he' => h e (hle.subset he) e' (hle.subset he')

theorem Lapsed.mono {x : X} {key : String} {log log' : List (Entry S X σ)} (h : V.Lapsed x key log)
    (hle : log <+: log') : V.Lapsed x key log' := by
  obtain ⟨y, c, r, pre, owner, leaseSeconds, leaseUntil, hmem, hlapsed⟩ := h
  exact ⟨y, c, r, pre, owner, leaseSeconds, leaseUntil, hle.subset hmem, hlapsed⟩

theorem Kept.of_eq {x : X} {key : String} {s s' : σ} (h : V.Kept x key s)
    (hs : V.claims s' = V.claims s) : V.Kept x key s' := by
  obtain ⟨claim, hclaim, howner⟩ := h
  exact ⟨claim, (congrFun hs key).trans hclaim, howner⟩

theorem Kept.step {x : X} {key key' : String} {s s' : σ} {c : Call} (h : V.Kept x key s)
    (hs : V.claims s' = step (V.claims s) (key', c)) (hc : key' = key → c ≠ .release (V.owner x)) :
    V.Kept x key s' ∨ key' = key ∧ ∃ owner leaseSeconds now now' leaseUntil,
      c = .claim owner leaseSeconds now now' ∧ V.claims s key = some ⟨V.owner x, leaseUntil, false⟩ ∧
        leaseUntil ≤ now := by
  obtain ⟨held, hheld, howner⟩ := h
  by_cases hkey : key' = key
  · subst hkey
    rw [← howner] at hc
    obtain ⟨claim, hclaim, hsame⟩ | ⟨owner, leaseSeconds, now, now', heq, hcompleted, hexpired⟩ :=
      Call.run_of_held (hc rfl)
    · refine .inl ⟨claim, ?_, hsame.trans howner⟩
      rw [hs, step_self, hheld, hclaim]
    · refine .inr ⟨rfl, owner, leaseSeconds, now, now', held.leaseUntil, heq, ?_, hexpired⟩
      rw [hheld, ← howner, ← hcompleted]
  · refine .inl ⟨held, ?_, howner⟩
    rw [hs, step_of_ne _ hkey]
    exact hheld

theorem Kept.settle {x : X} {key key' owner : String} {completes : Bool} {s s' : σ} (h : V.Kept x key s)
    (hs : V.claims s' = Idempotency.step (V.claims s) (key', StoreCall.settling owner completes))
    (hne : key' = key → completes = false → owner ≠ V.owner x) : V.Kept x key s' := by
  refine (h.step hs fun hkey heq => ?_).resolve_right fun hclaim => ?_
  · cases completes <;> cases heq
    exact hne hkey rfl rfl
  · obtain ⟨-, owner', leaseSeconds, now, now', leaseUntil, heq, -⟩ := hclaim
    cases completes <;> cases heq

theorem Kept.renew {x : X} {key key' owner : String} {leaseSeconds now : Rat} {s s' : σ} (h : V.Kept x key s)
    (hs : V.claims s' = Idempotency.step (V.claims s) (key', .renew owner leaseSeconds now)) :
    V.Kept x key s' := by
  refine (h.step hs fun _ heq => ?_).resolve_right fun hclaim => ?_
  · cases heq
  · obtain ⟨-, owner', leaseSeconds', now₁, now₂, leaseUntil, heq, -⟩ := hclaim
    cases heq

/-- A task that holds a key after an entry has held it before, or has just won it. -/
theorem Holds.of_call {x y : X} {key : String} {c : S.Call} {r : Outcome S.Exc (S.Res c)} {s : σ}
    {h : History S X σ} (hholds : V.Holds x key (h.call y c r s).log) :
    V.Holds x key h.log ∨ y = x ∧ V.First c r ∧
      ∃ leaseSeconds, V.call c = some (.claim key (V.owner x) leaseSeconds) := by
  obtain ⟨⟨c', r', pre, leaseSeconds, hmem, hcall, hfirst⟩, hunreleased⟩ := hholds
  obtain hold | hnew := List.mem_append.mp hmem
  · refine .inl ⟨⟨c', r', pre, leaseSeconds, hold, hcall, hfirst⟩, fun c r pre hmem => ?_⟩
    exact hunreleased c r pre (List.mem_append_left _ hmem)
  · cases List.mem_singleton.mp hnew
    exact .inr ⟨rfl, hfirst, leaseSeconds, hcall⟩

theorem Holds.of_act {x y : X} {key : String} {e : S.Eff} {h : History S X σ}
    (hholds : V.Holds x key (h.act Y.world y e).log) : V.Holds x key h.log := by
  obtain ⟨⟨c', r', pre, leaseSeconds, hmem, hcall, hfirst⟩, hunreleased⟩ := hholds
  refine ⟨⟨c', r', pre, leaseSeconds, ?_, hcall, hfirst⟩, fun c r pre hmem => ?_⟩
  · obtain hold | hnew := List.mem_append.mp hmem
    · exact hold
    · cases List.mem_singleton.mp hnew
  · exact hunreleased c r pre (List.mem_append_left _ hmem)

theorem Guarded.call {y : X} {c : S.Call} {r : Outcome S.Exc (S.Res c)} {s : σ} {h : History S X σ}
    (hG : V.Guarded h) (howner : ∀ storeCall, V.call c = some storeCall → storeCall.owner = V.owner y)
    (ha : Y.world.Answer c h.state r s) : V.Guarded (h.call y c r s) := by
  intro hdistinct x key hholds
  have hle : h.log <+: (h.call y c r s).log := List.prefix_append _ _
  have hentry : Entry.called y c r h.state ∈ (h.call y c r s).log :=
    List.mem_append_right _ (List.mem_singleton.mpr rfl)
  -- the entry is of the task itself, or of one with another token
  have hother (hx : V.Holds x key h.log) : V.owner y = V.owner x → y = x := by
    obtain ⟨⟨c', r', pre, leaseSeconds, hmem, -, -⟩, -⟩ := hx
    exact hdistinct _ hentry _ (hle.subset hmem)
  obtain hold | ⟨rfl, hfirst, leaseSeconds, hcall⟩ := hholds.of_call
  · obtain hkept | hlapsed := hG (hdistinct.mono hle) x key hold
    · cases hcall : V.call c with
      | none => exact .inl (hkept.of_eq (V.other c _ r s hcall ha))
      | some storeCall =>
        have hy := howner storeCall hcall
        cases storeCall with
        | claim key' owner leaseSeconds =>
          obtain ⟨hsame, -⟩ | ⟨now, hstep, -⟩ := V.claim c key' owner leaseSeconds _ r s hcall ha
          · exact .inl (hkept.of_eq hsame)
          · obtain hkept' | ⟨rfl, owner', leaseSeconds', now₁, now₂, leaseUntil, heq, hkept', hexpired⟩ :=
              hkept.step hstep fun _ heq => by cases heq
            · exact .inl hkept'
            · cases heq
              exact .inr ⟨y, c, r, h.state, owner, leaseSeconds, leaseUntil, hentry, hcall, hkept',
                hexpired⟩
        | settle key' owner completes =>
          obtain hsame | hstep := V.settle c key' owner completes _ r s hcall ha
          · exact .inl (hkept.of_eq hsame)
          · refine .inl (hkept.settle hstep fun hkey hrelease hmine => ?_)
            obtain rfl := hother hold (hy.symm.trans hmine)
            rw [hkey, hmine, hrelease] at hcall
            exact hholds.2 c r h.state hentry hcall
    · exact .inr (hlapsed.mono hle)
  · obtain ⟨-, hnot⟩ | ⟨now, hstep, hanswer⟩ := V.claim c key _ leaseSeconds _ r s hcall ha
    · exact absurd hfirst hnot
    · refine .inl ⟨⟨V.owner y, now + leaseSeconds, false⟩, ?_, rfl⟩
      rw [show V.claims (h.call y c r s).state = _ from hstep, step_self]
      exact claim_first (hanswer hfirst)

theorem guarded_invariant (V : LeaseView Y) : Y.Invariant V.Guarded where
  init := by
    intro s hs _ x key hholds
    obtain ⟨⟨c, r, pre, leaseSeconds, hmem, -⟩, -⟩ := hholds
    cases hmem
  env := by
    intro h s hG hs hdistinct x key hholds
    obtain hkept | hlapsed := hG hdistinct x key hholds
    · obtain hsame | ⟨key', owner, leaseSeconds, now, hstep⟩ := V.env _ s hs
      · exact .inl (hkept.of_eq hsame)
      · exact .inl (hkept.renew hstep)
    · exact .inr hlapsed
  body := by
    intro x h hG
    refine wp_of_within (fun e h hG hdistinct x' key hholds => ?_)
      (fun c h r s hP hG ha => hG.call hP ha) (V.calls x) hG
    have hle : h.log <+: (h.act Y.world x e).log := List.prefix_append _ _
    obtain hkept | hlapsed := hG (hdistinct.mono hle) x' key hholds.of_act
    · exact .inl (hkept.of_eq (V.act e h.state))
    · exact .inr (hlapsed.mono hle)

/-- **Main result.** In every run, of two tasks that hold a key one has lapsed. -/
theorem lapsed_of_holds (V : LeaseView Y) {p : Pool S X σ} (hp : Y.Reach p) {x y : X} {key : String}
    (hne : x ≠ y) (hx : V.Holds x key p.hist.log) (hy : V.Holds y key p.hist.log) :
    V.Lapsed x key p.hist.log ∨ V.Lapsed y key p.hist.log := by
  obtain ⟨hnodup, hmade⟩ := hp.distinct V.fresh
  have hdistinct : V.Distinct p.hist.log := fun e he e' he' heq =>
    List.inj_on_of_nodup_map hnodup (hmade e he) (hmade e' he') heq
  have hG := (guarded_invariant V).reach hp hdistinct
  obtain ⟨claim, hkept, hmine⟩ | hlapsed := hG x key hx
  · obtain ⟨claim', hkept', hmine'⟩ | hlapsed' := hG y key hy
    · have howner : V.owner x = V.owner y := by
        rw [hkept] at hkept'
        rw [← hmine, ← hmine', Option.some_inj.mp hkept']
      obtain ⟨⟨c, r, pre, leaseSeconds, hmem, -⟩, -⟩ := hx
      obtain ⟨⟨c', r', pre', leaseSeconds', hmem', -⟩, -⟩ := hy
      exact absurd (hdistinct _ hmem _ hmem' howner) hne
    · exact .inr hlapsed'
  · exact .inl hlapsed

end LeaseView

end Chattice.Idempotency
