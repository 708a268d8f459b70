import Chattice.Idempotency.Leases
import Chattice.Integrations.PushRouter
import Mathlib.Tactic.Linarith

/-!
# One dispatch for each push delivery

The endpoint claims its key for an hour and never renews the claim. Two requests with one dedupe key win
it, and neither releases it, only where one has had it for an hour and not completed it.

* `pushView` : the endpoints as a loop over a store of claims;
* `Claimed` : every claim in the store has been made by a request, at least an hour before it expires;
* `Keeps` : a request that has won its key and has not released it;
* `requests_exclusive` : of two such requests with one key, one has held it for an hour when a claim finds
  it expired.
-/

namespace Chattice.PushRouter

open Asyncio Asyncio.Coro
open Json Pubsub
open Idempotency (Claim ClaimResult Claims LeaseView StoreCall)

variable {Result : Type}

def Call.storeCall : Call → Option StoreCall
  | .claim key owner leaseSeconds => some (.claim key owner leaseSeconds)
  | .complete key owner => some (.settle key owner true)
  | .release key owner => some (.settle key owner false)
  | _ => none

/-- The claim has answered `FIRST`. -/
def Call.First : (c : Call) → Outcome PubsubRunner.Exc (c.Res Result) → Prop
  | .claim .., r => r = .ret ClaimResult.first
  | _, _ => False

/-! ## What a request calls -/

/-- The calls of the store are made with the token of the request, and a claim is for an hour. -/
def Uses (owner : String) (c : Call) : Prop :=
  (∀ storeCall, c.storeCall = some storeCall → storeCall.owner = owner) ∧
    ∀ key owner' leaseSeconds, c = .claim key owner' leaseSeconds → leaseSeconds = 3600

section Within

variable {router : Router} {request : Request} {key : Option String} {owner : String} {event : Event}

theorem uses_of_none {c : Call} (h : c.storeCall = none) : Uses owner c := by
  refine ⟨fun storeCall hcall => ?_, fun key owner' leaseSeconds hc => ?_⟩
  · rw [h] at hcall
    cases hcall
  · subst hc
    cases h

theorem within_awaitCall {c : Call} (h : Uses owner c) :
    (awaitCall c : Coro (sig Result) (c.Res Result)).Within (Uses owner) :=
  within_call h

theorem within_claim : (claim key owner : Coro (sig Result) (Option Nat)).Within (Uses owner) := by
  cases key with
  | none => exact within_done
  | some key =>
    refine within_tryElse (within_awaitCall ⟨?_, ?_⟩) (fun _ => within_done) fun result => ?_
    · intro storeCall hcall
      cases hcall
      rfl
    · intro key' owner' leaseSeconds hc
      cases hc
      rfl
    · cases result <;> exact within_done

theorem within_release : (release key owner : Coro (sig Result) Unit).Within (Uses owner) := by
  cases key with
  | none => exact within_done
  | some key =>
    refine within_tryElse (within_awaitCall ⟨?_, ?_⟩) (fun _ => within_done) fun _ => within_done
    · intro storeCall hcall
      cases hcall
      rfl
    · intro key' owner' leaseSeconds hc
      cases hc

theorem within_complete : (complete key owner : Coro (sig Result) Unit).Within (Uses owner) := by
  cases key with
  | none => exact within_done
  | some key =>
    refine within_tryElse (within_awaitCall ⟨?_, ?_⟩) (fun _ => within_done) fun _ => within_done
    · intro storeCall hcall
      cases hcall
      rfl
    · intro key' owner' leaseSeconds hc
      cases hc

theorem within_dispatch : (dispatch key owner event : Coro (sig Result) Nat).Within (Uses owner) := by
  refine within_bind within_claim fun status => ?_
  cases status with
  | some status => exact within_done
  | none =>
    refine within_tryElse (within_awaitCall (uses_of_none rfl)) (fun _ => ?_) fun _ => ?_
    · exact within_bind within_release fun _ => within_done
    · exact within_bind within_complete fun _ => within_done

theorem within_receive :
    (receive router request : Coro (sig Result) Nat).Within (Uses request.owner) := by
  refine within_bind (within_awaitCall (uses_of_none rfl)) fun body => ?_
  split
  · exact within_done
  · unfold deliver
    split
    · unfold parseError
      split <;> exact within_done
    · exact within_dispatch

theorem within_serve :
    (serve router request : Coro (sig Result) Unit).Within (Uses request.owner) := by
  refine within_bind ?_ fun _ => within_act
  unfold endpoint
  split
  · refine within_bind (within_awaitCall (uses_of_none rfl)) fun verified => ?_
    cases verified with
    | true => exact within_receive
    | false => exact within_done
  · exact within_receive

end Within

/-! ## The runs -/

/-- The endpoints over their store. -/
def pushView (Result : Type) (router : Router) : LeaseView (pushSystem Result router) where
  claims := Shared.claims
  clock := Shared.clock
  owner := Request.owner
  call := Call.storeCall
  First := Call.First
  act := fun _ _ => rfl
  env := by
    intro s s' h
    cases h with
    | tick h => exact .inl rfl
  other := by
    intro c s r s' hcall ha
    cases c with
    | verify => exact congrArg Shared.claims ha
    | body request => exact congrArg Shared.claims ha.2
    | claim key owner leaseSeconds => cases hcall
    | feedUpdate event => exact congrArg Shared.claims ha
    | release key owner => cases hcall
    | complete key owner => cases hcall
  claim := by
    intro c key owner leaseSeconds s r s' hcall ha
    cases c <;> cases hcall
    obtain ⟨now, -, hstorage, -⟩ := ha
    obtain ⟨hs, hnot⟩ | ⟨hs, hanswer⟩ := PubsubRunner.storageAnswer_ret_or hstorage
    · exact .inl ⟨hs, hnot _⟩
    · exact .inr ⟨now, hs, hanswer _⟩
  settle := by
    intro c key owner completes s r s' hcall ha
    cases c <;> cases hcall
    · exact PubsubRunner.storageAnswer_or ha.1
    · exact PubsubRunner.storageAnswer_or ha.1
  calls := fun x c hc => (within_serve c hc).1
  fresh := fun _ _ hx => hx

/-! ## The hour -/

/-- The log has a claim of every claim in the store, made an hour or more before it expires. -/
def Claimed (log : PushLog Result) (s : Shared) : Prop :=
  ∀ key claim, s.claims key = some claim → ∃ y r pre,
    .called y (Call.claim key claim.owner 3600) r pre ∈ log ∧ y.owner = claim.owner ∧
      pre.clock + 3600 ≤ claim.leaseUntil

/-- The log has claimed what each of its calls found in the store. -/
structure Timed (h : PushHistory Result) : Prop where
  found : ∀ x c r pre, .called x c r pre ∈ h.log → Claimed h.log pre
  now : Claimed h.log h.state

theorem Claimed.mono {log log' : PushLog Result} {s : Shared} (hs : Claimed log s) (hle : log <+: log') :
    Claimed log' s := by
  intro key claim hclaim
  obtain ⟨y, r, pre, hmem, hrest⟩ := hs key claim hclaim
  exact ⟨y, r, pre, hle.subset hmem, hrest⟩

namespace Timed

variable {h : PushHistory Result} {x : Request}

theorem settle {log : PushLog Result} {s s' : Shared} {key owner : String} {completes : Bool}
    (hs : Claimed log s)
    (hs' : s'.claims = Idempotency.step s.claims (key, StoreCall.settling owner completes)) :
    Claimed log s' := by
  intro key' claim hclaim
  rw [hs'] at hclaim
  by_cases hkey : key = key'
  · subst hkey
    rw [Idempotency.step_self] at hclaim
    have hrenew : ∀ owner' leaseSeconds now,
        StoreCall.settling owner completes ≠ .renew owner' leaseSeconds now := by
      intro owner' leaseSeconds now heq
      cases completes <;> cases heq
    obtain ⟨old, hold, howner, hlease⟩ | ⟨owner', leaseSeconds, now, now', heq, -⟩ :=
      Idempotency.Call.run_origin hclaim hrenew
    · rw [← howner, ← hlease]
      exact hs key old hold
    · cases completes <;> cases heq
  · rw [Idempotency.step_of_ne _ hkey] at hclaim
    exact hs key' claim hclaim

theorem answered {c : Call} {r : Outcome PubsubRunner.Exc (c.Res Result)} {s : Shared} (hI : Timed h)
    (hc : Uses x.owner c) (ha : Answer c h.state r s) :
    Claimed (History.call (S := sig Result) x c r s h).log s := by
  have hnow : Claimed (History.call (S := sig Result) x c r s h).log h.state :=
    hI.now.mono (Sound.prefix_call x c r s h)
  cases c with
  | verify => exact (show s = h.state from ha) ▸ hnow
  | body request => exact ha.2 ▸ hnow
  | feedUpdate event => exact (show s = h.state from ha) ▸ hnow
  | release key owner =>
    obtain hs | hs := PubsubRunner.storageAnswer_or ha.1
    · exact fun key claim hclaim => hnow key claim (hs ▸ hclaim)
    · exact settle hnow (show s.claims = Idempotency.step _ (key, StoreCall.settling owner false) from hs)
  | complete key owner =>
    obtain hs | hs := PubsubRunner.storageAnswer_or ha.1
    · exact fun key claim hclaim => hnow key claim (hs ▸ hclaim)
    · exact settle hnow (show s.claims = Idempotency.step _ (key, StoreCall.settling owner true) from hs)
  | claim key owner leaseSeconds =>
    obtain rfl : leaseSeconds = 3600 := hc.2 key owner leaseSeconds rfl
    obtain rfl : owner = x.owner := hc.1 _ rfl
    obtain ⟨now, hle, hstorage, -⟩ := ha
    obtain hs | hs := PubsubRunner.storageAnswer_or hstorage
    · exact fun key claim hclaim => hnow key claim (hs ▸ hclaim)
    · intro key' claim hclaim
      rw [hs] at hclaim
      by_cases hkey : key = key'
      · subst hkey
        rw [Idempotency.step_self] at hclaim
        obtain ⟨old, hold, howner, hlease⟩ | ⟨owner', leaseSeconds', now₁, now₂, heq, rfl⟩ :=
          Idempotency.Call.run_origin hclaim fun _ _ _ heq => by cases heq
        · rw [← howner, ← hlease]
          exact hnow key old hold
        · cases heq
          exact ⟨x, r, h.state, List.mem_append_right _ (List.mem_singleton.mpr rfl), rfl, by linarith⟩
      · rw [Idempotency.step_of_ne _ hkey] at hclaim
        exact hnow key' claim hclaim

theorem call {c : Call} {r : Outcome PubsubRunner.Exc (c.Res Result)} {s : Shared} (hI : Timed h)
    (hc : Uses x.owner c) (ha : Answer c h.state r s) : Timed (History.call (S := sig Result) x c r s h) where
  found := by
    intro y c' r' pre hmem
    have hle := Sound.prefix_call x c r s h
    obtain hold | hnew := List.mem_append.mp hmem
    · exact (hI.found y c' r' pre hold).mono hle
    · cases List.mem_singleton.mp hnew
      exact hI.now.mono hle
  now := hI.answered hc ha

theorem act {status : Nat} (hI : Timed h) : Timed (h.act (pushWorld Result) x (.answer status)) where
  found := by
    intro y c' r' pre hmem
    obtain hold | hnew := List.mem_append.mp hmem
    · exact (hI.found y c' r' pre hold).mono (List.prefix_append _ _)
    · cases List.mem_singleton.mp hnew
  now := hI.now.mono (List.prefix_append _ _)

end Timed

theorem timed_invariant (router : Router) : (pushSystem Result router).Invariant Timed where
  init := by
    intro s hs
    refine ⟨fun x c r pre hmem => (by cases hmem), fun key claim hclaim => ?_⟩
    rw [show s.claims = Idempotency.empty from hs] at hclaim
    cases hclaim
  env := by
    intro h s hI hs
    cases hs with
    | tick hnow => exact ⟨hI.found, hI.now⟩
  body := by
    intro x h hI
    refine wp_of_within (fun e h hI => ?_) (fun c h r s hc hI ha => hI.call hc ha) within_serve hI
    cases e with
    | answer status => exact hI.act

/-! ## Two requests of one key -/

/-- The claim of the request answers `FIRST`. -/
def winsClaim (key : String) (x : Request) : Entry (sig Result) Request Shared → Bool
  | .called y (.claim key' owner _) (.ret ClaimResult.first) _ =>
    decide (y = x ∧ key' = key ∧ owner = x.owner)
  | _ => false

/-- The request releases its claim. -/
def releasesClaim (key : String) (x : Request) : Entry (sig Result) Request Shared → Bool
  | .called y (.release key' owner) _ _ => decide (y = x ∧ key' = key ∧ owner = x.owner)
  | _ => false

/-- The request has won the key, and has not released it. -/
def Keeps (key : String) (x : Request) (log : PushLog Result) : Prop :=
  (∃ e ∈ log, winsClaim key x e = true) ∧ ∀ e ∈ log, releasesClaim key x e = false

/-- The request has claimed the key an hour or more before another claim of it. -/
def HeldForAnHour (key : String) (x : Request) (log : PushLog Result) : Prop :=
  ∃ r pre y owner leaseSeconds r' pre', .called x (Call.claim key x.owner 3600) r pre ∈ log ∧
    .called y (Call.claim key owner leaseSeconds) r' pre' ∈ log ∧ pre.clock + 3600 ≤ pre'.clock

section

variable {router : Router} {key : String} {x : Request} {log : PushLog Result}

instance : Decidable (Keeps key x log) := inferInstanceAs (Decidable (_ ∧ _))

theorem Keeps.holds (h : Keeps key x log) : (pushView Result router).Holds x key log := by
  obtain ⟨⟨e, hmem, hwins⟩, hunreleased⟩ := h
  refine ⟨?_, fun c r pre hcalled hcall => ?_⟩
  · cases e with
    | acted y e pre => cases hwins
    | called y c r pre =>
      cases c with
      | claim key owner leaseSeconds =>
        cases r with
        | ret result =>
          cases result with
          | first =>
            obtain ⟨rfl, rfl, rfl⟩ := of_decide_eq_true hwins
            exact ⟨_, _, pre, leaseSeconds, hmem, rfl, rfl⟩
          | active => cases hwins
          | completed => cases hwins
        | raised e => cases hwins
        | cancelled => cases hwins
      | _ => cases hwins
  · have hnone := hunreleased _ hcalled
    cases c <;> cases hcall
    exact of_decide_eq_false hnone ⟨rfl, rfl, rfl⟩

theorem Keeps.heldForAnHour {p : PushPool Result} (hx : Keeps key x p.hist.log)
    (hp : (pushSystem Result router).Reach p) (h : (pushView Result router).Lapsed x key p.hist.log) :
    HeldForAnHour key x p.hist.log := by
  obtain ⟨y, c, r, pre, owner, leaseSeconds, leaseUntil, hmem, hcall, hkept, hexpired⟩ := h
  cases c <;> cases hcall
  obtain ⟨z, r', pre', hclaimed, howner, htime⟩ :=
    ((timed_invariant router).reach hp).found _ _ _ _ hmem key _ hkept
  -- the claim is that of the request itself, since no two requests have one token
  obtain ⟨hnodup, hmade⟩ := hp.distinct (pushView Result router).fresh
  have hholds : (pushView Result router).Holds x key p.hist.log := hx.holds
  obtain ⟨⟨c, r'', pre'', leaseSeconds', hwon, -, -⟩, -⟩ := hholds
  obtain rfl : z = x := List.inj_on_of_nodup_map hnodup (hmade _ hclaimed) (hmade _ hwon) howner
  exact ⟨r', pre', y, owner, leaseSeconds, r, pre, hclaimed, hmem, htime.trans hexpired⟩

end

/-- **Main result.** In every run, of two requests that have won one key and not released it, one has
claimed the key an hour or more before another claim of it. -/
theorem requests_exclusive (router : Router) (p : PushPool Result) (hp : (pushSystem Result router).Reach p)
    (x y : Request) (key : String) (hne : x ≠ y) (hx : Keeps key x p.hist.log)
    (hy : Keeps key y p.hist.log) :
    HeldForAnHour key x p.hist.log ∨ HeldForAnHour key y p.hist.log :=
  ((pushView Result router).lapsed_of_holds hp hne hx.holds hy.holds).imp (hx.heldForAnHour hp)
    (hy.heldForAnHour hp)

def afterAnHour (p : PushPool Unit) : PushPool Unit :=
  ⟨⟨{ p.hist.state with clock := p.hist.state.clock + 3600 }, p.hist.log⟩, p.tasks⟩

/-- Request `a` is in its handlers when, an hour later, request `b` is dispatched too. -/
def slowPool (router : Router) : PushPool Unit :=
  handled router (afterAnHour (handled router newPool (push "1" "s" "a") 2)) (push "1" "s" "b") 2

theorem slow_dispatched_twice :
    HeldForAnHour "s:1" (push "1" "s" "a") (slowPool (pushRouter [("1", "s")])).hist.log ∨
      HeldForAnHour "s:1" (push "1" "s" "b") (slowPool (pushRouter [("1", "s")])).hist.log := by
  have hfirst : (pushSystem Unit (pushRouter [("1", "s")])).Reach
      (handled (pushRouter [("1", "s")]) newPool (push "1" "s" "a") 2) :=
    handled_reach (.init (show newPool.hist.state.claims = _ from rfl)) (fun task htask => by cases htask) 2
  have hlate : (pushSystem Unit (pushRouter [("1", "s")])).Reach
      (afterAnHour (handled (pushRouter [("1", "s")]) newPool (push "1" "s" "a") 2)) :=
    hfirst.env (.tick (by linarith))
  have hslow : (pushSystem Unit (pushRouter [("1", "s")])).Reach (slowPool (pushRouter [("1", "s")])) :=
    handled_reach hlate (by decide +kernel) 2
  exact requests_exclusive (pushRouter [("1", "s")]) _ hslow _ _ "s:1" (by decide +kernel)
    (by decide +kernel) (by decide +kernel)

end Chattice.PushRouter
