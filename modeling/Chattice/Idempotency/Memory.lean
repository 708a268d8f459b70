import Mathlib.Data.Rat.Defs
import Mathlib.Algebra.Order.Ring.Rat
import Mathlib.Logic.Function.Basic

/-!
# `MemoryIdempotencyStorage`

The claim store of one process: `claimed(owner, lease) -> completed` per key. Every method takes the
lock of its key and does not suspend while it holds it, so a call is one step, and it reads and
writes nothing but the entry of its key in `_claims`: the functions below act on that entry (`none`
for an absent one). A method reads the clock where the source does: `claim` once to prune and once
more for the lease it grants.

* `Call.run_of_completed` : what each call does to the entry of a completed key;
* `absorbs_iff` : after a `complete` that took effect, every later `claim` of the key answers
  `COMPLETED` and no later `renew` of it succeeds, exactly when no `release` of the key by the
  completing owner is followed by a `claim` of it.
-/

namespace Chattice.Idempotency

inductive ClaimResult where
  | first | completed | active
  deriving DecidableEq, Repr

structure Claim where
  owner : String
  leaseUntil : Rat
  completed : Bool
  deriving DecidableEq, Repr

/-- `_prune_expired` -/
def pruneExpired (now : Rat) : Option Claim → Option Claim
  | some claim =>
    if claim.completed = false ∧ claim.leaseUntil ≤ now then none else some claim
  | none => none

/-- `claim`: `now` is the clock that `_prune_expired` reads, `now'` the one of the lease. -/
def claim (owner : String) (leaseSeconds now now' : Rat) (entry : Option Claim) :
    Option Claim × ClaimResult :=
  match pruneExpired now entry with
  | none => (some ⟨owner, now' + leaseSeconds, false⟩, .first)
  | some claim => (some claim, if claim.completed then .completed else .active)

/-- `complete`: nothing happens unless `owner` holds the claim. -/
def complete (owner : String) : Option Claim → Option Claim
  | some claim => if claim.owner = owner then some { claim with completed := true } else some claim
  | none => none

/-- `release`: nothing happens unless `owner` holds the claim. -/
def release (owner : String) : Option Claim → Option Claim
  | some claim => if claim.owner = owner then none else some claim
  | none => none

def renew (owner : String) (leaseSeconds now : Rat) : Option Claim → Option Claim × Bool
  | some claim =>
    if claim.owner ≠ owner ∨ claim.completed = true then (some claim, false)
    else (some { claim with leaseUntil := now + leaseSeconds }, true)
  | none => (none, false)

/-! ## Runs -/

/-- A call on one key, with its clock readings. -/
inductive Call where
  | claim (owner : String) (leaseSeconds now now' : Rat)
  | complete (owner : String)
  | release (owner : String)
  | renew (owner : String) (leaseSeconds now : Rat)
  deriving DecidableEq, Repr

inductive Answer where
  | claimed (result : ClaimResult)
  | renewed (success : Bool)
  | none
  deriving DecidableEq, Repr

def Call.run : Call → Option Claim → Option Claim × Answer
  | .claim owner lease now now', entry =>
    ((Idempotency.claim owner lease now now' entry).1,
      .claimed (Idempotency.claim owner lease now now' entry).2)
  | .complete owner, entry => (Idempotency.complete owner entry, .none)
  | .release owner, entry => (Idempotency.release owner entry, .none)
  | .renew owner lease now, entry =>
    ((Idempotency.renew owner lease now entry).1, .renewed (Idempotency.renew owner lease now entry).2)

/-- `_claims` -/
abbrev Claims := String → Option Claim

def empty : Claims := fun _ => none

/-- One call on the store. -/
def step (claims : Claims) (op : String × Call) : Claims :=
  Function.update claims op.1 (op.2.run (claims op.1)).1

def runAll (claims : Claims) (ops : List (String × Call)) : Claims := ops.foldl step claims

def answers (claims : Claims) : List (String × Call) → List ((String × Call) × Answer)
  | [] => []
  | op :: ops => (op, (op.2.run (claims op.1)).2) :: answers (step claims op) ops

@[simp] theorem step_self (claims : Claims) (key : String) (c : Call) :
    step claims (key, c) key = (c.run (claims key)).1 := by
  simp [step]

theorem step_of_ne (claims : Claims) {key : String} {op : String × Call} (h : op.1 ≠ key) :
    step claims op key = claims key := by
  rw [step, Function.update_of_ne (Ne.symm h)]

/-! ## Completed entries -/

def isCompleted : Option Claim → Bool
  | some claim => claim.completed
  | none => false

/-- `owner` holds the claim. -/
def holds (owner : String) : Option Claim → Bool
  | some claim => claim.owner = owner
  | none => false

theorem exists_of_holds {owner : String} {entry : Option Claim} (h : holds owner entry = true) :
    ∃ held, entry = some held ∧ held.owner = owner := by
  cases entry with
  | none => cases h
  | some held => exact ⟨held, rfl, of_decide_eq_true h⟩

theorem complete_of_not_holds {owner : String} {entry : Option Claim} (h : holds owner entry = false) :
    complete owner entry = entry := by
  cases entry with
  | none => rfl
  | some held => exact if_neg (of_decide_eq_false h)

theorem release_of_not_holds {owner : String} {entry : Option Claim} (h : holds owner entry = false) :
    release owner entry = entry := by
  cases entry with
  | none => rfl
  | some held => exact if_neg (of_decide_eq_false h)

theorem isCompleted_pruneExpired (now : Rat) (entry : Option Claim) :
    isCompleted (pruneExpired now entry) = isCompleted entry := by
  cases entry with
  | none => rfl
  | some claim =>
    rw [pruneExpired]
    split
    · next h => exact h.1.symm
    · rfl

theorem isCompleted_claim (owner : String) (leaseSeconds now now' : Rat) (entry : Option Claim) :
    isCompleted (claim owner leaseSeconds now now' entry).1 = isCompleted entry := by
  rw [← isCompleted_pruneExpired now entry]
  unfold claim
  cases pruneExpired now entry <;> rfl

theorem claim_completed_iff (owner : String) (leaseSeconds now now' : Rat) (entry : Option Claim) :
    (claim owner leaseSeconds now now' entry).2 = .completed ↔ isCompleted entry = true := by
  rw [← isCompleted_pruneExpired now entry]
  unfold claim
  cases pruneExpired now entry with
  | none => simp [isCompleted]
  | some held => cases hheld : held.completed <;> simp [isCompleted, hheld]

theorem isCompleted_complete (owner : String) (entry : Option Claim) :
    isCompleted (complete owner entry) = (isCompleted entry || holds owner entry) := by
  cases entry with
  | none => rfl
  | some held =>
    rw [complete]
    split
    · next h => simp [isCompleted, holds, h]
    · next h => simp [isCompleted, holds, h]

theorem isCompleted_of_release {owner : String} {entry : Option Claim}
    (h : isCompleted (release owner entry) = true) : isCompleted entry = true := by
  cases entry with
  | none => exact h
  | some held =>
    rw [release] at h
    split at h
    · cases h
    · exact h

theorem isCompleted_renew (owner : String) (leaseSeconds now : Rat) (entry : Option Claim) :
    isCompleted (renew owner leaseSeconds now entry).1 = isCompleted entry := by
  cases entry with
  | none => rfl
  | some held =>
    rw [renew]
    split <;> rfl

def Call.isComplete : Call → Bool
  | .complete _ => true
  | _ => false

theorem isCompleted_of_step {claims : Claims} {op : String × Call} {key : String}
    (hop : op.2.isComplete = false) (h : isCompleted (step claims op key) = true) :
    isCompleted (claims key) = true := by
  by_cases hkey : op.1 = key
  · subst hkey
    obtain ⟨key, c⟩ := op
    rw [step_self] at h
    cases c with
    | claim owner lease now now' => exact (isCompleted_claim owner lease now now' _).symm.trans h
    | complete owner => cases hop
    | release owner => exact isCompleted_of_release h
    | renew owner lease now => exact (isCompleted_renew owner lease now _).symm.trans h
  · rwa [step_of_ne _ hkey] at h

theorem isCompleted_of_step_complete {claims : Claims} {key key' owner : String}
    (h : isCompleted (step claims (key, .complete owner) key') = true) :
    key = key' ∨ isCompleted (claims key') = true := by
  by_cases hkey : key = key'
  · exact .inl hkey
  · exact .inr (by rwa [step_of_ne _ hkey] at h)

/-! ## Completed keys -/

def Call.isClaim : Call → Bool
  | .claim .. => true
  | _ => false

/-- The entry of a completed key survives every call but a release by its owner: claims answer
`COMPLETED`, renewals are refused. -/
theorem Call.run_of_completed {c : Call} {held : Claim} (hcompleted : held.completed = true)
    (hrelease : c ≠ .release held.owner) :
    c.run (some held) =
      (some held, match c with
        | .claim .. => .claimed .completed
        | .renew .. => .renewed false
        | _ => .none) := by
  cases c with
  | claim owner lease now now' => simp [run, Idempotency.claim, pruneExpired, hcompleted]
  | complete owner =>
    have hsame : { held with completed := true } = held := by rw [← hcompleted]
    simp [run, Idempotency.complete, hsame]
  | release owner =>
    have hne : held.owner ≠ owner := fun h => hrelease (by rw [h])
    simp [run, Idempotency.release, hne]
  | renew owner lease now => simp [run, Idempotency.renew, hcompleted]

/-- The entry of an absent key stays absent until somebody claims it. -/
theorem Call.run_of_absent {c : Call} (hclaim : c.isClaim = false) :
    c.run none = (none, match c with
      | .renew .. => .renewed false
      | _ => .none) := by
  cases c with
  | claim owner lease now now' => simp [isClaim] at hclaim
  | complete owner => rfl
  | release owner => rfl
  | renew owner lease now => rfl

/-- The key absorbs the call: a claim of it answers `COMPLETED`, a renewal of it is refused. -/
def Absorbed (key : String) : (String × Call) × Answer → Prop
  | ((key', .claim ..), answer) => key' = key → answer = .claimed .completed
  | ((key', .renew ..), answer) => key' = key → answer = .renewed false
  | _ => True

/-- Some call claims `key`. -/
def claimsKey (key : String) (ops : List (String × Call)) : Bool :=
  ops.any fun op => op.1 == key && op.2.isClaim

/-- Some release of `key` by `owner` is followed by a claim of `key`. -/
def reclaimed (key owner : String) : List (String × Call) → Bool
  | [] => false
  | op :: ops =>
    (decide (op = (key, .release owner)) && claimsKey key ops) || reclaimed key owner ops

theorem absorbed_of_ne {key key' : String} (c : Call) (answer : Answer) (h : key' ≠ key) :
    Absorbed key ((key', c), answer) := by
  cases c with
  | claim owner lease now now' => exact fun heq => absurd heq h
  | complete owner => exact trivial
  | release owner => exact trivial
  | renew owner lease now => exact fun heq => absurd heq h

theorem absorbed_absent (key : String) {c : Call} (hclaim : c.isClaim = false) :
    Absorbed key ((key, c), (c.run none).2) := by
  rw [Call.run_of_absent hclaim]
  cases c with
  | claim owner lease now now' => cases hclaim
  | complete owner => exact trivial
  | release owner => exact trivial
  | renew owner lease now => exact fun _ => rfl

theorem absorbed_completed (key : String) {c : Call} {held : Claim} (hcompleted : held.completed = true)
    (hrelease : c ≠ .release held.owner) : Absorbed key ((key, c), (c.run (some held)).2) := by
  rw [Call.run_of_completed hcompleted hrelease]
  cases c with
  | claim owner lease now now' => exact fun _ => rfl
  | complete owner => exact trivial
  | release owner => exact trivial
  | renew owner lease now => exact fun _ => rfl

theorem reclaimed_of_unclaimed {key : String} (owner : String) {ops : List (String × Call)}
    (h : claimsKey key ops = false) : reclaimed key owner ops = false := by
  induction ops with
  | nil => rfl
  | cons op ops ih =>
    rw [claimsKey, List.any_cons, Bool.or_eq_false_iff] at h
    have htail : claimsKey key ops = false := h.2
    rw [reclaimed, htail, ih htail, Bool.and_false, Bool.or_false]

/-- From an absent entry on: the key absorbs every call exactly when nobody claims it. -/
theorem absorbs_absent_iff {claims : Claims} {key : String} (ops : List (String × Call))
    (habsent : claims key = none) :
    (∀ p ∈ answers claims ops, Absorbed key p) ↔ claimsKey key ops = false := by
  induction ops generalizing claims with
  | nil => simp [answers, claimsKey]
  | cons op ops ih =>
    obtain ⟨key', c⟩ := op
    have hcons : claimsKey key ((key', c) :: ops) = (key' == key && c.isClaim || claimsKey key ops) :=
      rfl
    rw [answers, List.forall_mem_cons, hcons, Bool.or_eq_false_iff]
    by_cases hkey : key' = key
    · subst hkey
      by_cases hclaim : c.isClaim = true
      · -- the first claim of an absent key wins it
        cases c <;> simp [Call.isClaim] at hclaim
        simp [Absorbed, Call.run, claim, habsent, pruneExpired, Call.isClaim]
      · have hnoClaim := eq_false_of_ne_true hclaim
        rw [ih (by rw [step_self, habsent, Call.run_of_absent hnoClaim]), habsent, hnoClaim, Bool.and_false]
        exact and_congr_left fun _ => iff_of_true (absorbed_absent key' hnoClaim) rfl
    · have hstep : step claims (key', c) key = none := by rw [step_of_ne _ hkey, habsent]
      rw [ih hstep]
      simp [absorbed_of_ne c _ hkey, hkey]

/-- From a completed entry on: the key absorbs every call exactly when no release by its owner is
followed by a claim. -/
theorem absorbs_completed_iff {claims : Claims} {key : String} {held : Claim}
    (ops : List (String × Call)) (hheld : claims key = some held)
    (hcompleted : held.completed = true) :
    (∀ p ∈ answers claims ops, Absorbed key p) ↔ reclaimed key held.owner ops = false := by
  induction ops generalizing claims with
  | nil => simp [answers, reclaimed]
  | cons op ops ih =>
    obtain ⟨key', c⟩ := op
    rw [answers, List.forall_mem_cons, reclaimed, Bool.or_eq_false_iff]
    by_cases hkey : key' = key
    · subst hkey
      by_cases hrelease : c = .release held.owner
      · subst hrelease
        have habsent : step claims (key', .release held.owner) key' = none := by
          simp [hheld, Call.run, release]
        rw [absorbs_absent_iff ops habsent]
        simpa [Absorbed] using fun h => reclaimed_of_unclaimed held.owner h
      · rw [ih (by rw [step_self, hheld, Call.run_of_completed hcompleted hrelease]), hheld]
        refine and_congr_left fun _ => iff_of_true (absorbed_completed key' hcompleted hrelease) ?_
        have hne : (key', c) ≠ (key', Call.release held.owner) := fun h => hrelease (Prod.mk.inj h).2
        rw [decide_eq_false hne, Bool.false_and]
    · have hstep : step claims (key', c) key = some held := by rw [step_of_ne _ hkey, hheld]
      rw [ih hstep]
      simp [absorbed_of_ne c _ hkey, hkey]

theorem step_complete_held {claims : Claims} {key owner : String} {held : Claim}
    (hheld : claims key = some held) (howner : held.owner = owner) :
    step claims (key, .complete owner) key = some { held with completed := true } := by
  simp [hheld, Call.run, complete, howner]

/-- **Completed keys.** In every run, once a `complete` by the holder of a claim has taken effect,
every later claim of the key answers `COMPLETED` and no renewal of it succeeds exactly when no
release of the key by that owner is followed by a claim of it. -/
theorem absorbs_iff (before after : List (String × Call)) (key owner : String)
    (hholds : (runAll empty before key).map Claim.owner = some owner) :
    (∀ p ∈ answers (step (runAll empty before) (key, .complete owner)) after, Absorbed key p) ↔
      reclaimed key owner after = false := by
  obtain ⟨held, hheld, rfl⟩ := Option.map_eq_some_iff.mp hholds
  have hcompleted := step_complete_held hheld rfl
  have hiff := absorbs_completed_iff after hcompleted rfl
  exact hiff

/-- A completed key answers a second claim, long after the lease, with `COMPLETED`. -/
theorem absorbs_late_claim :
    reclaimed "k" "a" [("k", .claim "b" 60 61 61)] = false ∧
      ∀ p ∈ answers (step (runAll empty [("k", .claim "a" 60 0 0)]) ("k", .complete "a"))
        [("k", .claim "b" 60 61 61)], Absorbed "k" p :=
  ⟨rfl, (absorbs_iff [("k", .claim "a" 60 0 0)] [("k", .claim "b" 60 61 61)] "k" "a" rfl).mpr rfl⟩

/-- The completing owner releases the key late: the next claim answers `FIRST`. -/
theorem completed_key_reopens :
    ¬ ∀ (before after : List (String × Call)) (key owner : String),
      (runAll empty before key).map Claim.owner = some owner →
      ∀ p ∈ answers (step (runAll empty before) (key, .complete owner)) after, Absorbed key p := by
  intro h
  have hreopened := h [("k", .claim "a" 60 0 0)] [("k", .release "a"), ("k", .claim "b" 60 1 1)]
    "k" "a" rfl (("k", .claim "b" 60 1 1), .claimed .first) (by simp [answers, step, Call.run,
      complete, release, claim, runAll, empty, pruneExpired])
  exact absurd (hreopened rfl) (by decide)

end Chattice.Idempotency
