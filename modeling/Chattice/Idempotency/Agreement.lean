import Chattice.Idempotency.Redis
import Chattice.Redis.Alone
import Mathlib.Tactic.Positivity

/-!
# The two idempotency stores on the same calls

One sequence of calls on any keys, made one after the other against both stores, with one clock that
stands still during a call. A Redis key vanishes as soon as its TTL has run out; the memory store
keeps the claim until the next `claim` of the key prunes it, and until then its owner can still renew
or complete it.

* `Tracks` : what the key holds in Redis, given the entry of the memory store;
* `Tracks.step` : a call that does not come too late answers the same and keeps it;
* `answers_agree_iff` : both stores give the same answers exactly when nobody renews a claim whose
  lease is over, and nobody completes one that is claimed before its owner has released it.
-/

namespace Chattice.Idempotency

open Redis (Cell Slot)
open Python (double double_natCast)
open RedisStorage (milliseconds milliseconds_natCast)

structure Timed where
  key : String
  call : RedisStorage.Call
  now : Rat
  deriving DecidableEq, Repr

/-! ## The two stores -/

/-- The call on the memory store. -/
def Timed.inMemory (op : Timed) : String × Call :=
  (op.key, match op.call with
    | .claim owner leaseSeconds => .claim owner leaseSeconds op.now op.now
    | .complete owner => .complete owner
    | .release owner => .release owner
    | .renew owner leaseSeconds => .renew owner leaseSeconds op.now)

def memoryAnswers (claims : Claims) : List Timed → List Answer
  | [] => []
  | op :: ops =>
    (op.inMemory.2.run (claims op.key)).2 :: memoryAnswers (step claims op.inMemory) ops

/-- The keys of the server. -/
abbrev Server := String → Cell Claim

def emptyServer : Server := fun _ => ⟨none, 0, 0⟩

/-- The call on the Redis store: the key it leaves, and its answer. -/
def Timed.inRedis (completedRetentionSeconds : Rat) (op : Timed) (server : Server) :
    Cell Claim × Answer :=
  (op.call.prog completedRetentionSeconds).eval ((server op.key).at op.now)

def redisAnswers (completedRetentionSeconds : Rat) (server : Server) : List Timed → List Answer
  | [] => []
  | op :: ops =>
    (op.inRedis completedRetentionSeconds server).2 ::
      redisAnswers completedRetentionSeconds
        (Function.update server op.key (op.inRedis completedRetentionSeconds server).1) ops

/-- A call on the Redis store is one of the interleavings of calls on its key: the one in which no
other call disturbs it. -/
theorem Timed.inRedis_reach {completedRetentionSeconds : Rat} {s : RedisStorage.StoreState}
    (hs : RedisStorage.Reach completedRetentionSeconds s) {op : Timed} {server : Server}
    (hcell : server op.key = s.cell) (hnow : s.cell.clock ≤ op.now) :
    ∃ s', RedisStorage.Reach completedRetentionSeconds s' ∧
      s'.cell = (op.inRedis completedRetentionSeconds server).1 ∧
      s'.clients =
        s.clients ++ [(op.call, .prog (.ret (op.inRedis completedRetentionSeconds server).2))] := by
  rw [Timed.inRedis, hcell]
  exact hs.alone hnow op.call

/-! ## Late calls -/

/-- The claim is not completed and its lease is over. -/
def isOver (now : Rat) : Option Claim → Bool
  | some claim => !claim.completed && decide (claim.leaseUntil ≤ now)
  | none => false

/-- The call renews a claim of its owner whose lease is over. -/
def Timed.renewsLate (op : Timed) (entry : Option Claim) : Bool :=
  match op.call with
  | .renew owner _ => holds owner entry && isOver op.now entry
  | _ => false

/-- The key is claimed before `owner` releases it. -/
def claimedFirst (key owner : String) : List Timed → Bool
  | [] => false
  | op :: ops =>
    if op.key = key ∧ op.call.isClaim = true then true
    else if op.key = key ∧ op.call = .release owner then false
    else claimedFirst key owner ops

/-- The call completes a claim of its owner whose lease is over, and the key is claimed before that
owner releases it. -/
def Timed.completesLate (op : Timed) (entry : Option Claim) (later : List Timed) : Bool :=
  match op.call with
  | .complete owner => holds owner entry && isOver op.now entry && claimedFirst op.key owner later
  | _ => false

def tooLate (claims : Claims) : List Timed → Bool
  | [] => false
  | op :: ops =>
    op.renewsLate (claims op.key) || op.completesLate (claims op.key) ops ||
      tooLate (step claims op.inMemory) ops

/-! ## Assumptions on the sequence -/

/-- A positive lease for which the arithmetic of doubles is exact: its TTL has as many milliseconds as the
lease, and its end is the double of the sum. -/
structure ExactLease (now leaseSeconds : Rat) : Prop where
  pos : 0 < leaseSeconds
  product : (milliseconds leaseSeconds : Rat) / 1000 = leaseSeconds
  sum : double (double now + double leaseSeconds) = double (now + leaseSeconds)

def Timed.Exact (op : Timed) : Prop :=
  match op.call with
  | .claim _ leaseSeconds | .renew _ leaseSeconds => ExactLease op.now leaseSeconds
  | .complete _ | .release _ => True

/-- The calls on a key stay within the retention of every completion of it. -/
def Retained (completedRetentionSeconds : Rat) (claims : Claims) : List Timed → Prop
  | [] => True
  | op :: ops =>
    (∀ owner, op.call = .complete owner → holds owner (claims op.key) = true →
      ∀ later ∈ ops, later.key = op.key → later.now < op.now + completedRetentionSeconds) ∧
    Retained completedRetentionSeconds (step claims op.inMemory) ops

theorem exactLease_natCast (now leaseSeconds : Nat) (hpos : 0 < leaseSeconds)
    (h : (now + leaseSeconds) * 1000 < 2 ^ 53) : ExactLease now leaseSeconds where
  pos := by exact_mod_cast hpos
  product := by
    have hsmall : leaseSeconds * 1000 < 2 ^ 53 :=
      (Nat.mul_le_mul_right 1000 (Nat.le_add_left leaseSeconds now)).trans_lt h
    rw [milliseconds_natCast hpos hsmall]
    have hthousand : (1000 : Rat) ≠ 0 := by norm_num
    rw [Nat.cast_mul]
    exact mul_div_cancel_right₀ _ hthousand
  sum := by
    rw [double_natCast (n := now) (by omega), double_natCast (n := leaseSeconds) (by omega)]

/-! ## The Redis calls on a quiet key -/

namespace RedisStorage

variable {owner : String} {leaseSeconds : Rat} {c : Cell Claim} {held : Claim} {stamp : Nat}
  {deadline : Option Rat}

theorem claim_eval_absent (h : c.slot = none) :
    (claim owner leaseSeconds).eval c =
      (c.write ⟨owner, c.clock + leaseSeconds, false⟩ (some (milliseconds leaseSeconds)),
        .claimed .first) := by
  simp [claim, Redis.Command.run_set_of_absent h]

theorem claim_eval_completed (h : c.slot = some ⟨held, stamp, deadline⟩)
    (hheld : held.completed = true) :
    (claim owner leaseSeconds).eval c = (c, .claimed .completed) := by
  simp [claim, Redis.Command.run_setNX_of_stored h, Cell.value_of_stored h, claimAttempt, hheld]

theorem claim_eval_live (h : c.slot = some ⟨held, stamp, deadline⟩)
    (hheld : held.completed = false) (hlive : c.clock < held.leaseUntil) :
    (claim owner leaseSeconds).eval c = (c, .claimed .active) := by
  simp [claim, Redis.Command.run_setNX_of_stored h, Cell.value_of_stored h, claimAttempt, hheld, hlive]

theorem renew_eval_absent (h : c.slot = none) :
    (renew owner leaseSeconds).eval c = (c, .renewed false) := by
  simp [renew, Cell.value_of_absent h]

theorem renew_eval_refused (h : c.slot = some ⟨held, stamp, deadline⟩)
    (hheld : held.owner ≠ owner ∨ held.completed = true) :
    (renew owner leaseSeconds).eval c = (c, .renewed false) := by
  simp [renew, Cell.value_of_stored h, hheld]

theorem renew_eval_own (h : c.slot = some ⟨held, stamp, deadline⟩) (howner : held.owner = owner)
    (hheld : held.completed = false) :
    (renew owner leaseSeconds).eval c =
      (c.write ⟨owner, c.clock + leaseSeconds, false⟩ (some (milliseconds leaseSeconds)),
        .renewed true) := by
  simp [renew, Cell.value_of_stored h, howner, hheld]

theorem ownerOp_eval_absent {completed delete : Bool} {px : Option Nat} (h : c.slot = none) :
    (ownerOp owner completed delete px).eval c = (c, .none) := by
  simp [ownerOp, Cell.value_of_absent h]

theorem ownerOp_eval_other {completed delete : Bool} {px : Option Nat}
    (h : c.slot = some ⟨held, stamp, deadline⟩) (howner : held.owner ≠ owner) :
    (ownerOp owner completed delete px).eval c = (c, .none) := by
  simp [ownerOp, Cell.value_of_stored h, howner]

theorem complete_eval_own {ttl : Nat} (h : c.slot = some ⟨held, stamp, deadline⟩)
    (howner : held.owner = owner) :
    (complete ttl owner).eval c = (c.write ⟨owner, held.leaseUntil, true⟩ (some ttl), .none) := by
  simp [complete, ownerOp, Cell.value_of_stored h, howner]

theorem release_eval_own (h : c.slot = some ⟨held, stamp, deadline⟩)
    (howner : held.owner = owner) : (release owner).eval c = (c.clear, .none) := by
  simp [release, ownerOp, Cell.value_of_stored h, howner, Redis.Command.run_delete_of_stored h]

end RedisStorage

/-! ## The relation between the stores -/

/-- What Redis holds at the time `now` for a key whose entry in the memory store is the given one,
when the calls `later` are still to come. -/
inductive Tracks (key : String) (later : List Timed) (now : Rat) :
    Option Claim → Option (Slot Claim) → Prop where
  | absent : Tracks key later now none none
  | live {held : Claim} {stamp : Nat} (hopen : held.completed = false)
      (hlive : now < held.leaseUntil) :
      Tracks key later now (some held) (some ⟨held, stamp, some held.leaseUntil⟩)
  /-- The memory store has not pruned the claim yet. -/
  | lapsed {held : Claim} (hopen : held.completed = false) (hover : held.leaseUntil ≤ now) :
      Tracks key later now (some held) none
  | completed {held : Claim} {stamp : Nat} {deadline : Rat} (hcompleted : held.completed = true)
      (hkept : ∀ op ∈ later, op.key = key → op.now < deadline) :
      Tracks key later now (some held) (some ⟨held, stamp, some deadline⟩)
  /-- The claim was completed after Redis had dropped it, and nobody will notice. -/
  | lost {held : Claim} (hcompleted : held.completed = true)
      (hunclaimed : claimedFirst key held.owner later = false) : Tracks key later now (some held) none

theorem claimedFirst_of_ne {key owner : String} {op : Timed} (ops : List Timed) (h : op.key ≠ key) :
    claimedFirst key owner (op :: ops) = claimedFirst key owner ops := by
  rw [claimedFirst, if_neg fun hclaim => h hclaim.1, if_neg fun hrelease => h hrelease.1]

theorem claimedFirst_of_quiet {key owner : String} {op : Timed} (ops : List Timed)
    (hclaim : op.call.isClaim = false) (hrelease : op.call ≠ .release owner) :
    claimedFirst key owner (op :: ops) = claimedFirst key owner ops := by
  have hnot : ¬ (op.key = key ∧ op.call.isClaim = true) := fun h => Bool.false_ne_true (hclaim.symm.trans h.2)
  rw [claimedFirst, if_neg hnot, if_neg fun h => hrelease h.2]

theorem Tracks.of_cons {key : String} {op : Timed} {ops : List Timed} {now : Rat}
    {entry : Option Claim} {slot : Option (Slot Claim)}
    (hfirst : ∀ held, entry = some held →
      claimedFirst key held.owner (op :: ops) = claimedFirst key held.owner ops)
    (h : Tracks key (op :: ops) now entry slot) : Tracks key ops now entry slot := by
  cases h with
  | absent => exact .absent
  | live hopen hlive => exact .live hopen hlive
  | lapsed hopen hover => exact .lapsed hopen hover
  | completed hcompleted hkept =>
    exact .completed hcompleted fun op' hop' => hkept op' (List.mem_cons_of_mem _ hop')
  | lost hcompleted hunclaimed => exact .lost hcompleted ((hfirst _ rfl).symm.trans hunclaimed)

theorem Tracks.of_ne {key : String} {op : Timed} {ops : List Timed} {now : Rat}
    {entry : Option Claim} {slot : Option (Slot Claim)} (hne : op.key ≠ key)
    (h : Tracks key (op :: ops) now entry slot) : Tracks key ops now entry slot :=
  h.of_cons fun _ _ => claimedFirst_of_ne ops hne

/-- A claim whose lease is over is gone in Redis. -/
theorem Tracks.of_isOver {key owner : String} {later : List Timed} {now : Rat} {entry : Option Claim}
    {slot : Option (Slot Claim)} (hholds : holds owner entry = true) (hisOver : isOver now entry = true)
    (h : Tracks key later now entry slot) :
    ∃ held, entry = some held ∧ held.owner = owner ∧ held.completed = false ∧ slot = none := by
  cases h with
  | @lapsed held hopen hover => exact ⟨held, rfl, of_decide_eq_true hholds, hopen, rfl⟩
  | absent => cases hisOver
  | live hopen hlive => simp [isOver, not_le.mpr hlive] at hisOver
  | completed hcompleted hkept => simp [isOver, hcompleted] at hisOver
  | lost hcompleted hunclaimed => simp [isOver, hcompleted] at hisOver

theorem Tracks.at {op : Timed} {ops : List Timed} {now : Rat} {entry : Option Claim}
    {c : Cell Claim} (hnow : now ≤ op.now) (h : Tracks op.key (op :: ops) now entry c.slot) :
    Tracks op.key (op :: ops) op.now entry (c.at op.now).slot := by
  generalize hslot : c.slot = slot at h
  cases h with
  | absent =>
    rw [Cell.slot_at_of_none _ hslot]
    exact .absent
  | @live held stamp hopen hlive =>
    rw [Cell.slot_at _ hslot]
    split
    · next hstill =>
      rw [hslot]
      exact .live hopen hstill
    · next hout => exact .lapsed hopen (not_lt.mp hout)
  | lapsed hopen hover =>
    rw [Cell.slot_at_of_none _ hslot]
    exact .lapsed hopen (hover.trans hnow)
  | completed hcompleted hkept =>
    rw [Cell.slot_at _ hslot, if_pos (hkept op List.mem_cons_self rfl), hslot]
    exact .completed hcompleted hkept
  | lost hcompleted hunclaimed =>
    rw [Cell.slot_at_of_none _ hslot]
    exact .lost hcompleted hunclaimed

/-- Both stores answer the call alike, and track each other after it. -/
def Agrees (completedRetentionSeconds : Rat) (op : Timed) (ops : List Timed) (entry : Option Claim)
    (c : Cell Claim) : Prop :=
  (op.inMemory.2.run entry).2 = ((op.call.prog completedRetentionSeconds).eval c).2 ∧
    Tracks op.key ops op.now (op.inMemory.2.run entry).1
      ((op.call.prog completedRetentionSeconds).eval c).1.slot

/-! ## One call -/

section Step

variable {completedRetentionSeconds : Rat} {key owner : String} {leaseSeconds : Rat}
  {ops : List Timed} {entry : Option Claim} {c : Cell Claim}

theorem Tracks.leased {stamp : Nat} {now : Rat} (hexact : ExactLease now leaseSeconds) :
    Tracks key ops now (some ⟨owner, now + leaseSeconds, false⟩)
      (some ⟨⟨owner, now + leaseSeconds, false⟩, stamp,
        some (now + milliseconds leaseSeconds / 1000)⟩) := by
  rw [hexact.product]
  exact .live rfl (lt_add_of_pos_right _ hexact.pos)

theorem Tracks.claim (hexact : ExactLease c.clock leaseSeconds)
    (h : Tracks key (⟨key, .claim owner leaseSeconds, c.clock⟩ :: ops) c.clock entry c.slot) :
    Agrees completedRetentionSeconds ⟨key, .claim owner leaseSeconds, c.clock⟩ ops entry c := by
  unfold Agrees
  simp only [RedisStorage.Call.prog, Timed.inMemory, Call.run]
  generalize hslot : c.slot = slot at h
  cases h with
  | absent =>
    rw [RedisStorage.claim_eval_absent hslot]
    exact ⟨rfl, Tracks.leased hexact⟩
  | live hopen hlive =>
    rw [RedisStorage.claim_eval_live hslot hopen hlive, hslot]
    simp [Idempotency.claim, pruneExpired, hopen, not_le.mpr hlive, Tracks.live hopen hlive]
  | lapsed hopen hover =>
    rw [RedisStorage.claim_eval_absent hslot]
    simp only [Idempotency.claim, pruneExpired, hopen, hover, and_self, if_true]
    exact ⟨trivial, Tracks.leased hexact⟩
  | completed hcompleted hkept =>
    rw [RedisStorage.claim_eval_completed hslot hcompleted, hslot]
    simp only [Idempotency.claim, pruneExpired, hcompleted, Bool.true_eq_false, false_and, if_false,
      if_true]
    exact ⟨trivial, .completed hcompleted fun op hop => hkept op (List.mem_cons_of_mem _ hop)⟩
  | lost hcompleted hunclaimed => simp [claimedFirst, RedisStorage.Call.isClaim] at hunclaimed

/-- A call that neither claims the key nor releases it for its owner changes nothing. -/
theorem Tracks.of_quiet {op : Timed} (hclaim : op.call.isClaim = false)
    (hrelease : ∀ held, entry = some held → op.call ≠ .release held.owner)
    (h : Tracks key (op :: ops) c.clock entry c.slot) : Tracks key ops c.clock entry c.slot :=
  h.of_cons fun held hheld => claimedFirst_of_quiet ops hclaim (hrelease held hheld)

theorem Tracks.renew_refused {later : List Timed}
    (hown : ∀ held, entry = some held → held.owner = owner → held.completed = true)
    (h : Tracks key later c.clock entry c.slot) :
    Idempotency.renew owner leaseSeconds c.clock entry = (entry, false) ∧
      (RedisStorage.renew owner leaseSeconds).eval c = (c, .renewed false) := by
  have hrefused (held : Claim) (hheld : entry = some held) :
      held.owner ≠ owner ∨ held.completed = true := not_or_of_imp (hown held hheld)
  generalize hslot : c.slot = slot at h
  cases h with
  | absent => exact ⟨rfl, RedisStorage.renew_eval_absent hslot⟩
  | live hopen hlive =>
    exact ⟨if_pos (hrefused _ rfl), RedisStorage.renew_eval_refused hslot (hrefused _ rfl)⟩
  | lapsed hopen hover => exact ⟨if_pos (hrefused _ rfl), RedisStorage.renew_eval_absent hslot⟩
  | completed hcompleted hkept =>
    exact ⟨if_pos (hrefused _ rfl), RedisStorage.renew_eval_refused hslot (hrefused _ rfl)⟩
  | lost hcompleted hunclaimed =>
    exact ⟨if_pos (hrefused _ rfl), RedisStorage.renew_eval_absent hslot⟩

theorem Tracks.renew (hexact : ExactLease c.clock leaseSeconds)
    (hlate : (⟨key, .renew owner leaseSeconds, c.clock⟩ : Timed).renewsLate entry = false)
    (h : Tracks key (⟨key, .renew owner leaseSeconds, c.clock⟩ :: ops) c.clock entry c.slot) :
    Agrees completedRetentionSeconds ⟨key, .renew owner leaseSeconds, c.clock⟩ ops entry c := by
  unfold Agrees
  simp only [RedisStorage.Call.prog, Timed.inMemory, Call.run]
  by_cases hown : ∀ held, entry = some held → held.owner = owner → held.completed = true
  · obtain ⟨hmemory, hredis⟩ := h.renew_refused hown
    rw [hmemory, hredis]
    refine ⟨rfl, h.of_quiet rfl fun held _ hcall => ?_⟩
    cases hcall
  · simp only [not_forall] at hown
    obtain ⟨held, rfl, rfl, hcompleted⟩ := hown
    have hopen : held.completed = false := eq_false_of_ne_true hcompleted
    generalize hslot : c.slot = slot at h
    cases h with
    | live _ hlive =>
      rw [RedisStorage.renew_eval_own hslot rfl hopen]
      simp only [Idempotency.renew, hopen, ne_eq, not_true, false_or, Bool.false_eq_true, if_false]
      exact ⟨trivial, Tracks.leased hexact⟩
    | lapsed _ hover =>
      -- the owner comes too late
      simp [Timed.renewsLate, holds, isOver, hopen, hover] at hlate
    | completed hcompleted' hkept => exact absurd hcompleted' hcompleted
    | lost hcompleted' hunclaimed => exact absurd hcompleted' hcompleted

theorem Tracks.ownerOp_eval_other {later : List Timed} {completed delete : Bool} {px : Option Nat}
    (hholds : holds owner entry = false) (h : Tracks key later c.clock entry c.slot) :
    (RedisStorage.ownerOp owner completed delete px).eval c = (c, .none) := by
  generalize hslot : c.slot = slot at h
  cases h with
  | live hopen hlive => exact RedisStorage.ownerOp_eval_other hslot (of_decide_eq_false hholds)
  | completed hcompleted hkept => exact RedisStorage.ownerOp_eval_other hslot (of_decide_eq_false hholds)
  | absent => exact RedisStorage.ownerOp_eval_absent hslot
  | lapsed hopen hover => exact RedisStorage.ownerOp_eval_absent hslot
  | lost hcompleted hunclaimed => exact RedisStorage.ownerOp_eval_absent hslot

theorem Tracks.complete
    (hretained : holds owner entry = true → ∀ later ∈ ops, later.key = key →
      later.now < c.clock + milliseconds completedRetentionSeconds / 1000)
    (hlate : (⟨key, .complete owner, c.clock⟩ : Timed).completesLate entry ops = false)
    (h : Tracks key (⟨key, .complete owner, c.clock⟩ :: ops) c.clock entry c.slot) :
    Agrees completedRetentionSeconds ⟨key, .complete owner, c.clock⟩ ops entry c := by
  unfold Agrees
  simp only [RedisStorage.Call.prog, Timed.inMemory, Call.run]
  cases hholds : holds owner entry with
  | false =>
    rw [complete_of_not_holds hholds, RedisStorage.complete, h.ownerOp_eval_other hholds]
    refine ⟨rfl, h.of_quiet rfl fun held _ hcall => ?_⟩
    cases hcall
  | true =>
    obtain ⟨held, rfl, rfl⟩ := exists_of_holds hholds
    simp only [Idempotency.complete, if_true]
    generalize hslot : c.slot = slot at h
    cases h with
    | live hopen hlive =>
      rw [RedisStorage.complete_eval_own hslot rfl]
      exact ⟨rfl, .completed rfl (hretained hholds)⟩
    | completed hcompleted hkept =>
      rw [RedisStorage.complete_eval_own hslot rfl]
      exact ⟨rfl, .completed rfl (hretained hholds)⟩
    | lapsed hopen hover =>
      have hunclaimed : claimedFirst key held.owner ops = false := by
        simpa [Timed.completesLate, holds, isOver, hopen, hover] using hlate
      rw [RedisStorage.complete, RedisStorage.ownerOp_eval_absent hslot, hslot]
      exact ⟨rfl, .lost rfl hunclaimed⟩
    | lost hcompleted hunclaimed =>
      rw [claimedFirst_of_quiet ops rfl (by intro hcall; cases hcall)] at hunclaimed
      rw [RedisStorage.complete, RedisStorage.ownerOp_eval_absent hslot, hslot]
      exact ⟨rfl, .lost rfl hunclaimed⟩

theorem Tracks.release
    (h : Tracks key (⟨key, .release owner, c.clock⟩ :: ops) c.clock entry c.slot) :
    Agrees completedRetentionSeconds ⟨key, .release owner, c.clock⟩ ops entry c := by
  unfold Agrees
  simp only [RedisStorage.Call.prog, Timed.inMemory, Call.run]
  cases hholds : holds owner entry with
  | false =>
    have hother (held : Claim) (hheld : entry = some held) :
        RedisStorage.Call.release owner ≠ .release held.owner := by
      rintro ⟨⟩
      rw [hheld] at hholds
      exact of_decide_eq_false hholds rfl
    rw [release_of_not_holds hholds, RedisStorage.release, h.ownerOp_eval_other hholds]
    exact ⟨rfl, h.of_quiet rfl hother⟩
  | true =>
    obtain ⟨held, rfl, rfl⟩ := exists_of_holds hholds
    simp only [Idempotency.release, if_true]
    generalize hslot : c.slot = slot at h
    cases h with
    | live hopen hlive =>
      rw [RedisStorage.release_eval_own hslot rfl]
      exact ⟨rfl, .absent⟩
    | completed hcompleted hkept =>
      rw [RedisStorage.release_eval_own hslot rfl]
      exact ⟨rfl, .absent⟩
    | lapsed hopen hover =>
      rw [RedisStorage.release, RedisStorage.ownerOp_eval_absent hslot, hslot]
      exact ⟨rfl, .absent⟩
    | lost hcompleted hunclaimed =>
      rw [RedisStorage.release, RedisStorage.ownerOp_eval_absent hslot, hslot]
      exact ⟨rfl, .absent⟩

end Step

/-- A call that does not come too late. -/
theorem Tracks.step {completedRetentionSeconds : Rat} {op : Timed} {ops : List Timed}
    {entry : Option Claim} {c : Cell Claim} (hexact : op.Exact)
    (hretained : ∀ owner, op.call = .complete owner → holds owner entry = true →
      ∀ later ∈ ops, later.key = op.key →
        later.now < op.now + milliseconds completedRetentionSeconds / 1000)
    (hrenews : op.renewsLate entry = false) (hcompletes : op.completesLate entry ops = false)
    (hclock : c.clock = op.now) (h : Tracks op.key (op :: ops) op.now entry c.slot) :
    Agrees completedRetentionSeconds op ops entry c := by
  obtain ⟨key, call, now⟩ := op
  subst hclock
  cases call with
  | claim owner leaseSeconds => exact Tracks.claim hexact h
  | complete owner => exact Tracks.complete (hretained owner rfl) hcompletes h
  | release owner => exact Tracks.release h
  | renew owner leaseSeconds => exact Tracks.renew hexact hrenews h

/-! ## Late calls are noticed -/

/-- A late renewal succeeds in memory only. -/
theorem Tracks.renewsLate_differs {completedRetentionSeconds : Rat} {op : Timed} {ops : List Timed}
    {entry : Option Claim} {c : Cell Claim} (hlate : op.renewsLate entry = true)
    (h : Tracks op.key (op :: ops) op.now entry c.slot) :
    (op.inMemory.2.run entry).2 ≠ ((op.call.prog completedRetentionSeconds).eval c).2 := by
  obtain ⟨key, call, now⟩ := op
  cases call with
  | renew owner leaseSeconds =>
    rw [Timed.renewsLate, Bool.and_eq_true] at hlate
    obtain ⟨held, rfl, rfl, hopen, hslot⟩ := h.of_isOver hlate.1 hlate.2
    simp [Timed.inMemory, Call.run, Idempotency.renew, hopen, RedisStorage.Call.prog,
      RedisStorage.renew_eval_absent hslot]
  | claim owner leaseSeconds => cases hlate
  | complete owner => cases hlate
  | release owner => cases hlate

theorem RedisStorage.eval_of_absent (completedRetentionSeconds : Rat) {call : RedisStorage.Call}
    {c : Cell Claim} (hclaim : call.isClaim = false) (h : c.slot = none) :
    ((call.prog completedRetentionSeconds).eval c).1 = c := by
  cases call with
  | claim owner leaseSeconds => cases hclaim
  | complete owner => exact congrArg Prod.fst (ownerOp_eval_absent h)
  | release owner => exact congrArg Prod.fst (ownerOp_eval_absent h)
  | renew owner leaseSeconds => exact congrArg Prod.fst (renew_eval_absent h)

theorem claim_differs {completedRetentionSeconds : Rat} {op : Timed} {held : Claim} {c : Cell Claim}
    (hclaim : op.call.isClaim = true) (hcompleted : held.completed = true) (h : c.slot = none) :
    (op.inMemory.2.run (some held)).2 ≠
      ((op.call.prog completedRetentionSeconds).eval c).2 := by
  obtain ⟨key, call, now⟩ := op
  cases call with
  | claim owner leaseSeconds =>
    simp [Timed.inMemory, Call.run, Idempotency.claim, pruneExpired, hcompleted,
      RedisStorage.Call.prog, RedisStorage.claim_eval_absent h]
  | complete owner => cases hclaim
  | release owner => cases hclaim
  | renew owner leaseSeconds => cases hclaim

theorem Timed.inMemory_ne_release {op : Timed} {owner : String} (h : op.call ≠ .release owner) :
    op.inMemory.2 ≠ .release owner := by
  obtain ⟨key, call, now⟩ := op
  cases call with
  | claim owner leaseSeconds => exact nofun
  | complete owner => exact nofun
  | release owner' =>
    rintro ⟨⟩
    exact h rfl
  | renew owner leaseSeconds => exact nofun

/-- A key that is completed in memory and gone in Redis gives it away when it is claimed. -/
theorem lost_differs {completedRetentionSeconds : Rat} {claims : Claims} {server : Server}
    {key : String} {held : Claim} {ops : List Timed} (hheld : claims key = some held)
    (hcompleted : held.completed = true) (hgone : (server key).slot = none)
    (hclaimed : claimedFirst key held.owner ops = true) :
    memoryAnswers claims ops ≠ redisAnswers completedRetentionSeconds server ops := by
  induction ops generalizing claims server with
  | nil => cases hclaimed
  | cons op ops ih =>
    intro heq
    obtain ⟨hhead, htail⟩ := List.cons.inj heq
    by_cases hkey : op.key = key
    · subst hkey
      rw [hheld] at hhead
      have habsent := Cell.slot_at_of_none op.now hgone
      by_cases hclaim : op.call.isClaim = true
      · exact claim_differs hclaim hcompleted habsent hhead
      · have hother : op.call ≠ .release held.owner := by
          intro hrelease
          simp [claimedFirst, hrelease, RedisStorage.Call.isClaim] at hclaimed
        have hstill := Call.run_of_completed hcompleted (Timed.inMemory_ne_release hother)
        have hnone := RedisStorage.eval_of_absent completedRetentionSeconds
          (eq_false_of_ne_true hclaim) habsent
        refine ih ?_ ?_ ?_ htail
        · show step claims (op.key, op.inMemory.2) op.key = some held
          rw [step_self, hheld, hstill]
        · rw [Function.update_self, Timed.inRedis, hnone]
          exact habsent
        · simpa [claimedFirst, hclaim, hother] using hclaimed
    · refine ih ?_ ?_ ?_ htail
      · rwa [step_of_ne claims hkey]
      · rwa [Function.update_of_ne (Ne.symm hkey)]
      · rwa [claimedFirst_of_ne ops hkey] at hclaimed

/-! ## Whole sequences -/

/-- The stores track each other on every key, up to the next call. -/
def Tracked (ops : List Timed) (claims : Claims) (server : Server) : Prop :=
  ∀ key, ∃ now, (∀ op ∈ ops, now ≤ op.now) ∧ Tracks key ops now (claims key) (server key).slot

theorem Tracked.at {op : Timed} {ops : List Timed} {claims : Claims} {server : Server}
    (h : Tracked (op :: ops) claims server) :
    Tracks op.key (op :: ops) op.now (claims op.key) ((server op.key).at op.now).slot := by
  obtain ⟨now, hnow, htracks⟩ := h op.key
  exact htracks.at (hnow op List.mem_cons_self)

/-- A call that does not come too late answers the same, and the stores still track each other. -/
theorem Tracked.step {completedRetentionSeconds : Rat} {op : Timed} {ops : List Timed}
    {claims : Claims} {server : Server} (hclock : ∀ later ∈ ops, op.now ≤ later.now)
    (hexact : op.Exact)
    (hretained : ∀ owner, op.call = .complete owner → holds owner (claims op.key) = true →
      ∀ later ∈ ops, later.key = op.key →
        later.now < op.now + milliseconds completedRetentionSeconds / 1000)
    (hrenews : op.renewsLate (claims op.key) = false)
    (hcompletes : op.completesLate (claims op.key) ops = false)
    (h : Tracked (op :: ops) claims server) :
    (op.inMemory.2.run (claims op.key)).2 = (op.inRedis completedRetentionSeconds server).2 ∧
      Tracked ops (step claims op.inMemory)
        (Function.update server op.key (op.inRedis completedRetentionSeconds server).1) := by
  obtain ⟨hanswer, htracks⟩ := h.at.step hexact hretained hrenews hcompletes rfl
  refine ⟨hanswer, fun key => ?_⟩
  by_cases hkey : op.key = key
  · subst hkey
    refine ⟨op.now, hclock, ?_⟩
    rw [Function.update_self]
    have hself : Idempotency.step claims op.inMemory op.key =
        (op.inMemory.2.run (claims op.key)).1 := step_self claims op.key op.inMemory.2
    rw [hself]
    exact htracks
  · obtain ⟨now, hnow, hother⟩ := h key
    refine ⟨now, fun later hlater => hnow later (List.mem_cons_of_mem _ hlater), ?_⟩
    rw [step_of_ne claims hkey, Function.update_of_ne (Ne.symm hkey)]
    exact hother.of_ne hkey

/-- After a late completion Redis has nothing where the memory store is completed. -/
theorem Tracks.completesLate_lost (completedRetentionSeconds : Rat) {op : Timed} {ops : List Timed}
    {entry : Option Claim} {c : Cell Claim} (hlate : op.completesLate entry ops = true)
    (h : Tracks op.key (op :: ops) op.now entry c.slot) :
    ∃ held, (op.inMemory.2.run entry).1 = some held ∧ held.completed = true ∧
      ((op.call.prog completedRetentionSeconds).eval c).1.slot = none ∧
        claimedFirst op.key held.owner ops = true := by
  obtain ⟨key, call, now⟩ := op
  cases call with
  | complete owner =>
    simp only [Timed.completesLate, Bool.and_eq_true] at hlate
    obtain ⟨⟨hholds, hisOver⟩, hclaimed⟩ := hlate
    obtain ⟨held, rfl, rfl, -, hslot⟩ := h.of_isOver hholds hisOver
    refine ⟨{ held with completed := true }, if_pos rfl, rfl, ?_, hclaimed⟩
    rw [RedisStorage.Call.prog, RedisStorage.complete, RedisStorage.ownerOp_eval_absent hslot]
    exact hslot
  | claim owner leaseSeconds => cases hlate
  | release owner => cases hlate
  | renew owner leaseSeconds => cases hlate

theorem Tracked.agree_iff {completedRetentionSeconds : Rat} {claims : Claims} {server : Server}
    {ops : List Timed} (hclock : ops.Pairwise fun op later => op.now ≤ later.now)
    (hretention : (milliseconds completedRetentionSeconds : Rat) / 1000 = completedRetentionSeconds)
    (hexact : ∀ op ∈ ops, op.Exact)
    (hretained : Retained completedRetentionSeconds claims ops) (h : Tracked ops claims server) :
    memoryAnswers claims ops = redisAnswers completedRetentionSeconds server ops ↔
      tooLate claims ops = false := by
  induction ops generalizing claims server with
  | nil => exact ⟨fun _ => rfl, fun _ => rfl⟩
  | cons op ops ih =>
    obtain ⟨hnext, hclock⟩ := List.pairwise_cons.mp hclock
    rw [List.forall_mem_cons] at hexact
    have hkept : ∀ owner, op.call = .complete owner → holds owner (claims op.key) = true →
        ∀ later ∈ ops, later.key = op.key →
          later.now < op.now + milliseconds completedRetentionSeconds / 1000 := by
      rw [hretention]
      exact hretained.1
    rw [memoryAnswers, redisAnswers, List.cons.injEq, tooLate, Bool.or_eq_false_iff,
      Bool.or_eq_false_iff]
    constructor
    · rintro ⟨hhead, htail⟩
      have hrenews : op.renewsLate (claims op.key) = false := by
        by_contra hlate
        exact h.at.renewsLate_differs (eq_true_of_ne_false hlate) hhead
      have hcompletes : op.completesLate (claims op.key) ops = false := by
        by_contra hlate
        obtain ⟨held, hheld, hcompleted, hgone, hclaimed⟩ :=
          h.at.completesLate_lost completedRetentionSeconds (eq_true_of_ne_false hlate)
        refine @lost_differs _ _ _ op.key held _ ?_ hcompleted ?_ hclaimed htail
        · rw [← hheld]
          exact step_self claims op.key op.inMemory.2
        · rw [Function.update_self]
          exact hgone
      obtain ⟨-, htracked⟩ := h.step hnext hexact.1 hkept hrenews hcompletes
      exact ⟨⟨hrenews, hcompletes⟩, (ih hclock hexact.2 hretained.2 htracked).mp htail⟩
    · rintro ⟨⟨hrenews, hcompletes⟩, hlate⟩
      obtain ⟨hanswer, htracked⟩ := h.step hnext hexact.1 hkept hrenews hcompletes
      exact ⟨hanswer, (ih hclock hexact.2 hretained.2 htracked).mpr hlate⟩

/-- **Interchangeable stores.** On every sequence of calls, with leases and a retention for which the
arithmetic of doubles is exact, a clock that does not go back and within the retention, both stores give the
same answers exactly when no call renews a claim of its owner whose lease is over, and none completes such a
claim on a key that is claimed before that owner releases it. -/
theorem answers_agree_iff (completedRetentionSeconds : Rat) (ops : List Timed)
    (hclock : ops.Pairwise fun op later => op.now ≤ later.now)
    (hretention : (milliseconds completedRetentionSeconds : Rat) / 1000 = completedRetentionSeconds)
    (hexact : ∀ op ∈ ops, op.Exact)
    (hretained : Retained completedRetentionSeconds empty ops) :
    memoryAnswers empty ops = redisAnswers completedRetentionSeconds emptyServer ops ↔
      tooLate empty ops = false := by
  refine Tracked.agree_iff hclock hretention hexact hretained fun key => ?_
  cases ops with
  | nil => exact ⟨0, nofun, .absent⟩
  | cons op ops =>
    refine ⟨op.now, ?_, .absent⟩
    rw [List.forall_mem_cons]
    exact ⟨le_refl _, (List.pairwise_cons.mp hclock).1⟩

/-- A claim is completed in time and absorbs a second one. -/
def inTime : List Timed :=
  [⟨"k", .claim "a" 60, 0⟩, ⟨"k", .complete "a", 10⟩, ⟨"k", .claim "b" 60, 100⟩]

theorem milliseconds_day : (milliseconds 86400 : Rat) / 1000 = 86400 := by
  rw [show (86400 : Rat) = (86400 : Nat) by norm_num, milliseconds_natCast (by decide) (by decide)]
  norm_num

theorem inTime_agrees :
    memoryAnswers empty inTime = redisAnswers 86400 emptyServer inTime := by
  have hexact : ∀ op ∈ inTime, op.Exact := by
    simp only [inTime, List.forall_mem_cons]
    exact ⟨exactLease_natCast 0 60 (by decide) (by decide), trivial,
      exactLease_natCast 100 60 (by decide) (by decide), nofun⟩
  have hretained : Retained 86400 empty inTime := by
    refine ⟨nofun, fun owner _ _ later hlater _ => ?_, nofun, trivial⟩
    obtain rfl := List.mem_singleton.mp hlater
    norm_num
  have hiff := answers_agree_iff 86400 inTime (by simp [inTime]; norm_num) milliseconds_day hexact
    hretained
  exact hiff.mpr (by decide +kernel)

/-- A claim is renewed one second after its lease. -/
theorem late_renewal_differs :
    ¬ ∀ (completedRetentionSeconds : Rat) (ops : List Timed),
      ops.Pairwise (fun op later => op.now ≤ later.now) →
      (milliseconds completedRetentionSeconds : Rat) / 1000 = completedRetentionSeconds →
      (∀ op ∈ ops, op.Exact) → Retained completedRetentionSeconds empty ops →
      memoryAnswers empty ops = redisAnswers completedRetentionSeconds emptyServer ops := by
  intro h
  have hexact : ∀ op ∈ [(⟨"k", .claim "a" 60, 0⟩ : Timed), ⟨"k", .renew "a" 60, 61⟩], op.Exact := by
    simp only [List.forall_mem_cons]
    exact ⟨exactLease_natCast 0 60 (by decide) (by decide),
      exactLease_natCast 61 60 (by decide) (by decide), nofun⟩
  have hagree := h 86400 _ (by simp) milliseconds_day hexact ⟨nofun, nofun, trivial⟩
  exact absurd hagree (by decide +kernel)

end Chattice.Idempotency
