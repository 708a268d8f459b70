import Chattice.Idempotency.Memory
import Chattice.Python.Double
import Chattice.Redis.Transaction
import Mathlib.Tactic.Linarith

/-!
# `RedisIdempotencyStorage`

The claim store in Redis: one document per key, with the lease as its TTL. `claim` is a `SET NX`
followed by a loop of transactions; `renew`, `complete` and `release` are loops of transactions. The
document is modelled by its fields (`_decode` reads back what `_encode` has written).

* `claim`, `renew`, `ownerOp` : what each call sends, in the order of the source;
* `spec` : what each call may send, given what it has read; `prog_obeys` : it sends nothing else;
* `standing`, `Over` : what an owner has stored last, and until when that counts;
* `claims_exclusive` : in every interleaving, a claim that answers `FIRST` was stored when the claims of all
  other owners were over, no expired claim is replaced by two claimers, and the other calls replace nothing
  but a claim of their own owner.
-/

namespace Chattice.Idempotency.RedisStorage

open Python (double double_natCast)
open Redis (Attempt Cell Prog Command Spec Write Slot)

/-- `max(1, int(seconds * 1000))`, with the product of two doubles. -/
def milliseconds (seconds : Rat) : Nat := max 1 ⌊double (double seconds * 1000)⌋.toNat

theorem milliseconds_natCast {n : Nat} (hpos : 0 < n) (h : n * 1000 < 2 ^ 53) :
    milliseconds n = n * 1000 := by
  have hproduct : (n : Rat) * 1000 = ((n * 1000 : Nat) : Rat) := by push_cast; rfl
  rw [milliseconds, double_natCast (by omega), hproduct, double_natCast h, Int.floor_natCast,
    Int.toNat_natCast]
  omega

/-- Not every whole number of milliseconds is kept. -/
example : milliseconds (1001 / 1000) = 1000 := by decide +kernel

/-- The calls of the storage on one key; their answers are those of the memory storage. -/
inductive Call where
  | claim (owner : String) (leaseSeconds : Rat)
  | complete (owner : String)
  | release (owner : String)
  | renew (owner : String) (leaseSeconds : Rat)
  deriving DecidableEq, Repr

/-- One transaction of the loop of `claim`, where `value` is the document the call wants to store. -/
def claimAttempt (value : Claim) (px : Nat) : Option Claim → Attempt Claim Answer
  | none => .exec (.set value (some px) true) fun executed =>
      if executed then .claimed .first else .claimed .active
  | some claim =>
    if claim.completed then .ret (.claimed .completed)
    else .clock fun now =>
      if now < claim.leaseUntil then .ret (.claimed .active)
      else .exec (.set value (some px) false) fun _ => .claimed .first

def claim (owner : String) (leaseSeconds : Rat) : Prog Claim Answer :=
  .clock fun now =>
    .send (.set ⟨owner, now + leaseSeconds, false⟩ (some (milliseconds leaseSeconds)) true) fun first =>
      if first then .ret (.claimed .first)
      else .transact (claimAttempt ⟨owner, now + leaseSeconds, false⟩ (milliseconds leaseSeconds))

def renew (owner : String) (leaseSeconds : Rat) : Prog Claim Answer :=
  .transact fun
    | none => .ret (.renewed false)
    | some claim =>
      if claim.owner ≠ owner ∨ claim.completed = true then .ret (.renewed false)
      else .clock fun now =>
        .exec (.set ⟨owner, now + leaseSeconds, false⟩ (some (milliseconds leaseSeconds)) false)
          fun _ => .renewed true

/-- `_owner_op` -/
def ownerOp (owner : String) (completed delete : Bool) (px : Option Nat) : Prog Claim Answer :=
  .transact fun
    | none => .ret .none
    | some claim =>
      if claim.owner ≠ owner then .ret .none
      else if delete then .exec .delete fun _ => .none
      else .exec (.set ⟨owner, claim.leaseUntil, completed⟩ px false) fun _ => .none

def complete (completedTtlMs : Nat) (owner : String) : Prog Claim Answer :=
  ownerOp owner true false (some completedTtlMs)

def release (owner : String) : Prog Claim Answer := ownerOp owner false true none

/-- What a call runs in a storage with `completed_retention_seconds`. -/
def Call.prog (completedRetentionSeconds : Rat) : Call → Prog Claim Answer
  | .claim owner leaseSeconds => RedisStorage.claim owner leaseSeconds
  | .complete owner => RedisStorage.complete (milliseconds completedRetentionSeconds) owner
  | .release owner => RedisStorage.release owner
  | .renew owner leaseSeconds => RedisStorage.renew owner leaseSeconds

def Call.owner : Call → String
  | .claim owner _ => owner
  | .complete owner => owner
  | .release owner => owner
  | .renew owner _ => owner

def Call.isClaim : Call → Bool
  | .claim .. => true
  | _ => false

/-! ## What each call may send -/

/-- The command stores a claim of `owner` that is not completed. -/
def StoresClaim (owner : String) (cmd : Command Claim) : Prop :=
  ∃ leaseUntil px nx, cmd = .set ⟨owner, leaseUntil, false⟩ px nx

/-- The TTL that goes with a lease is no shorter than the lease: so it is for whole milliseconds whose product
is exact, and for any lease of at most one millisecond. -/
def Call.Covered : Call → Prop
  | .claim _ leaseSeconds | .renew _ leaseSeconds => leaseSeconds ≤ milliseconds leaseSeconds / 1000
  | .complete _ | .release _ => True

/-- The command stores a claim of the caller, with a TTL that covers its lease. -/
def StoresLease (call : Call) (now : Rat) (cmd : Command Claim) : Prop :=
  ∃ leaseUntil px nx, cmd = .set ⟨call.owner, leaseUntil, false⟩ (some px) nx ∧
    (call.Covered → leaseUntil ≤ now + px / 1000)

def Call.Writes (completedTtlMs : Nat) (call : Call) (now : Rat) (cmd : Command Claim) : Prop :=
  match call with
  | .claim .. | .renew .. => StoresLease call now cmd
  | .complete owner => ∃ leaseUntil, cmd = .set ⟨owner, leaseUntil, true⟩ (some completedTtlMs) false
  | .release _ => cmd = .delete

/-- A claim stores its own document over nothing, by `SET NX`, or over an expired claim; the other
calls change a claim of their owner. -/
def spec (completedTtlMs : Nat) : Spec Call Claim Answer where
  send := fun call now cmd =>
    call.isClaim = true ∧ StoresLease call now cmd ∧ ∃ value px, cmd = .set value px true
  write := fun call now raw cmd => call.Writes completedTtlMs now cmd ∧
    if call.isClaim = true then
      ∀ held, raw = some held → held.completed = false ∧ held.leaseUntil ≤ now
    else ∃ held, raw = some held ∧ held.owner = call.owner
  quiet := fun call answer => call.isClaim = true → answer ≠ .claimed .first

variable {completedTtlMs : Nat}

theorem stores_lease {call : Call} {leaseSeconds started now : Rat} {cmd : Command Claim} (nx : Bool)
    (hcall : call.Covered → leaseSeconds ≤ milliseconds leaseSeconds / 1000) (hnow : started ≤ now)
    (hcmd : cmd = .set ⟨call.owner, started + leaseSeconds, false⟩ (some (milliseconds leaseSeconds)) nx) :
    StoresLease call now cmd := by
  refine ⟨_, _, _, hcmd, fun hcovered => ?_⟩
  have hlease := hcall hcovered
  linarith

theorem claimAttempt_obeys (owner : String) {leaseSeconds started now : Rat} (hnow : started ≤ now)
    (raw : Option Claim) :
    (claimAttempt ⟨owner, started + leaseSeconds, false⟩ (milliseconds leaseSeconds) raw).Obeys
      (spec completedTtlMs) (.claim owner leaseSeconds) false raw now := by
  cases raw with
  | none => exact ⟨fun t ht => ⟨stores_lease true id (hnow.trans ht) rfl, nofun⟩, fun _ _ _ _ => nofun⟩
  | some held =>
    rw [claimAttempt]
    split
    · exact fun _ _ => nofun
    · next hcompleted =>
      intro t ht
      dsimp only
      split
      · exact fun _ _ => nofun
      · next hexpired =>
        refine ⟨fun t' ht' => ⟨stores_lease false id (hnow.trans (ht.trans ht')) rfl, ?_⟩,
          fun _ hset => nomatch hset⟩
        -- the clock goes on, so the lease is still over when the transaction is applied
        rintro _ ⟨⟩
        exact ⟨eq_false_of_ne_true hcompleted, (not_lt.mp hexpired).trans ht'⟩

theorem claim_obeys (owner : String) (leaseSeconds now : Rat) :
    (claim owner leaseSeconds).Obeys (spec completedTtlMs) (.claim owner leaseSeconds) false now := by
  intro t _
  refine ⟨fun t' ht' => ⟨rfl, stores_lease true id ht' rfl, _, _, rfl⟩, fun t' ht' => ⟨nofun, ?_⟩⟩
  exact fun raw t'' ht'' => claimAttempt_obeys owner (ht'.trans ht'') raw

theorem renew_obeys (owner : String) (leaseSeconds now : Rat) :
    (renew owner leaseSeconds).Obeys (spec completedTtlMs) (.renew owner leaseSeconds) false now := by
  intro raw t _
  cases raw with
  | none => exact fun _ => nofun
  | some held =>
    dsimp only
    split
    · exact fun _ => nofun
    · next hown =>
      have howner : held.owner = owner := not_not.mp fun hne => hown (.inl hne)
      exact fun _ _ => ⟨fun _ ht => ⟨stores_lease false id ht rfl, held, rfl, howner⟩, fun _ _ _ => nofun⟩

theorem ownerOp_obeys (call : Call) (hcall : call.isClaim = false) (completed delete : Bool)
    (px : Option Nat)
    (hwrites : ∀ (leaseUntil now : Rat), call.Writes completedTtlMs now
      (if delete = true then .delete else .set ⟨call.owner, leaseUntil, completed⟩ px false)) (now : Rat) :
    (ownerOp call.owner completed delete px).Obeys (spec completedTtlMs) call false now := by
  have hquiet : ∀ answer, (spec completedTtlMs).quiet call answer := by
    intro answer hclaim
    rw [hcall] at hclaim
    cases hclaim
  intro raw t _
  cases raw with
  | none => exact fun _ => hquiet _
  | some held =>
    dsimp only
    split
    · exact fun _ => hquiet _
    · next hown =>
      have howner : ∃ held', some held = some held' ∧ held'.owner = call.owner :=
        ⟨held, rfl, not_not.mp hown⟩
      have hwrite (cmd : Command Claim) (t' : Rat) (hcmd : call.Writes completedTtlMs t' cmd) :
          (spec completedTtlMs).write call t' (some held) cmd := by
        refine ⟨hcmd, ?_⟩
        rw [hcall]
        exact howner
      have hcmd (t' : Rat) := hwrites held.leaseUntil t'
      split
      · next hdelete =>
        rw [hdelete] at hcmd
        exact ⟨fun t' _ => hwrite _ t' (hcmd t'), fun _ _ _ => hquiet _⟩
      · next hdelete =>
        rw [eq_false_of_ne_true hdelete] at hcmd
        exact ⟨fun t' _ => hwrite _ t' (hcmd t'), fun _ _ _ => hquiet _⟩

/-- Every call sends only what its specification allows, whatever it reads. -/
theorem prog_obeys (completedRetentionSeconds : Rat) (call : Call) (now : Rat) :
    (call.prog completedRetentionSeconds).Obeys (spec (milliseconds completedRetentionSeconds)) call false
      now := by
  cases call with
  | claim owner leaseSeconds => exact claim_obeys owner leaseSeconds now
  | complete owner =>
    exact ownerOp_obeys (.complete owner) rfl true false _ (fun leaseUntil _ => ⟨leaseUntil, rfl⟩) now
  | release owner => exact ownerOp_obeys (.release owner) rfl false true none (fun _ _ => rfl) now
  | renew owner leaseSeconds => exact renew_obeys owner leaseSeconds now

/-! ## Every interleaving -/

abbrev StoreState := Redis.State Call Claim Answer

/-- The states of all interleavings of calls on one key. -/
abbrev Reach (completedRetentionSeconds : Rat) : StoreState → Prop :=
  Redis.Reach (Call.prog completedRetentionSeconds)

/-- No claim that is still live or completed is stored. -/
def Free (c : Redis.Cell Claim) : Prop :=
  ∀ slot, c.slot = some slot → slot.value.completed = false ∧ slot.value.leaseUntil ≤ c.clock

/-- The stamp of the expired claim that a claimer has read and taken over. -/
def takenOver (e : Write Call Claim) : Option Nat :=
  match e.seen with
  | some (some slot) => if e.caller.isClaim then some slot.stamp else none
  | _ => none

theorem writes_of_ok {e : Write Call Claim} (he : e.Ok (spec completedTtlMs)) :
    e.caller.Writes completedTtlMs e.pre.clock e.cmd := by
  have hallowed := he.allowed
  unfold Write.Allowed at hallowed
  cases hseen : e.seen with
  | none =>
    rw [hseen] at hallowed
    obtain ⟨hclaim, hstores, -⟩ := hallowed
    cases hcaller : e.caller with
    | claim owner leaseSeconds =>
      rw [hcaller] at hstores
      exact hstores
    | complete owner => rw [hcaller] at hclaim; cases hclaim
    | release owner => rw [hcaller] at hclaim; cases hclaim
    | renew owner leaseSeconds => rw [hcaller] at hclaim; cases hclaim
  | some seen =>
    rw [hseen] at hallowed
    exact hallowed.1.1

theorem free_of_claim {e : Write Call Claim} (he : e.Ok (spec completedTtlMs))
    (hclaim : e.caller.isClaim = true) : Free e.pre := by
  intro slot hslot
  have hallowed := he.allowed
  unfold Write.Allowed at hallowed
  cases hseen : e.seen with
  | none =>
    -- `SET NX` changes an absent key only
    rw [hseen] at hallowed
    obtain ⟨-, -, value, px, hcmd⟩ := hallowed
    have hchanged := he.changed
    rw [hcmd] at hchanged
    rw [Command.slot_of_set_nx hchanged] at hslot
    cases hslot
  | some seen =>
    rw [hseen] at hallowed
    obtain ⟨⟨-, hexpired⟩, hfound, -⟩ := hallowed
    rw [if_pos hclaim] at hexpired
    exact hexpired slot.value (by rw [hfound slot hslot]; rfl)

theorem owner_write {e : Write Call Claim} (he : e.Ok (spec completedTtlMs))
    (hclaim : e.caller.isClaim = false) {slot : Slot Claim} (hslot : e.pre.slot = some slot) :
    slot.value.owner = e.caller.owner := by
  have hallowed := he.allowed
  unfold Write.Allowed at hallowed
  cases hseen : e.seen with
  | none =>
    rw [hseen] at hallowed
    rw [hallowed.1] at hclaim
    cases hclaim
  | some seen =>
    rw [hseen] at hallowed
    obtain ⟨⟨-, hown⟩, hfound, -⟩ := hallowed
    rw [hclaim, if_neg (by decide)] at hown
    obtain ⟨held, hraw, howner⟩ := hown
    rw [hfound slot hslot] at hraw
    rw [← howner, ← Option.some_inj.mp hraw]

theorem takenOver_eq {e : Write Call Claim} (he : e.Ok (spec completedTtlMs)) {stamp : Nat}
    (h : takenOver e = some stamp) : stamp = e.pre.version := by
  have hallowed := he.allowed
  unfold Write.Allowed at hallowed
  unfold takenOver at h
  split at h
  · next slot hseen =>
    rw [hseen] at hallowed
    obtain ⟨-, -, hstamp⟩ := hallowed
    split at h
    · rw [← Option.some_inj.mp h]
      exact hstamp slot rfl
    · cases h
  · cases h

theorem takenOver_nodup {completedRetentionSeconds : Rat} {s : StoreState}
    (hs : Reach completedRetentionSeconds s) : (s.log.filterMap takenOver).Nodup := by
  have hordered := Redis.Reach.ordered (prog_obeys completedRetentionSeconds) hs
  have hwritten : ∀ e ∈ s.log, e.Ok (spec (milliseconds completedRetentionSeconds)) := fun e he =>
    Redis.Reach.written (prog_obeys completedRetentionSeconds) hs he
  unfold List.Nodup
  rw [List.pairwise_filterMap]
  refine hordered.imp_of_mem fun he he' hlt stamp hstamp stamp' hstamp' => ?_
  rw [takenOver_eq (hwritten _ he) hstamp, takenOver_eq (hwritten _ he') hstamp']
  omega

/-! ## The claims of the other owners -/

/-- What the last command of `owner` has stored, and when; nothing once it has deleted its claim. -/
def standing (owner : String) (log : List (Write Call Claim)) : Option (Claim × Rat) :=
  (log.filter fun e => e.caller.owner = owner).getLast?.bind fun e =>
    match e.cmd with
    | .set value _ _ => some (value, e.pre.clock)
    | .delete => none

/-- The lease is over or, once the claim is completed, the time it is retained for. -/
def Over (completedTtlMs : Nat) (now : Rat) (stored : Claim × Rat) : Prop :=
  if stored.1.completed = true then stored.2 + completedTtlMs / 1000 ≤ now
  else stored.1.leaseUntil ≤ now

theorem Over.mono {now now' : Rat} {stored : Claim × Rat} (hle : now ≤ now')
    (h : Over completedTtlMs now stored) : Over completedTtlMs now' stored := by
  unfold Over at h ⊢
  split at h
  · next hcompleted => exact (if_pos hcompleted).mpr (h.trans hle)
  · next hopen => exact (if_neg hopen).mpr (h.trans hle)

theorem standing_snoc_of_ne {owner : String} {log : List (Write Call Claim)} {e : Write Call Claim}
    (h : e.caller.owner ≠ owner) : standing owner (log ++ [e]) = standing owner log := by
  rw [standing, List.filter_append, List.filter_cons_of_neg (by simpa using h), List.filter_nil,
    List.append_nil]
  rfl

theorem standing_snoc {log : List (Write Call Claim)} (e : Write Call Claim) :
    standing e.caller.owner (log ++ [e]) =
      match e.cmd with
      | .set value _ _ => some (value, e.pre.clock)
      | .delete => none := by
  rw [standing, List.filter_append, List.filter_cons_of_pos (by simp), List.filter_nil,
    List.getLast?_concat]
  rfl

/-- The claim is the stored one, and stays until it is over. -/
structure Kept (completedTtlMs : Nat) (owner : String) (c : Cell Claim) (stored : Claim × Rat) : Prop where
  exists_slot : ∃ stamp deadline, c.slot = some ⟨stored.1, stamp, some deadline⟩ ∧
    ∀ now, deadline ≤ now → Over completedTtlMs now stored
  owner : stored.1.owner = owner

/-- Every owner's claim is over, or is the stored one. -/
def Standing (completedTtlMs : Nat) (c : Cell Claim) (log : List (Write Call Claim)) : Prop :=
  ∀ owner stored, standing owner log = some stored →
    Over completedTtlMs c.clock stored ∨ Kept completedTtlMs owner c stored

/-- When a claim is stored, the claims of all other owners are over. -/
def Alone (completedTtlMs : Nat) (log : List (Write Call Claim)) : Prop :=
  ∀ before e after, log = before ++ e :: after → e.caller.isClaim = true →
    ∀ other stored, other ≠ e.caller.owner → standing other before = some stored →
      Over completedTtlMs e.pre.clock stored

theorem kept_of_set {e : Write Call Claim} (he : e.Ok (spec completedTtlMs)) (hcovered : e.caller.Covered)
    {value : Claim} {px : Option Nat} {nx : Bool} (hcmd : e.cmd = .set value px nx) :
    Kept completedTtlMs e.caller.owner (e.cmd.run e.pre).1 (value, e.pre.clock) := by
  have hwrites := writes_of_ok he
  have hrun : (e.cmd.run e.pre).1 = e.pre.write value px := by
    have hchanged := he.changed
    rw [hcmd, Command.run] at hchanged ⊢
    split at hchanged
    · cases hchanged
    · next h => rw [if_neg h]
  rw [hrun]
  rw [hcmd] at hwrites
  have hlease (h : StoresLease e.caller e.pre.clock (.set value px nx)) :
      Kept completedTtlMs e.caller.owner (e.pre.write value px) (value, e.pre.clock) := by
    obtain ⟨leaseUntil, px, nx, hset, hcover⟩ := h
    cases hset
    exact ⟨⟨_, _, rfl, fun now hnow => (hcover hcovered).trans hnow⟩, rfl⟩
  cases hcaller : e.caller with
  | claim owner leaseSeconds =>
    rw [hcaller] at hwrites hlease
    exact hlease hwrites
  | renew owner leaseSeconds =>
    rw [hcaller] at hwrites hlease
    exact hlease hwrites
  | complete owner =>
    rw [hcaller] at hwrites
    obtain ⟨leaseUntil, hset⟩ := hwrites
    cases hset
    exact ⟨⟨_, _, rfl, fun now hnow => hnow⟩, rfl⟩
  | release owner =>
    rw [hcaller] at hwrites
    cases hwrites

/-- A claim that is there when another owner's command changes the key is over. -/
theorem Standing.over_of_write {e : Write Call Claim} {log : List (Write Call Claim)}
    (h : Standing completedTtlMs e.pre log) (he : e.Ok (spec completedTtlMs)) {owner : String}
    (hne : e.caller.owner ≠ owner) {stored : Claim × Rat} (hstored : standing owner log = some stored) :
    Over completedTtlMs e.pre.clock stored := by
  obtain hover | hkept := h owner stored hstored
  · exact hover
  obtain ⟨stamp, deadline, hslot, -⟩ := hkept.exists_slot
  cases hclaim : e.caller.isClaim with
  | true =>
    obtain ⟨hopen, hexpired⟩ := free_of_claim he hclaim _ hslot
    exact (if_neg (Bool.eq_false_iff.mp hopen)).mpr hexpired
  | false => exact absurd ((owner_write he hclaim hslot).symm.trans hkept.owner) hne

/-- **One command.** -/
theorem Standing.write {e : Write Call Claim} {log : List (Write Call Claim)}
    (h : Standing completedTtlMs e.pre log) (he : e.Ok (spec completedTtlMs))
    (hcovered : e.caller.Covered) : Standing completedTtlMs (e.cmd.run e.pre).1 (log ++ [e]) := by
  intro owner stored hstored
  have hclock : (e.cmd.run e.pre).1.clock = e.pre.clock := by
    rcases e.cmd.run_cases e.pre with ⟨-, -, hclock, -⟩ | hsame
    · exact hclock
    · rw [hsame]
  by_cases howner : e.caller.owner = owner
  · subst howner
    rw [standing_snoc] at hstored
    cases hcmd : e.cmd with
    | set value px nx =>
      rw [hcmd] at hstored
      cases hstored
      rw [← hcmd]
      exact .inr (kept_of_set he hcovered hcmd)
    | delete =>
      rw [hcmd] at hstored
      cases hstored
  · rw [standing_snoc_of_ne howner] at hstored
    rw [hclock]
    exact .inl (h.over_of_write he howner hstored)

theorem Alone.write {e : Write Call Claim} {log : List (Write Call Claim)} (h : Alone completedTtlMs log)
    (hstanding : Standing completedTtlMs e.pre log) (he : e.Ok (spec completedTtlMs)) :
    Alone completedTtlMs (log ++ [e]) := by
  intro before e' after hlog hclaim other stored hne hstored
  rcases List.eq_nil_or_concat after with rfl | ⟨after, last, rfl⟩
  · obtain ⟨rfl, heq⟩ := List.append_inj' hlog rfl
    cases heq
    exact hstanding.over_of_write he (Ne.symm hne) hstored
  · rw [List.concat_eq_append, ← List.cons_append, ← List.append_assoc] at hlog
    obtain ⟨rfl, -⟩ := List.append_inj' hlog rfl
    exact h before e' after rfl hclaim other stored hne hstored

/-- In every run whose TTLs cover the leases, each owner's claim is over or stored, and a claim was stored when
those of all other owners were over. -/
theorem standing_alone {completedRetentionSeconds : Rat} {s : StoreState}
    (hs : Reach completedRetentionSeconds s) (hcovered : ∀ e ∈ s.log, e.caller.Covered) :
    Standing (milliseconds completedRetentionSeconds) s.cell s.log ∧
      Alone (milliseconds completedRetentionSeconds) s.log := by
  revert hcovered
  refine Redis.Reach.logged (prog_obeys completedRetentionSeconds) (P := fun c log =>
    (∀ e ∈ log, e.caller.Covered) → Standing _ c log ∧ Alone _ log) ?_ ?_ ?_ ?_ hs
  · intro c _ _
    refine ⟨fun owner stored hstored => ?_, fun before e after hlog => ?_⟩
    · cases hstored
    · exact absurd hlog.symm (List.append_ne_nil_of_right_ne_nil _ (List.cons_ne_nil _ _))
  · intro c log now ih hnow hcovered
    obtain ⟨hstanding, halone⟩ := ih hcovered
    refine ⟨fun owner stored hstored => ?_, halone⟩
    obtain hover | hkept := hstanding owner stored hstored
    · exact .inl (hover.mono hnow)
    · exact .inr ⟨hkept.exists_slot, hkept.owner⟩
  · intro c log slot deadline version ih hslot hdeadline hout hcovered
    obtain ⟨hstanding, halone⟩ := ih hcovered
    refine ⟨fun owner stored hstored => .inl ?_, halone⟩
    obtain hover | hkept := hstanding owner stored hstored
    · exact hover
    · -- the claim whose TTL has run out is the stored one
      obtain ⟨stamp, due, hstill, hends⟩ := hkept.exists_slot
      rw [hslot] at hstill
      cases hstill
      cases hdeadline
      exact hends _ hout
  · intro e log he ih hcovered
    obtain ⟨hstanding, halone⟩ := ih fun e' he' => hcovered e' (List.mem_append_left _ he')
    have hlast := hcovered e (List.mem_append_right _ (List.mem_singleton.mpr rfl))
    exact ⟨hstanding.write he hlast, halone.write hstanding he⟩

/-- **Claims are exclusive.** In every interleaving of calls with leases that their TTLs cover: a claim that
answers `FIRST` has stored its claim when no claim was live or completed, neither the stored one nor any that
another owner had stored and not released, whether it had vanished or not; no expired claim is taken over
twice; and a `renew`, `complete` or `release` changes no claim of another owner. -/
theorem claims_exclusive (completedRetentionSeconds : Rat) (s : StoreState)
    (hs : Reach completedRetentionSeconds s) (hcovered : ∀ client ∈ s.clients, client.1.Covered) :
    (∀ (i : Nat) (owner : String) (leaseSeconds : Rat),
      s.clients[i]? = some (.claim owner leaseSeconds, .prog (.ret (.claimed .first))) →
      ∃ before e after, s.log = before ++ e :: after ∧ e.client = i ∧ StoresClaim owner e.cmd ∧
        Free e.pre ∧ ∀ other stored, other ≠ owner → standing other before = some stored →
          Over (milliseconds completedRetentionSeconds) e.pre.clock stored) ∧
    (s.log.filterMap takenOver).Nodup ∧
    (∀ e ∈ s.log, e.caller.isClaim = false → ∀ slot, e.pre.slot = some slot →
      slot.value.owner = e.caller.owner) := by
  have hwritten : ∀ e ∈ s.log, e.Ok (spec (milliseconds completedRetentionSeconds)) := fun e he =>
    Redis.Reach.written (prog_obeys completedRetentionSeconds) hs he
  have hcallers : ∀ e ∈ s.log, e.caller.Covered := by
    intro e he
    obtain ⟨-, -, phase, hclient⟩ := (hs.inv (prog_obeys completedRetentionSeconds)).written e he
    exact hcovered _ (List.mem_of_getElem? hclient)
  refine ⟨fun i owner leaseSeconds hi => ?_, takenOver_nodup hs, fun e he hclaim slot hslot => ?_⟩
  · have hloud : ¬ (spec (milliseconds completedRetentionSeconds)).quiet (.claim owner leaseSeconds)
        (.claimed .first) := fun hquiet => hquiet rfl rfl
    obtain ⟨e, he, hclient, hcaller⟩ :=
      Redis.Reach.answered (prog_obeys completedRetentionSeconds) hs hi hloud
    obtain ⟨before, after, hlog⟩ := List.append_of_mem he
    have hclaim : e.caller.isClaim = true := by
      rw [hcaller]
      rfl
    have hwrites := writes_of_ok (hwritten e he)
    have halone := (standing_alone hs hcallers).2 before e after hlog hclaim
    rw [hcaller] at hwrites halone
    obtain ⟨leaseUntil, px, nx, hcmd, -⟩ := hwrites
    exact ⟨before, e, after, hlog, hclient, ⟨_, _, _, hcmd⟩, free_of_claim (hwritten e he) hclaim, halone⟩
  · exact owner_write (hwritten e he) hclaim hslot

/-- `a` has claimed the key at 0. -/
def claimed (leaseSeconds : Rat) : StoreState :=
  let called : StoreState :=
    ⟨⟨none, 0, 0⟩, [(.claim "a" leaseSeconds, .prog (claim "a" leaseSeconds))], []⟩
  (called.advance false 0).advance false 0

theorem claimed_reach (leaseSeconds : Rat) : Reach 86400 (claimed leaseSeconds) := by
  have hempty : Reach 86400 ⟨⟨none, 0, 0⟩, [], []⟩ := .init nofun
  exact .step (.step (.call hempty (.claim "a" leaseSeconds)) false 0) false 0

/-- `b` claims the key later, in `steps` steps. -/
def claimedAgain (s : StoreState) (now : Rat) (leaseSeconds : Rat) (steps : Nat) : StoreState :=
  (fun s => s.advance false 1)^[steps]
    { s with
      cell := { s.cell with clock := now }
      clients := s.clients ++ [(.claim "b" leaseSeconds, .prog (claim "b" leaseSeconds))] }

theorem claimedAgain_reach {s : StoreState} (hs : Reach 86400 s) (now : Rat) (hnow : s.cell.clock ≤ now)
    (leaseSeconds : Rat) (steps : Nat) : Reach 86400 (claimedAgain s now leaseSeconds steps) := by
  unfold claimedAgain
  induction steps with
  | zero => exact .call (.tick hs hnow) (.claim "b" leaseSeconds)
  | succ steps ih =>
    rw [Function.iterate_succ_apply']
    exact .step ih false 1

def answer : Call × Redis.Phase Claim Answer → Option (Call × Answer)
  | (call, .prog (.ret answer)) => some (call, answer)
  | _ => none

theorem client_of_answer {s : StoreState} {i : Nat} {call : Call} {a : Answer}
    (h : s.clients[i]?.bind answer = some (call, a)) : s.clients[i]? = some (call, .prog (.ret a)) := by
  obtain ⟨client, hclient, hanswer⟩ := Option.bind_eq_some_iff.mp h
  unfold answer at hanswer
  split at hanswer
  · cases hanswer
    exact hclient
  · cases hanswer

/-- `b` finds the claim of `a` when its lease is over, and takes it over. -/
theorem takeover_exclusive :
    ∃ before e after, (claimedAgain (claimed 300) 300 300 6).log = before ++ e :: after ∧ e.client = 1 ∧
      StoresClaim "b" e.cmd ∧ Free e.pre ∧ ∀ other stored, other ≠ "b" →
        standing other before = some stored → Over (milliseconds 86400) e.pre.clock stored := by
  have hreach := claimedAgain_reach (claimed_reach 300) 300 (by decide +kernel) 300 6
  have hlease : (Call.claim "a" 300).Covered := by
    show (300 : Rat) ≤ milliseconds (300 : Nat) / 1000
    rw [milliseconds_natCast (by decide) (by decide)]
    norm_num
  have hcovered : ∀ client ∈ (claimedAgain (claimed 300) 300 300 6).clients, client.1.Covered := by
    show ∀ client ∈ [(Call.claim "a" 300, _), (Call.claim "b" 300, _)], client.1.Covered
    simp only [List.forall_mem_cons]
    exact ⟨hlease, hlease, nofun⟩
  exact (claims_exclusive 86400 _ hreach hcovered).1 1 "b" 300 (client_of_answer (by decide +kernel))

/-- A claim for 1.001 seconds is gone after one: its TTL is cut to 1000 milliseconds. -/
def gone : StoreState :=
  let claimed := claimed (1001 / 1000)
  { claimed with cell := { claimed.cell with slot := none, clock := 1 } }

/-- The claim of `b` answers `FIRST` while the lease of `a` goes on. -/
theorem short_ttl_not_exclusive :
    ¬ ∀ (completedRetentionSeconds : Rat) (s : StoreState), Reach completedRetentionSeconds s →
      ∀ (i : Nat) (owner : String) (leaseSeconds : Rat),
        s.clients[i]? = some (.claim owner leaseSeconds, .prog (.ret (.claimed .first))) →
        ∃ before e after, s.log = before ++ e :: after ∧ e.client = i ∧ StoresClaim owner e.cmd ∧
          Free e.pre ∧ ∀ other stored, other ≠ owner → standing other before = some stored →
            Over (milliseconds completedRetentionSeconds) e.pre.clock stored := by
  intro h
  have hgone : Reach 86400 gone :=
    ((claimed_reach (1001 / 1000)).tick (show _ ≤ (1 : Rat) by decide +kernel)).vanish false rfl
      (show _ = some (1 : Rat) by decide +kernel) (by decide +kernel)
  have hreach := claimedAgain_reach hgone 1 (by decide +kernel) 300 2
  obtain ⟨before, e, after, hlog, hclient, -, -, hover⟩ := h 86400 _ hreach 1 "b" 300 rfl
  have htwo : (claimedAgain gone 1 300 2).log.map Write.client = [0, 1] := rfl
  -- the claim of `b` comes second
  obtain ⟨first, rfl⟩ : ∃ first, before = [first] := by
    rw [hlog, List.map_append, List.map_cons] at htwo
    match before, htwo with
    | [], htwo =>
      rw [List.map_nil, List.nil_append, hclient] at htwo
      cases htwo
    | [first], _ => exact ⟨first, rfl⟩
    | _ :: _ :: _, htwo => simp at htwo
  have hlast := congrArg (fun log => (log[0]?, log[1]?)) hlog
  obtain ⟨hfirst, he⟩ := Prod.ext_iff.mp hlast
  cases hfirst
  cases he
  have hlease : (0 : Rat) + 1001 / 1000 ≤ 1 :=
    hover "a" (⟨"a", 0 + 1001 / 1000, false⟩, 0) (by decide) rfl
  exact absurd hlease (by decide +kernel)

end Chattice.Idempotency.RedisStorage
