import Chattice.Fsm.RecordDocument
import Chattice.Json.Text
import Chattice.Redis.Alone
import Mathlib.Tactic.Linarith

/-!
# The two record stores on the same calls

One sequence of `get_record` and `compare_and_set` calls on one key, made one after the other against
both stores, with one clock of whole milliseconds that stands still during a call. The TTL of a Redis
key is the time left until `expires_at`, cut to whole milliseconds: the key is gone up to a millisecond
before `expires_at`, or a little more where the doubles round down, while the memory store keeps the record
up to `expires_at` itself.

* `Tracks` : what the key holds in Redis, given the entry of the memory store;
* `Tracks.step` : a call that does not meet a record in its last moment answers the same and keeps it;
* `outcomes_agree_iff` : both stores answer alike exactly when no call meets a record in its last
  moment, but for a `compare_and_set` that both refuse.
-/

namespace Chattice.Fsm.RedisRecord

open Redis (Cell Slot)

/-- A record that `FSMRecord(...)` has built. -/
abbrev BuiltRecord := { record : FSMRecord // record.Built }

inductive Op where
  | getRecord
  | compareAndSet (expectedRevision : Int) (replacement : BuiltRecord)

/-- A call, and the millisecond in which it is made. -/
structure Timed where
  op : Op
  ms : Int

def seconds (ms : Int) : Rat := ms / 1000

/-- How a call ends: with a record or `None`, with what it has stored, with a conflict, or with an
error of `_decode`. -/
inductive Outcome where
  | record (record : Option FSMRecord)
  | stored (record : FSMRecord)
  | conflict
  | undecodable

/-! ## The two stores -/

/-- The call on the memory store: the entry it leaves, and how it ends. -/
def Timed.inMemory (t : Timed) (entry : Option FSMRecord) : Option FSMRecord × Outcome :=
  match t.op with
  | .getRecord =>
    ((Fsm.getRecord (seconds t.ms) entry).1, .record (Fsm.getRecord (seconds t.ms) entry).2)
  | .compareAndSet expectedRevision replacement =>
    match Fsm.compareAndSet expectedRevision replacement (seconds t.ms) (seconds t.ms) entry with
    | (entry, .ok stored) => (entry, .stored stored)
    | (entry, .error _) => (entry, .conflict)

def memoryOutcomes (entry : Option FSMRecord) : List Timed → List Outcome
  | [] => []
  | t :: ts => (t.inMemory entry).2 :: memoryOutcomes (t.inMemory entry).1 ts

def Op.call : Op → Call
  | .getRecord => .getRecord
  | .compareAndSet expectedRevision replacement => .compareAndSet expectedRevision replacement

def Answer.outcome : Answer → Outcome
  | .record current => .record current
  | .stored current => .stored current
  | .conflict _ => .conflict
  | .undecodable => .undecodable

section Redis

variable (dumps : Json → String) (loads : String → Option Json)

/-- The call on the Redis store: the key it leaves, and how it ends. -/
def Timed.inRedis (t : Timed) (c : Cell String) : Cell String × Outcome :=
  let after := (t.op.call.prog (encode dumps) (decode loads)).eval (c.at (seconds t.ms))
  (after.1, after.2.outcome)

def redisOutcomes (c : Cell String) : List Timed → List Outcome
  | [] => []
  | t :: ts => (t.inRedis dumps loads c).2 :: redisOutcomes (t.inRedis dumps loads c).1 ts

/-- A call on the Redis store is one of the interleavings of calls on the key: the one in which no
other call disturbs it. -/
theorem Timed.inRedis_reach {s : StoreState} (hs : Reach (encode dumps) (decode loads) s) (t : Timed)
    (hnow : s.cell.clock ≤ seconds t.ms) :
    ∃ s' answer, Reach (encode dumps) (decode loads) s' ∧
      t.inRedis dumps loads s.cell = (s'.cell, answer.outcome) ∧
      s'.clients = s.clients ++ [(t.op.call, .prog (.ret answer))] := by
  obtain ⟨s', hs', hcell, hclients⟩ := hs.alone hnow t.op.call
  exact ⟨s', _, hs', Prod.ext hcell.symm rfl, hclients⟩

end Redis

def emptyCell : Cell String := ⟨none, 0, 0⟩

/-! ## The last moment of a record -/

/-- The time between the end of the TTL with which the record was stored and its `expires_at`. -/
def inLastMoment (now : Rat) (entry : Option FSMRecord) : Bool :=
  match entry with
  | none => false
  | some record =>
    match record.updatedAt, record.expiresAt with
    | some updatedAt, some expiresAt =>
      decide (updatedAt + ttlMs expiresAt updatedAt / 1000 ≤ now) && decide (now < expiresAt)
    | _, _ => false

/-- The call meets the stored record in its last moment, and is no `compare_and_set` that is refused
whether the record is there or not. -/
def Timed.meetsLastMoment (t : Timed) (entry : Option FSMRecord) : Bool :=
  inLastMoment (seconds t.ms) entry &&
    match t.op with
    | .getRecord => true
    | .compareAndSet expectedRevision _ =>
      expectedRevision == 0 || expectedRevision == currentRevision entry

def meetsLastMoment (entry : Option FSMRecord) : List Timed → Bool
  | [] => false
  | t :: ts => t.meetsLastMoment entry || meetsLastMoment (t.inMemory entry).1 ts

theorem inLastMoment_iff {now : Rat} {record : FSMRecord} :
    inLastMoment now (some record) = true ↔ ∃ updatedAt expiresAt,
      record.updatedAt = some updatedAt ∧ record.expiresAt = some expiresAt ∧
        updatedAt + ttlMs expiresAt updatedAt / 1000 ≤ now ∧ now < expiresAt := by
  rw [inLastMoment]
  cases hupdated : record.updatedAt <;> cases hexpires : record.expiresAt <;> simp

theorem not_expired_of_inLastMoment {now : Rat} {record : FSMRecord}
    (h : inLastMoment now (some record) = true) : ¬ expired record now = true := by
  obtain ⟨updatedAt, expiresAt, -, hexpires, -, hlive⟩ := inLastMoment_iff.mp h
  rw [expired, hexpires]
  simpa using hlive

/-! ## The TTL -/

/-- When Redis drops a record stored in millisecond `ms`. -/
def deadline (record : FSMRecord) (ms : Int) : Option Rat :=
  record.expiresAt.map fun expiresAt => seconds ms + ttlMs expiresAt (seconds ms) / 1000

theorem lt_deadline {record : FSMRecord} {ms : Int} {d : Rat} (h : deadline record ms = some d) :
    seconds ms < d := by
  obtain ⟨expiresAt, -, rfl⟩ := Option.map_eq_some_iff.mp h
  have hpos : 1 ≤ ttlMs expiresAt (seconds ms) := Nat.le_max_left 1 _
  have hcast : (1 : Rat) ≤ (ttlMs expiresAt (seconds ms) : Rat) := by exact_mod_cast hpos
  linarith

theorem seconds_le {ms ms' : Int} (h : ms ≤ ms') : seconds ms ≤ seconds ms' := by
  have hcast : (ms : Rat) ≤ (ms' : Rat) := by exact_mod_cast h
  unfold seconds
  linarith

/-- In the last moment of a record, and only then, Redis has dropped it too early. -/
theorem inLastMoment_iff_gone {record : FSMRecord} {storedMs ms : Int}
    (hstored : record.updatedAt = some (seconds storedMs)) :
    inLastMoment (seconds ms) (some record) = true ↔
      (∃ d, deadline record storedMs = some d ∧ d ≤ seconds ms) ∧
        ¬ expired record (seconds ms) = true := by
  rw [inLastMoment_iff, hstored, expired, deadline]
  cases hexpires : record.expiresAt with
  | none => simp
  | some expiresAt => simp

/-! ## The Redis calls on a quiet key -/

section Eval

variable {dumps : Json → String} {loads : String → Option Json} {c : Cell String}
  {expectedRevision : Int}

def found (loads : String → Option Json) (c : Cell String) : Option FSMRecord :=
  dropExpired c.clock (c.value.bind (decode loads))

/-- The key holds nothing, or the document of a record. -/
def Decodes (loads : String → Option Json) (c : Cell String) : Prop :=
  ∀ raw, c.value = some raw → ∃ record, decode loads raw = some record

theorem getRecord_eval (h : Decodes loads c) :
    ((getRecord (decode loads)).eval c).2 = .record (found loads c) ∧
      (((getRecord (decode loads)).eval c).1 = c ∨
        found loads c = none ∧ ((getRecord (decode loads)).eval c).1 = c.clear) := by
  rw [getRecord, Redis.Prog.eval_get, found]
  cases hvalue : c.value with
  | none => exact ⟨rfl, .inl rfl⟩
  | some raw =>
    obtain ⟨record, hdecode⟩ := h raw hvalue
    rw [Option.bind_some]
    simp only [hdecode, dropExpired]
    by_cases hexpired : expired record c.clock = true
    · obtain ⟨slot, hslot, -⟩ := Option.map_eq_some_iff.mp hvalue
      simp [hexpired, lazyDelete, hvalue, Redis.Command.run_delete_of_stored hslot]
    · simp [hexpired]

theorem compareAndSet_eval (h : Decodes loads c) (replacement : FSMRecord) :
    (compareAndSet (encode dumps) (decode loads) expectedRevision replacement).eval c =
      (storeOver (encode dumps) expectedRevision replacement (found loads c)).eval c := by
  rw [compareAndSet, Redis.Prog.eval_transact, found]
  cases hvalue : c.value with
  | none => rfl
  | some raw =>
    obtain ⟨record, hdecode⟩ := h raw hvalue
    rw [Option.bind_some]
    simp only [hdecode, Redis.Attempt.eval_clock]

end Eval

/-! ## The relation between the stores -/

/-- A record as a store keeps it, stored in millisecond `ms`. -/
structure Stored (record : FSMRecord) (ms : Int) : Prop where
  built : record.Built
  numbered : 1 ≤ record.revision
  updated : record.updatedAt = some (seconds ms)

/-- What Redis holds in millisecond `ms` for a key whose entry in the memory store is the given
one. -/
inductive Tracks (dumps : Json → String) (ms : Int) :
    Option FSMRecord → Option (Slot String) → Prop where
  | absent : Tracks dumps ms none none
  | kept {record : FSMRecord} {storedMs : Int} {stamp : Nat} (hstored : Stored record storedMs)
      (hlive : ∀ d, deadline record storedMs = some d → seconds ms < d) :
      Tracks dumps ms (some record) (some ⟨encode dumps record, stamp, deadline record storedMs⟩)
  /-- The memory store has dropped the expired record already. -/
  | stale {record : FSMRecord} {stamp : Nat} {due : Option Rat} (hbuilt : record.Built)
      (hexpired : expired record (seconds ms) = true) :
      Tracks dumps ms none (some ⟨encode dumps record, stamp, due⟩)
  /-- Redis has dropped the record already. -/
  | gone {record : FSMRecord} {storedMs : Int} (hstored : Stored record storedMs)
      (hgone : ∃ d, deadline record storedMs = some d ∧ d ≤ seconds ms) :
      Tracks dumps ms (some record) none

section Tracks

variable {dumps : Json → String} {loads : String → Option Json} {ms : Int}
  {entry : Option FSMRecord} {slot : Option (Slot String)}

theorem Tracks.at {c : Cell String} {ms' : Int} (hms : ms ≤ ms') (h : Tracks dumps ms entry c.slot) :
    Tracks dumps ms' entry (c.at (seconds ms')).slot := by
  generalize hslot : c.slot = slot at h
  cases h with
  | absent =>
    rw [Cell.slot_at_of_none _ hslot]
    exact .absent
  | @kept record storedMs stamp hstored hlive =>
    cases hdeadline : deadline record storedMs with
    | none =>
      have hnever : ∀ d, deadline record storedMs = some d → seconds ms' < d := by
        rw [hdeadline]
        exact nofun
      rw [Cell.slot_at_of_forever _ (hdeadline ▸ hslot), hslot]
      exact .kept hstored hnever
    | some d =>
      rw [hdeadline] at hslot
      rw [Cell.slot_at _ hslot]
      split
      · next hlater =>
        rw [hslot, ← hdeadline]
        refine .kept hstored fun d' hd' => ?_
        rw [hdeadline, Option.some_inj] at hd'
        rwa [← hd']
      · next hout => exact .gone hstored ⟨d, hdeadline, not_lt.mp hout⟩
  | @stale record stamp due hbuilt hexpired =>
    have hlater := expired_mono (seconds_le hms) hexpired
    cases due with
    | none =>
      rw [Cell.slot_at_of_forever _ hslot, hslot]
      exact .stale hbuilt hlater
    | some d =>
      rw [Cell.slot_at _ hslot]
      split
      · rw [hslot]
        exact .stale hbuilt hlater
      · exact .absent
  | gone hstored hgone =>
    obtain ⟨d, hdeadline, hd⟩ := hgone
    rw [Cell.slot_at_of_none _ hslot]
    exact .gone hstored ⟨d, hdeadline, hd.trans (seconds_le hms)⟩

theorem Tracks.drop (h : Tracks dumps ms entry slot) :
    Tracks dumps ms (dropExpired (seconds ms) entry) slot := by
  cases h with
  | absent => exact .absent
  | kept hstored hlive =>
    rw [dropExpired]
    split
    · next hexpired => exact .stale hstored.built hexpired
    · exact .kept hstored hlive
  | stale hbuilt hexpired => exact .stale hbuilt hexpired
  | gone hstored hgone =>
    rw [dropExpired]
    split
    · exact .absent
    · exact .gone hstored hgone

variable (hjson : ∀ value, loads (dumps value) = some value) {c : Cell String}
include hjson

theorem Tracks.decodes (h : Tracks dumps ms entry c.slot) : Decodes loads c := by
  intro raw hraw
  rw [Cell.value] at hraw
  generalize c.slot = slot at h hraw
  cases h with
  | absent => cases hraw
  | kept hstored hlive =>
    rw [← Option.some_inj.mp hraw]
    exact ⟨_, decode_encode hjson hstored.built⟩
  | stale hbuilt hexpired =>
    rw [← Option.some_inj.mp hraw]
    exact ⟨_, decode_encode hjson hbuilt⟩
  | gone hstored hgone => cases hraw

/-- Redis goes on with the record of the memory store, unless that is in its last moment: then with
none. -/
theorem Tracks.found_or_gone (hclock : c.clock = seconds ms) (h : Tracks dumps ms entry c.slot) :
    inLastMoment (seconds ms) entry = false ∧
        found loads c = dropExpired (seconds ms) entry ∨
      inLastMoment (seconds ms) entry = true ∧ c.slot = none := by
  rw [found, Cell.value, hclock]
  generalize c.slot = slot at h
  cases h with
  | absent => exact .inl ⟨rfl, rfl⟩
  | kept hstored hlive =>
    refine .inl ⟨eq_false_of_ne_true fun hlast => ?_, ?_⟩
    · obtain ⟨⟨d, hdeadline, hd⟩, -⟩ := (inLastMoment_iff_gone hstored.updated).mp hlast
      exact absurd (hlive d hdeadline) (not_lt.mpr hd)
    · rw [Option.map_some, Option.bind_some, decode_encode hjson hstored.built]
  | stale hbuilt hexpired =>
    refine .inl ⟨rfl, ?_⟩
    rw [Option.map_some, Option.bind_some, decode_encode hjson hbuilt]
    exact if_pos hexpired
  | @gone record storedMs hstored hgone =>
    by_cases hexpired : expired record (seconds ms) = true
    · refine .inl ⟨eq_false_of_ne_true fun hlast => ?_, ?_⟩
      · exact not_expired_of_inLastMoment hlast hexpired
      · rw [dropExpired, if_pos hexpired]
        rfl
    · exact .inr ⟨(inLastMoment_iff_gone hstored.updated).mpr ⟨hgone, hexpired⟩, rfl⟩

end Tracks

/-! ## One call -/

/-- The record that a successful `compare_and_set` stores in millisecond `ms`. -/
def storedIn (ms : Int) (expectedRevision : Int) (replacement : FSMRecord) : FSMRecord :=
  { replacement with
    revision := expectedRevision + 1
    updatedAt := some (seconds ms) }

theorem stored_storedIn (ms : Int) {expectedRevision : Int} {replacement : FSMRecord}
    (hbuilt : replacement.Built) (hnumbered : 0 ≤ expectedRevision) :
    Stored (storedIn ms expectedRevision replacement) ms := by
  -- `replace` leaves the data as they are
  have hnodup := FSMRecord.built_iff.mp hbuilt
  have hrevision : (storedIn ms expectedRevision replacement).revision = expectedRevision + 1 := rfl
  exact ⟨FSMRecord.built_iff.mpr hnodup, by omega, rfl⟩

section Step

variable {dumps : Json → String} {loads : String → Option Json} {ms expectedRevision : Int}
  {replacement : BuiltRecord} {entry current : Option FSMRecord} {c : Cell String}

theorem inMemory_of_eq (h : currentRevision (dropExpired (seconds ms) entry) = expectedRevision) :
    Timed.inMemory ⟨.compareAndSet expectedRevision replacement, ms⟩ entry =
      (some (storedIn ms expectedRevision replacement),
        .stored (storedIn ms expectedRevision replacement)) := by
  rw [Timed.inMemory]
  simp only [compareAndSet_of_eq h]
  rfl

theorem inMemory_of_ne (h : currentRevision (dropExpired (seconds ms) entry) ≠ expectedRevision) :
    Timed.inMemory ⟨.compareAndSet expectedRevision replacement, ms⟩ entry =
      (dropExpired (seconds ms) entry, .conflict) := by
  rw [Timed.inMemory]
  simp only [compareAndSet_of_ne h]

theorem storeOver_eval_of_eq (hclock : c.clock = seconds ms)
    (h : currentRevision current = expectedRevision) :
    (storeOver (encode dumps) expectedRevision replacement.1 current).eval c =
      (c.write (encode dumps (storedIn ms expectedRevision replacement))
          (replacement.1.expiresAt.map fun expiresAt => ttlMs expiresAt (seconds ms)),
        .stored (storedIn ms expectedRevision replacement)) := by
  rw [storeOver, if_neg (not_not.mpr h), Redis.Attempt.eval_clock, hclock, h]
  cases hexpires : replacement.1.expiresAt with
  | none => simp [storedIn, hexpires]
  | some expiresAt => simp [storedIn, hexpires, hclock]

theorem storeOver_eval_of_ne (h : currentRevision current ≠ expectedRevision) :
    (storeOver (encode dumps) expectedRevision replacement.1 current).eval c =
      (c, .conflict ⟨"expected revision " ++ toString expectedRevision ++ ", found " ++
        toString (currentRevision current)⟩) := by
  rw [storeOver, if_pos h, Redis.Attempt.eval_ret]

theorem Tracks.write (hclock : c.clock = seconds ms) (hnumbered : 0 ≤ expectedRevision) :
    Tracks dumps ms (some (storedIn ms expectedRevision replacement))
      (c.write (encode dumps (storedIn ms expectedRevision replacement))
        (replacement.1.expiresAt.map fun expiresAt => ttlMs expiresAt (seconds ms))).slot := by
  have hslot : (c.write (encode dumps (storedIn ms expectedRevision replacement))
      (replacement.1.expiresAt.map fun expiresAt => ttlMs expiresAt (seconds ms))).slot =
        some ⟨encode dumps (storedIn ms expectedRevision replacement), c.version + 1,
          deadline (storedIn ms expectedRevision replacement) ms⟩ := by
    rw [Cell.write, hclock, deadline, storedIn]
    cases replacement.1.expiresAt <;> rfl
  rw [hslot]
  exact .kept (stored_storedIn ms replacement.2 hnumbered) fun _ => lt_deadline

/-- Both stores end the call alike, and track each other after it. -/
def Agrees (dumps : Json → String) (loads : String → Option Json) (t : Timed)
    (entry : Option FSMRecord) (c : Cell String) : Prop :=
  (t.inMemory entry).2 = (((t.op.call.prog (encode dumps) (decode loads)).eval c).2).outcome ∧
    Tracks dumps t.ms (t.inMemory entry).1
      ((t.op.call.prog (encode dumps) (decode loads)).eval c).1.slot

variable (hjson : ∀ value, loads (dumps value) = some value) (hclock : c.clock = seconds ms)
include hjson hclock

theorem Tracks.getRecord (hlast : inLastMoment (seconds ms) entry = false)
    (h : Tracks dumps ms entry c.slot) : Agrees dumps loads ⟨.getRecord, ms⟩ entry c := by
  obtain ⟨hanswer, hcell⟩ := getRecord_eval (h.decodes hjson)
  have hsame : found loads c = dropExpired (seconds ms) entry := by
    rcases h.found_or_gone hjson hclock with ⟨-, hfound⟩ | ⟨hmeets, -⟩
    · exact hfound
    · rw [hlast] at hmeets
      cases hmeets
  constructor
  · show Outcome.record (dropExpired (seconds ms) entry) =
      (((RedisRecord.getRecord (decode loads)).eval c).2).outcome
    rw [hanswer, hsame]
    rfl
  · show Tracks dumps ms (dropExpired (seconds ms) entry)
      ((RedisRecord.getRecord (decode loads)).eval c).1.slot
    rcases hcell with hcell | ⟨hnone, hcell⟩
    · rw [hcell]
      exact h.drop
    · rw [hcell, ← hsame, hnone]
      exact .absent

theorem Tracks.compareAndSet (hnumbered : Numbered entry)
    (hlast : Timed.meetsLastMoment ⟨.compareAndSet expectedRevision replacement, ms⟩ entry = false)
    (h : Tracks dumps ms entry c.slot) :
    Agrees dumps loads ⟨.compareAndSet expectedRevision replacement, ms⟩ entry c := by
  have hnonneg := (numbered_dropExpired (seconds ms) hnumbered).currentRevision_nonneg
  unfold Agrees
  show _ = (((RedisRecord.compareAndSet (encode dumps) (decode loads) expectedRevision
      replacement.1).eval c).2).outcome ∧
    Tracks dumps ms _ ((RedisRecord.compareAndSet (encode dumps) (decode loads) expectedRevision
      replacement.1).eval c).1.slot
  rw [compareAndSet_eval (h.decodes hjson)]
  rcases h.found_or_gone hjson hclock with ⟨-, hfound⟩ | ⟨hmeets, hgone⟩
  · rw [hfound]
    by_cases heq : currentRevision (dropExpired (seconds ms) entry) = expectedRevision
    · rw [inMemory_of_eq heq, storeOver_eval_of_eq hclock heq]
      exact ⟨rfl, .write hclock (heq ▸ hnonneg)⟩
    · rw [inMemory_of_ne heq, storeOver_eval_of_ne heq]
      exact ⟨rfl, h.drop⟩
  · -- Redis has dropped the record: both stores refuse the call
    rw [Timed.meetsLastMoment, hmeets, Bool.true_and, Bool.or_eq_false_iff] at hlast
    obtain ⟨hzero, hrevision⟩ := hlast
    have hkeep : dropExpired (seconds ms) entry = entry := by
      cases entry with
      | none => rfl
      | some record => exact if_neg (not_expired_of_inLastMoment hmeets)
    have hfound : found loads c = none := by
      rw [found, Cell.value, hgone]
      rfl
    have hmemory : currentRevision (dropExpired (seconds ms) entry) ≠ expectedRevision := by
      rw [hkeep]
      exact fun heq => beq_eq_false_iff_ne.mp hrevision heq.symm
    have hredis : currentRevision (none : Option FSMRecord) ≠ expectedRevision :=
      fun heq => beq_eq_false_iff_ne.mp hzero heq.symm
    rw [inMemory_of_ne hmemory, hfound, storeOver_eval_of_ne hredis]
    exact ⟨rfl, h.drop⟩

/-- A call that does not meet a record in its last moment. -/
theorem Tracks.step {op : Op} (hnumbered : Numbered entry)
    (hlast : Timed.meetsLastMoment ⟨op, ms⟩ entry = false) (h : Tracks dumps ms entry c.slot) :
    Agrees dumps loads ⟨op, ms⟩ entry c := by
  cases op with
  | getRecord =>
    rw [Timed.meetsLastMoment, Bool.and_true] at hlast
    exact h.getRecord hjson hclock hlast
  | compareAndSet expectedRevision replacement =>
    exact h.compareAndSet hjson hclock hnumbered hlast

/-- A call that meets a record in its last moment finds it in the memory store only. -/
theorem Tracks.differs {op : Op} (hnumbered : Numbered entry)
    (hlast : Timed.meetsLastMoment ⟨op, ms⟩ entry = true) (h : Tracks dumps ms entry c.slot) :
    (Timed.inMemory ⟨op, ms⟩ entry).2 ≠
      (((op.call.prog (encode dumps) (decode loads)).eval c).2).outcome := by
  rw [Timed.meetsLastMoment, Bool.and_eq_true] at hlast
  obtain ⟨hmeets, hop⟩ := hlast
  have hdecodes := h.decodes hjson
  have hgone : c.slot = none := by
    rcases h.found_or_gone hjson hclock with ⟨hnot, -⟩ | ⟨-, hgone⟩
    · rw [hmeets] at hnot
      cases hnot
    · exact hgone
  have hfound : found loads c = none := by
    rw [found, Cell.value, hgone]
    rfl
  cases entry with
  | none => cases hmeets
  | some record =>
    have hkeep : dropExpired (seconds ms) (some record) = some record :=
      if_neg (not_expired_of_inLastMoment hmeets)
    have hpos : 1 ≤ record.revision := hnumbered record rfl
    cases op with
    | getRecord =>
      have hmemory : (Timed.inMemory ⟨.getRecord, ms⟩ (some record)).2 = .record (some record) :=
        congrArg Outcome.record hkeep
      have hredis : ((RedisRecord.getRecord (decode loads)).eval c).2 = .record none := by
        rw [(getRecord_eval hdecodes).1, hfound]
      rw [hmemory, Op.call, Call.prog, hredis]
      rintro ⟨⟩
    | compareAndSet expectedRevision replacement =>
      rw [Op.call, Call.prog, compareAndSet_eval hdecodes, hfound]
      rw [Bool.or_eq_true, beq_iff_eq, beq_iff_eq] at hop
      by_cases hzero : expectedRevision = 0
      · have hmemory : currentRevision (dropExpired (seconds ms) (some record)) ≠
            expectedRevision := by
          rw [hkeep, hzero, currentRevision]
          omega
        have hredis : currentRevision (none : Option FSMRecord) = expectedRevision := hzero.symm
        rw [inMemory_of_ne hmemory, storeOver_eval_of_eq hclock hredis]
        rintro ⟨⟩
      · have hmemory : currentRevision (dropExpired (seconds ms) (some record)) =
            expectedRevision := by
          rw [hkeep]
          exact (hop.resolve_left hzero).symm
        have hredis : currentRevision (none : Option FSMRecord) ≠ expectedRevision := Ne.symm hzero
        rw [inMemory_of_eq hmemory, storeOver_eval_of_ne hredis]
        rintro ⟨⟩

end Step

/-! ## Whole sequences -/

section Run

variable {dumps : Json → String} {loads : String → Option Json}

theorem Timed.numbered_inMemory (t : Timed) {entry : Option FSMRecord} (h : Numbered entry) :
    Numbered (t.inMemory entry).1 := by
  obtain ⟨op, ms⟩ := t
  have hdrop := numbered_dropExpired (seconds ms) h
  cases op with
  | getRecord => exact hdrop
  | compareAndSet expectedRevision replacement =>
    by_cases heq : currentRevision (dropExpired (seconds ms) entry) = expectedRevision
    · rw [inMemory_of_eq heq]
      rintro record ⟨⟩
      have hnonneg := hdrop.currentRevision_nonneg
      show 1 ≤ expectedRevision + 1
      omega
    · rw [inMemory_of_ne heq]
      exact hdrop

theorem Tracks.agree_iff (hjson : ∀ value, loads (dumps value) = some value)
    {ts : List Timed} {ms : Int} {entry : Option FSMRecord} {c : Cell String}
    (hms : ∀ t ∈ ts, ms ≤ t.ms) (hclock : ts.Pairwise fun t later => t.ms ≤ later.ms)
    (hnumbered : Numbered entry) (h : Tracks dumps ms entry c.slot) :
    memoryOutcomes entry ts = redisOutcomes dumps loads c ts ↔ meetsLastMoment entry ts = false := by
  induction ts generalizing ms entry c with
  | nil => exact ⟨fun _ => rfl, fun _ => rfl⟩
  | cons t ts ih =>
    obtain ⟨hnext, hclock⟩ := List.pairwise_cons.mp hclock
    have hnow := h.at (hms t List.mem_cons_self)
    rw [memoryOutcomes, redisOutcomes, List.cons.injEq, RedisRecord.meetsLastMoment,
      Bool.or_eq_false_iff]
    constructor
    · rintro ⟨hhead, htail⟩
      have hlast : t.meetsLastMoment entry = false :=
        eq_false_of_ne_true fun hlast => hnow.differs hjson rfl hnumbered hlast hhead
      obtain ⟨-, htracks⟩ := hnow.step hjson rfl hnumbered hlast
      exact ⟨hlast, (ih hnext hclock (t.numbered_inMemory hnumbered) htracks).mp htail⟩
    · rintro ⟨hlast, hlater⟩
      obtain ⟨houtcome, htracks⟩ := hnow.step hjson rfl hnumbered hlast
      exact ⟨houtcome, (ih hnext hclock (t.numbered_inMemory hnumbered) htracks).mpr hlater⟩

end Run

/-- **Interchangeable record stores.** A record that was built is decoded from its document; and on
every sequence of calls, with a clock that does not go back, both stores return the same records,
`None` and conflicts exactly when no call meets a record after its TTL and before its `expires_at`, but for a
`compare_and_set` that both refuse. -/
theorem outcomes_agree_iff (dumps : Json → String) (loads : String → Option Json)
    (hjson : ∀ value, loads (dumps value) = some value) :
    (∀ record : FSMRecord, record.Built → decode loads (encode dumps record) = some record) ∧
    ∀ ts : List Timed, ts.Pairwise (fun t later => t.ms ≤ later.ms) →
      (memoryOutcomes none ts = redisOutcomes dumps loads emptyCell ts ↔
        meetsLastMoment none ts = false) := by
  refine ⟨fun record hbuilt => decode_encode hjson hbuilt, fun ts hclock => ?_⟩
  cases ts with
  | nil => exact ⟨fun _ => rfl, fun _ => rfl⟩
  | cons t ts =>
    have hms : ∀ later ∈ t :: ts, t.ms ≤ later.ms := by
      rw [List.forall_mem_cons]
      exact ⟨Int.le_refl _, (List.pairwise_cons.mp hclock).1⟩
    have hempty : Tracks dumps t.ms none emptyCell.slot := .absent
    exact hempty.agree_iff hjson hms hclock nofun

theorem plainRecord_built (revision : Int) (expiresAt : Option Rat) :
    (plainRecord revision expiresAt).Built :=
  FSMRecord.built_iff.mpr List.nodup_nil

/-- A record is stored at 0 and read after 5 and 10 seconds. -/
def readTwice (expiresAt : Rat) : List Timed :=
  [⟨.compareAndSet 0 ⟨plainRecord 0 (some expiresAt), plainRecord_built 0 _⟩, 0⟩,
    ⟨.getRecord, 5000⟩, ⟨.getRecord, 10000⟩]

/-- The text of the document of that record, `shown` being the text of its `expires_at`. -/
def shownText (shown : String) : String :=
  "\x7b" ++ ("\"state\":\"menu\",\"data\":\x7b\x7d,\"revision\":1,\"updated_at\":0.0," ++
    "\"expires_at\":" ++ shown ++ ",\"schema_version\":0\x7d")

/-- `json.dumps` and `json.loads`, as they are on that document. -/
def dumpsFirst (expiresAt : Rat) (shown : String) : Json → String :=
  Json.dumps (document (firstRecord (some expiresAt))) (shownText shown)

def loadsFirst (expiresAt : Rat) (shown : String) : String → Option Json :=
  Json.loads (document (firstRecord (some expiresAt))) (shownText shown)

theorem loadsFirst_dumpsFirst (expiresAt : Rat) (shown : String) (value : Json) :
    loadsFirst expiresAt shown (dumpsFirst expiresAt shown value) = some value := by
  have hdistinct : Json.Distinct (shownText shown) := by
    rw [shownText]
    exact ⟨'\x7b', _, String.toList_append, by decide⟩
  exact Json.loads_dumps _ _ hdistinct value

/-- The record expires after 10 seconds. -/
theorem readTwice_agrees :
    memoryOutcomes none (readTwice 10) =
      redisOutcomes (dumpsFirst 10 "10.0") (loadsFirst 10 "10.0") emptyCell (readTwice 10) := by
  have hiff := (outcomes_agree_iff (dumpsFirst 10 "10.0") (loadsFirst 10 "10.0")
    (loadsFirst_dumpsFirst 10 "10.0")).2 (readTwice 10) (by simp [readTwice])
  exact hiff.mpr (by decide +kernel)

/-- The record expires after 10 seconds and half a millisecond: Redis has dropped it after 10. -/
theorem readTwice_differs :
    ¬ ∀ (dumps : Json → String) (loads : String → Option Json),
      (∀ value, loads (dumps value) = some value) → ∀ ts : List Timed,
        ts.Pairwise (fun t later => t.ms ≤ later.ms) →
          memoryOutcomes none ts = redisOutcomes dumps loads emptyCell ts := by
  intro h
  have hclock : (readTwice (20001 / 2000)).Pairwise fun t later => t.ms ≤ later.ms := by
    simp [readTwice]
  have hms : ∀ t ∈ readTwice (20001 / 2000), 0 ≤ t.ms := by simp [readTwice]
  have hnone : Numbered none := nofun
  have hjson := loadsFirst_dumpsFirst (20001 / 2000) "10.0005"
  have hempty : Tracks (dumpsFirst (20001 / 2000) "10.0005") 0 none emptyCell.slot := .absent
  have hlate := (hempty.agree_iff hjson hms hclock hnone).mp (h _ _ hjson _ hclock)
  exact absurd hlate (by decide +kernel)

end Chattice.Fsm.RedisRecord
