import Chattice.Json
import Mathlib.Algebra.Order.Ring.Rat
import Mathlib.Data.Rat.Defs

/-!
# `MemoryFSMRecordStorage`

Versioned records with compare-and-set. Every method takes the lock of its key and does not suspend
while it holds it, so a call is one step on the entry of its key in `_records` (`none` for an absent
one). A record past its `expires_at` is dropped by the first method that looks at it, and the next
record of the key starts again from revision 1.

* `Call.revision_run` : a call that finds no expired record moves the revision up by one when it
  writes, and not at all when it does not;
* `overwrites_nothing_iff` : between a read and the successful compare-and-set of the revision it
  read, no other compare-and-set succeeded exactly when no call in between found the record expired.
-/

namespace Chattice.Fsm

/-- `data` has passed `_require_json_value`. -/
structure FSMRecord where
  state : Option String
  data : List (String × Json)
  revision : Int
  updatedAt : Option Rat
  expiresAt : Option Rat
  schemaVersion : Int

structure FSMRecordConflict where
  message : String
  deriving DecidableEq, Repr

/-- `_expired` -/
def expired (record : FSMRecord) (now : Rat) : Bool :=
  match record.expiresAt with
  | none => false
  | some expiresAt => decide (expiresAt ≤ now)

theorem expired_mono {record : FSMRecord} {now now' : Rat} (hle : now ≤ now')
    (h : expired record now = true) : expired record now' = true := by
  unfold expired at h ⊢
  cases hexpires : record.expiresAt with
  | none =>
    rw [hexpires] at h
    cases h
  | some expiresAt =>
    rw [hexpires] at h
    exact decide_eq_true ((of_decide_eq_true h).trans hle)

/-- The entry a method goes on with: an expired record is deleted. -/
def dropExpired (now : Rat) : Option FSMRecord → Option FSMRecord
  | none => none
  | some record => if expired record now = true then none else some record

/-- `get_record`: the entry it leaves and the record it returns. -/
def getRecord (now : Rat) (entry : Option FSMRecord) : Option FSMRecord × Option FSMRecord :=
  (dropExpired now entry, dropExpired now entry)

/-- `0 if current is None else current.revision` -/
def currentRevision : Option FSMRecord → Int
  | none => 0
  | some record => record.revision

/-- `compare_and_set`: `now` is the clock of the expiry check, `now'` the one of `updated_at`. -/
def compareAndSet (expectedRevision : Int) (replacement : FSMRecord) (now now' : Rat)
    (entry : Option FSMRecord) : Option FSMRecord × Except FSMRecordConflict FSMRecord :=
  let current := dropExpired now entry
  if currentRevision current ≠ expectedRevision then
    (current, .error ⟨"expected revision " ++ toString expectedRevision ++ ", found " ++
      toString (currentRevision current)⟩)
  else
    let stored := { replacement with
      revision := currentRevision current + 1
      updatedAt := some now' }
    (some stored, .ok stored)

/-! ## Runs -/

/-- A call of some client on the key, with its clock readings. -/
inductive Call where
  | getRecord (now : Rat)
  | compareAndSet (expectedRevision : Int) (replacement : FSMRecord) (now now' : Rat)

namespace Call

def now : Call → Rat
  | .getRecord now => now
  | .compareAndSet _ _ now _ => now

def run : Call → Option FSMRecord → Option FSMRecord
  | .getRecord now, entry => (Fsm.getRecord now entry).1
  | .compareAndSet expected replacement now now', entry =>
    (Fsm.compareAndSet expected replacement now now' entry).1

def writes : Call → Option FSMRecord → Bool
  | .getRecord _, _ => false
  | .compareAndSet expected _ now _, entry => currentRevision (dropExpired now entry) = expected

def expires (c : Call) : Option FSMRecord → Bool
  | none => false
  | some record => expired record c.now

end Call

def runAll (entry : Option FSMRecord) (calls : List Call) : Option FSMRecord :=
  calls.foldl (fun entry c => c.run entry) entry

/-- How many of the calls are compare-and-sets that succeed. -/
def writesIn : Option FSMRecord → List Call → Nat
  | _, [] => 0
  | entry, c :: calls => (if c.writes entry = true then 1 else 0) + writesIn (c.run entry) calls

/-- Some of the calls finds the record expired. -/
def expiresIn : Option FSMRecord → List Call → Bool
  | _, [] => false
  | entry, c :: calls => c.expires entry || expiresIn (c.run entry) calls

/-! ## One call -/

theorem dropExpired_of_not_expires {c : Call} {entry : Option FSMRecord}
    (h : c.expires entry = false) : dropExpired c.now entry = entry := by
  cases entry with
  | none => rfl
  | some record =>
    have hfresh : ¬ expired record c.now = true := by
      rw [Bool.not_eq_true]
      exact h
    rw [dropExpired, if_neg hfresh]

theorem dropExpired_of_expires {c : Call} {entry : Option FSMRecord}
    (h : c.expires entry = true) : dropExpired c.now entry = none := by
  cases entry with
  | none => rfl
  | some record => exact if_pos h

theorem compareAndSet_of_eq {expected : Int} {replacement : FSMRecord} {now now' : Rat}
    {entry : Option FSMRecord} (h : currentRevision (dropExpired now entry) = expected) :
    compareAndSet expected replacement now now' entry =
      (some { replacement with revision := expected + 1, updatedAt := some now' },
        .ok { replacement with revision := expected + 1, updatedAt := some now' }) := by
  rw [← h]
  exact if_neg (not_not.mpr rfl)

theorem compareAndSet_of_ne {expected : Int} {replacement : FSMRecord} {now now' : Rat}
    {entry : Option FSMRecord} (h : currentRevision (dropExpired now entry) ≠ expected) :
    compareAndSet expected replacement now now' entry =
      (dropExpired now entry, .error ⟨"expected revision " ++ toString expected ++ ", found " ++
        toString (currentRevision (dropExpired now entry))⟩) :=
  if_pos h

theorem compareAndSet_isOk {expected : Int} {replacement : FSMRecord} {now now' : Rat}
    {entry : Option FSMRecord} :
    (compareAndSet expected replacement now now' entry).2.isOk = true ↔
      currentRevision (dropExpired now entry) = expected := by
  by_cases h : currentRevision (dropExpired now entry) = expected
  · rw [compareAndSet_of_eq h]
    exact ⟨fun _ => h, fun _ => rfl⟩
  · rw [compareAndSet_of_ne h]
    exact ⟨nofun, fun heq => absurd heq h⟩

namespace Call

/-- What a call leaves: the next revision when it writes, else the entry without an expired record. -/
theorem revision_run (c : Call) (entry : Option FSMRecord) :
    currentRevision (c.run entry) =
      currentRevision (dropExpired c.now entry) + if c.writes entry = true then 1 else 0 := by
  cases c with
  | getRecord now => exact (add_zero _).symm
  | compareAndSet expected replacement now now' =>
    simp only [run, writes, Call.now, decide_eq_true_eq]
    by_cases h : currentRevision (dropExpired now entry) = expected
    · rw [compareAndSet_of_eq h, if_pos h, h]
      rfl
    · rw [compareAndSet_of_ne h, if_neg h, add_zero]

theorem run_of_not_writes {c : Call} {entry : Option FSMRecord} (h : c.writes entry = false) :
    c.run entry = dropExpired c.now entry := by
  cases c with
  | getRecord now => rfl
  | compareAndSet expected replacement now now' =>
    have hne : currentRevision (dropExpired now entry) ≠ expected := of_decide_eq_false h
    rw [run, compareAndSet_of_ne hne, Call.now]

end Call

/-! ## Runs -/

/-- Without expiry the revision counts the writes. -/
theorem revision_runAll {calls : List Call} {entry : Option FSMRecord}
    (h : expiresIn entry calls = false) :
    currentRevision (runAll entry calls) = currentRevision entry + writesIn entry calls := by
  induction calls generalizing entry with
  | nil => exact (add_zero _).symm
  | cons c calls ih =>
    rw [expiresIn, Bool.or_eq_false_iff] at h
    obtain ⟨hfresh, htail⟩ := h
    have hrest := ih htail
    have hstep := c.revision_run entry
    rw [dropExpired_of_not_expires hfresh] at hstep
    rw [writesIn]
    show currentRevision (runAll (c.run entry) calls) = _
    rw [hrest, hstep]
    split <;> push_cast <;> omega

theorem runAll_none {calls : List Call} (h : writesIn none calls = 0) : runAll none calls = none := by
  induction calls with
  | nil => rfl
  | cons c calls ih =>
    rw [writesIn, Nat.add_eq_zero_iff] at h
    obtain ⟨hhead, htail⟩ := h
    have hquiet : c.writes none = false := by
      rw [← Bool.not_eq_true]
      intro hw
      rw [if_pos hw] at hhead
      exact absurd hhead (by decide)
    have hrun : c.run none = none := c.run_of_not_writes hquiet
    rw [hrun] at htail
    show runAll (c.run none) calls = none
    rw [hrun]
    exact ih htail

/-- A record that expires and is not written again is gone. -/
theorem runAll_of_expires {calls : List Call} {entry : Option FSMRecord}
    (hexpires : expiresIn entry calls = true) (hwrites : writesIn entry calls = 0) :
    runAll entry calls = none := by
  induction calls generalizing entry with
  | nil => cases hexpires
  | cons c calls ih =>
    rw [writesIn, Nat.add_eq_zero_iff] at hwrites
    obtain ⟨hhead, htail⟩ := hwrites
    have hquiet : c.writes entry = false := by
      rw [← Bool.not_eq_true]
      intro hw
      rw [if_pos hw] at hhead
      exact absurd hhead (by decide)
    rw [expiresIn, Bool.or_eq_true] at hexpires
    show runAll (c.run entry) calls = none
    rcases hexpires with hnow | hlater
    · have hrun : c.run entry = none := by
        rw [c.run_of_not_writes hquiet, dropExpired_of_expires hnow]
      rw [hrun] at htail ⊢
      exact runAll_none htail
    · exact ih hlater htail

/-- The revision of a stored record is at least 1; 0 stands for no record. -/
def Numbered (entry : Option FSMRecord) : Prop := ∀ record ∈ entry, 1 ≤ record.revision

theorem numbered_dropExpired {entry : Option FSMRecord} (now : Rat) (h : Numbered entry) :
    Numbered (dropExpired now entry) := by
  cases entry with
  | none => exact h
  | some record =>
    rw [dropExpired]
    split
    · exact nofun
    · exact h

theorem Numbered.currentRevision_nonneg {entry : Option FSMRecord} (h : Numbered entry) :
    0 ≤ currentRevision entry := by
  cases entry with
  | none => exact Int.le_refl 0
  | some record =>
    have hpos := h record rfl
    rw [currentRevision]
    omega

theorem Call.numbered_run (c : Call) {entry : Option FSMRecord} (h : Numbered entry) :
    Numbered (c.run entry) := by
  have hdrop := numbered_dropExpired c.now h
  cases c with
  | getRecord now => exact hdrop
  | compareAndSet expected replacement now now' =>
    by_cases heq : currentRevision (dropExpired now entry) = expected
    · rw [run, compareAndSet_of_eq heq]
      intro record hrecord
      have hnonneg := hdrop.currentRevision_nonneg
      rw [Call.now, heq] at hnonneg
      rw [← Option.some_inj.mp hrecord]
      show 1 ≤ expected + 1
      omega
    · rw [run, compareAndSet_of_ne heq]
      exact hdrop

theorem numbered_runAll {entry : Option FSMRecord} (calls : List Call) (h : Numbered entry) :
    Numbered (runAll entry calls) := by
  induction calls generalizing entry with
  | nil => exact h
  | cons c calls ih => exact ih (c.numbered_run h)

/-! ## Compare-and-set -/

/-- A compare-and-set of revision 1 or later that succeeds finds that very revision stored. -/
theorem currentRevision_of_isOk {expected : Int} {replacement : FSMRecord} {now now' : Rat}
    {entry : Option FSMRecord} (hpos : 1 ≤ expected)
    (h : (compareAndSet expected replacement now now' entry).2.isOk = true) :
    currentRevision entry = expected := by
  rw [compareAndSet_isOk] at h
  cases entry with
  | none => exact h
  | some record =>
    by_cases hexpired : expired record now = true
    · rw [dropExpired, if_pos hexpired, currentRevision] at h
      omega
    · rwa [dropExpired, if_neg hexpired] at h

/-- **Compare-and-set and the writes in between.** In every run, if a client reads a record and its
later compare-and-set of the revision it read succeeds, then no other compare-and-set succeeded in
between exactly when no call in between found the record expired. -/
theorem overwrites_nothing_iff (before between : List Call) (now now₁ now₂ : Rat)
    (record replacement : FSMRecord)
    (hread : (getRecord now (runAll none before)).2 = some record)
    (hwrite : (compareAndSet record.revision replacement now₁ now₂
      (runAll (getRecord now (runAll none before)).1 between)).2.isOk = true) :
    writesIn (getRecord now (runAll none before)).1 between = 0 ↔
      expiresIn (getRecord now (runAll none before)).1 between = false := by
  -- `get_record` returns the record it leaves stored
  have hentry : (getRecord now (runAll none before)).1 = some record := hread
  have hpos : 1 ≤ record.revision := by
    have hnone : Numbered none := nofun
    have hnumbered := numbered_dropExpired now (numbered_runAll before hnone)
    exact hnumbered record hread
  rw [hentry] at hwrite ⊢
  have hfinal := currentRevision_of_isOk hpos hwrite
  constructor
  · intro hwrites
    by_contra hexpires
    rw [runAll_of_expires (Bool.not_eq_false _ ▸ hexpires) hwrites, currentRevision] at hfinal
    omega
  · intro hexpires
    rw [revision_runAll hexpires, currentRevision] at hfinal
    omega

/-- A record of revision `revision` that expires at `expiresAt`. -/
def plainRecord (revision : Int) (expiresAt : Option Rat) : FSMRecord where
  state := some "menu"
  data := []
  revision := revision
  updatedAt := none
  expiresAt := expiresAt
  schemaVersion := 0

/-- Two reads with nothing in between: the write overwrites nothing. -/
theorem overwrites_nothing_fresh :
    writesIn (getRecord 1 (runAll none [.compareAndSet 0 (plainRecord 0 none) 0 0])).1
        [.getRecord 2] = 0 ↔
      expiresIn (getRecord 1 (runAll none [.compareAndSet 0 (plainRecord 0 none) 0 0])).1
        [.getRecord 2] = false :=
  overwrites_nothing_iff [.compareAndSet 0 (plainRecord 0 none) 0 0] [.getRecord 2] 1 3 3
    { plainRecord 1 none with updatedAt := some 0 } (plainRecord 1 none) rfl rfl

/-- The record read with revision 1 expires, another client writes revision 1 anew, and the write of
the first client replaces it. -/
theorem overwrites_recreated :
    ¬ ∀ (before between : List Call) (now now₁ now₂ : Rat) (record replacement : FSMRecord),
      (getRecord now (runAll none before)).2 = some record → 1 ≤ record.revision →
      (compareAndSet record.revision replacement now₁ now₂
        (runAll (getRecord now (runAll none before)).1 between)).2.isOk = true →
      writesIn (getRecord now (runAll none before)).1 between = 0 := by
  intro h
  have hwrites := h [.compareAndSet 0 (plainRecord 0 (some 10)) 0 0]
    [.compareAndSet 0 (plainRecord 0 none) 10 10] 5 11 11
    { plainRecord 1 (some 10) with updatedAt := some 0 } (plainRecord 1 none) rfl (by decide)
    (by decide)
  exact absurd hwrites (by decide)

end Chattice.Fsm
