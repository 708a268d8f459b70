import Chattice.Fsm.Record
import Chattice.Python.Double
import Chattice.Redis.History

/-!
# `RedisFSMRecordStorage`

One JSON document per key. `compare_and_set` is a loop of transactions; `get_record` is a `GET`
followed, when the document it has read is expired, by a loop of transactions that deletes that very
text. The stored values are the texts; `_encode` and `_decode` are parameters, and `_decode` may
raise.

* `getRecord`, `compareAndSet` : what each call sends, in the order of the source;
* `spec` : what each call may send, given what it has read; `prog_obeys` : it sends nothing else;
* `Lazy` : where a `get_record` is once its `GET` has returned a text;
* `records_exclusive` : in every interleaving, a compare-and-set that succeeds replaces the document
  it has read, no document is replaced twice, and a `get_record` deletes nothing but the text its
  `GET` has returned, once that is expired.
-/

namespace Chattice.Fsm.RedisRecord

open Python (double)
open Redis (Attempt Prog Command Spec Write Slot Phase RunOut Since)

inductive Call where
  | getRecord
  | compareAndSet (expectedRevision : Int) (replacement : FSMRecord)

/-- How a call ends; `undecodable` when `_decode` raises. -/
inductive Answer where
  | record (record : Option FSMRecord)
  | stored (record : FSMRecord)
  | conflict (error : FSMRecordConflict)
  | undecodable

section Calls

variable (encode : FSMRecord → String) (decode : String → Option FSMRecord)

/-- `max(1, int((expires_at - clock) * 1000))`, in doubles. -/
def ttlMs (expiresAt now : Rat) : Nat :=
  max 1 ⌊double (double (double expiresAt - double now) * 1000)⌋.toNat

/-- One transaction of the loop of `get_record`: `raw` is the expired text it has read before. -/
def lazyDelete (raw : String) (currentRaw : Option String) : Attempt String Answer :=
  if currentRaw = some raw then .exec .delete fun _ => .record none
  else
    match currentRaw with
    | none => .ret (.record none)
    | some text =>
      match decode text with
      | none => .ret .undecodable
      | some current => .clock fun now => .ret (.record (dropExpired now (some current)))

def getRecord : Prog String Answer :=
  .get fun
    | none => .ret (.record none)
    | some raw =>
      match decode raw with
      | none => .ret .undecodable
      | some record => .clock fun now =>
          if expired record now = true then .transact (lazyDelete decode raw)
          else .ret (.record (some record))

/-- The transaction of `compare_and_set` that has found `current`. -/
def storeOver (expectedRevision : Int) (replacement : FSMRecord) (current : Option FSMRecord) :
    Attempt String Answer :=
  if currentRevision current ≠ expectedRevision then
    .ret (.conflict ⟨"expected revision " ++ toString expectedRevision ++ ", found " ++
      toString (currentRevision current)⟩)
  else .clock fun updatedAt =>
    let stored := { replacement with
      revision := currentRevision current + 1
      updatedAt := some updatedAt }
    match stored.expiresAt with
    | none => .exec (.set (encode stored) none false) fun _ => .stored stored
    | some expiresAt => .clock fun now =>
        .exec (.set (encode stored) (some (ttlMs expiresAt now)) false) fun _ => .stored stored

def compareAndSet (expectedRevision : Int) (replacement : FSMRecord) : Prog String Answer :=
  .transact fun
    | none => storeOver encode expectedRevision replacement none
    | some raw =>
      match decode raw with
      | none => .ret .undecodable
      | some current => .clock fun now =>
          storeOver encode expectedRevision replacement (dropExpired now (some current))

def Call.prog : Call → Prog String Answer
  | .getRecord => RedisRecord.getRecord decode
  | .compareAndSet expectedRevision replacement =>
    RedisRecord.compareAndSet encode decode expectedRevision replacement

/-! ## What each call may send -/

/-- A text of an expired document. -/
def Expired (now : Rat) (raw : String) : Prop :=
  ∃ record, decode raw = some record ∧ expired record now = true

/-- What a compare-and-set of `expectedRevision` may replace. -/
def Expected (expectedRevision : Int) (now : Rat) : Option String → Prop
  | none => expectedRevision = 0
  | some raw => (∃ record, decode raw = some record ∧ record.revision = expectedRevision) ∨
      expectedRevision = 0 ∧ Expired decode now raw

/-- The command stores the document of a compare-and-set. -/
def Stores (expectedRevision : Int) (replacement : FSMRecord) (cmd : Command String) : Prop :=
  ∃ updatedAt px, cmd = .set (encode { replacement with
    revision := expectedRevision + 1
    updatedAt := some updatedAt }) px false

/-- A `get_record` deletes an expired document; a compare-and-set stores its document over what it
expects. -/
def spec : Spec Call String Answer where
  send := fun _ _ _ => False
  write := fun call now raw cmd =>
    match call with
    | .getRecord => cmd = .delete ∧ ∃ text, raw = some text ∧ Expired decode now text
    | .compareAndSet expectedRevision replacement =>
      Stores encode expectedRevision replacement cmd ∧ Expected decode expectedRevision now raw
  quiet := fun call answer =>
    match call with
    | .getRecord => True
    | .compareAndSet _ _ => ∀ record, answer ≠ .stored record

end Calls

variable {encode : FSMRecord → String} {decode : String → Option FSMRecord}

theorem Expired.mono {now now' : Rat} {raw : String} (hle : now ≤ now')
    (h : Expired decode now raw) : Expired decode now' raw := by
  obtain ⟨record, hdecode, hexpired⟩ := h
  exact ⟨record, hdecode, expired_mono hle hexpired⟩

theorem lazyDelete_obeys {raw : String} {now : Rat} (hexpired : Expired decode now raw)
    (currentRaw : Option String) :
    (lazyDelete decode raw currentRaw).Obeys (spec encode decode) .getRecord false currentRaw now := by
  unfold lazyDelete
  split
  · next hsame => exact ⟨fun t ht => ⟨rfl, raw, hsame, hexpired.mono ht⟩, fun _ _ _ => trivial⟩
  · split
    · exact fun _ => trivial
    · split
      · exact fun _ => trivial
      · exact fun _ _ _ => trivial

theorem getRecord_obeys (now : Rat) :
    (getRecord decode).Obeys (spec encode decode) .getRecord false now := by
  intro raw t _
  cases raw with
  | none => exact fun _ => trivial
  | some raw =>
    dsimp only
    split
    · exact fun _ => trivial
    · next record hdecode =>
      intro t' _
      dsimp only
      split
      · next hexpired =>
        intro currentRaw t'' ht''
        exact lazyDelete_obeys (Expired.mono ht'' ⟨record, hdecode, hexpired⟩) currentRaw
      · exact fun _ => trivial

theorem storeOver_obeys {expectedRevision : Int} (replacement : FSMRecord)
    {current : Option FSMRecord} {raw : Option String} {now : Rat}
    (hcurrent : currentRevision current = expectedRevision →
      ∀ t, now ≤ t → Expected decode expectedRevision t raw) :
    (storeOver encode expectedRevision replacement current).Obeys (spec encode decode)
      (.compareAndSet expectedRevision replacement) false raw now := by
  rw [storeOver]
  split
  · exact fun _ => nofun
  · next hsame =>
    have hrevision : currentRevision current = expectedRevision := not_not.mp hsame
    intro updatedAt hupdated
    dsimp only
    rw [hrevision]
    split
    · refine ⟨fun t ht => ⟨⟨updatedAt, none, rfl⟩, ?_⟩, fun _ hset => nomatch hset⟩
      exact hcurrent hrevision t (hupdated.trans ht)
    · intro now' hnow
      refine ⟨fun t ht => ⟨⟨updatedAt, _, rfl⟩, ?_⟩, fun _ hset => nomatch hset⟩
      exact hcurrent hrevision t (hupdated.trans (hnow.trans ht))

/-- What the loop has found is what it may replace, also later. -/
theorem expected_of_dropExpired {expectedRevision : Int} {raw : String} {record : FSMRecord}
    {now : Rat} (hdecode : decode raw = some record)
    (h : currentRevision (dropExpired now (some record)) = expectedRevision) {t : Rat} (ht : now ≤ t) :
    Expected decode expectedRevision t (some raw) := by
  rw [dropExpired] at h
  split at h
  · next hexpired => exact .inr ⟨h.symm, Expired.mono ht ⟨record, hdecode, hexpired⟩⟩
  · exact .inl ⟨record, hdecode, h⟩

theorem compareAndSet_obeys (expectedRevision : Int) (replacement : FSMRecord) (now : Rat) :
    (compareAndSet encode decode expectedRevision replacement).Obeys (spec encode decode)
      (.compareAndSet expectedRevision replacement) false now := by
  intro raw t _
  cases raw with
  | none => exact storeOver_obeys replacement fun hrevision _ _ => hrevision.symm
  | some raw =>
    dsimp only
    split
    · exact fun _ => nofun
    · next record hdecode =>
      intro t' _
      exact storeOver_obeys replacement fun hrevision _ ht'' =>
        expected_of_dropExpired hdecode hrevision ht''

/-- Every call sends only what its specification allows, whatever it reads. -/
theorem prog_obeys (call : Call) (now : Rat) :
    (call.prog encode decode).Obeys (spec encode decode) call false now := by
  cases call with
  | getRecord => exact getRecord_obeys now
  | compareAndSet expectedRevision replacement =>
    exact compareAndSet_obeys expectedRevision replacement now

/-! ## The text a `get_record` has read -/

/-- Where a `get_record` can be, once its `GET` has returned `read`. -/
inductive Lazy (decode : String → Option FSMRecord) : Option String → Phase String Answer → Prop where
  | checking (raw : String) (record : FSMRecord) :
      Lazy decode (some raw) (.prog (.clock fun now =>
        if expired record now = true then .transact (lazyDelete decode raw)
        else .ret (.record (some record))))
  | looping (raw : String) : Lazy decode (some raw) (.prog (.transact (lazyDelete decode raw)))
  | watching (raw : String) (watched : Nat) :
      Lazy decode (some raw) (.watching (lazyDelete decode raw) watched)
  | deciding (raw : String) (watched : Nat) (seen : Option (Slot String)) :
      Lazy decode (some raw) (.deciding (lazyDelete decode raw) watched seen
        (lazyDelete decode raw (seen.map Slot.value)))
  | leaving (read : Option String) (raw : String) (watched : Nat) (seen : Option (Slot String))
      (a : Answer) : Lazy decode read (.deciding (lazyDelete decode raw) watched seen (.ret a))
  | done (read : Option String) (a : Answer) : Lazy decode read (.prog (.ret a))

theorem Lazy.begin (abort : Bool) (c : Redis.Cell String) :
    Lazy decode c.value ((Phase.prog (getRecord decode)).step abort c).2.1 := by
  unfold getRecord
  rw [Phase.step]
  cases c.value with
  | none => exact .done none _
  | some raw =>
    dsimp only
    split
    · exact .done _ _
    · next record _ => exact .checking raw record

/-- The transaction deletes nothing but the text that the `GET` has returned. -/
theorem Lazy.step {read : Option String} {phase : Phase String Answer} (abort : Bool)
    (c : Redis.Cell String) (h : Lazy decode read phase) :
    Lazy decode read (phase.step abort c).2.1 ∧
      ∀ sent, (phase.step abort c).2.2 = some sent →
        ∃ slot, sent.1 = some (some slot) ∧ read = some slot.value := by
  have hsilent : ∀ sent, (none : Option (Option (Option (Slot String)) × Command String)) = some sent →
      ∃ slot, sent.1 = some (some slot) ∧ read = some slot.value := by
    intro sent hsent
    cases hsent
  cases h with
  | checking raw record =>
    rw [Phase.step]
    dsimp only
    split
    · exact ⟨.looping raw, hsilent⟩
    · exact ⟨.done _ _, hsilent⟩
  | looping raw => exact ⟨.watching raw _, hsilent⟩
  | watching raw watched => exact ⟨.deciding raw watched c.slot, hsilent⟩
  | leaving read raw watched seen a => exact ⟨.done _ _, hsilent⟩
  | done read a => exact ⟨.done _ _, hsilent⟩
  | deciding raw watched seen =>
    by_cases hsame : seen.map Slot.value = some raw
    · have hdelete : lazyDelete decode raw (seen.map Slot.value) =
          .exec .delete fun _ => .record none := if_pos hsame
      obtain ⟨slot, rfl, hvalue⟩ := Option.map_eq_some_iff.mp hsame
      rw [hdelete, Phase.step]
      split
      · exact ⟨.looping raw, hsilent⟩
      · refine ⟨.done _ _, fun sent hsent => ?_⟩
        split at hsent
        · rw [← Option.some_inj.mp hsent]
          exact ⟨slot, rfl, by rw [hvalue]⟩
        · cases hsent
    · unfold lazyDelete
      rw [if_neg hsame]
      split
      · exact ⟨.done _ _, hsilent⟩
      · split
        · exact ⟨.done _ _, hsilent⟩
        · exact ⟨.leaving _ raw watched _ _, hsilent⟩

/-! ## Every interleaving -/

abbrev StoreState := Redis.State Call String Answer

/-- The states of all interleavings of calls on one key. -/
abbrev Reach (encode : FSMRecord → String) (decode : String → Option FSMRecord) :
    StoreState → Prop :=
  Redis.Reach (Call.prog encode decode)

/-- The write stores the document of a compare-and-set over the document it has read, which is the
expected one, or where that has vanished because its TTL has run out. -/
def Replaces (encode : FSMRecord → String) (decode : String → Option FSMRecord)
    (expectedRevision : Int) (replacement : FSMRecord) (e : Write Call String) : Prop :=
  Stores encode expectedRevision replacement e.cmd ∧
    ∃ read, e.seen = some read ∧
      Expected decode expectedRevision e.pre.clock (read.map Slot.value) ∧
        (e.pre.slot = read ∨ e.pre.slot = none ∧ RunOut read e.pre.clock)

/-- The stamp of the document that a compare-and-set has read and replaced. -/
def consumed (e : Write Call String) : Option Nat :=
  match e.caller, e.seen with
  | .compareAndSet _ _, some (some slot) => some slot.stamp
  | _, _ => none

theorem spec_of_write {s : StoreState} (hs : Reach encode decode s) {e : Write Call String}
    (he : e ∈ s.log) : ∃ read, e.seen = some read ∧
      (spec encode decode).write e.caller e.pre.clock (read.map Slot.value) e.cmd ∧
        (∀ slot, read = some slot → slot.stamp = e.pre.version) := by
  have hallowed := (Redis.Reach.written prog_obeys hs he).allowed
  unfold Write.Allowed at hallowed
  cases hseen : e.seen with
  | none =>
    rw [hseen] at hallowed
    exact hallowed.elim
  | some read =>
    rw [hseen] at hallowed
    exact ⟨read, rfl, hallowed.1, hallowed.2.2⟩

theorem replaces_of_write {s : StoreState} (hs : Reach encode decode s) {e : Write Call String}
    (he : e ∈ s.log) {expectedRevision : Int} {replacement : FSMRecord}
    (hcaller : e.caller = .compareAndSet expectedRevision replacement) :
    Replaces encode decode expectedRevision replacement e := by
  obtain ⟨read, hseen, hspec, -⟩ := spec_of_write hs he
  rw [hcaller] at hspec
  exact ⟨hspec.1, read, hseen, hspec.2, Redis.Reach.foundSeen prog_obeys hs he hseen⟩

theorem consumed_eq {s : StoreState} (hs : Reach encode decode s) {e : Write Call String}
    (he : e ∈ s.log) {stamp : Nat} (h : consumed e = some stamp) : stamp = e.pre.version := by
  obtain ⟨read, hseen, -, hstamp⟩ := spec_of_write hs he
  unfold consumed at h
  split at h
  · next slot _ hslot =>
    rw [hseen] at hslot
    rw [← Option.some_inj.mp h]
    exact hstamp _ (Option.some_inj.mp hslot)
  · cases h

theorem consumed_nodup {s : StoreState} (hs : Reach encode decode s) :
    (s.log.filterMap consumed).Nodup := by
  have hordered := Redis.Reach.ordered prog_obeys hs
  unfold List.Nodup
  rw [List.pairwise_filterMap]
  refine hordered.imp_of_mem fun he he' hlt stamp hstamp stamp' hstamp' => ?_
  rw [consumed_eq hs he hstamp, consumed_eq hs he' hstamp']
  omega

/-- What a `get_record` deletes. -/
theorem deletes_read {s₀ s : StoreState} (hs₀ : Reach encode decode s₀) {i : Nat}
    (hi : s₀.clients[i]? = some (.getRecord, .prog (getRecord decode))) (abort : Bool)
    (hsince : Since (Call.prog encode decode) (s₀.advance abort i) s) {e : Write Call String}
    (he : e ∈ s.log) (hclient : e.client = i) :
    e.cmd = .delete ∧ ∃ slot, e.pre.slot = some slot ∧ s₀.cell.value = some slot.value ∧
      Expired decode e.pre.clock slot.value := by
  obtain ⟨hlt, -⟩ := List.getElem?_eq_some_iff.mp hi
  -- the call has written nothing before its `GET`, and the `GET` writes nothing
  have hfresh : ∀ e ∈ s₀.log, e.client ≠ i := by
    have hcases := Redis.Reach.client prog_obeys (I := fun phase => ∃ read, Lazy decode read phase)
      (fun abort c => ⟨_, Lazy.begin abort c⟩)
      (fun abort c phase ⟨read, h⟩ => ⟨read, (h.step abort c).1⟩) hs₀ hi
    rcases hcases with ⟨-, hquiet⟩ | ⟨read, hlazy⟩
    · exact hquiet
    · nomatch hlazy
  have hadvance := Redis.State.advance_eq abort hi
  have hclients : (s₀.advance abort i).clients[i]? = some (.getRecord,
      ((Phase.prog (getRecord decode)).step abort s₀.cell).2.1) := by
    rw [hadvance]
    exact List.getElem?_set_self hlt
  have hlog : (s₀.advance abort i).log = s₀.log := by
    rw [hadvance]
    exact List.append_nil s₀.log
  have hreach : Reach encode decode s := Redis.Reach.since (hs₀.step abort i) hsince
  obtain ⟨⟨phase, hphase, -⟩, hsent⟩ := hsince.client
    (J := fun seen _ => ∃ slot, seen = some (some slot) ∧ s₀.cell.value = some slot.value)
    (fun abort c phase h => Lazy.step abort c h) hclients (Lazy.begin abort s₀.cell)
    (fun e he hclient => absurd hclient (hfresh e (hlog ▸ he)))
  obtain ⟨slot, hread, hvalue⟩ := hsent e he hclient
  obtain ⟨read, hseen, hspec, -⟩ := spec_of_write hreach he
  have hcaller : e.caller = .getRecord := by
    obtain ⟨-, -, phase', hwriter⟩ := (Redis.Reach.inv prog_obeys hreach).written e he
    rw [hclient, hphase] at hwriter
    exact (Prod.mk.inj (Option.some_inj.mp hwriter)).1.symm
  rw [hseen] at hread
  obtain rfl := Option.some_inj.mp hread
  rw [hcaller] at hspec
  obtain ⟨hdelete, text, htext, hexpired⟩ := hspec
  obtain rfl := Option.some_inj.mp htext
  have hslot : e.pre.slot = some slot := by
    rcases Redis.Reach.foundSeen prog_obeys hreach he hseen with hfound | ⟨hnone, -⟩
    · exact hfound
    · -- a `DEL` of an absent key changes nothing
      have hchanged := (Redis.Reach.written prog_obeys hreach he).changed
      rw [hdelete, Command.run, hnone] at hchanged
      cases hchanged
  exact ⟨hdelete, slot, hslot, hvalue, hexpired⟩

/-- **Records are exclusive.** In every interleaving of calls: a compare-and-set that succeeds has
stored its document over the expected one it has read, or where that has vanished because its TTL has
run out; no stored document is consumed by two compare-and-sets; and a `get_record` deletes nothing
but the text that its `GET` has returned, once that document is expired. -/
theorem records_exclusive (encode : FSMRecord → String) (decode : String → Option FSMRecord)
    (s : StoreState) (hs : Reach encode decode s) :
    (∀ (i : Nat) (expectedRevision : Int) (replacement stored : FSMRecord),
      s.clients[i]? = some (.compareAndSet expectedRevision replacement, .prog (.ret (.stored stored))) →
      ∃ e ∈ s.log, e.client = i ∧ Replaces encode decode expectedRevision replacement e) ∧
    (s.log.filterMap consumed).Nodup ∧
    (∀ (s₀ : StoreState) (i : Nat) (abort : Bool), Reach encode decode s₀ →
      s₀.clients[i]? = some (.getRecord, .prog (getRecord decode)) →
      Since (Call.prog encode decode) (s₀.advance abort i) s →
      ∀ e ∈ s.log, e.client = i → e.cmd = .delete ∧ ∃ slot, e.pre.slot = some slot ∧
        s₀.cell.value = some slot.value ∧ Expired decode e.pre.clock slot.value) := by
  refine ⟨fun i expectedRevision replacement stored hi => ?_, consumed_nodup hs, ?_⟩
  · have hloud : ¬ (spec encode decode).quiet (.compareAndSet expectedRevision replacement)
        (.stored stored) := fun hquiet => hquiet stored rfl
    obtain ⟨e, he, hclient, hcaller⟩ := Redis.Reach.answered prog_obeys hs hi hloud
    exact ⟨e, he, hclient, replaces_of_write hs he hcaller⟩
  · intro s₀ i abort hs₀ hi hsince e he hclient
    exact deletes_read hs₀ hi abort hsince he hclient

/-! ## Three runs -/

/-- Client `i` makes `n` steps. -/
def steps (s : StoreState) (i : Nat) : Nat → StoreState
  | 0 => s
  | n + 1 => steps (s.advance false i) i n

theorem steps_since {body : Call → Prog String Answer} (s : StoreState) (i n : Nat) :
    Since body s (steps s i n) := by
  induction n generalizing s with
  | zero => exact .refl
  | succ n ih => exact .head (.step false i) (ih _)

def called (body : Call → Prog String Answer) (s : StoreState) (x : Call) : StoreState :=
  { s with clients := s.clients ++ [(x, .prog (body x))] }

theorem called_since {body : Call → Prog String Answer} (s : StoreState) (x : Call) :
    Since body s (called body s x) :=
  .single (.call x)

/-- The first document of a key, stored at 0, and its text. -/
def firstRecord (expiresAt : Option Rat) : FSMRecord :=
  { plainRecord 1 expiresAt with updatedAt := some 0 }

def firstText : Option Rat → String
  | none => "\x7b\"state\":\"menu\",\"data\":\x7b\x7d,\"revision\":1,\"updated_at\":0.0," ++
      "\"expires_at\":null,\"schema_version\":0\x7d"
  | some expiresAt => "\x7b\"state\":\"menu\",\"data\":\x7b\x7d,\"revision\":1,\"updated_at\":0.0," ++
      "\"expires_at\":" ++ toString expiresAt.num ++ ".0,\"schema_version\":0\x7d"

/-- `_encode` and `_decode` of the documents of these runs. -/
def encodeFirst (record : FSMRecord) : String :=
  if record.revision = 1 then firstText record.expiresAt
  else "\x7b\"state\":\"menu\",\"data\":\x7b\x7d,\"revision\":2,\"updated_at\":0.0," ++
    "\"expires_at\":null,\"schema_version\":0\x7d"

def decodeFirst (expiresAt : Option Rat) (_ : String) : Option FSMRecord :=
  some (firstRecord expiresAt)

def firstBody (expiresAt : Option Rat) : Call → Prog String Answer :=
  Call.prog encodeFirst (decodeFirst expiresAt)

/-- The first document has been stored. -/
def firstStored (expiresAt : Option Rat) : StoreState :=
  steps (called (firstBody expiresAt) ⟨⟨none, 0, 0⟩, [], []⟩ (.compareAndSet 0 (plainRecord 0 expiresAt)))
    0 5

theorem firstStored_reach (expiresAt : Option Rat) :
    Reach encodeFirst (decodeFirst expiresAt) (firstStored expiresAt) := by
  have hinit : Reach encodeFirst (decodeFirst expiresAt) ⟨⟨none, 0, 0⟩, [], []⟩ := .init nofun
  exact hinit.since ((called_since _ _).trans (steps_since _ 0 5))

/-- The TTL of the document that client 1 has read runs out before its `EXEC`, uncounted. -/
def vanishedBefore : StoreState :=
  let deciding := steps (called (firstBody (some 10)) (firstStored (some 10))
    (.compareAndSet 1 (plainRecord 0 none))) 1 4
  { deciding with cell := { deciding.cell with slot := none, clock := 10 } }

theorem vanishedBefore_reach : Reach encodeFirst (decodeFirst (some 10)) vanishedBefore := by
  have hcalled := (firstStored_reach (some 10)).since (called_since (firstStored (some 10))
    (.compareAndSet 1 (plainRecord 0 none)))
  have hdeciding := hcalled.since (steps_since _ 1 4)
  have hlater := hdeciding.tick (show _ ≤ (10 : Rat) by decide +kernel)
  exact hlater.vanish false rfl (show _ = some (10 : Rat) by decide +kernel) (by decide +kernel)

/-- Client 1 has read an expired document. -/
def expiredRead : StoreState :=
  called (firstBody (some 0)) (firstStored (some 0)) .getRecord

/-- Client 2 replaces it by the same text, then client 1 deletes that. -/
def replacedAndDeleted : StoreState :=
  steps (steps (called (firstBody (some 0)) (steps (expiredRead.advance false 1) 1 1)
    (.compareAndSet 0 (plainRecord 0 (some 0)))) 2 6) 1 3

theorem expiredRead_reach : Reach encodeFirst (decodeFirst (some 0)) expiredRead :=
  (firstStored_reach (some 0)).since (called_since _ _)

theorem replacedAndDeleted_since :
    Since (firstBody (some 0)) (expiredRead.advance false 1) replacedAndDeleted :=
  (steps_since _ 1 1).trans ((called_since _ _).trans ((steps_since _ 2 6).trans (steps_since _ 1 3)))

/-- Client 2 has stored its document over the expired one, and client 1 has deleted the text it had
read. -/
theorem replacedAndDeleted_exclusive :
    (∃ e ∈ replacedAndDeleted.log, e.client = 2 ∧
      Replaces encodeFirst (decodeFirst (some 0)) 0 (plainRecord 0 (some 0)) e) ∧
    ∃ e ∈ replacedAndDeleted.log, e.client = 1 ∧ e.cmd = .delete ∧ ∃ slot, e.pre.slot = some slot ∧
      expiredRead.cell.value = some slot.value ∧
        Expired (decodeFirst (some 0)) e.pre.clock slot.value := by
  obtain ⟨hstores, -, hdeletes⟩ := records_exclusive encodeFirst (decodeFirst (some 0))
    replacedAndDeleted (expiredRead_reach.since (.head (.step false 1) replacedAndDeleted_since))
  refine ⟨hstores 2 0 (plainRecord 0 (some 0)) (firstRecord (some 0)) rfl, ?_⟩
  have hlast := List.mem_of_getElem? (l := replacedAndDeleted.log) (i := 2) rfl
  exact ⟨_, hlast, rfl, hdeletes expiredRead 1 false expiredRead_reach rfl replacedAndDeleted_since _
    hlast rfl⟩

/-- A compare-and-set of revision 1 finds nothing where it has read the document, and a `get_record`
deletes a replacement of the document it has read. -/
theorem not_exclusive :
    (¬ ∀ (encode : FSMRecord → String) (decode : String → Option FSMRecord) (s : StoreState),
      Reach encode decode s → ∀ (i : Nat) (expectedRevision : Int) (replacement stored : FSMRecord),
      s.clients[i]? = some (.compareAndSet expectedRevision replacement, .prog (.ret (.stored stored))) →
      ∃ e ∈ s.log, e.client = i ∧ (e.seen = some e.pre.slot ∨ expectedRevision = 0)) ∧
    (¬ ∀ (encode : FSMRecord → String) (decode : String → Option FSMRecord) (s₀ s : StoreState)
      (i : Nat) (abort : Bool), Reach encode decode s₀ →
      s₀.clients[i]? = some (.getRecord, .prog (getRecord decode)) →
      Since (Call.prog encode decode) (s₀.advance abort i) s →
      ∀ e ∈ s.log, e.client = i → e.pre.slot = s₀.cell.slot) := by
  constructor
  · intro h
    obtain ⟨e, he, hclient, hfound⟩ := h encodeFirst (decodeFirst (some 10))
      (steps vanishedBefore 1 1) (vanishedBefore_reach.since (steps_since _ 1 1)) 1 1
      (plainRecord 0 none) { plainRecord 2 none with updatedAt := some 0 } rfl
    have hwrites : (steps vanishedBefore 1 1).log.all (fun e =>
        e.client != 1 || e.pre.slot.isNone && e.seen.any Option.isSome) = true := by decide +kernel
    have hwrite := List.all_eq_true.mp hwrites e he
    rcases hfound with hfound | hzero
    · simp [hclient, hfound] at hwrite
      simp [hwrite.1] at hwrite
    · exact absurd hzero (by decide)
  · intro h
    have hsame := h encodeFirst (decodeFirst (some 0)) expiredRead replacedAndDeleted 1 false
      expiredRead_reach rfl replacedAndDeleted_since
    have hdeleted := hsame _ (List.mem_of_getElem? (i := 2) rfl) rfl
    exact absurd (congrArg (Option.map Slot.stamp) hdeleted) (by decide +kernel)

end Chattice.Fsm.RedisRecord
