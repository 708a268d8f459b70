import Chattice.Adapters.GoogleChat.Parser
import Chattice.Data.Isolation
import Chattice.Fsm.RecordAgreement
import Chattice.Fsm.RedisStorage
import Chattice.Fsm.Storage

/-!
# The keys of the storages

`MemoryStorage` keeps its entries under the `StorageKey` itself, the two Redis stores under the names
of the key joined with colons, where an absent or an empty name is written `*`.

* `StorageKey.pieces` : the names, so written and cut at their colons;
* `joined_eq_iff` : two keys have the same text exactly when they have the same pieces;
* `pieces_ne_of_plain` : names that are neither empty nor `*` and without a colon keep keys apart;
* `keys_isolated_iff` : the memory store isolates any two keys, the Redis stores those with different
  pieces and no others.
-/

namespace Chattice.Fsm

/-- `name or "*"` -/
def orStar (name : Option String) : String :=
  match name with
  | some name => if name = "" then "*" else name
  | none => "*"

namespace StorageKey

/-- `':'.join(parts)` -/
def joined (key : StorageKey) : String :=
  orStar key.user ++ ":" ++ orStar key.space ++ ":" ++ orStar key.thread

/-- The names of the key, cut at their colons. -/
def pieces (key : StorageKey) : List (List Char) :=
  (orStar key.user).toList.splitOn ':' ++ (orStar key.space).toList.splitOn ':' ++
    (orStar key.thread).toList.splitOn ':'

theorem splitOn_joined (key : StorageKey) : key.joined.toList.splitOn ':' = key.pieces := by
  have hjoined : key.joined.toList = ((orStar key.user).toList ++ ':' ::
      (orStar key.space).toList) ++ ':' :: (orStar key.thread).toList := by
    simp [joined]
  rw [hjoined, List.splitOn_append_cons_self, List.splitOn_append_cons_self, pieces]

/-- Two keys have the same text exactly when they have the same pieces. -/
theorem joined_eq_iff {key other : StorageKey} :
    other.joined = key.joined ↔ other.pieces = key.pieces := by
  rw [← splitOn_joined, ← splitOn_joined]
  constructor
  · intro h
    rw [h]
  · intro h
    have hjoin := congrArg (List.intercalate [':']) h
    rw [List.intercalate_splitOn, List.intercalate_splitOn] at hjoin
    exact String.toList_inj.mp hjoin

/-! ## Plain names -/

/-- A name that is kept as it is: not empty, not `*`, and without a colon. -/
def PlainName (name : String) : Prop := name ≠ "" ∧ name ≠ "*" ∧ ':' ∉ name.toList

/-- Every name of the key is plain, where there is one. -/
structure Plain (key : StorageKey) : Prop where
  user : ∀ name, key.user = some name → PlainName name
  space : ∀ name, key.space = some name → PlainName name
  thread : ∀ name, key.thread = some name → PlainName name

theorem splitOn_orStar {name : Option String} (h : ∀ s, name = some s → PlainName s) :
    (orStar name).toList.splitOn ':' = [(orStar name).toList] := by
  refine List.splitOn_eq_singleton ?_
  cases name with
  | none => decide
  | some name =>
    rw [orStar, if_neg (h name rfl).1]
    exact (h name rfl).2.2

theorem orStar_inj {name name' : Option String} (h : ∀ s, name = some s → PlainName s)
    (h' : ∀ s, name' = some s → PlainName s) (heq : orStar name = orStar name') : name = name' := by
  cases name with
  | none =>
    cases name' with
    | none => rfl
    | some s' =>
      rw [orStar, orStar, if_neg (h' s' rfl).1] at heq
      exact absurd heq.symm (h' s' rfl).2.1
  | some s =>
    rw [orStar, if_neg (h s rfl).1] at heq
    cases name' with
    | none => exact absurd heq (h s rfl).2.1
    | some s' =>
      rw [orStar, if_neg (h' s' rfl).1] at heq
      rw [heq]

/-- Plain names keep keys apart. -/
theorem pieces_ne_of_plain {key other : StorageKey} (hkey : key.Plain) (hother : other.Plain)
    (hne : other ≠ key) : other.pieces ≠ key.pieces := by
  intro heq
  rw [pieces, pieces, splitOn_orStar hkey.user, splitOn_orStar hkey.space,
    splitOn_orStar hkey.thread, splitOn_orStar hother.user, splitOn_orStar hother.space,
    splitOn_orStar hother.thread] at heq
  simp only [List.cons_append, List.nil_append, List.cons.injEq, String.toList_inj, and_true] at heq
  obtain ⟨huser, hspace, hthread⟩ := heq
  apply hne
  rw [StorageKey.mk.injEq]
  exact ⟨orStar_inj hother.user hkey.user huser, orStar_inj hother.space hkey.space hspace,
    orStar_inj hother.thread hkey.thread hthread⟩

end StorageKey

/-! ## The stores -/

/-- A call on `MemoryStorage`. -/
def MemoryStorage.exec : (StorageKey → Option MemoryStorage.Record) → StorageKey →
    StorageCall PyValue.Fields → (StorageKey → Option MemoryStorage.Record) × StorageResult :=
  Keyed.call MemoryStorage.call

namespace RedisStorage

section Keys

variable (keyPrefix : String) (key : StorageKey)

/-- `_base` -/
def base : String := keyPrefix ++ ":" ++ key.joined

/-- `_state_key` -/
def stateKey : String := base keyPrefix key ++ ":state"

/-- `_data_key` -/
def dataKey : String := base keyPrefix key ++ ":data"

end Keys

/-- A call on `RedisStorage`, with the texts of the server. -/
def exec (dumps : PyValue.Fields → Except TypeError String) (loads : String → Option Json)
    (keyPrefix : String) (server : String → Option String) (key : StorageKey) (call : Call) :
    (String → Option String) × Result :=
  let after := call.apply dumps loads ⟨server (stateKey keyPrefix key), server (dataKey keyPrefix key)⟩
  (Function.update (Function.update server (stateKey keyPrefix key) after.1.state)
    (dataKey keyPrefix key) after.1.data, after.2)

variable {keyPrefix : String} {key other : StorageKey}

theorem stateKey_inj :
    stateKey keyPrefix other = stateKey keyPrefix key ↔ other.joined = key.joined := by
  simp [stateKey, base, ← String.toList_inj]

theorem dataKey_inj :
    dataKey keyPrefix other = dataKey keyPrefix key ↔ other.joined = key.joined := by
  simp [dataKey, base, ← String.toList_inj]

/-- No state key is a data key: their last letters differ. -/
theorem stateKey_ne_dataKey : stateKey keyPrefix other ≠ dataKey keyPrefix key := by
  intro heq
  have hlast := congrArg (fun text : String => text.toList.getLast?) heq
  simp [stateKey, dataKey] at hlast

section Isolation

variable {dumps : PyValue.Fields → Except TypeError String} {loads : String → Option Json}

/-- The texts that the calls on `key` read. -/
def view (keyPrefix : String) (key : StorageKey) (server : String → Option String) : View :=
  ⟨server (stateKey keyPrefix key), server (dataKey keyPrefix key)⟩

theorem view_exec_of_eq (h : other.joined = key.joined) (server : String → Option String)
    (call : Call) :
    view keyPrefix key (exec dumps loads keyPrefix server other call).1 =
      (call.apply dumps loads (view keyPrefix key server)).1 := by
  have hstate : stateKey keyPrefix other = stateKey keyPrefix key := stateKey_inj.mpr h
  have hdata : dataKey keyPrefix other = dataKey keyPrefix key := dataKey_inj.mpr h
  simp [view, exec, hstate, hdata, Function.update_of_ne stateKey_ne_dataKey]

theorem view_exec_of_ne (h : other.joined ≠ key.joined) (server : String → Option String)
    (call : Call) :
    view keyPrefix key (exec dumps loads keyPrefix server other call).1 =
      view keyPrefix key server := by
  have hstate : stateKey keyPrefix key ≠ stateKey keyPrefix other :=
    fun heq => h (stateKey_inj.mp heq.symm)
  have hdata : dataKey keyPrefix key ≠ dataKey keyPrefix other :=
    fun heq => h (dataKey_inj.mp heq.symm)
  simp [view, exec, Function.update_of_ne stateKey_ne_dataKey,
    Function.update_of_ne stateKey_ne_dataKey.symm, Function.update_of_ne hstate,
    Function.update_of_ne hdata]

theorem isolated (h : other.joined ≠ key.joined) :
    Isolated (exec dumps loads keyPrefix) other key := by
  have hne : other ≠ key := fun heq => h (congrArg StorageKey.joined heq)
  refine isolated_of_view (view keyPrefix key) hne ?_ ?_ ?_
  · intro server server' call hview
    show (call.apply dumps loads (view keyPrefix key server)).2 =
      (call.apply dumps loads (view keyPrefix key server')).2
    rw [hview]
  · intro server server' k call hview
    by_cases hk : k.joined = key.joined
    · rw [view_exec_of_eq hk, view_exec_of_eq hk, hview]
    · rw [view_exec_of_ne hk, view_exec_of_ne hk, hview]
  · intro server call
    exact view_exec_of_ne h server call

/-- With the same text, a state set on the one key is read on the other. -/
theorem not_isolated (hne : other ≠ key) (h : other.joined = key.joined) :
    ¬ Isolated (exec dumps loads keyPrefix) other key := by
  refine not_isolated_of_pair hne (fun _ => none) (.setState (some "")) .getState ?_
  show Result.state (view keyPrefix key (exec dumps loads keyPrefix _ other _).1).state ≠ _
  rw [view_exec_of_eq h]
  exact nofun

end Isolation

end RedisStorage

namespace RedisRecord

open Redis (Cell)

/-- `_redis_key` -/
def redisKey (keyPrefix : String) (key : StorageKey) : String := keyPrefix ++ ":" ++ key.joined

/-- A call on `RedisFSMRecordStorage` at some time, with the keys of the server. -/
def exec (dumps : Json → String) (loads : String → Option Json) (keyPrefix : String)
    (server : String → Cell String) (key : StorageKey) (call : Call × Rat) :
    (String → Cell String) × Answer :=
  Keyed.call (fun c call => (call.1.prog (encode dumps) (decode loads)).eval (c.at call.2)) server
    (redisKey keyPrefix key) call

variable {dumps : Json → String} {loads : String → Option Json} {keyPrefix : String}
  {key other : StorageKey}

theorem redisKey_inj :
    redisKey keyPrefix other = redisKey keyPrefix key ↔ other.joined = key.joined := by
  simp [redisKey, ← String.toList_inj]

theorem isolated (h : other.joined ≠ key.joined) :
    Isolated (exec dumps loads keyPrefix) other key :=
  Keyed.isolated _ (redisKey keyPrefix) fun heq => h (redisKey_inj.mp heq)

theorem exec_getRecord_of_stored (hjson : ∀ value, loads (dumps value) = some value)
    (h : other.joined = key.joined) (replacement : BuiltRecord)
    (hforever : replacement.1.expiresAt = none) :
    (exec dumps loads keyPrefix (exec dumps loads keyPrefix (fun _ => emptyCell) other
      (.compareAndSet 0 replacement, seconds 0)).1 key (.getRecord, seconds 0)).2 =
        .record (some (storedIn 0 0 replacement)) := by
  have hkey : redisKey keyPrefix other = redisKey keyPrefix key := redisKey_inj.mpr h
  have hempty : Tracks dumps 0 none (emptyCell.at (seconds 0)).slot := .absent
  have hfound : found loads (emptyCell.at (seconds 0)) = none := rfl
  have hrevision : currentRevision (none : Option FSMRecord) = 0 := rfl
  have hstored : (exec dumps loads keyPrefix (fun _ => emptyCell) other
      (.compareAndSet 0 replacement, seconds 0)).1 (redisKey keyPrefix key) =
        (emptyCell.at (seconds 0)).write (encode dumps (storedIn 0 0 replacement))
          (replacement.1.expiresAt.map fun expiresAt => ttlMs expiresAt (seconds 0)) := by
    simp only [exec, Keyed.call, hkey, Function.update_self, Call.prog]
    rw [compareAndSet_eval (hempty.decodes hjson), hfound, storeOver_eval_of_eq rfl hrevision]
  have hkept : Tracks dumps 0 (some (storedIn 0 0 replacement))
      (((emptyCell.at (seconds 0)).write (encode dumps (storedIn 0 0 replacement))
        (replacement.1.expiresAt.map fun expiresAt => ttlMs expiresAt (seconds 0))).at
          (seconds 0)).slot :=
    Tracks.at (Int.le_refl 0) (Tracks.write rfl (Int.le_refl 0))
  have hlast : inLastMoment (seconds 0) (some (storedIn 0 0 replacement)) = false := by
    rw [inLastMoment, storedIn, hforever]
  have hread : dropExpired (seconds 0) (some (storedIn 0 0 replacement)) =
      some (storedIn 0 0 replacement) := by
    have hlive : ¬ expired (storedIn 0 0 replacement) (seconds 0) = true := by
      rw [expired, storedIn, hforever]
      exact Bool.false_ne_true
    exact if_neg hlive
  rw [exec, Keyed.call, hstored, Call.prog]
  show ((getRecord (decode loads)).eval _).2 = _
  rw [(getRecord_eval (hkept.decodes hjson)).1]
  rcases hkept.found_or_gone hjson rfl with ⟨-, hsame⟩ | ⟨hmeets, -⟩
  · rw [hsame, hread]
  · rw [hlast] at hmeets
    cases hmeets

/-- With the same text, a record stored on the one key is read on the other. -/
theorem not_isolated (hjson : ∀ value, loads (dumps value) = some value) (hne : other ≠ key)
    (h : other.joined = key.joined) : ¬ Isolated (exec dumps loads keyPrefix) other key := by
  refine not_isolated_of_pair hne (fun _ => emptyCell)
    (.compareAndSet 0 (plainRecord 0 none), seconds 0) (.getRecord, seconds 0) ?_
  rw [exec_getRecord_of_stored hjson h ⟨plainRecord 0 none, plainRecord_built 0 none⟩ rfl]
  exact nofun

end RedisRecord

/-! ## Isolation -/

/-- **Isolated keys.** The memory store isolates any two keys. Each Redis store isolates two keys
exactly when their names, with `*` for an absent or an empty one, give different lists of pieces when
cut at their colons. -/
theorem keys_isolated_iff (dumpsData : PyValue.Fields → Except TypeError String)
    (loadsData : String → Option Json) (dumps : Json → String) (loads : String → Option Json)
    (hjson : ∀ value, loads (dumps value) = some value) (keyPrefix recordPrefix : String)
    (key other : StorageKey) (hne : other ≠ key) :
    Isolated MemoryStorage.exec other key ∧
    (Isolated (RedisStorage.exec dumpsData loadsData keyPrefix) other key ↔
      other.pieces ≠ key.pieces) ∧
    (Isolated (RedisRecord.exec dumps loads recordPrefix) other key ↔
      other.pieces ≠ key.pieces) := by
  refine ⟨Keyed.isolated _ id hne, ⟨fun hisolated hpieces => ?_, fun hpieces => ?_⟩,
    ⟨fun hisolated hpieces => ?_, fun hpieces => ?_⟩⟩
  · exact RedisStorage.not_isolated hne (StorageKey.joined_eq_iff.mpr hpieces) hisolated
  · exact RedisStorage.isolated fun h => hpieces (StorageKey.joined_eq_iff.mp h)
  · exact RedisRecord.not_isolated hjson hne (StorageKey.joined_eq_iff.mpr hpieces) hisolated
  · exact RedisRecord.isolated fun h => hpieces (StorageKey.joined_eq_iff.mp h)

/-- Two users in one space. -/
theorem users_isolated :
    Isolated (RedisStorage.exec RedisStorage.dumpsInts RedisStorage.loadsInts "chattice:fsm")
        ⟨some "users/1", some "spaces/A", none⟩ ⟨some "users/2", some "spaces/A", none⟩ ∧
      Isolated (RedisRecord.exec (RedisRecord.dumpsFirst 10 "10.0") (RedisRecord.loadsFirst 10 "10.0")
        "chattice:fsmrecord")
        ⟨some "users/1", some "spaces/A", none⟩ ⟨some "users/2", some "spaces/A", none⟩ := by
  obtain ⟨-, hstorage, hrecord⟩ := keys_isolated_iff RedisStorage.dumpsInts RedisStorage.loadsInts
    (RedisRecord.dumpsFirst 10 "10.0") (RedisRecord.loadsFirst 10 "10.0")
    (RedisRecord.loadsFirst_dumpsFirst 10 "10.0") "chattice:fsm" "chattice:fsmrecord"
    ⟨some "users/2", some "spaces/A", none⟩ ⟨some "users/1", some "spaces/A", none⟩ (by decide)
  exact ⟨hstorage.mpr (by decide), hrecord.mpr (by decide)⟩

def addedIn (user space thread : String) : Json.Fields :=
  [("type", .str "ADDED_TO_SPACE"), ("user", .dict [("name", .str user)]),
    ("space", .dict [("name", .str space)]), ("thread", .dict [("name", .str thread)])]

theorem addedIn_key (lib : GoogleChat.Stdlib) (user space thread : String) :
    ∃ event, GoogleChat.parseInteraction lib (addedIn user space thread) = .ok event ∧
      StorageKey.build event .userInSpace = some ⟨some user, some space, some thread⟩ :=
  ⟨_, rfl, rfl⟩

/-- Two keys of parsed events whose names give the same text: the thread `spaces/b:c` of `spaces/a`, and
the thread `c` of `spaces/a:spaces/b`. -/
theorem colon_not_isolated :
    ¬ ∀ (lib : GoogleChat.Stdlib) (dumpsData : PyValue.Fields → Except TypeError String)
      (loadsData : String → Option Json) (dumps : Json → String) (loads : String → Option Json),
      (∀ value, loads (dumps value) = some value) →
      ∀ (keyPrefix recordPrefix : String) (strategy : FSMStrategy) (payload payload' : Json.Fields)
        (event event' : Event) (key other : StorageKey),
        GoogleChat.parseInteraction lib payload = .ok event →
        GoogleChat.parseInteraction lib payload' = .ok event' →
        StorageKey.build event strategy = some key → StorageKey.build event' strategy = some other →
        other ≠ key → Isolated (RedisStorage.exec dumpsData loadsData keyPrefix) other key ∧
          Isolated (RedisRecord.exec dumps loads recordPrefix) other key := by
  intro h
  let lib : GoogleChat.Stdlib := ⟨fun _ => none, fun _ => none, fun _ => false, fun _ => none,
    fun _ => none, fun _ => none, fun _ => none⟩
  obtain ⟨event, hparse, hbuild⟩ := addedIn_key lib "users/1" "spaces/a" "spaces/b:c"
  obtain ⟨event', hparse', hbuild'⟩ := addedIn_key lib "users/1" "spaces/a:spaces/b" "c"
  have hisolated := h lib RedisStorage.dumpsInts RedisStorage.loadsInts
    (RedisRecord.dumpsFirst 10 "10.0") (RedisRecord.loadsFirst 10 "10.0")
    (RedisRecord.loadsFirst_dumpsFirst 10 "10.0") "chattice:fsm" "chattice:fsmrecord" .userInSpace
    _ _ event event' _ _ hparse hparse' hbuild hbuild' (by decide)
  have hjoined : StorageKey.joined ⟨some "users/1", some "spaces/a:spaces/b", some "c"⟩ =
      StorageKey.joined ⟨some "users/1", some "spaces/a", some "spaces/b:c"⟩ := by decide
  exact RedisStorage.not_isolated (by decide) hjoined hisolated.1

end Chattice.Fsm
