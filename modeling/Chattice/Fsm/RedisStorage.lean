import Chattice.Concurrency.Linearize
import Chattice.Python.Value
import Mathlib.Data.List.Permutation

/-!
# `RedisStorage`

The calls of one `RedisStorage` object on one `StorageKey`, that is on two Redis keys, with every
Redis command as one step. `update_data` is a `GET` and a `SET` under the lock of the data key; the
other calls are one command each and take no lock.

* `Phase.step` : the next step of a call; `storage` : the interleavings;
* `Call.apply` : a call executed on its own;
* `Quiet` : a `set_data` or `finish` does not change the data between the `GET` and the `SET` of an
  `update_data`;
* `storage_sequential` : where all steps are quiet, the results and the stored texts are those of the
  same calls executed one at a time.
-/

namespace Chattice.Fsm.RedisStorage

open Concurrency (Machine Simulation Replays Sequential)

inductive Call where
  | updateData (partialData : PyValue.Fields)
  | setData (data : PyValue.Fields)
  | setState (state : Option String)
  | finish
  | getData
  | getState

inductive Result where
  | none
  | merged (data : PyValue.Fields)
  | data (data : Json.Fields)
  | state (state : Option String)
  | typeError (error : TypeError)

structure View where
  state : Option String
  data : Option String

/-- The two keys and the lock of the data key, with the client that holds it; `reading` is the text
that the `GET` of an `update_data` has returned, until its `SET` (nothing reads it). -/
structure Store extends View where
  lock : Option Nat
  reading : Option (Option String)

/-- Where a call is: an `update_data` waits for the lock, sends its `GET`, sends its `SET` and gives
the lock back; the others send one command. -/
inductive Phase where
  | locking
  | getting
  | setting (merged : PyValue.Fields) (text : String)
  | releasing (result : Result)
  | command
  | ended (result : Result)

def Call.start : Call → Phase
  | .updateData _ => .locking
  | _ => .command

section Calls

/- `json.dumps`, that raises for what is no JSON value, and `json.loads`, that raises for what is no
JSON text. -/
variable (dumps : PyValue.Fields → Except TypeError String) (loads : String → Option Json)

/-- What `get_data` makes of the text it has read. -/
def decodeData : Option String → Json.Fields
  | none => []
  | some raw =>
    match loads raw with
    | some (.dict decoded) => decoded
    | _ => []

/-- The merged data of `update_data`. -/
def merge (partialData : PyValue.Fields) (raw : Option String) : PyValue.Fields :=
  PyValue.update (PyValue.ofJson (decodeData loads raw)) partialData

/-- A call executed on its own: the texts it leaves, and its result. -/
def Call.apply (v : View) : Call → View × Result
  | .updateData partialData =>
    match dumps (merge loads partialData v.data) with
    | .error error => (v, .typeError error)
    | .ok text => ({ v with data := some text }, .merged (merge loads partialData v.data))
  | .setData data =>
    match dumps data with
    | .error error => (v, .typeError error)
    | .ok text => ({ v with data := some text }, .none)
  | .setState state => ({ v with state := state }, .none)
  | .finish => (⟨none, none⟩, .none)
  | .getData => (v, .data (decodeData loads v.data))
  | .getState => (v, .state v.state)

/-- The next step of client `i`: the store and the phase it leaves, and the result of the call when it
takes effect; nothing while it has to wait. -/
def Phase.step (i : Nat) (call : Call) (s : Store) : Phase → Option (Store × Phase × Option Result)
  | .locking => if s.lock = none then some ({ s with lock := some i }, .getting, none) else none
  | .getting =>
    match call with
    | .updateData partialData =>
      match dumps (merge loads partialData s.data) with
      | .error error => some (s, .releasing (.typeError error), some (.typeError error))
      | .ok text => some ({ s with reading := some s.data },
          .setting (merge loads partialData s.data) text, none)
    | _ => none
  | .setting merged text => some ({ s with data := some text, reading := none },
      .releasing (.merged merged), some (.merged merged))
  | .releasing result => some ({ s with lock := none }, .ended result, none)
  | .command => some ({ s with toView := (call.apply dumps loads s.toView).1 },
      .ended (call.apply dumps loads s.toView).2, some (call.apply dumps loads s.toView).2)
  | .ended _ => none

/-- The interleavings of the calls. -/
def storage : Machine Call Phase Store Result where
  start := Call.start
  Step := fun i call phase s phase' s' result =>
    phase.step dumps loads i call s = some (s', phase', result)

def Exec (call : Call) (v : View) (result : Result) (v' : View) : Prop :=
  call.apply dumps loads v = (v', result)

end Calls

def Phase.effect : Phase → Option Result
  | .releasing result => some result
  | .ended result => some result
  | _ => none

/-- A `set_data` or a `finish` does not change the data between the `GET` and the `SET` of an
`update_data`. -/
def Quiet (_ : Nat) (call : Call) (_ : Phase) (s : Store) (_ : Phase) (s' : Store) : Prop :=
  match call with
  | .setData _ | .finish => s.reading = none ∨ s'.data = s.data
  | _ => True

/-! ## What a call knows -/

variable {dumps : PyValue.Fields → Except TypeError String} {loads : String → Option Json}

/-- Client `i` holds the lock from its `GET` on, and what it has read is still stored. -/
def Phase.Knows (dumps : PyValue.Fields → Except TypeError String) (loads : String → Option Json)
    (i : Nat) (call : Call) (s : Store) : Phase → Prop
  | .locking => True
  | .getting => s.lock = some i ∧ s.reading = none
  | .setting merged text => s.lock = some i ∧ s.reading = some s.data ∧
      ∃ partialData, call = .updateData partialData ∧ merge loads partialData s.data = merged ∧
        dumps merged = .ok text
  | .releasing _ => s.lock = some i ∧ s.reading = none
  | .command => ∀ partialData, call ≠ .updateData partialData
  | .ended _ => True

/-- Nobody is between a `GET` and a `SET` without the lock. -/
def Store.Ok (s : Store) : Prop := s.lock = none → s.reading = none

/-- Everything a step can be. -/
inductive Stepped (dumps : PyValue.Fields → Except TypeError String) (loads : String → Option Json)
    (i : Nat) (s : Store) : Call → Phase → Store → Phase → Option Result → Prop where
  | lock {call : Call} (hfree : s.lock = none) :
      Stepped dumps loads i s call .locking { s with lock := some i } .getting none
  | refuse {partialData : PyValue.Fields} {error : TypeError}
      (hdumps : dumps (merge loads partialData s.data) = .error error) :
      Stepped dumps loads i s (.updateData partialData) .getting s (.releasing (.typeError error))
        (some (.typeError error))
  | get {partialData : PyValue.Fields} {text : String}
      (hdumps : dumps (merge loads partialData s.data) = .ok text) :
      Stepped dumps loads i s (.updateData partialData) .getting { s with reading := some s.data }
        (.setting (merge loads partialData s.data) text) none
  | set {call : Call} (merged : PyValue.Fields) (text : String) :
      Stepped dumps loads i s call (.setting merged text)
        { s with data := some text, reading := none } (.releasing (.merged merged))
        (some (.merged merged))
  | release {call : Call} (result : Result) :
      Stepped dumps loads i s call (.releasing result) { s with lock := none } (.ended result) none
  | command (call : Call) :
      Stepped dumps loads i s call .command { s with toView := (call.apply dumps loads s.toView).1 }
        (.ended (call.apply dumps loads s.toView).2) (some (call.apply dumps loads s.toView).2)

theorem stepped_of_step {i : Nat} {call : Call} {phase phase' : Phase} {s s' : Store}
    {result : Option Result} (h : phase.step dumps loads i call s = some (s', phase', result)) :
    Stepped dumps loads i s call phase s' phase' result := by
  unfold Phase.step at h
  split at h
  · split at h
    · next hfree =>
      cases h
      exact .lock hfree
    · cases h
  · split at h
    · split at h
      · next hdumps =>
        cases h
        exact .refuse hdumps
      · next hdumps =>
        cases h
        exact .get hdumps
    · cases h
  · cases h
    exact .set _ _
  · cases h
    exact .release _
  · cases h
    exact .command call
  · cases h

/-- What a quiet command leaves alone while an `update_data` is between its `GET` and its `SET`. -/
theorem data_of_quiet {i : Nat} {call : Call} {phase phase' : Phase} {s : Store}
    (hcall : ∀ partialData, call ≠ .updateData partialData)
    (hquiet : Quiet i call phase s phase' { s with toView := (call.apply dumps loads s.toView).1 })
    {read : Option String} (hreading : s.reading = some read) :
    (call.apply dumps loads s.toView).1.data = s.data := by
  have hbusy : s.reading ≠ none := by
    rw [hreading]
    exact nofun
  cases call with
  | updateData partialData => exact absurd rfl (hcall partialData)
  | setData data => exact hquiet.resolve_left hbusy
  | finish => exact hquiet.resolve_left hbusy
  | setState state => rfl
  | getData => rfl
  | getState => rfl

theorem kept {i : Nat} {call : Call} {phase phase' : Phase} {s s' : Store} {result : Option Result}
    (hok : s.Ok) (hknows : phase.Knows dumps loads i call s)
    (h : Stepped dumps loads i s call phase s' phase' result) :
    s'.Ok ∧ phase'.Knows dumps loads i call s' := by
  cases h with
  | lock hfree => exact ⟨nofun, rfl, hok hfree⟩
  | refuse hdumps => exact ⟨hok, hknows⟩
  | get hdumps =>
    obtain ⟨hlock, -⟩ := hknows
    refine ⟨fun hfree => ?_, hlock, rfl, _, rfl, rfl, hdumps⟩
    rw [show s.lock = none from hfree] at hlock
    cases hlock
  | set merged text =>
    obtain ⟨hlock, -⟩ := hknows
    exact ⟨fun _ => rfl, hlock, rfl⟩
  | release result =>
    obtain ⟨-, hreading⟩ := hknows
    exact ⟨fun _ => hreading, trivial⟩
  | command => exact ⟨hok, trivial⟩

/-- A client that is not waiting, and has not sent its only command, holds the lock. -/
theorem Phase.Knows.lock_or {i : Nat} {call : Call} {s : Store} {phase : Phase}
    (h : phase.Knows dumps loads i call s) :
    s.lock = some i ∨ ∀ s', phase.Knows dumps loads i call s' := by
  cases phase with
  | locking => exact .inr fun _ => trivial
  | getting => exact .inl h.1
  | setting merged text => exact .inl h.1
  | releasing result => exact .inl h.1
  | command => exact .inr fun _ => h
  | ended result => exact .inr fun _ => trivial

/-- The lock keeps the other calls of `update_data` away, and quiet commands keep the data. -/
theorem stable {i : Nat} {call : Call} {phase phase' : Phase} {s s' : Store} {result : Option Result}
    (hknows : phase.Knows dumps loads i call s)
    (h : Stepped dumps loads i s call phase s' phase' result)
    (hquiet : Quiet i call phase s phase' s') {j : Nat} {other : Call} {q : Phase} (hne : j ≠ i)
    (hother : q.Knows dumps loads j other s) : q.Knows dumps loads j other s' := by
  rcases hother.lock_or with hlock | hfree
  · have hself : s.lock ≠ some i := by
      rw [hlock]
      exact fun heq => hne (Option.some_inj.mp heq)
    cases h with
    | lock hfree =>
      rw [hlock] at hfree
      cases hfree
    | refuse hdumps => exact hother
    | get hdumps => exact absurd hknows.1 hself
    | set merged text => exact absurd hknows.1 hself
    | release result => exact absurd hknows.1 hself
    | command =>
      cases q with
      | setting merged text =>
        obtain ⟨hlock', hreading, partialData, hcall, hmerged, hdumps⟩ := hother
        have hdata := data_of_quiet hknows hquiet hreading
        refine ⟨hlock', ?_, partialData, hcall, ?_, hdumps⟩
        · show s.reading = some (call.apply dumps loads s.toView).1.data
          rw [hdata]
          exact hreading
        · show merge loads partialData (call.apply dumps loads s.toView).1.data = merged
          rw [hdata]
          exact hmerged
      | locking => exact hother
      | getting => exact hother
      | releasing result => exact hother
      | command => exact hother
      | ended result => exact hother
  · exact hfree s'

theorem silent {i : Nat} {call : Call} {phase phase' : Phase} {s s' : Store}
    (h : Stepped dumps loads i s call phase s' phase' none) :
    s'.toView = s.toView ∧ phase'.effect = phase.effect := by
  cases h with
  | lock hfree => exact ⟨rfl, rfl⟩
  | get hdumps => exact ⟨rfl, rfl⟩
  | release result => exact ⟨rfl, rfl⟩

theorem effective {i : Nat} {call : Call} {phase phase' : Phase} {s s' : Store} {result : Result}
    (hknows : phase.Knows dumps loads i call s)
    (h : Stepped dumps loads i s call phase s' phase' (some result)) :
    Exec dumps loads call s.toView result s'.toView ∧ phase.effect = none ∧
      phase'.effect = some result := by
  cases h with
  | refuse hdumps =>
    refine ⟨?_, rfl, rfl⟩
    simp only [Exec, Call.apply, hdumps]
  | set merged text =>
    obtain ⟨-, -, partialData, rfl, rfl, hdumps⟩ := hknows
    refine ⟨?_, rfl, rfl⟩
    simp only [Exec, Call.apply, hdumps]
  | command => exact ⟨rfl, rfl, rfl⟩

/-! ## Every interleaving -/

theorem Call.start_knows (i : Nat) (call : Call) (s : Store) :
    call.start.Knows dumps loads i call s := by
  cases call with
  | updateData partialData => trivial
  | setData data => exact fun _ => nofun
  | setState state => exact fun _ => nofun
  | finish => exact fun _ => nofun
  | getData => exact fun _ => nofun
  | getState => exact fun _ => nofun

theorem Call.start_effect (call : Call) : call.start.effect = none := by
  cases call <;> rfl

/-- Where all steps are quiet, the two keys hold what the calls that have taken effect leave. -/
def simulation (dumps : PyValue.Fields → Except TypeError String) (loads : String → Option Json) :
    Simulation ((storage dumps loads).restrict Quiet) (Exec dumps loads) where
  view := Store.toView
  inv := Store.Ok
  knows := fun i call phase s => phase.Knows dumps loads i call s
  effect := Phase.effect
  start := fun i call s _ => call.start_knows i s
  start_effect := Call.start_effect
  kept := fun hok hknows h => kept hok hknows (stepped_of_step h.1)
  stable := fun _ hknows h _ _ _ hne hother => stable hknows (stepped_of_step h.1) h.2 hne hother
  silent := fun _ _ h => silent (stepped_of_step h.1)
  effective := fun _ hknows h => effective hknows (stepped_of_step h.1)

abbrev StorageState := Concurrency.State Call Phase Store Result

/-- The texts are stored and no call is running. -/
def Store.idle (v : View) : Store := { v with lock := none, reading := none }

/-- **Quiet runs are sequential.** In every interleaving in which no `set_data` or `finish` changes
the data between the `GET` and the `SET` of an `update_data`, the results of the calls and the stored
texts are those of executing the calls one at a time, in the order in which they have taken effect. -/
theorem storage_sequential (dumps : PyValue.Fields → Except TypeError String)
    (loads : String → Option Json) (v : View) (s : StorageState)
    (hs : ((storage dumps loads).restrict Quiet).Reach (.idle v) s) :
    Sequential (Exec dumps loads) Phase.effect v s.clients s.shared.toView :=
  ⟨s.log, (simulation dumps loads).linearizes (fun _ => rfl) hs⟩

/-! ## Two runs -/

/-- Client `i` makes its next step, unless it has to wait. -/
def advance (dumps : PyValue.Fields → Except TypeError String) (loads : String → Option Json) (i : Nat)
    (s : StorageState) : StorageState :=
  match s.clients[i]? with
  | none => s
  | some (call, phase) =>
    match phase.step dumps loads i call s.shared with
    | none => s
    | some (s', phase', result) =>
      ⟨s', s.clients.set i (call, phase'), s.log ++ (result.map fun r => (i, call, r)).toList⟩

theorem advance_reach {C : Nat → Call → Phase → Store → Phase → Store → Prop} {v : View}
    {s : StorageState} (hs : ((storage dumps loads).restrict C).Reach (.idle v) s) (i : Nat)
    (hC : ∀ call phase, s.clients[i]? = some (call, phase) →
      ∀ phase' s', C i call phase s.shared phase' s') :
    ((storage dumps loads).restrict C).Reach (.idle v) (advance dumps loads i s) := by
  unfold advance
  split
  · exact hs
  · next call phase hi =>
    split
    · exact hs
    · next s' phase' result hstep => exact hs.step hi ⟨hstep, hC call phase hi phase' s'⟩

/-- `json.dumps` of a dictionary of integers. -/
def dumpsInts (fields : PyValue.Fields) : Except TypeError String := do
  let items ← fields.mapM fun
    | (key, .json (.int n)) => .ok ("\"" ++ key ++ "\": " ++ toString n)
    | _ => .error ⟨"Object is not JSON serializable"⟩
  return "\x7b" ++ ", ".intercalate items ++ "\x7d"

/-- `json.loads` of the texts of these runs. -/
def loadsInts (text : String) : Option Json :=
  if text = "\x7b\"a\": 1\x7d" then some (.dict [("a", .int 1)])
  else if text = "\x7b\"b\": 2\x7d" then some (.dict [("b", .int 2)])
  else if text = "\x7b\"b\": 2, \"a\": 1\x7d" then some (.dict [("b", .int 2), ("a", .int 1)])
  else none

/-- `update_data` with `a`, and a second call, both not begun. -/
def calledWith (call : Call) : StorageState :=
  ⟨.idle ⟨none, none⟩, [(.updateData [("a", .json (.int 1))], .locking), (call, call.start)], []⟩

theorem calledWith_reach {C : Nat → Call → Phase → Store → Phase → Store → Prop} (call : Call) :
    ((storage dumpsInts loadsInts).restrict C).Reach (.idle ⟨none, none⟩) (calledWith call) :=
  (Machine.Reach.init.call (.updateData [("a", .json (.int 1))])).call call

/-- The second call changes the state between the `GET` and the `SET`. -/
def stateBetween : StorageState :=
  [0, 0, 1, 0, 0].foldl (fun s i => advance dumpsInts loadsInts i s)
    (calledWith (.setState (some "menu")))

theorem stateBetween_reach :
    ((storage dumpsInts loadsInts).restrict Quiet).Reach (.idle ⟨none, none⟩) stateBetween := by
  have hcalled : ((storage dumpsInts loadsInts).restrict Quiet).Reach (.idle ⟨none, none⟩)
      (calledWith (.setState (some "menu"))) := calledWith_reach _
  have hlocked := advance_reach hcalled 0 (by rintro call phase ⟨⟩ phase' s'; trivial)
  have hread := advance_reach hlocked 0 (by rintro call phase ⟨⟩ phase' s'; trivial)
  have hstate := advance_reach hread 1 (by rintro call phase ⟨⟩ phase' s'; trivial)
  have hwritten := advance_reach hstate 0 (by rintro call phase ⟨⟩ phase' s'; trivial)
  exact advance_reach hwritten 0 (by rintro call phase ⟨⟩ phase' s'; trivial)

theorem stateBetween_sequential :
    Sequential (Exec dumpsInts loadsInts) Phase.effect ⟨none, none⟩ stateBetween.clients
      ⟨some "menu", some "\x7b\"a\": 1\x7d"⟩ :=
  storage_sequential dumpsInts loadsInts ⟨none, none⟩ stateBetween stateBetween_reach

/-- The second call replaces the data between the `GET` and the `SET`. -/
def dataBetween : StorageState :=
  [0, 0, 1, 0, 0].foldl (fun s i => advance dumpsInts loadsInts i s)
    (calledWith (.setData [("b", .json (.int 2))]))

theorem dataBetween_reach :
    (storage dumpsInts loadsInts).Reach (.idle ⟨none, none⟩) dataBetween := by
  have hcalled : ((storage dumpsInts loadsInts).restrict fun _ _ _ _ _ _ => True).Reach
      (.idle ⟨none, none⟩) (calledWith (.setData [("b", .json (.int 2))])) := calledWith_reach _
  have hlocked := advance_reach hcalled 0 fun _ _ _ _ _ => trivial
  have hread := advance_reach hlocked 0 fun _ _ _ _ _ => trivial
  have hset := advance_reach hread 1 fun _ _ _ _ _ => trivial
  have hwritten := advance_reach hset 0 fun _ _ _ _ _ => trivial
  exact (advance_reach hwritten 0 fun _ _ _ _ _ => trivial).of_restrict

/-- The data of the `set_data` is lost, and `update_data` has not seen it either. -/
theorem set_data_lost :
    ¬ ∀ (dumps : PyValue.Fields → Except TypeError String) (loads : String → Option Json) (v : View)
      (s : StorageState), (storage dumps loads).Reach (.idle v) s →
      Sequential (Exec dumps loads) Phase.effect v s.clients s.shared.toView := by
  intro h
  obtain ⟨order, hreplays, hnodup, hmem⟩ := h dumpsInts loadsInts ⟨none, none⟩ dataBetween
    dataBetween_reach
  have hclients : dataBetween.clients =
      [(.updateData [("a", .json (.int 1))], .ended (.merged [("a", .json (.int 1))])),
        (.setData [("b", .json (.int 2))], .ended .none)] := rfl
  have hdone : order.Perm [(0, .updateData [("a", .json (.int 1))], .merged [("a", .json (.int 1))]),
      (1, .setData [("b", .json (.int 2))], .none)] := by
    refine (List.perm_ext_iff_of_nodup (List.Nodup.of_map _ hnodup) (by simp)).mpr ?_
    rintro ⟨i, call, result⟩
    rw [hmem, hclients]
    match i with
    | 0 => simp [Phase.effect, eq_comm]
    | 1 => simp [Phase.effect, eq_comm]
    | i + 2 => simp
  rcases List.perm_pair.mp hdone with rfl | rfl
  · -- `update_data` first: the data of `set_data` would be stored
    obtain ⟨v, -, v', hset, rfl⟩ := hreplays
    have hdata : some "\x7b\"b\": 2\x7d" = dataBetween.shared.data :=
      congrArg (fun after => after.1.data) hset
    exact absurd hdata (by decide +kernel)
  · -- `set_data` first: `update_data` would return both
    obtain ⟨v, hset, v', hupdate, -⟩ := hreplays
    obtain rfl : (⟨none, some "\x7b\"b\": 2\x7d"⟩ : View) = v := congrArg Prod.fst hset
    have hresult : 2 = 1 := congrArg (fun after => match after.2 with
      | Result.merged data => data.length
      | _ => 0) hupdate
    exact absurd hresult (by decide)

end Chattice.Fsm.RedisStorage
