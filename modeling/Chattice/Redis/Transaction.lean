import Chattice.Data.Entries
import Mathlib.Algebra.Order.Ring.Rat
import Mathlib.Data.List.Pairwise
import Mathlib.Data.Rat.Defs

/-!
# Clients of one Redis key

Any number of clients send commands to one key. Each command is one step; a `WATCH` / `GET` / decide /
`MULTI` / `EXEC` loop is applied only if the key was not written since its `WATCH`, and starts again
otherwise. The server may abort a transaction for no reason, and may drop a key whose TTL has run out
at any moment, with or without counting that as a write.

* `Cell` : the stored value, how often the key was written, and the clock; every stored value is
  stamped with the number of the write that stored it;
* `Prog`, `Attempt` : what a client does, with its transaction loops;
* `Reach` : the states of all interleavings, with the log of the commands that changed the key;
* `Spec`, `Prog.Obeys` : what a client may send, given what it has seen and the clock;
* `Reach.logged` : what every command within the specification keeps of the key and the log, every run
  keeps;
* `Reach.written` : every logged command was sent within the specification, and a transaction found
  what it had seen, or nothing in its place;
* `Reach.ordered` : no two logged commands found the same version;
* `Reach.answered` : a client that answers as if it had written has a command in the log.
-/

namespace Redis

/-! ## The key -/

/-- A stored value, the number of the write that stored it, and the end of its TTL. -/
structure Slot (V : Type) where
  value : V
  stamp : Nat
  deadline : Option Rat

/-- One key of the server: `version` counts its writes, as `WATCH` sees them. -/
structure Cell (V : Type) where
  slot : Option (Slot V)
  version : Nat
  clock : Rat

/-- `SET value [PX px] [NX]` and `DEL`. -/
inductive Command (V : Type) where
  | set (value : V) (px : Option Nat) (nx : Bool)
  | delete

variable {V A X : Type}

namespace Cell

def value (c : Cell V) : Option V := c.slot.map Slot.value

theorem value_of_absent {c : Cell V} (h : c.slot = none) : c.value = none := by
  rw [value, h]
  rfl

theorem value_of_stored {c : Cell V} {slot : Slot V} (h : c.slot = some slot) :
    c.value = some slot.value := by
  rw [value, h]
  rfl

def write (c : Cell V) (value : V) (px : Option Nat) : Cell V :=
  { c with
    slot := some ⟨value, c.version + 1, px.map fun ms => c.clock + ms / 1000⟩
    version := c.version + 1 }

def clear (c : Cell V) : Cell V := { c with slot := none, version := c.version + 1 }

/-- The stored value was stored by the last write. -/
def Stamped (c : Cell V) : Prop := ∀ slot, c.slot = some slot → slot.stamp = c.version

/-- `d` comes after `c`: as long as nobody writes, the stored value stays or vanishes. -/
structure Later (c d : Cell V) : Prop where
  clock : c.clock ≤ d.clock
  version : c.version ≤ d.version
  slot : c.version = d.version → ∀ slot, d.slot = some slot → c.slot = some slot

theorem Later.refl (c : Cell V) : c.Later c := ⟨le_refl _, Nat.le_refl _, fun _ _ h => h⟩

end Cell

namespace Command

/-- The key after the command, and whether the command has changed it. -/
def run : Command V → Cell V → Cell V × Bool
  | .set value px nx, c =>
    if nx && c.slot.isSome then (c, false) else (c.write value px, true)
  | .delete, c => if c.slot.isSome then (c.clear, true) else (c, false)

@[simp]
theorem run_set (value : V) (px : Option Nat) (c : Cell V) :
    (Command.set value px false).run c = (c.write value px, true) := rfl

theorem run_set_of_absent {c : Cell V} (h : c.slot = none) (value : V) (px : Option Nat) (nx : Bool) :
    (Command.set value px nx).run c = (c.write value px, true) := by
  rw [run, h, Option.isSome_none, Bool.and_false]
  rfl

theorem run_setNX_of_stored {c : Cell V} {slot : Slot V} (h : c.slot = some slot) (value : V)
    (px : Option Nat) : (Command.set value px true).run c = (c, false) := by
  rw [run, h]
  rfl

theorem run_delete_of_stored {c : Cell V} {slot : Slot V} (h : c.slot = some slot) :
    Command.delete.run c = (c.clear, true) := by
  rw [run, h]
  rfl

/-- A command either writes the key, which moves its version, or leaves it alone. -/
theorem run_cases (cmd : Command V) (c : Cell V) :
    ((cmd.run c).2 = true ∧ (cmd.run c).1.version = c.version + 1 ∧ (cmd.run c).1.clock = c.clock ∧
      (cmd.run c).1.Stamped) ∨ cmd.run c = (c, false) := by
  cases cmd with
  | set value px nx =>
    rw [run]
    split
    · exact .inr rfl
    · refine .inl ⟨rfl, rfl, rfl, fun slot hslot => ?_⟩
      rw [← Option.some_inj.mp hslot]
      rfl
  | delete =>
    rw [run]
    split
    · exact .inl ⟨rfl, rfl, rfl, nofun⟩
    · exact .inr rfl

theorem slot_of_set_nx {value : V} {px : Option Nat} {c : Cell V}
    (h : ((Command.set value px true).run c).2 = true) : c.slot = none := by
  cases hslot : c.slot with
  | none => rfl
  | some slot =>
    rw [run, hslot] at h
    cases h

theorem run_later (cmd : Command V) (c : Cell V) : c.Later (cmd.run c).1 := by
  rcases cmd.run_cases c with ⟨-, hversion, hclock, -⟩ | hsame
  · refine ⟨le_of_eq hclock.symm, by omega, fun heq => ?_⟩
    omega
  · rw [hsame]
    exact .refl c

theorem run_stamped (cmd : Command V) {c : Cell V} (h : c.Stamped) : (cmd.run c).1.Stamped := by
  rcases cmd.run_cases c with ⟨-, -, -, hstamped⟩ | hsame
  · exact hstamped
  · rw [hsame]
    exact h

end Command

/-! ## Clients -/

/-- What a transaction does once it has read the key: it reads the clock, then leaves the loop with an
answer or sends one command in `MULTI` / `EXEC`; `answer` gets whether the command has changed the
key. -/
inductive Attempt (V A : Type) where
  | ret (a : A)
  | clock (next : Rat → Attempt V A)
  | exec (cmd : Command V) (answer : Bool → A)

/-- What a client does: it reads the clock, sends a command or a `GET` of its own, and ends with an
answer or with a loop of transactions. -/
inductive Prog (V A : Type) where
  | ret (a : A)
  | clock (next : Rat → Prog V A)
  | send (cmd : Command V) (next : Bool → Prog V A)
  | get (next : Option V → Prog V A)
  | transact (decide : Option V → Attempt V A)

/-- Where a client is. `watched` is the version its `WATCH` saw, `seen` what its `GET` returned. -/
inductive Phase (V A : Type) where
  | prog (p : Prog V A)
  | watching (decide : Option V → Attempt V A) (watched : Nat)
  | deciding (decide : Option V → Attempt V A) (watched : Nat) (seen : Option (Slot V))
      (rest : Attempt V A)

/-- A command that has changed the key. `seen` is what the transaction had read, if it was one. -/
structure Write (X V : Type) where
  client : Nat
  caller : X
  seen : Option (Option (Slot V))
  cmd : Command V
  pre : Cell V

/-- The next step of a client: the key and the phase it leaves, and the command it sent, when that
has changed the key. `abort` makes the server abort the transaction. -/
def Phase.step (abort : Bool) (c : Cell V) :
    Phase V A → Cell V × Phase V A × Option (Option (Option (Slot V)) × Command V)
  | .prog (.ret a) => (c, .prog (.ret a), none)
  | .prog (.clock next) => (c, .prog (next c.clock), none)
  | .prog (.send cmd next) =>
    ((cmd.run c).1, .prog (next (cmd.run c).2),
      if (cmd.run c).2 = true then some (none, cmd) else none)
  | .prog (.get next) => (c, .prog (next c.value), none)
  | .prog (.transact decide) => (c, .watching decide c.version, none)
  | .watching decide watched => (c, .deciding decide watched c.slot (decide c.value), none)
  | .deciding _ _ _ (.ret a) => (c, .prog (.ret a), none)
  | .deciding decide watched seen (.clock next) =>
    (c, .deciding decide watched seen (next c.clock), none)
  | .deciding decide watched seen (.exec cmd answer) =>
    if abort = true ∨ c.version ≠ watched then (c, .prog (.transact decide), none)
    else
      ((cmd.run c).1, .prog (.ret (answer (cmd.run c).2)),
        if (cmd.run c).2 = true then some (some seen, cmd) else none)

/-- The key, the clients with their phases, and the commands that have changed the key, oldest
first. -/
structure State (X V A : Type) where
  cell : Cell V
  clients : List (X × Phase V A)
  log : List (Write X V)

namespace State

/-- Client number `i` makes its next step, if there is such a client. -/
def advance (s : State X V A) (abort : Bool) (i : Nat) : State X V A :=
  match s.clients[i]? with
  | none => s
  | some (x, phase) =>
    { cell := (phase.step abort s.cell).1
      clients := s.clients.set i (x, (phase.step abort s.cell).2.1)
      log := s.log ++ ((phase.step abort s.cell).2.2.map fun sent =>
        ⟨i, x, sent.1, sent.2, s.cell⟩).toList }

theorem advance_eq {s : State X V A} {i : Nat} {x : X} {phase : Phase V A} (abort : Bool)
    (hi : s.clients[i]? = some (x, phase)) :
    s.advance abort i =
      { cell := (phase.step abort s.cell).1
        clients := s.clients.set i (x, (phase.step abort s.cell).2.1)
        log := s.log ++ ((phase.step abort s.cell).2.2.map fun sent =>
          ⟨i, x, sent.1, sent.2, s.cell⟩).toList } := by
  unfold State.advance
  rw [hi]

end State

/-- The states of all interleavings of clients that run `body`. -/
inductive Reach (body : X → Prog V A) : State X V A → Prop where
  | init {c : Cell V} (hc : c.Stamped) : Reach body ⟨c, [], []⟩
  | call {s : State X V A} (hs : Reach body s) (x : X) :
      Reach body { s with clients := s.clients ++ [(x, .prog (body x))] }
  | tick {s : State X V A} {now : Rat} (hs : Reach body s) (hnow : s.cell.clock ≤ now) :
      Reach body { s with cell := { s.cell with clock := now } }
  /-- The TTL of the stored value has run out and the server drops it. -/
  | vanish {s : State X V A} {slot : Slot V} {deadline : Rat} (hs : Reach body s) (counted : Bool)
      (hslot : s.cell.slot = some slot) (hdeadline : slot.deadline = some deadline)
      (hout : deadline ≤ s.cell.clock) :
      Reach body { s with
        cell := if counted = true then s.cell.clear else { s.cell with slot := none } }
  | step {s : State X V A} (hs : Reach body s) (abort : Bool) (i : Nat) :
      Reach body (s.advance abort i)

/-! ## What clients may do -/

/-- What a caller may do: `send` of the commands it sends outside a transaction, `write` of those it
sends in one, given the clock and what it has read, and `quiet` of the answers that do not claim to
have changed the key. -/
structure Spec (X V A : Type) where
  send : X → Rat → Command V → Prop
  write : X → Rat → Option V → Command V → Prop
  quiet : X → A → Prop

/-- The transaction meets the specification from the clock `now` on, having read `raw`. `wrote` says
that the client has already changed the key. -/
def Attempt.Obeys (S : Spec X V A) (x : X) (wrote : Bool) (raw : Option V) : Rat → Attempt V A → Prop
  | _, .ret a => wrote = false → S.quiet x a
  | now, .clock next => ∀ t, now ≤ t → (next t).Obeys S x wrote raw t
  | now, .exec cmd answer =>
    (∀ t, now ≤ t → S.write x t raw cmd) ∧
      ∀ c, (cmd.run c).2 = false → wrote = false → S.quiet x (answer false)

/-- Every transaction of the loop meets the specification, whatever it reads. -/
def LoopObeys (S : Spec X V A) (x : X) (wrote : Bool) (now : Rat)
    (decide : Option V → Attempt V A) : Prop :=
  ∀ raw t, now ≤ t → (decide raw).Obeys S x wrote raw t

/-- The client meets the specification from the clock `now` on. -/
def Prog.Obeys (S : Spec X V A) (x : X) : Bool → Rat → Prog V A → Prop
  | wrote, _, .ret a => wrote = false → S.quiet x a
  | wrote, now, .clock next => ∀ t, now ≤ t → (next t).Obeys S x wrote t
  | wrote, now, .send cmd next =>
    (∀ t, now ≤ t → S.send x t cmd) ∧
      ∀ t, now ≤ t → (next true).Obeys S x true t ∧ (next false).Obeys S x wrote t
  | wrote, now, .get next => ∀ raw t, now ≤ t → (next raw).Obeys S x wrote t
  | wrote, now, .transact decide => LoopObeys S x wrote now decide

theorem Attempt.Obeys.mono {S : Spec X V A} {x : X} {wrote : Bool} {raw : Option V} {now now' : Rat}
    {a : Attempt V A} (hle : now ≤ now') (h : a.Obeys S x wrote raw now) :
    a.Obeys S x wrote raw now' := by
  cases a with
  | ret a => exact h
  | clock next => exact fun t ht => h t (hle.trans ht)
  | exec cmd answer => exact ⟨fun t ht => h.1 t (hle.trans ht), h.2⟩

theorem LoopObeys.mono {S : Spec X V A} {x : X} {wrote : Bool} {now now' : Rat}
    {decide : Option V → Attempt V A} (hle : now ≤ now') (h : LoopObeys S x wrote now decide) :
    LoopObeys S x wrote now' decide :=
  fun raw t ht => h raw t (hle.trans ht)

theorem Prog.Obeys.mono {S : Spec X V A} {x : X} {wrote : Bool} {now now' : Rat} {p : Prog V A}
    (hle : now ≤ now') (h : p.Obeys S x wrote now) : p.Obeys S x wrote now' := by
  cases p with
  | ret a => exact h
  | clock next => exact fun t ht => h t (hle.trans ht)
  | send cmd next => exact ⟨fun t ht => h.1 t (hle.trans ht), fun t ht => h.2 t (hle.trans ht)⟩
  | get next => exact fun raw t ht => h raw t (hle.trans ht)
  | transact decide => exact LoopObeys.mono hle h

/-! ## The invariant -/

/-- What a transaction knows of the key: nobody wrote it since the `WATCH` unless its version moved,
and until then the value it has read is there or has vanished. -/
structure Sees (c : Cell V) (watched : Nat) (seen : Option (Slot V)) : Prop where
  version : watched ≤ c.version
  slot : c.version = watched → ∀ slot, c.slot = some slot → seen = some slot
  stamp : ∀ slot, seen = some slot → watched ≤ slot.stamp ∧ slot.stamp ≤ c.version

/-- A client is safe to go on. -/
def Phase.Safe (S : Spec X V A) (x : X) (wrote : Bool) (c : Cell V) : Phase V A → Prop
  | .prog p => p.Obeys S x wrote c.clock
  | .watching decide watched => LoopObeys S x wrote c.clock decide ∧ watched ≤ c.version
  | .deciding decide watched seen rest =>
    LoopObeys S x wrote c.clock decide ∧ rest.Obeys S x wrote (seen.map Slot.value) c.clock ∧
      Sees c watched seen

theorem Sees.later {c d : Cell V} {watched : Nat} {seen : Option (Slot V)} (h : Sees c watched seen)
    (hle : c.Later d) : Sees d watched seen where
  version := h.version.trans hle.version
  slot := by
    intro heq slot hslot
    have h₁ := h.version
    have h₂ := hle.version
    exact h.slot (by omega) slot (hle.slot (by omega) slot hslot)
  stamp := by
    intro slot hslot
    obtain ⟨hlow, hhigh⟩ := h.stamp slot hslot
    exact ⟨hlow, hhigh.trans hle.version⟩

/-- What the other clients do leaves a client safe. -/
theorem Phase.Safe.later {S : Spec X V A} {x : X} {wrote : Bool} {c d : Cell V} {phase : Phase V A}
    (h : phase.Safe S x wrote c) (hle : c.Later d) : phase.Safe S x wrote d := by
  cases phase with
  | prog p => exact Prog.Obeys.mono hle.clock h
  | watching decide watched => exact ⟨h.1.mono hle.clock, h.2.trans hle.version⟩
  | deciding decide watched seen rest =>
    obtain ⟨hloop, hrest, hsees⟩ := h
    exact ⟨hloop.mono hle.clock, hrest.mono hle.clock, hsees.later hle⟩

/-- The command was sent within the specification, and a transaction has found what it had seen, or
nothing in its place. -/
def Write.Allowed (S : Spec X V A) (e : Write X V) : Prop :=
  match e.seen with
  | none => S.send e.caller e.pre.clock e.cmd
  | some seen => S.write e.caller e.pre.clock (seen.map Slot.value) e.cmd ∧
      (∀ slot, e.pre.slot = some slot → seen = some slot) ∧
      ∀ slot, seen = some slot → slot.stamp = e.pre.version

structure Write.Ok (S : Spec X V A) (e : Write X V) : Prop where
  changed : (e.cmd.run e.pre).2 = true
  allowed : e.Allowed S

/-- What a step of a safe client leaves: a later key, a safe client, and a command within the
specification, if it sent one that changed the key. -/
structure Stepped (S : Spec X V A) (i : Nat) (x : X) (wrote : Bool) (c : Cell V)
    (after : Cell V × Phase V A × Option (Option (Option (Slot V)) × Command V)) : Prop where
  later : c.Later after.1
  stamped : after.1.Stamped
  safe : ∃ wrote', after.2.1.Safe S x wrote' after.1 ∧
    (wrote' = true → wrote = true ∨ after.2.2.isSome = true)
  ok : ∀ sent, after.2.2 = some sent →
    Write.Ok S ⟨i, x, sent.1, sent.2, c⟩ ∧ after.1.version = c.version + 1

theorem Stepped.of_silent {S : Spec X V A} (i : Nat) {x : X} {wrote : Bool} {c : Cell V}
    {phase : Phase V A} (hstamped : c.Stamped) (h : phase.Safe S x wrote c) :
    Stepped S i x wrote c (c, phase, none) where
  later := .refl c
  stamped := hstamped
  safe := ⟨wrote, h, .inl⟩
  ok := nofun

theorem Stepped.of_command {S : Spec X V A} {i : Nat} {x : X} {wrote : Bool} {c : Cell V}
    {cmd : Command V} {seen : Option (Option (Slot V))} (next : Bool → Phase V A)
    (hstamped : c.Stamped) (hallowed : Write.Allowed S ⟨i, x, seen, cmd, c⟩)
    (htrue : (next true).Safe S x true (cmd.run c).1)
    (hfalse : (cmd.run c).2 = false → (next false).Safe S x wrote c) :
    Stepped S i x wrote c ((cmd.run c).1, next (cmd.run c).2,
      if (cmd.run c).2 = true then some (seen, cmd) else none) where
  later := cmd.run_later c
  stamped := cmd.run_stamped hstamped
  safe := by
    rcases cmd.run_cases c with ⟨hchanged, -⟩ | hsame
    · rw [hchanged, if_pos rfl]
      exact ⟨true, htrue, fun _ => .inr rfl⟩
    · have hunchanged := hfalse (by rw [hsame])
      rw [hsame]
      exact ⟨wrote, hunchanged, .inl⟩
  ok := by
    intro sent hsent
    rcases cmd.run_cases c with ⟨hchanged, hversion, -⟩ | hsame
    · rw [hchanged, if_pos rfl] at hsent
      rw [← Option.some_inj.mp hsent]
      exact ⟨⟨hchanged, hallowed⟩, hversion⟩
    · rw [hsame] at hsent
      cases hsent

/-- **One step.** Whatever a safe client does next is within the specification. -/
theorem Phase.stepped {S : Spec X V A} {i : Nat} {x : X} {wrote : Bool} {c : Cell V} {phase : Phase V A}
    (abort : Bool) (hstamped : c.Stamped) (h : phase.Safe S x wrote c) :
    Stepped S i x wrote c (phase.step abort c) := by
  cases phase with
  | prog p =>
    cases p with
    | ret a => exact .of_silent i hstamped h
    | clock next => exact .of_silent i hstamped (h c.clock (le_refl _))
    | send cmd next =>
      refine .of_command (fun b => .prog (next b)) hstamped (h.1 c.clock (le_refl _)) ?_ ?_
      · exact (h.2 _ (cmd.run_later c).clock).1
      · exact fun _ => (h.2 c.clock (le_refl _)).2
    | get next => exact .of_silent i hstamped (h c.value c.clock (le_refl _))
    | transact decide => exact .of_silent i hstamped ⟨h, Nat.le_refl _⟩
  | watching decide watched =>
    obtain ⟨hloop, hwatched⟩ := h
    have hsees : Sees c watched c.slot := by
      refine ⟨hwatched, fun _ slot hslot => hslot, fun slot hslot => ?_⟩
      have hstamp := hstamped slot hslot
      omega
    exact .of_silent i hstamped ⟨hloop, hloop c.value c.clock (le_refl _), hsees⟩
  | deciding decide watched seen rest =>
    obtain ⟨hloop, hrest, hsees⟩ := h
    cases rest with
    | ret a => exact .of_silent i hstamped hrest
    | clock next => exact .of_silent i hstamped ⟨hloop, hrest c.clock (le_refl _), hsees⟩
    | exec cmd answer =>
      rw [Phase.step]
      split
      · exact .of_silent i hstamped hloop
      · -- `EXEC` is applied: the version is still the watched one
        next happly =>
        have hversion : c.version = watched := by
          by_contra hne
          exact happly (.inr hne)
        refine .of_command (fun b => .prog (.ret (answer b))) hstamped ?_ nofun (hrest.2 c)
        refine ⟨hrest.1 c.clock (le_refl _), hsees.slot hversion, fun slot hslot => ?_⟩
        obtain ⟨hlow, hhigh⟩ := hsees.stamp slot hslot
        show slot.stamp = c.version
        omega

/-- What holds in every reachable state. -/
structure Inv (S : Spec X V A) (s : State X V A) : Prop where
  stamped : s.cell.Stamped
  safe : ∀ i x phase, s.clients[i]? = some (x, phase) →
    ∃ wrote, phase.Safe S x wrote s.cell ∧ (wrote = true → ∃ e ∈ s.log, e.client = i)
  written : ∀ e ∈ s.log, e.Ok S ∧ e.pre.version < s.cell.version ∧
    ∃ phase, s.clients[e.client]? = some (e.caller, phase)
  ordered : s.log.Pairwise fun e e' => e.pre.version < e'.pre.version

theorem mem_sent {i : Nat} {x : X} {c : Cell V}
    {sent : Option (Option (Option (Slot V)) × Command V)} {e : Write X V} :
    e ∈ (sent.map fun sent => (⟨i, x, sent.1, sent.2, c⟩ : Write X V)).toList ↔
      ∃ a, sent = some a ∧ ⟨i, x, a.1, a.2, c⟩ = e := by
  rw [Option.mem_toList, Option.map_eq_some_iff]

theorem clients_set {clients : List (X × Phase V A)} {i j : Nat} {x y : X} {phase ph : Phase V A}
    (hi : clients[i]? = some (x, phase)) (phase' : Phase V A) (hj : clients[j]? = some (y, ph)) :
    ∃ ph', (clients.set i (x, phase'))[j]? = some (y, ph') := by
  by_cases hij : j = i
  · subst hij
    rw [hi] at hj
    obtain ⟨rfl, -⟩ := Prod.mk.inj (Option.some_inj.mp hj)
    exact ⟨phase', (List.getElem?_set_eq_some hi).mpr (.inl ⟨rfl, rfl⟩)⟩
  · exact ⟨ph, (List.getElem?_set_eq_some hi).mpr (.inr ⟨hij, hj⟩)⟩

namespace Inv

variable {S : Spec X V A} {s : State X V A}

theorem later (h : Inv S s) {c : Cell V} (hle : s.cell.Later c) (hstamped : c.Stamped) :
    Inv S { s with cell := c } where
  stamped := hstamped
  safe := by
    intro i x phase hi
    obtain ⟨wrote, hsafe, hwrote⟩ := h.safe i x phase hi
    exact ⟨wrote, hsafe.later hle, hwrote⟩
  written := by
    intro e he
    obtain ⟨hok, hversion, hclient⟩ := h.written e he
    exact ⟨hok, Nat.lt_of_lt_of_le hversion hle.version, hclient⟩
  ordered := h.ordered

theorem call (h : Inv S s) {x : X} {p : Prog V A} (hp : p.Obeys S x false s.cell.clock) :
    Inv S { s with clients := s.clients ++ [(x, .prog p)] } where
  stamped := h.stamped
  safe := by
    intro i y phase hi
    obtain hold | ⟨-, hnew⟩ := List.getElem?_snoc_eq_some.mp hi
    · exact h.safe i y phase hold
    · cases hnew
      exact ⟨false, hp, nofun⟩
  written := by
    intro e he
    obtain ⟨hok, hversion, phase, hclient⟩ := h.written e he
    exact ⟨hok, hversion, phase, List.getElem?_snoc_eq_some.mpr (.inl hclient)⟩
  ordered := h.ordered

theorem advance (h : Inv S s) (abort : Bool) (i : Nat) : Inv S (s.advance abort i) := by
  unfold State.advance
  split
  · exact h
  next x phase hi =>
  obtain ⟨wrote, hsafe, hwrote⟩ := h.safe i x phase hi
  have hstep := Phase.stepped (i := i) abort h.stamped hsafe
  constructor
  · exact hstep.stamped
  · intro j y ph hj
    obtain ⟨rfl, heq⟩ | ⟨-, hold⟩ := (List.getElem?_set_eq_some hi).mp hj
    · cases heq
      obtain ⟨wrote', hsafe', himp⟩ := hstep.safe
      refine ⟨wrote', hsafe', fun hw => ?_⟩
      rcases himp hw with hold | hnew
      · obtain ⟨e, he, hclient⟩ := hwrote hold
        exact ⟨e, List.mem_append_left _ he, hclient⟩
      · obtain ⟨sent, hsent⟩ := Option.isSome_iff_exists.mp hnew
        refine ⟨⟨j, x, sent.1, sent.2, s.cell⟩, List.mem_append_right _ ?_, rfl⟩
        rw [hsent]
        exact List.mem_singleton.mpr rfl
    · obtain ⟨wrote', hsafe', hlogged⟩ := h.safe j y ph hold
      refine ⟨wrote', hsafe'.later hstep.later, fun hw => ?_⟩
      obtain ⟨e, he, hclient⟩ := hlogged hw
      exact ⟨e, List.mem_append_left _ he, hclient⟩
  · intro e he
    rcases List.mem_append.mp he with hold | hnew
    · obtain ⟨hok, hversion, ph, hclient⟩ := h.written e hold
      exact ⟨hok, Nat.lt_of_lt_of_le hversion hstep.later.version,
        clients_set hi (phase.step abort s.cell).2.1 hclient⟩
    · obtain ⟨sent, hsent, rfl⟩ := mem_sent.mp hnew
      obtain ⟨hok, hversion⟩ := hstep.ok sent hsent
      refine ⟨hok, ?_, _, (List.getElem?_set_eq_some hi).mpr (.inl ⟨rfl, rfl⟩)⟩
      show s.cell.version < (phase.step abort s.cell).1.version
      omega
  · refine List.pairwise_append.mpr ⟨h.ordered, ?_, fun e he e' he' => ?_⟩
    · cases (phase.step abort s.cell).2.2 with
      | none => exact .nil
      | some sent => exact List.pairwise_singleton _ _
    · obtain ⟨sent, -, rfl⟩ := mem_sent.mp he'
      exact (h.written e he).2.1

end Inv

/-! ## Every run -/

/-- Clients that meet their specification from any clock on keep the invariant in every run. -/
theorem Reach.inv {S : Spec X V A} {body : X → Prog V A}
    (hbody : ∀ x now, (body x).Obeys S x false now) {s : State X V A} (hs : Reach body s) :
    Inv S s := by
  induction hs with
  | init hc => exact ⟨hc, nofun, nofun, .nil⟩
  | call hs x ih => exact ih.call (hbody x _)
  | tick hs hnow ih => exact ih.later ⟨hnow, Nat.le_refl _, fun _ _ h => h⟩ ih.stamped
  | vanish hs counted hslot hdeadline hout ih =>
    refine ih.later ?_ ?_
    · cases counted with
      | false => exact ⟨le_refl _, Nat.le_refl _, fun _ => nofun⟩
      | true => exact ⟨le_refl _, Nat.le_succ _, fun _ => nofun⟩
    · cases counted with
      | false => exact nofun
      | true => exact nofun
  | step hs abort i ih => exact ih.advance abort i

theorem Phase.step_sent (abort : Bool) (c : Cell V) (phase : Phase V A) :
    (phase.step abort c).2.2 = none ∧ (phase.step abort c).1 = c ∨
      ∃ sent, (phase.step abort c).2.2 = some sent ∧ (phase.step abort c).1 = (sent.2.run c).1 := by
  have hcommand (seen : Option (Option (Slot V))) (cmd : Command V) :
      (if (cmd.run c).2 = true then some (seen, cmd) else none) = none ∧ (cmd.run c).1 = c ∨
        ∃ sent, (if (cmd.run c).2 = true then some (seen, cmd) else none) = some sent ∧
          (cmd.run c).1 = (sent.2.run c).1 := by
    rcases cmd.run_cases c with ⟨hchanged, -⟩ | hsame
    · rw [if_pos hchanged]
      exact .inr ⟨_, rfl, rfl⟩
    · rw [hsame]
      exact .inl ⟨rfl, rfl⟩
  cases phase with
  | prog p =>
    cases p with
    | send cmd next => exact hcommand none cmd
    | ret a => exact .inl ⟨rfl, rfl⟩
    | clock next => exact .inl ⟨rfl, rfl⟩
    | get next => exact .inl ⟨rfl, rfl⟩
    | transact decide => exact .inl ⟨rfl, rfl⟩
  | watching decide watched => exact .inl ⟨rfl, rfl⟩
  | deciding decide watched seen rest =>
    cases rest with
    | ret a => exact .inl ⟨rfl, rfl⟩
    | clock next => exact .inl ⟨rfl, rfl⟩
    | exec cmd answer =>
      rw [Phase.step]
      split
      · exact .inl ⟨rfl, rfl⟩
      · exact hcommand (some seen) cmd

/-- What holds of the key and the log at first, and is kept by the clock, by a TTL that runs out and by every
command within the specification, holds in every run. -/
theorem Reach.logged {S : Spec X V A} {body : X → Prog V A} {P : Cell V → List (Write X V) → Prop}
    (hbody : ∀ x now, (body x).Obeys S x false now) (hinit : ∀ c, c.Stamped → P c [])
    (htick : ∀ c log now, P c log → c.clock ≤ now → P { c with clock := now } log)
    (hvanish : ∀ c log slot deadline version, P c log → c.slot = some slot →
      slot.deadline = some deadline → deadline ≤ c.clock → P ⟨none, version, c.clock⟩ log)
    (hwrite : ∀ e log, Write.Ok S e → P e.pre log → P (e.cmd.run e.pre).1 (log ++ [e]))
    {s : State X V A} (hs : Reach body s) : P s.cell s.log := by
  induction hs with
  | init hc => exact hinit _ hc
  | call hs x ih => exact ih
  | tick hs hnow ih => exact htick _ _ _ ih hnow
  | vanish hs counted hslot hdeadline hout ih =>
    cases counted with
    | false => exact hvanish _ _ _ _ _ ih hslot hdeadline hout
    | true => exact hvanish _ _ _ _ _ ih hslot hdeadline hout
  | @step s hs abort i ih =>
    unfold State.advance
    split
    · exact ih
    next x phase hi =>
    obtain ⟨wrote, hsafe, -⟩ := (hs.inv hbody).safe i x phase hi
    have hstep := Phase.stepped (i := i) abort (hs.inv hbody).stamped hsafe
    rcases phase.step_sent abort s.cell with ⟨hnone, hcell⟩ | ⟨sent, hsent, hcell⟩
    · dsimp only
      rw [hnone, hcell, Option.map_none, Option.toList_none, List.append_nil]
      exact ih
    · dsimp only
      rw [hsent, hcell, Option.map_some, Option.toList_some]
      exact hwrite ⟨i, x, sent.1, sent.2, s.cell⟩ s.log (hstep.ok sent hsent).1 ih

/-- Every command that has changed the key was sent within the specification, and the transactions
found what they had seen, or nothing in its place. -/
theorem Reach.written {S : Spec X V A} {body : X → Prog V A}
    (hbody : ∀ x now, (body x).Obeys S x false now) {s : State X V A} (hs : Reach body s)
    {e : Write X V} (he : e ∈ s.log) : e.Ok S :=
  ((hs.inv hbody).written e he).1

/-- No two commands have found the same version. -/
theorem Reach.ordered {S : Spec X V A} {body : X → Prog V A}
    (hbody : ∀ x now, (body x).Obeys S x false now) {s : State X V A} (hs : Reach body s) :
    s.log.Pairwise fun e e' => e.pre.version < e'.pre.version :=
  (hs.inv hbody).ordered

/-- A client that ends with an answer that is not quiet has changed the key. -/
theorem Reach.answered {S : Spec X V A} {body : X → Prog V A}
    (hbody : ∀ x now, (body x).Obeys S x false now) {s : State X V A} (hs : Reach body s) {i : Nat}
    {x : X} {a : A} (hi : s.clients[i]? = some (x, .prog (.ret a))) (ha : ¬ S.quiet x a) :
    ∃ e ∈ s.log, e.client = i ∧ e.caller = x := by
  have hinv := hs.inv hbody
  obtain ⟨wrote, hsafe, hwrote⟩ := hinv.safe i x _ hi
  cases wrote with
  | false => exact absurd (hsafe rfl) ha
  | true =>
    obtain ⟨e, he, rfl⟩ := hwrote rfl
    obtain ⟨-, -, phase, hclient⟩ := hinv.written e he
    rw [hi] at hclient
    exact ⟨e, he, rfl, (Prod.mk.inj (Option.some_inj.mp hclient)).1.symm⟩

end Redis
