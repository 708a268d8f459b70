import Chattice.Redis.Transaction

/-!
# A client of one Redis key that nobody disturbs

* `Prog.eval` : what the client leaves and answers when all its steps come one after the other;
* `Cell.at` : the key at a later time, without a value whose TTL has run out;
* `Reach.alone` : a call that runs alone, some time after a reachable state, is one of the
  interleavings.
-/

namespace Redis

variable {V A X : Type}

/-- The key at time `now`: a value vanishes as soon as its TTL has run out. -/
def Cell.at (c : Cell V) (now : Rat) : Cell V where
  slot := c.slot.filter fun slot => slot.deadline.all fun deadline => decide (now < deadline)
  version := c.version
  clock := now

/-- One transaction that nobody disturbs. -/
def Attempt.eval : Attempt V A → Cell V → Cell V × A
  | .ret a, c => (c, a)
  | .clock next, c => (next c.clock).eval c
  | .exec cmd answer, c => ((cmd.run c).1, answer (cmd.run c).2)

/-- A client that nobody disturbs: its transaction is applied at once. -/
def Prog.eval : Prog V A → Cell V → Cell V × A
  | .ret a, c => (c, a)
  | .clock next, c => (next c.clock).eval c
  | .send cmd next, c => (next (cmd.run c).2).eval (cmd.run c).1
  | .get next, c => (next c.value).eval c
  | .transact decide, c => (decide c.value).eval c

namespace Attempt

@[simp]
theorem eval_ret (a : A) (c : Cell V) : (Attempt.ret a : Attempt V A).eval c = (c, a) := rfl

@[simp]
theorem eval_clock (next : Rat → Attempt V A) (c : Cell V) :
    (Attempt.clock next).eval c = (next c.clock).eval c := rfl

@[simp]
theorem eval_exec (cmd : Command V) (answer : Bool → A) (c : Cell V) :
    (Attempt.exec cmd answer).eval c = ((cmd.run c).1, answer (cmd.run c).2) := rfl

end Attempt

namespace Prog

@[simp]
theorem eval_ret (a : A) (c : Cell V) : (Prog.ret a : Prog V A).eval c = (c, a) := rfl

@[simp]
theorem eval_clock (next : Rat → Prog V A) (c : Cell V) :
    (Prog.clock next).eval c = (next c.clock).eval c := rfl

@[simp]
theorem eval_send (cmd : Command V) (next : Bool → Prog V A) (c : Cell V) :
    (Prog.send cmd next).eval c = (next (cmd.run c).2).eval (cmd.run c).1 := rfl

@[simp]
theorem eval_get (next : Option V → Prog V A) (c : Cell V) :
    (Prog.get next).eval c = (next c.value).eval c := rfl

@[simp]
theorem eval_transact (decide : Option V → Attempt V A) (c : Cell V) :
    (Prog.transact decide).eval c = (decide c.value).eval c := rfl

end Prog

/-! ## The undisturbed client among the others -/

/-- Client `i` of the state is at `phase`, and the others are those of `clients`. -/
def State.At (s : State X V A) (clients : List (X × Phase V A)) (i : Nat) (x : X)
    (phase : Phase V A) : Prop :=
  i < clients.length ∧ s.clients = clients.set i (x, phase)

theorem State.At.getElem? {s : State X V A} {clients : List (X × Phase V A)} {i : Nat} {x : X}
    {phase : Phase V A} (h : s.At clients i x phase) : s.clients[i]? = some (x, phase) := by
  rw [h.2]
  exact List.getElem?_set_self h.1

theorem State.At.advance {s : State X V A} {clients : List (X × Phase V A)} {i : Nat} {x : X}
    {phase : Phase V A} (h : s.At clients i x phase) (abort : Bool) :
    (s.advance abort i).cell = (phase.step abort s.cell).1 ∧
      (s.advance abort i).At clients i x (phase.step abort s.cell).2.1 := by
  rw [State.advance_eq abort h.getElem?]
  refine ⟨rfl, h.1, ?_⟩
  rw [h.2, List.set_set]

/-- Client `i` can go on alone to the answer `a` and the key `c`. -/
def Finishes (body : X → Prog V A) (clients : List (X × Phase V A)) (i : Nat) (x : X)
    (after : Cell V × A) : Prop :=
  ∃ s, Reach body s ∧ s.cell = after.1 ∧ s.At clients i x (.prog (.ret after.2))

variable {body : X → Prog V A} {clients : List (X × Phase V A)} {i : Nat} {x : X}

theorem Attempt.finishes {decide : Option V → Attempt V A} {seen : Option (Slot V)}
    (rest : Attempt V A) {s : State X V A} (hs : Reach body s)
    (h : s.At clients i x (.deciding decide s.cell.version seen rest)) :
    Finishes body clients i x (rest.eval s.cell) := by
  induction rest generalizing s with
  | ret a =>
    obtain ⟨hcell, hat⟩ := h.advance false
    exact ⟨_, hs.step false i, hcell, hat⟩
  | clock next ih =>
    obtain ⟨hcell, hat⟩ := h.advance false
    have hsame : (s.advance false i).cell = s.cell := hcell
    have hnext := ih s.cell.clock (hs.step false i) (by rw [hsame]; exact hat)
    rw [hsame] at hnext
    exact hnext
  | exec cmd answer =>
    obtain ⟨hcell, hat⟩ := h.advance false
    -- nobody has written the key since the `WATCH`
    have happly : ¬ (false = true ∨ s.cell.version ≠ s.cell.version) := by simp
    rw [Phase.step, if_neg happly] at hcell hat
    exact ⟨_, hs.step false i, hcell, hat⟩

theorem Prog.finishes (p : Prog V A) {s : State X V A} (hs : Reach body s)
    (h : s.At clients i x (.prog p)) : Finishes body clients i x (p.eval s.cell) := by
  induction p generalizing s with
  | ret a => exact ⟨s, hs, rfl, h⟩
  | clock next ih =>
    obtain ⟨hcell, hat⟩ := h.advance false
    have hnext := ih s.cell.clock (hs.step false i) hat
    rw [hcell] at hnext
    exact hnext
  | send cmd next ih =>
    obtain ⟨hcell, hat⟩ := h.advance false
    have hnext := ih (cmd.run s.cell).2 (hs.step false i) hat
    rw [hcell] at hnext
    exact hnext
  | get next ih =>
    obtain ⟨hcell, hat⟩ := h.advance false
    have hnext := ih s.cell.value (hs.step false i) hat
    rw [hcell] at hnext
    exact hnext
  | transact decide =>
    obtain ⟨hwatch, hwatching⟩ := h.advance false
    have hread := hs.step false i
    obtain ⟨hget, hdeciding⟩ := hwatching.advance false
    rw [hwatch] at hget hdeciding
    have hsame : ((s.advance false i).advance false i).cell = s.cell := hget
    have hunchanged : ((s.advance false i).advance false i).At clients i x
        (.deciding decide ((s.advance false i).advance false i).cell.version s.cell.slot
          (decide s.cell.value)) := by
      rw [hsame]
      exact hdeciding
    have hrest := (decide s.cell.value).finishes (hread.step false i) hunchanged
    rw [hsame] at hrest
    exact hrest

theorem Cell.slot_at_of_none {c : Cell V} (now : Rat) (h : c.slot = none) :
    (c.at now).slot = none := by
  rw [Cell.at, h]
  rfl

theorem Cell.slot_at_of_forever {c : Cell V} {value : V} {stamp : Nat} (now : Rat)
    (h : c.slot = some ⟨value, stamp, none⟩) : (c.at now).slot = c.slot := by
  rw [Cell.at, h]
  rfl

theorem Cell.slot_at {c : Cell V} {value : V} {stamp : Nat} {deadline : Rat} (now : Rat)
    (h : c.slot = some ⟨value, stamp, some deadline⟩) :
    (c.at now).slot = if now < deadline then c.slot else none := by
  rw [Cell.at, h, Option.filter_some]
  simp

theorem Cell.at_cases (c : Cell V) (now : Rat) :
    c.at now = { c with clock := now } ∨ ∃ slot deadline, c.slot = some slot ∧
      slot.deadline = some deadline ∧ deadline ≤ now ∧
        c.at now = { c with slot := none, clock := now } := by
  unfold Cell.at
  cases hslot : c.slot with
  | none => exact .inl rfl
  | some slot =>
    cases hdeadline : slot.deadline with
    | none => exact .inl (by simp [hdeadline])
    | some deadline =>
      by_cases hlive : now < deadline
      · exact .inl (by simp [hdeadline, hlive])
      · exact .inr ⟨slot, deadline, rfl, hdeadline, not_lt.mp hlive, by simp [hdeadline, hlive]⟩

/-- The clock goes on, and a value whose TTL has run out vanishes. -/
theorem Reach.at {s : State X V A} (hs : Reach body s) {now : Rat} (hnow : s.cell.clock ≤ now) :
    Reach body { s with cell := s.cell.at now } := by
  have hlater := hs.tick hnow
  rcases s.cell.at_cases now with hsame | ⟨slot, deadline, hslot, hdeadline, hout, hgone⟩
  · rw [hsame]
    exact hlater
  · rw [hgone]
    exact hlater.vanish false hslot hdeadline hout

/-- A call that runs alone some time after a reachable state. -/
theorem Reach.alone {s : State X V A} (hs : Reach body s) {now : Rat} (hnow : s.cell.clock ≤ now)
    (x : X) : ∃ s', Reach body s' ∧ s'.cell = ((body x).eval (s.cell.at now)).1 ∧
      s'.clients = s.clients ++ [(x, .prog (.ret ((body x).eval (s.cell.at now)).2))] := by
  have hcalled := (hs.at hnow).call x
  have hlt : s.clients.length < (s.clients ++ [(x, Phase.prog (body x))]).length := by
    rw [List.length_append]
    exact Nat.lt_succ_self _
  have hset (phase : Phase V A) :
      (s.clients ++ [(x, Phase.prog (body x))]).set s.clients.length (x, phase) =
        s.clients ++ [(x, phase)] := by
    rw [List.set_append_right _ _ (Nat.le_refl _), Nat.sub_self]
    rfl
  obtain ⟨s', hs', hcell, -, hclients⟩ := (body x).finishes hcalled ⟨hlt, (hset _).symm⟩
  exact ⟨s', hs', hcell, hclients.trans (hset _)⟩

end Redis
