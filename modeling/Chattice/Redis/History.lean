import Chattice.Redis.Transaction
import Mathlib.Logic.Relation

/-!
# What a transaction finds

* `Step`, `Since` : one step of a run, and the runs that go on from a state;
* `RunOut` : the TTL of the value a transaction has read has run out;
* `Reach.foundSeen` : a transaction that is applied finds the very value it has read, or nothing,
  because the TTL of that value has run out in between;
* `Since.client` : what every step of one client keeps, every run from a state on keeps.
-/

namespace Redis

variable {V A X : Type}

/-! ## Runs from a state on -/

/-- What can happen next. -/
inductive Step (body : X → Prog V A) (s : State X V A) : State X V A → Prop where
  | call (x : X) : Step body s { s with clients := s.clients ++ [(x, .prog (body x))] }
  | tick {now : Rat} (hnow : s.cell.clock ≤ now) :
      Step body s { s with cell := { s.cell with clock := now } }
  | vanish {slot : Slot V} {deadline : Rat} (counted : Bool) (hslot : s.cell.slot = some slot)
      (hdeadline : slot.deadline = some deadline) (hout : deadline ≤ s.cell.clock) :
      Step body s { s with
        cell := if counted = true then s.cell.clear else { s.cell with slot := none } }
  | step (abort : Bool) (i : Nat) : Step body s (s.advance abort i)

/-- `s` comes after `s₀` in some run. -/
abbrev Since (body : X → Prog V A) : State X V A → State X V A → Prop :=
  Relation.ReflTransGen (Step body)

theorem Reach.next {body : X → Prog V A} {s s' : State X V A} (hs : Reach body s)
    (h : Step body s s') : Reach body s' := by
  cases h with
  | call x => exact hs.call x
  | tick hnow => exact hs.tick hnow
  | vanish counted hslot hdeadline hout => exact hs.vanish counted hslot hdeadline hout
  | step abort i => exact hs.step abort i

theorem Reach.since {body : X → Prog V A} {s s' : State X V A} (hs : Reach body s)
    (h : Since body s s') : Reach body s' := by
  induction h with
  | refl => exact hs
  | tail _ hstep ih => exact ih.next hstep

/-! ## The value that has vanished -/

/-- The TTL of the value, if there was one, is over. -/
def RunOut (seen : Option (Slot V)) (now : Rat) : Prop :=
  ∀ slot, seen = some slot → ∃ deadline, slot.deadline = some deadline ∧ deadline ≤ now

theorem RunOut.mono {seen : Option (Slot V)} {now now' : Rat} (hle : now ≤ now')
    (h : RunOut seen now) : RunOut seen now' := by
  intro slot hslot
  obtain ⟨deadline, hdeadline, hout⟩ := h slot hslot
  exact ⟨deadline, hdeadline, hout.trans hle⟩

theorem runOut_none (now : Rat) : RunOut (none : Option (Slot V)) now := nofun

/-- As long as nobody writes the key, what the transaction has read is missing only when its TTL is
over. -/
def Phase.KnowsTtl (c : Cell V) : Phase V A → Prop
  | .deciding _ watched seen _ => c.version = watched → c.slot = none → RunOut seen c.clock
  | _ => True

/-- A write moves the version past what any transaction watches. -/
theorem Phase.knowsTtl_of_written {S : Spec X V A} {x : X} {wrote : Bool} {c d : Cell V}
    {phase : Phase V A} (hsafe : phase.Safe S x wrote c) (hversion : c.version < d.version) :
    phase.KnowsTtl d := by
  cases phase with
  | prog p => trivial
  | watching decide watched => trivial
  | deciding decide watched seen rest =>
    obtain ⟨-, -, hsees⟩ := hsafe
    intro heq
    have hle := hsees.version
    omega

theorem Phase.step_cell (abort : Bool) (c : Cell V) (phase : Phase V A) :
    (phase.step abort c).1 = c ∨ c.version < (phase.step abort c).1.version := by
  have hcommand (cmd : Command V) : (cmd.run c).1 = c ∨ c.version < (cmd.run c).1.version := by
    rcases cmd.run_cases c with ⟨-, hversion, -⟩ | hsame
    · exact .inr (by omega)
    · exact .inl (by rw [hsame])
  cases phase with
  | prog p =>
    cases p with
    | send cmd next => exact hcommand cmd
    | ret a => exact .inl rfl
    | clock next => exact .inl rfl
    | get next => exact .inl rfl
    | transact decide => exact .inl rfl
  | watching decide watched => exact .inl rfl
  | deciding decide watched seen rest =>
    cases rest with
    | ret a => exact .inl rfl
    | clock next => exact .inl rfl
    | exec cmd answer =>
      rw [Phase.step]
      split
      · exact .inl rfl
      · exact hcommand cmd

/-- A transaction that is applied finds nothing only when it has read nothing, or the TTL of what it
has read is over. -/
def FoundSeen (e : Write X V) : Prop :=
  ∀ seen, e.seen = some seen → e.pre.slot = none → RunOut seen e.pre.clock

theorem Phase.KnowsTtl.step {c : Cell V} {phase : Phase V A} (abort : Bool) (h : phase.KnowsTtl c) :
    (phase.step abort c).2.1.KnowsTtl (phase.step abort c).1 ∧
      ∀ (i : Nat) (x : X) (sent : Option (Option (Slot V)) × Command V),
        (phase.step abort c).2.2 = some sent → FoundSeen (⟨i, x, sent.1, sent.2, c⟩ : Write X V) := by
  have hsilent : ∀ (i : Nat) (x : X) (sent : Option (Option (Slot V)) × Command V),
      none = some sent → FoundSeen (⟨i, x, sent.1, sent.2, c⟩ : Write X V) := by
    intro i x sent hsent
    cases hsent
  cases phase with
  | prog p =>
    cases p with
    | ret a => exact ⟨trivial, hsilent⟩
    | clock next => exact ⟨trivial, hsilent⟩
    | get next => exact ⟨trivial, hsilent⟩
    | transact decide => exact ⟨trivial, hsilent⟩
    | send cmd next =>
      refine ⟨trivial, fun i x sent hsent seen hseen => ?_⟩
      rw [Phase.step] at hsent
      split at hsent
      · rw [← Option.some_inj.mp hsent] at hseen
        cases hseen
      · cases hsent
  | watching decide watched =>
    refine ⟨fun _ hnone => ?_, hsilent⟩
    rw [show c.slot = none from hnone]
    exact runOut_none _
  | deciding decide watched seen rest =>
    cases rest with
    | ret a => exact ⟨trivial, hsilent⟩
    | clock next => exact ⟨h, hsilent⟩
    | exec cmd answer =>
      rw [Phase.step]
      split
      · exact ⟨trivial, hsilent⟩
      · next happly =>
        have hversion : c.version = watched := by
          by_contra hne
          exact happly (.inr hne)
        refine ⟨trivial, fun i x sent hsent seen' hseen hnone => ?_⟩
        split at hsent
        · rw [← Option.some_inj.mp hsent] at hseen
          rw [← Option.some_inj.mp hseen]
          exact h hversion hnone
        · cases hsent

section Runs

variable {S : Spec X V A} {body : X → Prog V A}

/-- Every client knows the TTL of what it has read, and so did every transaction that was applied. -/
structure TtlInv (s : State X V A) : Prop where
  knows : ∀ (i : Nat) (x : X) (phase : Phase V A), s.clients[i]? = some (x, phase) →
    phase.KnowsTtl s.cell
  found : ∀ e ∈ s.log, FoundSeen e

theorem TtlInv.advance {s : State X V A} (hinv : Inv S s) (h : TtlInv s) (abort : Bool) (i : Nat) :
    TtlInv (s.advance abort i) := by
  unfold State.advance
  split
  · exact h
  next x phase hi =>
  obtain ⟨hself, hsent⟩ := (h.knows i x phase hi).step (X := X) abort
  constructor
  · intro j y ph hj
    obtain ⟨rfl, heq⟩ | ⟨-, hold⟩ := (List.getElem?_set_eq_some hi).mp hj
    · cases heq
      exact hself
    · rcases phase.step_cell abort s.cell with hsame | hwritten
      · show ph.KnowsTtl (phase.step abort s.cell).1
        rw [hsame]
        exact h.knows j y ph hold
      · obtain ⟨wrote, hsafe, -⟩ := hinv.safe j y ph hold
        exact Phase.knowsTtl_of_written hsafe hwritten
  · intro e he
    rcases List.mem_append.mp he with hold | hnew
    · exact h.found e hold
    · obtain ⟨sent, hsome, rfl⟩ := mem_sent.mp hnew
      exact hsent i x sent hsome

theorem Reach.ttlInv (hbody : ∀ x now, (body x).Obeys S x false now) {s : State X V A}
    (hs : Reach body s) : TtlInv s := by
  induction hs with
  | init hc => exact ⟨fun _ _ _ hi => (nomatch hi), List.forall_mem_nil _⟩
  | @call s hs x ih =>
    refine ⟨fun i y phase hi => ?_, ih.found⟩
    obtain hold | ⟨-, hnew⟩ := List.getElem?_snoc_eq_some.mp hi
    · exact ih.knows i y phase hold
    · cases hnew
      trivial
  | tick hs hnow ih =>
    refine ⟨fun i y phase hi => ?_, ih.found⟩
    have hknows := ih.knows i y phase hi
    cases phase with
    | prog p => trivial
    | watching decide watched => trivial
    | deciding decide watched seen rest => exact fun hversion hnone => (hknows hversion hnone).mono hnow
  | @vanish s slot deadline hs counted hslot hdeadline hout ih =>
    refine ⟨fun i y phase hi => ?_, ih.found⟩
    obtain ⟨wrote, hsafe, -⟩ := (hs.inv hbody).safe i y phase hi
    cases counted with
    | true => exact Phase.knowsTtl_of_written hsafe (Nat.lt_succ_self s.cell.version)
    | false =>
      cases phase with
      | prog p => trivial
      | watching decide watched => trivial
      | deciding decide watched seen rest =>
        -- the value that vanishes is the one the transaction has read
        intro hversion _ slot' hslot'
        have hread := hsafe.2.2.slot hversion slot hslot
        rw [hread] at hslot'
        rw [← Option.some_inj.mp hslot']
        exact ⟨deadline, hdeadline, hout⟩
  | step hs abort i ih => exact ih.advance (hs.inv hbody) abort i

/-- **What a transaction finds.** A transaction that is applied finds the very value it has read, or
nothing, when it has read nothing or the TTL of what it has read has run out. -/
theorem Reach.foundSeen (hbody : ∀ x now, (body x).Obeys S x false now) {s : State X V A}
    (hs : Reach body s) {e : Write X V} (he : e ∈ s.log) {seen : Option (Slot V)}
    (hseen : e.seen = some seen) :
    e.pre.slot = seen ∨ e.pre.slot = none ∧ RunOut seen e.pre.clock := by
  cases hslot : e.pre.slot with
  | none => exact .inr ⟨rfl, (hs.ttlInv hbody).found e he seen hseen hslot⟩
  | some slot =>
    have hallowed := (hs.written hbody he).allowed
    rw [Write.Allowed, hseen] at hallowed
    exact .inl (hallowed.2.1 slot hslot).symm

/-! ## One client of a run -/

/-- What every step of client `i` keeps from `s₀` on, and what it sends from then on. -/
theorem Since.client {I : Phase V A → Prop} {J : Option (Option (Slot V)) → Command V → Prop}
    (hstep : ∀ abort c phase, I phase → I (phase.step abort c).2.1 ∧
      ∀ sent, (phase.step abort c).2.2 = some sent → J sent.1 sent.2)
    {s₀ s : State X V A} (hsince : Since body s₀ s) {i : Nat} {x : X} {phase₀ : Phase V A}
    (hi : s₀.clients[i]? = some (x, phase₀)) (hphase : I phase₀)
    (hlog : ∀ e ∈ s₀.log, e.client = i → J e.seen e.cmd) :
    (∃ phase, s.clients[i]? = some (x, phase) ∧ I phase) ∧
      ∀ e ∈ s.log, e.client = i → J e.seen e.cmd := by
  induction hsince with
  | refl => exact ⟨⟨phase₀, hi, hphase⟩, hlog⟩
  | @tail s s' _ hnext ih =>
    obtain ⟨⟨phase, hclient, hkept⟩, hsent⟩ := ih
    cases hnext with
    | call y => exact ⟨⟨phase, List.getElem?_snoc_eq_some.mpr (.inl hclient), hkept⟩, hsent⟩
    | tick hnow => exact ⟨⟨phase, hclient, hkept⟩, hsent⟩
    | vanish counted hslot hdeadline hout => exact ⟨⟨phase, hclient, hkept⟩, hsent⟩
    | step abort j =>
      unfold State.advance
      split
      · exact ⟨⟨phase, hclient, hkept⟩, hsent⟩
      next y ph hj =>
      by_cases hij : i = j
      · subst hij
        rw [hclient] at hj
        obtain ⟨rfl, rfl⟩ := Prod.mk.inj (Option.some_inj.mp hj)
        obtain ⟨hphase', hcmd⟩ := hstep abort s.cell phase hkept
        refine ⟨⟨_, (List.getElem?_set_eq_some hclient).mpr (.inl ⟨rfl, rfl⟩), hphase'⟩,
          fun e he hclient' => ?_⟩
        rcases List.mem_append.mp he with hold | hnew
        · exact hsent e hold hclient'
        · obtain ⟨sent, hsome, rfl⟩ := mem_sent.mp hnew
          exact hcmd sent hsome
      · refine ⟨⟨phase, (List.getElem?_set_eq_some hj).mpr (.inr ⟨hij, hclient⟩), hkept⟩,
          fun e he hclient' => ?_⟩
        rcases List.mem_append.mp he with hold | hnew
        · exact hsent e hold hclient'
        · obtain ⟨sent, -, rfl⟩ := mem_sent.mp hnew
          exact absurd hclient'.symm hij

/-- A client of `x` has not begun, and has not written either, or is at a phase of `I`. -/
theorem Reach.client (hbody : ∀ x now, (body x).Obeys S x false now) {I : Phase V A → Prop} {x : X}
    (hbegin : ∀ abort c, I ((Phase.prog (body x)).step abort c).2.1)
    (hstep : ∀ abort c phase, I phase → I (phase.step abort c).2.1)
    {s : State X V A} (hs : Reach body s) {i : Nat} {phase : Phase V A}
    (hi : s.clients[i]? = some (x, phase)) :
    phase = .prog (body x) ∧ (∀ e ∈ s.log, e.client ≠ i) ∨ I phase := by
  induction hs generalizing phase with
  | init hc => cases hi
  | @call s hs y ih =>
    obtain hold | ⟨hlength, hnew⟩ := List.getElem?_snoc_eq_some.mp hi
    · exact ih hold
    · cases hnew
      refine .inl ⟨rfl, fun e he hclient => ?_⟩
      -- a writer is one of the clients there were before
      obtain ⟨-, -, ph, hwriter⟩ := (hs.inv hbody).written e he
      obtain ⟨hbound, -⟩ := List.getElem?_eq_some_iff.mp hwriter
      omega
  | tick hs hnow ih => exact ih hi
  | vanish hs counted hslot hdeadline hout ih => exact ih hi
  | @step s hs abort j ih =>
    unfold State.advance at hi ⊢
    split at hi
    · exact ih hi
    next y ph hj =>
    obtain ⟨rfl, heq⟩ | ⟨hij, hold⟩ := (List.getElem?_set_eq_some hj).mp hi
    · cases heq
      rcases ih hj with ⟨rfl, -⟩ | hold
      · exact .inr (hbegin abort s.cell)
      · exact .inr (hstep abort s.cell ph hold)
    · rcases ih hold with ⟨hstill, hquiet⟩ | hold
      · refine .inl ⟨hstill, fun e he => ?_⟩
        rcases List.mem_append.mp he with hold | hnew
        · exact hquiet e hold
        · obtain ⟨sent, -, rfl⟩ := mem_sent.mp hnew
          exact Ne.symm hij
      · exact .inr hold

end Runs

end Redis
