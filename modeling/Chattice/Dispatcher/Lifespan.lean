import Chattice.Asyncio.Attempts

/-!
# `Lifespan`

Ordered startup and reverse shutdown. A run is an `__aenter__` and, when it has returned, an `__aexit__`;
each `start` and `close` ends as it likes. The lifespan and the outcome of a method are its result here,
for a method that raises leaves a changed lifespan; the log records are left out.

* `runs_aenter`, `runs_aexit` : what the two methods call, and what they leave;
* `lifetime_iff` : the runs of a fresh lifespan.
-/

namespace Chattice.Dispatcher.Lifespans

open Asyncio Asyncio.Coro

/-! ## The lifespan -/

inductive Call (Resource : Type) where
  | start (resource : Resource)
  | close (resource : Resource)

inductive Exc (ε : Type) where
  | runtimeError (text : String)
  | resource (e : ε)

abbrev sig (Resource ε : Type) : Sig where
  Call := Call Resource
  Res := fun _ => Unit
  Eff := Empty
  Exc := Exc ε

variable {Resource ε : Type}

/-- How a method or a call of a resource ends. -/
abbrev Ending (ε : Type) := Outcome (Exc ε) Unit

structure Lifespan (Resource : Type) where
  resources : List Resource
  started : List Resource
  closed : Bool

def Lifespan.new (resources : List Resource) : Lifespan Resource := ⟨resources, [], false⟩

def start (resource : Resource) : Coro (sig Resource ε) Unit :=
  call (S := sig Resource ε) (.start resource)

def close (resource : Resource) : Coro (sig Resource ε) Unit :=
  call (S := sig Resource ε) (.close resource)

def failed : Ending ε → Bool
  | .ret () => false
  | _ => true

/-- What has been started is closed in reverse order, and the failure raised again. -/
def rollback (self : Lifespan Resource) (started : List Resource) (failure : Ending ε) :
    Coro (sig Resource ε) (Lifespan Resource × Ending ε) :=
  (attemptEach close started.reverse).bind fun _ => done (.ret ({ self with started := [] }, failure))

/-- The loop of `__aenter__` has started `begun` and has ended. -/
def afterStarts (self : Lifespan Resource) (begun : List Resource) :
    Ending ε → Coro (sig Resource ε) (Lifespan Resource × Ending ε)
  | .ret () => done (.ret ({ self with started := self.started ++ begun }, .ret ()))
  | failure => rollback self (self.started ++ begun) failure

/-- `__aenter__` -/
def aenter (self : Lifespan Resource) : Coro (sig Resource ε) (Lifespan Resource × Ending ε) :=
  if self.closed then
    done (.ret (self, .raised (.runtimeError "This lifespan has already been used")))
  else (forEachWhile start self.resources).bind fun r => afterStarts self r.1 r.2

/-- `raise close_errors[0]`, if there is one. -/
def firstFailure (endings : List (Ending ε)) : Ending ε := (endings.find? failed).getD (.ret ())

/-- `__aexit__`: `pending` says that an exception is on its way out of the block. -/
def aexit (self : Lifespan Resource) (pending : Bool) :
    Coro (sig Resource ε) (Lifespan Resource × Ending ε) :=
  (attemptEach close self.started.reverse).bind fun endings =>
    done (.ret ({ self with started := [], closed := true },
      if pending then .ret () else firstFailure endings))

/-- What a use of a lifespan leaves: how it was entered, how it was left if it was entered, and the
lifespan. -/
structure Use (Resource ε : Type) where
  entry : Ending ε
  exit : Option (Ending ε)
  lifespan : Lifespan Resource

def afterEntry (pending : Bool) (entered : Lifespan Resource) :
    Ending ε → Coro (sig Resource ε) (Use Resource ε)
  | .ret () => (aexit entered pending).bind fun r => done (.ret ⟨.ret (), some r.2, r.1⟩)
  | failure => done (.ret ⟨failure, none, entered⟩)

/-- `async with lifespan` -/
def lifetime (self : Lifespan Resource) (pending : Bool) : Coro (sig Resource ε) (Use Resource ε) :=
  (aenter self).bind fun r => afterEntry pending r.1 r.2

/-! ## The calls of a run -/

abbrev Trace (Resource ε : Type) := List (Event (sig Resource ε))

/-- Each resource is started, and its start returns. -/
def starts (resources : List Resource) : Trace Resource ε :=
  resources.map fun resource => .called (.start resource) (.ret ())

/-- Each resource is closed, with these endings. -/
def closes (resources : List Resource) (endings : List (Ending ε)) : Trace Resource ε :=
  List.zipWith (fun resource ending => .called (.close resource) ending) resources endings

theorem attempts_start {resources : List Resource} {t : Trace Resource ε} :
    Attempts start resources t (List.replicate resources.length (.ret ())) ↔ t = starts resources := by
  induction resources generalizing t with
  | nil =>
    constructor
    · rintro ⟨⟩
      rfl
    · rintro rfl
      exact .nil
  | cons resource resources ih =>
    constructor
    · rintro ⟨⟩
      next t₁ t₂ hfirst hrest =>
      rw [runs_call.mp hfirst, ih.mp hrest]
      rfl
    · rintro rfl
      have hfirst : Runs (start resource : Coro (sig Resource ε) Unit)
          [.called (.start resource) (.ret ())] (.ret ()) := runs_call.mpr rfl
      exact .cons hfirst (ih.mpr rfl)

theorem attempts_close {resources : List Resource} {t : Trace Resource ε} {endings : List (Ending ε)} :
    Attempts close resources t endings ↔
      endings.length = resources.length ∧ t = closes resources endings := by
  induction resources generalizing t endings with
  | nil =>
    constructor
    · rintro ⟨⟩
      exact ⟨rfl, rfl⟩
    · rintro ⟨hlength, rfl⟩
      rw [List.length_eq_zero_iff.mp hlength]
      exact .nil
  | cons resource resources ih =>
    constructor
    · rintro ⟨⟩
      next t₁ t₂ ending endings hfirst hrest =>
      obtain ⟨hlength, rfl⟩ := ih.mp hrest
      rw [runs_call.mp hfirst]
      exact ⟨congrArg Nat.succ hlength, rfl⟩
    · rintro ⟨hlength, rfl⟩
      cases endings with
      | nil => cases hlength
      | cons ending endings =>
        have hfirst : Runs (close resource : Coro (sig Resource ε) Unit)
            [.called (.close resource) ending] ending := runs_call.mpr rfl
        exact .cons hfirst (ih.mpr ⟨Nat.succ.inj hlength, rfl⟩)

theorem runs_closes_bind {γ : Type} {resources : List Resource}
    {g : List (Ending ε) → Coro (sig Resource ε) γ} {t : Trace Resource ε} {o : Outcome (Exc ε) γ} :
    Runs ((attemptEach close resources).bind g) t o ↔
      ∃ endings t₂, endings.length = resources.length ∧ Runs (g endings) t₂ o ∧
        t = closes resources endings ++ t₂ := by
  rw [runs_attemptEach_bind]
  constructor
  · rintro ⟨t₁, endings, t₂, hattempts, hrest, rfl⟩
    obtain ⟨hlength, rfl⟩ := attempts_close.mp hattempts
    exact ⟨endings, t₂, hlength, hrest, rfl⟩
  · rintro ⟨endings, t₂, hlength, hrest, rfl⟩
    exact ⟨_, endings, t₂, attempts_close.mpr ⟨hlength, rfl⟩, hrest, rfl⟩

/-! ## The methods -/

variable {self : Lifespan Resource} {t : Trace Resource ε}

theorem runs_rollback {started : List Resource} {failure : Ending ε}
    {o : Outcome (Exc ε) (Lifespan Resource × Ending ε)} :
    Runs (rollback self started failure) t o ↔
      ∃ endings : List (Ending ε), endings.length = started.length ∧
        t = closes started.reverse endings ∧ o = .ret ({ self with started := [] }, failure) := by
  rw [rollback, runs_closes_bind]
  constructor
  · rintro ⟨endings, t₂, hlength, hdone, rfl⟩
    obtain ⟨rfl, rfl⟩ := runs_done.mp hdone
    exact ⟨endings, hlength.trans List.length_reverse, List.append_nil _, rfl⟩
  · rintro ⟨endings, hlength, rfl, rfl⟩
    exact ⟨endings, [], hlength.trans List.length_reverse.symm, .done _, (List.append_nil _).symm⟩

theorem afterStarts_of_failed {begun : List Resource} {failure : Ending ε} (h : failure ≠ .ret ()) :
    afterStarts self begun failure = rollback self (self.started ++ begun) failure := by
  cases failure with
  | ret u => exact absurd rfl h
  | raised e => rfl
  | cancelled => rfl

/-- The starts of a loop that stopped: some have returned, and one has not. -/
theorem broken_start {resources begun rest : List Resource} {resource : Resource} {failure : Ending ε} :
    Broken start resources t begun resource rest failure ↔
      resources = begun ++ resource :: rest ∧ failure ≠ .ret () ∧
        t = starts begun ++ [.called (.start resource) failure] := by
  constructor
  · intro h
    obtain ⟨t₁, t₂, hbegun, hfailed, rfl⟩ := h.runs
    rw [attempts_start.mp hbegun, runs_call.mp hfailed]
    exact ⟨h.items_eq, h.fails, rfl⟩
  · rintro ⟨hitems, hfails, rfl⟩
    exact ⟨hitems, hfails, _, _, attempts_start.mpr rfl, runs_call.mpr rfl, rfl⟩

theorem aenter_of_open (hopen : self.closed = false) :
    (aenter self : Coro (sig Resource ε) _) =
      (forEachWhile start self.resources).bind fun r => afterStarts self r.1 r.2 :=
  if_neg (Bool.eq_false_iff.mp hopen)

/-- `__aenter__` starts every resource, or the first ones and then closes what has been started. -/
theorem runs_aenter (hopen : self.closed = false) {o : Outcome (Exc ε) (Lifespan Resource × Ending ε)} :
    Runs (aenter self) t o ↔
      (t = starts self.resources ∧
        o = .ret ({ self with started := self.started ++ self.resources }, .ret ())) ∨
      ∃ (begun : List Resource) (resource : Resource) (rest : List Resource) (failure : Ending ε)
        (endings : List (Ending ε)), self.resources = begun ++ resource :: rest ∧ failure ≠ .ret () ∧
          endings.length = (self.started ++ begun).length ∧
          t = starts begun ++ [.called (.start resource) failure] ++
            closes (self.started ++ begun).reverse endings ∧
          o = .ret ({ self with started := [] }, failure) := by
  rw [aenter_of_open hopen, runs_forEachWhile_bind]
  constructor
  · rintro (⟨t₁, t₂, hall, hdone, rfl⟩ | ⟨begun, resource, rest, failure, t₁, t₂, hbroken, hrest, rfl⟩)
    · obtain ⟨rfl, rfl⟩ := runs_done.mp hdone
      rw [attempts_start.mp hall, List.append_nil]
      exact .inl ⟨rfl, rfl⟩
    · obtain ⟨hitems, hfails, rfl⟩ := broken_start.mp hbroken
      rw [afterStarts_of_failed hfails] at hrest
      obtain ⟨endings, hlength, rfl, rfl⟩ := runs_rollback.mp hrest
      exact .inr ⟨begun, resource, rest, failure, endings, hitems, hfails, hlength, rfl, rfl⟩
  · rintro (⟨rfl, rfl⟩ | ⟨begun, resource, rest, failure, endings, hitems, hfails, hlength, rfl, rfl⟩)
    · exact .inl ⟨_, [], attempts_start.mpr rfl, .done _, (List.append_nil _).symm⟩
    · refine .inr ⟨begun, resource, rest, failure, _, _, broken_start.mpr ⟨hitems, hfails, rfl⟩, ?_, rfl⟩
      rw [afterStarts_of_failed hfails]
      exact runs_rollback.mpr ⟨endings, hlength, rfl, rfl⟩

theorem runs_aenter_new {resources : List Resource} {o : Outcome (Exc ε) (Lifespan Resource × Ending ε)} :
    Runs (aenter (.new resources)) t o ↔
      (t = starts resources ∧ o = .ret (⟨resources, resources, false⟩, .ret ())) ∨
      ∃ (begun : List Resource) (resource : Resource) (rest : List Resource) (failure : Ending ε)
        (endings : List (Ending ε)), resources = begun ++ resource :: rest ∧ failure ≠ .ret () ∧
          endings.length = begun.length ∧
          t = starts begun ++ [.called (.start resource) failure] ++ closes begun.reverse endings ∧
          o = .ret (⟨resources, [], false⟩, failure) :=
  runs_aenter rfl

/-- `__aexit__` closes what has been started. -/
theorem runs_aexit {pending : Bool} {o : Outcome (Exc ε) (Lifespan Resource × Ending ε)} :
    Runs (aexit self pending) t o ↔
      ∃ endings : List (Ending ε), endings.length = self.started.length ∧
        t = closes self.started.reverse endings ∧
        o = .ret ({ self with started := [], closed := true },
          if pending then .ret () else firstFailure endings) := by
  rw [aexit, runs_closes_bind]
  constructor
  · rintro ⟨endings, t₂, hlength, hdone, rfl⟩
    obtain ⟨rfl, rfl⟩ := runs_done.mp hdone
    exact ⟨endings, hlength.trans List.length_reverse, List.append_nil _, rfl⟩
  · rintro ⟨endings, hlength, rfl, rfl⟩
    exact ⟨endings, [], hlength.trans List.length_reverse.symm, .done _, (List.append_nil _).symm⟩

/-! ## The runs of a lifespan -/

theorem afterEntry_of_failed {pending : Bool} {failure : Ending ε} (h : failure ≠ .ret ()) :
    afterEntry pending self failure = done (.ret ⟨failure, none, self⟩) := by
  cases failure with
  | ret u => exact absurd rfl h
  | raised e => rfl
  | cancelled => rfl

/-- Every start has returned: all resources are closed in reverse order, and the first failure of a
close is raised unless an exception is pending. -/
def Served (resources : List Resource) (pending : Bool) (t : Trace Resource ε) (use : Use Resource ε) :
    Prop :=
  ∃ endings : List (Ending ε), endings.length = resources.length ∧
    t = starts resources ++ closes resources.reverse endings ∧
    use = ⟨.ret (), some (if pending then .ret () else firstFailure endings), ⟨resources, [], true⟩⟩

/-- A start has failed: the resources before it are closed in reverse order, and the failure is raised
again. -/
def RolledBack (resources : List Resource) (t : Trace Resource ε) (use : Use Resource ε) : Prop :=
  ∃ (begun : List Resource) (resource : Resource) (rest : List Resource) (failure : Ending ε)
    (endings : List (Ending ε)), resources = begun ++ resource :: rest ∧ failure ≠ .ret () ∧
      endings.length = begun.length ∧
      t = starts begun ++ [.called (.start resource) failure] ++ closes begun.reverse endings ∧
      use = ⟨failure, none, ⟨resources, [], false⟩⟩

/-- **Main result.** The runs of a fresh lifespan, whatever its starts and closes end with. -/
theorem lifetime_iff (resources : List Resource) (pending : Bool) (t : Trace Resource ε)
    (o : Outcome (Exc ε) (Use Resource ε)) :
    Runs (lifetime (.new resources) pending) t o ↔
      ∃ use, o = .ret use ∧ (Served resources pending t use ∨ RolledBack resources t use) := by
  rw [lifetime, runs_bind]
  constructor
  · rintro (⟨t₁, r, t₂, henter, hrest, rfl⟩ | ⟨e, henter, -⟩ | ⟨henter, -⟩)
    · obtain ⟨rfl, heq⟩ | ⟨begun, resource, rest, failure, endings, hitems, hfails, hlength, rfl, heq⟩ :=
        runs_aenter_new.mp henter
      · cases heq
        obtain ⟨t₃, left, t₄, hexit, hdone, rfl⟩ | ⟨e, hexit, -⟩ | ⟨hexit, -⟩ := runs_bind.mp hrest
        · obtain ⟨rfl, rfl⟩ := runs_done.mp hdone
          obtain ⟨endings, hlength, rfl, heq⟩ := runs_aexit.mp hexit
          cases heq
          rw [List.append_nil]
          exact ⟨_, rfl, .inl ⟨endings, hlength, rfl, rfl⟩⟩
        · obtain ⟨endings, -, -, heq⟩ := runs_aexit.mp hexit
          cases heq
        · obtain ⟨endings, -, -, heq⟩ := runs_aexit.mp hexit
          cases heq
      · cases heq
        rw [afterEntry_of_failed hfails] at hrest
        obtain ⟨rfl, rfl⟩ := runs_done.mp hrest
        rw [List.append_nil]
        exact ⟨_, rfl, .inr ⟨begun, resource, rest, failure, endings, hitems, hfails, hlength, rfl, rfl⟩⟩
    · obtain ⟨-, heq⟩ | ⟨_, _, _, _, _, -, -, -, -, heq⟩ := runs_aenter_new.mp henter <;> cases heq
    · obtain ⟨-, heq⟩ | ⟨_, _, _, _, _, -, -, -, -, heq⟩ := runs_aenter_new.mp henter <;> cases heq
  · rintro ⟨use, rfl, ⟨endings, hlength, rfl, rfl⟩ |
      ⟨begun, resource, rest, failure, endings, hitems, hfails, hlength, rfl, rfl⟩⟩
    · refine .inl ⟨_, _, _, runs_aenter_new.mpr (.inl ⟨rfl, rfl⟩), ?_, rfl⟩
      refine runs_bind_ret.mpr ⟨_, _, [], runs_aexit.mpr ⟨endings, hlength, rfl, rfl⟩, ?_,
        (List.append_nil _).symm⟩
      exact .done _
    · refine .inl ⟨_, _, [], runs_aenter_new.mpr (.inr ⟨begun, resource, rest, failure, endings, hitems,
        hfails, hlength, rfl, rfl⟩), ?_, (List.append_nil _).symm⟩
      rw [afterEntry_of_failed hfails]
      exact .done _

end Chattice.Dispatcher.Lifespans
