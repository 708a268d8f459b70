import Chattice.Client.Lifecycle.Invariant

/-!
# What the log of a `Bot` says

* `Base` : what the log says of the state: who has ended which task, what has been published when
  `close` began, and which provider runs have succeeded or failed;
* `Justified` : what is known at an entry of the log: the `Base` facts at every call, which task a waiter
  has asked for, what a caller has returned, and what `close` has closed when it ends;
* `sound_invariant` : both hold in every run.
-/

namespace Chattice.Lifecycle

open Asyncio Asyncio.Coro

/-! ## Entries -/

/-- The last step of a shared task. -/
def Ends : Entry sig Job Shared → Prop
  | .acted _ (.finish ..) _ | .acted _ (.fail ..) _ => True
  | _ => False

def closing : Entry sig Job Shared → Option Transport
  | .called _ (.closeTransport transport) (.ret _) _ => some transport
  | _ => none

def closings (log : BotLog) : List Transport := log.filterMap closing

def success : Entry sig Job Shared → Option (Option Credentials)
  | .called _ (.provider .credentials) (.ret credentials) _ => some credentials
  | _ => none

def successes (log : BotLog) : List (Option Credentials) := log.filterMap success

def RunFailed (task : Nat) (log : BotLog) : Prop :=
  ∃ e pre, .called (.task .credentials task) (.provider .credentials) (.raised e) pre ∈ log

/-- A waiter other than `close` has been raised what this credential task has failed with. -/
def FailureSeen (task : Nat) (log : BotLog) : Prop :=
  ∃ x waiter e pre, x ≠ .close ∧
    .called x (.join .credentials task waiter) (.raised e) pre ∈ log

/-- The credential task for which a call of `_resolve_credentials_async` waits. -/
def asked : Entry sig Job Shared → Option Nat
  | .called _ (.request .credentials) (.ret (.inr task)) _ => some task
  | .called _ (.start .userCredentials) (.ret (.wait task)) _ => some task
  | .called _ (.start .client) (.ret (.wait task)) _ => some task
  | _ => none

/-- Every task that `close` has found has ended well, or with an exception that `close` swallows. -/
def NoneFailed (tasks : List (Kind × Nat)) (s : Shared) : Prop :=
  ∀ task ∈ tasks, ∀ e, Ended task.1 task.2 (.error e) s → e.isChatApiError = true

/-- `close` swallows what this task has ended with. -/
def swallows {kind : Kind} : Option (Status kind) → Bool
  | some (some (.error e)) => e.isChatApiError
  | _ => true

instance (tasks : List (Kind × Nat)) (s : Shared) : Decidable (NoneFailed tasks s) :=
  decidable_of_iff (∀ task ∈ tasks, swallows (s.tasks task.1)[task.2]? = true) <| by
    refine forall₂_congr fun task _ => ?_
    unfold Ended swallows
    split
    · next e he =>
      rw [he]
      refine ⟨fun h e' heq => ?_, fun h => h e rfl⟩
      cases heq
      exact h
    · next hne => exact iff_of_true rfl fun e he => absurd he (hne e)

/-! ## The facts -/

/-- What the log says of the tasks and of `close`. -/
structure Core (h : BotHistory) : Prop where
  inv : h.state.Inv
  made : ∀ kind task o, Ended kind task o h.state → ∃ e ∈ h.log, e.job = .task kind task ∧ Ends e
  closer : ∀ e ∈ h.log, (closing e).isSome = true → e.job = .close
  frozen : ∀ tasks pre, .called .close .beginClose (.ret (some tasks)) pre ∈ h.log →
    h.state.closed = true ∧ h.state.published = pre.published
  began : ∀ tasks pre tasks' pre', .called .close .beginClose (.ret (some tasks)) pre ∈ h.log →
    .called .close .beginClose (.ret (some tasks')) pre' ∈ h.log → tasks' = tasks ∧ pre' = pre

/-- What the log says of the provider runs. -/
structure ProviderRuns (config : Config) (h : BotHistory) : Prop where
  once : (successes h.log).length ≤ 1
  succeeded : ∀ credentials ∈ successes h.log,
    ∃ task, Ended .credentials task (.ok credentials) h.state
  returned : config.hasProvider = true → ∀ task credentials,
    Ended .credentials task (.ok credentials) h.state → credentials ∈ successes h.log
  resolved : config.hasProvider = true → ∀ credentials,
    h.state.resolved = some credentials → credentials ∈ successes h.log
  failed : ∀ task, RunFailed task h.log → ∃ e, Ended .credentials task (.error e) h.state

structure Base (config : Config) (h : BotHistory) : Prop extends Core h, ProviderRuns config h where
  seen : ∀ task, FailureSeen task h.log ↔ Dropped .credentials task h.state

/-- A caller of `_resolve_credentials_async` returns what the provider has returned. -/
def Returned (config : Config) (log : BotLog) : (kind : Kind) → Outcome Exc kind.Val → Prop
  | .credentials, .ret credentials => config.hasProvider = true → credentials ∈ successes log
  | _, _ => True

/-- What is known at an entry, of the log before it. -/
def Justified (config : Config) (log : BotLog) : Entry sig Job Shared → Prop
  | .called x c r pre =>
    Base config ⟨pre, log⟩ ∧ (∃ s, Answer config c pre r s) ∧
      ∀ task waiter, c = .join .credentials task waiter →
        x = .close ∨ ∃ e ∈ log, e.job = x ∧ asked e = some task
  | .acted _ (.answered kind o) _ => Returned config log kind o
  | .acted _ (.closed _) pre =>
    ∀ tasks pre₀, .called .close .beginClose (.ret (some tasks)) pre₀ ∈ log →
      ((∀ transport ∈ pre.published, (closings log).count transport = 1) ↔
        pre₀.published = [] ∨ NoneFailed tasks pre)
  | _ => True

/-- The invariant of the runs. -/
structure Sound (config : Config) (h : BotHistory) : Prop extends Base config h where
  justified : Explained (Justified config) h.log

/-- No last step of task `x` yet. -/
def Quiet (x : Job) (log : BotLog) : Prop := ∀ e ∈ own x log, ¬ Ends e

/-- What is known of a task at an await. -/
def Awaits (x : Job) (c : Call) (own : BotLog) : Prop :=
  (∀ e ∈ own, ¬ Ends e) ∧ ∀ kind, c = .provider kind → ∃ task, x = .task kind task

theorem Core.running {h : BotHistory} (hB : Core h) {kind : Kind} {task : Nat}
    (hquiet : Quiet (.task kind task) h.log) (hlt : task < (h.state.tasks kind).length) :
    Running kind task h.state := by
  cases hstatus : (h.state.tasks kind)[task]? with
  | none => exact absurd hlt (Nat.not_lt.mpr (List.getElem?_eq_none_iff.mp hstatus))
  | some status =>
    cases status with
    | none => exact hstatus
    | some o =>
      obtain ⟨e, hmem, hjob, hends⟩ := hB.made kind task o hstatus
      exact absurd hends (hquiet e (mem_own.mpr ⟨hmem, hjob⟩))

/-! ## Calls -/

section Calls

variable {config : Config} {x : Job} {h : BotHistory} {s : Shared}

theorem successes_snoc (log : BotLog) (e : Entry sig Job Shared) :
    successes (log ++ [e]) = successes log ++ (success e).toList := by
  unfold successes
  rw [List.filterMap_append]
  cases he : success e <;> simp [he]

theorem closings_snoc (log : BotLog) (e : Entry sig Job Shared) :
    closings (log ++ [e]) = closings log ++ (closing e).toList := by
  unfold closings
  rw [List.filterMap_append]
  cases he : closing e <;> simp [he]

/-- What `close` finds open it closes, and it publishes nothing. -/
theorem beginClose_frozen {tasks : List (Kind × Nat)} {s s' : Shared}
    (ha : Answer config .beginClose s (.ret (some tasks)) s') :
    ¬ s.closed = true ∧ s'.closed = true ∧ s'.published = s.published := by
  obtain ⟨hr, rfl⟩ := ha
  unfold beginClose at hr ⊢
  split
  · next hclosed =>
    rw [if_pos hclosed] at hr
    cases hr
  · next hopen => exact ⟨hopen, rfl, rfl⟩

theorem Core.call (hC : Core h) (x : Job) (c : Call) (r : Outcome Exc c.Res) (s : Shared)
    (ha : Answer config c h.state r s)
    (hclose : ∀ transport, c = .closeTransport transport → x = .close) :
    Core (History.call (S := sig) x c r s h) where
  inv := hC.inv.answer ha
  made := by
    intro kind task o ho
    obtain ⟨e, hmem, hends⟩ := hC.made kind task o ((ended_answer ha).mp ho)
    exact ⟨e, List.mem_append_left _ hmem, hends⟩
  closer := by
    intro e he hsome
    rcases List.mem_append.mp he with hold | hnew
    · exact hC.closer e hold hsome
    · rw [List.mem_singleton.mp hnew] at hsome ⊢
      unfold closing at hsome
      split at hsome
      · next heq =>
        cases heq
        exact hclose _ rfl
      · cases hsome
  frozen := by
    intro tasks pre hmem
    have hle := answer_le ha
    rcases List.mem_append.mp hmem with hold | hnew
    · obtain ⟨hclosed, hpublished⟩ := hC.frozen tasks pre hold
      exact ⟨(hle.closed hclosed).1, (hle.closed hclosed).2.trans hpublished⟩
    · cases List.mem_singleton.mp hnew
      exact (beginClose_frozen ha).2
  began := by
    intro tasks pre tasks' pre' hmem hmem'
    rcases List.mem_append.mp hmem with hold | hnew
    · rcases List.mem_append.mp hmem' with hold' | hnew'
      · exact hC.began tasks pre tasks' pre' hold hold'
      · cases List.mem_singleton.mp hnew'
        exact absurd (hC.frozen tasks pre hold).1 (beginClose_frozen ha).1
    · rcases List.mem_append.mp hmem' with hold' | hnew'
      · cases List.mem_singleton.mp hnew
        exact absurd (hC.frozen tasks' pre' hold').1 (beginClose_frozen ha).1
      · cases List.mem_singleton.mp hnew
        cases List.mem_singleton.mp hnew'
        exact ⟨rfl, rfl⟩

theorem failureSeen_snoc {task : Nat} {log : BotLog} {entry : Entry sig Job Shared}
    (h : ∀ x waiter e pre, x ≠ .close →
      entry ≠ .called x (.join .credentials task waiter) (.raised e) pre) :
    FailureSeen task (log ++ [entry]) ↔ FailureSeen task log := by
  constructor
  · rintro ⟨x, waiter, e, pre, hx, hmem⟩
    refine ⟨x, waiter, e, pre, hx, (List.mem_append.mp hmem).resolve_right fun hnew => ?_⟩
    exact h x waiter e pre hx (List.mem_singleton.mp hnew).symm
  · rintro ⟨x, waiter, e, pre, hx, hmem⟩
    exact ⟨x, waiter, e, pre, hx, List.mem_append_left _ hmem⟩

theorem ProviderRuns.call (hR : ProviderRuns config h) (x : Job) (c : Call) (r : Outcome Exc c.Res)
    (s : Shared) (ha : Answer config c h.state r s) (hprovider : c ≠ .provider .credentials) :
    ProviderRuns config (History.call (S := sig) x c r s h) := by
  have hsuccesses : successes (h.log ++ [.called x c r h.state]) = successes h.log := by
    have hnone : success (.called x c r h.state) = none := by
      unfold success
      split
      · next heq =>
        cases heq
        exact absurd rfl hprovider
      · rfl
    rw [successes_snoc, hnone, Option.toList_none, List.append_nil]
  refine ⟨(congrArg List.length hsuccesses).trans_le hR.once, fun credentials hmem => ?_,
    fun hp task credentials ho => ?_, fun hp credentials hres => ?_, fun task hfailed => ?_⟩
  · obtain ⟨task, ho⟩ := hR.succeeded credentials (hsuccesses ▸ hmem)
    exact ⟨task, (ended_answer ha).mpr ho⟩
  · exact hsuccesses ▸ hR.returned hp task credentials ((ended_answer ha).mp ho)
  · exact hsuccesses ▸ hR.resolved hp credentials ((answer_resolved ha).symm.trans hres)
  · obtain ⟨e, pre, hmem⟩ := hfailed
    rcases List.mem_append.mp hmem with hold | hnew
    · exact (hR.failed task ⟨e, pre, hold⟩).imp fun _ ho => (ended_answer ha).mpr ho
    · cases List.mem_singleton.mp hnew
      exact absurd rfl hprovider

/-- A call keeps the invariant; a waiter has asked for the credential task that it joins, and is raised
nothing here. -/
theorem Sound.call (hI : Sound config h) (x : Job) (c : Call) (r : Outcome Exc c.Res) (s : Shared)
    (ha : Answer config c h.state r s) (hprovider : c ≠ .provider .credentials)
    (hclose : ∀ transport, c = .closeTransport transport → x = .close)
    (hjoin : ∀ task waiter, c = .join .credentials task waiter →
      x = .close ∨ (∃ e ∈ h.log, e.job = x ∧ asked e = some task) ∧ ∀ e, r ≠ .raised e) :
    Sound config (History.call (S := sig) x c r s h) where
  toCore := hI.toCore.call x c r s ha hclose
  toProviderRuns := hI.toProviderRuns.call x c r s ha hprovider
  seen := by
    intro task
    refine (failureSeen_snoc ?_).trans ((hI.seen task).trans (dropped_answer ha).symm)
    rintro x' waiter e pre hx' heq
    cases heq
    exact (hjoin task waiter rfl).elim hx' fun hwaiter => hwaiter.2 e rfl
  justified := explained_snoc.mpr ⟨hI.justified, hI.toBase, ⟨s, ha⟩, fun task waiter heq =>
    (hjoin task waiter heq).imp_right And.left⟩

end Calls

/-! ## Effects -/

section Effects

variable {config : Config} {x : Job} {h : BotHistory} {kind : Kind} {task : Nat}

theorem Core.act (hC : Core h) (x : Job) (e : Effect) (hinv : (perform config e h.state).Inv)
    (hmade : ∀ kind task o, Ended kind task o (perform config e h.state) → Ended kind task o h.state ∨
      x = .task kind task ∧ Ends (.acted x e h.state)) :
    Core (h.act (botWorld config) x e) where
  inv := hinv
  made := by
    intro kind task o ho
    rcases hmade kind task o ho with hold | ⟨hx, hends⟩
    · obtain ⟨e', hmem, he'⟩ := hC.made kind task o hold
      exact ⟨e', List.mem_append_left _ hmem, he'⟩
    · exact ⟨_, List.mem_append_right _ (List.mem_singleton.mpr rfl), hx, hends⟩
  closer := by
    intro e' he' hsome
    rcases List.mem_append.mp he' with hold | hnew
    · exact hC.closer e' hold hsome
    · rw [List.mem_singleton.mp hnew] at hsome
      cases hsome
  frozen := by
    intro tasks pre hmem
    have hle := (botWorld_grows config).act e h.state
    rcases List.mem_append.mp hmem with hold | hnew
    · obtain ⟨hclosed, hpublished⟩ := hC.frozen tasks pre hold
      exact ⟨(hle.closed hclosed).1, (hle.closed hclosed).2.trans hpublished⟩
    · cases List.mem_singleton.mp hnew
  began := by
    intro tasks pre tasks' pre' hmem hmem'
    rcases List.mem_append.mp hmem with hold | hnew
    · rcases List.mem_append.mp hmem' with hold' | hnew'
      · exact hC.began tasks pre tasks' pre' hold hold'
      · cases List.mem_singleton.mp hnew'
    · cases List.mem_singleton.mp hnew

theorem ProviderRuns.act (hR : ProviderRuns config h) (x : Job) (e : Effect)
    (hreturned : config.hasProvider = true → ∀ task credentials,
      Ended .credentials task (.ok credentials) (perform config e h.state) →
        Ended .credentials task (.ok credentials) h.state ∨ credentials ∈ successes h.log)
    (hresolved : config.hasProvider = true → ∀ credentials,
      (perform config e h.state).resolved = some credentials →
        h.state.resolved = some credentials ∨ credentials ∈ successes h.log) :
    ProviderRuns config (h.act (botWorld config) x e) := by
  have hle := (botWorld_grows config).act e h.state
  have hsuccesses : successes (h.act (botWorld config) x e).log = successes h.log := by
    rw [History.act, successes_snoc]
    exact List.append_nil _
  refine ⟨(congrArg List.length hsuccesses).trans_le hR.once, fun credentials hmem => ?_,
    fun hp task credentials ho => ?_, fun hp credentials hres => ?_, fun task hfailed => ?_⟩
  · obtain ⟨task, ho⟩ := hR.succeeded credentials (hsuccesses ▸ hmem)
    exact ⟨task, hle.ended _ _ _ ho⟩
  · rw [hsuccesses]
    exact (hreturned hp task credentials ho).elim (hR.returned hp task credentials) id
  · rw [hsuccesses]
    exact (hresolved hp credentials hres).elim (hR.resolved hp credentials) id
  · obtain ⟨e', pre, hmem⟩ := hfailed
    rcases List.mem_append.mp hmem with hold | hnew
    · exact (hR.failed task ⟨e', pre, hold⟩).imp fun _ ho => hle.ended _ _ _ ho
    · cases List.mem_singleton.mp hnew

theorem failureSeen_act {task' : Nat} (x : Job) (e : Effect) :
    FailureSeen task' (h.act (botWorld config) x e).log ↔ FailureSeen task' h.log :=
  failureSeen_snoc fun _ _ _ _ _ heq => by cases heq

/-- A waiter is raised the failure of a task, and drops the task. -/
theorem Sound.raised (hI : Sound config h) (hx : x ≠ .close) {waiter : Bool} {e : Exc}
    (he : Ended kind task (.error e) h.state)
    (hasked : kind = .credentials → ∃ e ∈ h.log, e.job = x ∧ asked e = some task) :
    Sound config ((History.call (S := sig) x (.join kind task waiter) (.raised e) h.state h).act
      (botWorld config) x (.drop kind task)) := by
  have ha : Answer config (.join kind task waiter) h.state (.raised e) h.state :=
    ⟨.inl ⟨_, he, rfl⟩, rfl⟩
  have hC := hI.toCore.call x _ _ _ ha nofun
  have hR := hI.toProviderRuns.call x _ _ _ ha nofun
  refine ⟨⟨hC.act x _ (hI.inv.drop he) ?_, hR.act x _ ?_ ?_, fun task' => ?_⟩,
    explained_snoc.mpr ⟨explained_snoc.mpr ⟨hI.justified, hI.toBase, ⟨_, ha⟩, ?_⟩, trivial⟩⟩
  · exact fun _ _ _ ho => .inl ((ended_congr drop_tasks).mp ho)
  · exact fun _ _ _ ho => .inl ((ended_congr drop_tasks).mp ho)
  · exact fun _ _ hres => .inl (drop_resolved.symm.trans hres)
  · refine (failureSeen_act x _).trans (.trans ?_ (dropped_drop he.lt_length).symm)
    constructor
    · rintro ⟨y, waiter', e', pre, hy, hmem⟩
      rcases List.mem_append.mp hmem with hold | hnew
      · exact .inl ((hI.seen task').mp ⟨y, waiter', e', pre, hy, hold⟩)
      · cases List.mem_singleton.mp hnew
        exact .inr ⟨rfl, rfl⟩
    · rintro (hdropped | ⟨rfl, rfl⟩)
      · obtain ⟨y, waiter', e', pre, hy, hmem⟩ := (hI.seen task').mpr hdropped
        exact ⟨y, waiter', e', pre, hy, List.mem_append_left _ hmem⟩
      · exact ⟨x, waiter, e, h.state, hx, List.mem_append_right _ (List.mem_singleton.mpr rfl)⟩
  · intro task' waiter' heq
    cases heq
    exact .inr (hasked rfl)

theorem Core.finish (hC : Core h) (hrun : Running kind task h.state) (credentials : Option Credentials) :
    Core (h.act (botWorld config) (.task kind task) (.finish kind task credentials)) := by
  refine hC.act _ _ (hC.inv.finish hrun credentials) fun kind' task' o ho => ?_
  refine (ended_finish ho).imp_right ?_
  rintro ⟨rfl, rfl⟩
  exact ⟨rfl, trivial⟩

theorem Core.fail (hC : Core h) (e : Exc) :
    Core (h.act (botWorld config) (.task kind task) (.fail kind task e)) := by
  refine hC.act _ _ (hC.inv.fail kind task e) fun kind' task' o ho => ?_
  refine (ended_of_settle ho).imp_right ?_
  rintro ⟨rfl, rfl, -⟩
  exact ⟨rfl, trivial⟩

/-- The last step of a task that has not got its credentials from a run of the provider just now. -/
theorem Sound.finish (hI : Sound config h) (hrun : Running kind task h.state)
    (credentials : Option Credentials)
    (hvalue : kind = .credentials → config.hasProvider = true → credentials ∈ successes h.log) :
    Sound config (h.act (botWorld config) (.task kind task) (.finish kind task credentials)) where
  toCore := hI.toCore.finish hrun credentials
  toProviderRuns := by
    refine hI.toProviderRuns.act _ _ (fun hp task' value ho => ?_) fun hp value hres => ?_
    · by_cases hk : kind = .credentials
      · subst hk
        rcases ended_of_settle ho with hold | ⟨-, -, heq⟩
        · exact .inl hold
        · cases heq
          exact .inr (hvalue rfl hp)
      · rcases ended_finish ho with hold | ⟨hkind, -⟩
        · exact .inl hold
        · exact absurd hkind.symm hk
    · by_cases hk : kind = .credentials
      · subst hk
        cases hres
        exact .inr (hvalue rfl hp)
      · obtain ⟨o, s, heq, -, -, hsame⟩ := finish_eq config kind task credentials h.state
        replace hres : (Lifecycle.finish config kind task credentials h.state).resolved = some value :=
          hres
        rw [heq] at hres
        exact .inl ((hsame hk).symm.trans hres)
  seen := fun task' => (failureSeen_act _ _).trans ((hI.seen task').trans dropped_finish.symm)
  justified := explained_snoc.mpr ⟨hI.justified, trivial⟩

theorem Sound.fail (hI : Sound config h) (kind : Kind) (task : Nat) (e : Exc) :
    Sound config (h.act (botWorld config) (.task kind task) (.fail kind task e)) where
  toCore := hI.toCore.fail e
  toProviderRuns := by
    refine hI.toProviderRuns.act _ _ (fun _ task' value ho => .inl ?_) fun _ _ hres => .inl hres
    rcases ended_of_settle ho with hold | ⟨rfl, -, heq⟩
    · exact hold
    · cases heq
  seen := fun task' => (failureSeen_act _ _).trans ((hI.seen task').trans dropped_settle.symm)
  justified := explained_snoc.mpr ⟨hI.justified, trivial⟩

end Effects

/-! ## The provider -/

section Provider

variable {config : Config} {h : BotHistory} {task : Nat}

/-- While the credential task runs, the provider has not returned. -/
theorem Base.no_success (hB : Base config h) (hrun : Running .credentials task h.state) :
    successes h.log = [] := by
  refine List.eq_nil_iff_forall_not_mem.mpr fun credentials hmem => ?_
  obtain ⟨task', ho⟩ := hB.succeeded credentials hmem
  exact hB.inv.not_returned hrun ho

theorem Sound.provided (hI : Sound config h) (hrun : Running .credentials task h.state)
    (credentials : Option Credentials) :
    Sound config ((History.call (S := sig) (.task .credentials task) (.provider .credentials)
      (.ret credentials) h.state h).act (botWorld config) (.task .credentials task)
      (.finish .credentials task credentials)) where
  toCore := by
    have ha : Answer config (.provider .credentials) h.state (.ret credentials) h.state := ⟨nofun, rfl⟩
    exact (hI.toCore.call _ _ _ h.state ha fun _ => nofun).finish hrun credentials
  toProviderRuns := by
    have hsuccesses : successes ((h.log ++ [.called (.task .credentials task) (.provider .credentials)
        (.ret credentials) h.state]) ++ [.acted (.task .credentials task)
          (.finish .credentials task credentials) h.state]) = [credentials] := by
      rw [successes_snoc, successes_snoc, hI.toBase.no_success hrun]
      rfl
    have hended : Ended .credentials task (.ok credentials)
        (Lifecycle.finish config .credentials task credentials h.state) :=
      Running.settle (s := { h.state with resolved := some credentials }) hrun
    have hle : h.state.Le (Lifecycle.finish config .credentials task credentials h.state) := finish_le
    refine ⟨Nat.le_of_eq (congrArg List.length hsuccesses), fun value hmem => ?_,
      fun _ task' value ho => ?_, fun _ value hres => ?_, fun task' hfailed => ?_⟩
    · obtain rfl := List.mem_singleton.mp (hsuccesses ▸ hmem)
      exact ⟨task, hended⟩
    · refine hsuccesses ▸ List.mem_singleton.mpr ?_
      rcases ended_of_settle ho with hold | ⟨-, -, heq⟩
      · exact absurd hold (hI.inv.not_returned hrun)
      · cases heq
        rfl
    · cases hres
      exact hsuccesses ▸ List.mem_singleton.mpr rfl
    · obtain ⟨e, pre, hmem⟩ := hfailed
      rcases List.mem_append.mp hmem with hmem | hacted
      · rcases List.mem_append.mp hmem with hold | hnew
        · exact (hI.failed task' ⟨e, pre, hold⟩).imp fun _ ho => hle.ended _ _ _ ho
        · cases List.mem_singleton.mp hnew
      · cases List.mem_singleton.mp hacted
  seen := by
    intro task'
    have hdropped : Dropped .credentials task'
        (Lifecycle.finish config .credentials task credentials h.state) ↔ _ := dropped_finish
    refine (failureSeen_act _ _).trans ((failureSeen_snoc fun _ _ _ _ _ heq => by cases heq).trans ?_)
    exact (hI.seen task').trans hdropped.symm
  justified := explained_snoc.mpr
    ⟨explained_snoc.mpr ⟨hI.justified, hI.toBase, ⟨h.state, nofun, rfl⟩, nofun⟩, trivial⟩

theorem Sound.refused (hI : Sound config h) (hrun : Running .credentials task h.state) (e : Exc) :
    Sound config ((History.call (S := sig) (.task .credentials task) (.provider .credentials)
      (.raised e) h.state h).act (botWorld config) (.task .credentials task)
      (.fail .credentials task e)) where
  toCore := by
    have ha : Answer config (.provider .credentials) h.state (.raised e) h.state := ⟨nofun, rfl⟩
    exact (hI.toCore.call _ _ _ h.state ha fun _ => nofun).fail e
  toProviderRuns := by
    have hsuccesses : successes ((h.log ++ [.called (.task .credentials task) (.provider .credentials)
        (.raised e) h.state]) ++ [.acted (.task .credentials task) (.fail .credentials task e) h.state]) =
          successes h.log := by
      rw [successes_snoc, successes_snoc]
      exact (List.append_nil _).trans (List.append_nil _)
    have hkeep : ∀ {task' value}, Ended .credentials task' (.ok value)
        (settle .credentials task (.error e) h.state) → Ended .credentials task' (.ok value) h.state := by
      intro task' value ho
      rcases ended_of_settle ho with hold | ⟨-, -, heq⟩
      · exact hold
      · cases heq
    refine ⟨(congrArg List.length hsuccesses).trans_le hI.once, fun value hmem => ?_,
      fun hp task' value ho => ?_, fun hp value hres => ?_, fun task' hfailed => ?_⟩
    · obtain ⟨task', ho⟩ := hI.succeeded value (hsuccesses ▸ hmem)
      exact ⟨task', ho.settle⟩
    · exact hsuccesses ▸ hI.returned hp task' value (hkeep ho)
    · exact hsuccesses ▸ hI.resolved hp value hres
    · obtain ⟨e', pre, hmem⟩ := hfailed
      rcases List.mem_append.mp hmem with hmem | hacted
      · rcases List.mem_append.mp hmem with hold | hnew
        · exact (hI.failed task' ⟨e', pre, hold⟩).imp fun _ ho => ho.settle
        · cases List.mem_singleton.mp hnew
          exact ⟨e, hrun.settle⟩
      · cases List.mem_singleton.mp hacted
  seen := by
    intro task'
    refine (failureSeen_act _ _).trans ((failureSeen_snoc fun _ _ _ _ _ heq => by cases heq).trans ?_)
    exact (hI.seen task').trans dropped_settle.symm
  justified := explained_snoc.mpr
    ⟨explained_snoc.mpr ⟨hI.justified, hI.toBase, ⟨h.state, nofun, rfl⟩, nofun⟩, trivial⟩

end Provider

end Chattice.Lifecycle
