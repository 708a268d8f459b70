import Chattice.Client.Lifecycle.Sound

/-!
# Every coroutine of a `Bot` keeps the invariant

One rule for each coroutine, from the await of a shared task up to `close`.

* `wp_shielded`, `wp_getAsync`, `wp_runTask` : initialization;
* `wp_awaitTasks`, `wp_closeTransports`, `wp_close` : `close`, with what it has awaited and closed;
* `sound_reach` : the invariant holds in every run.
-/

namespace Chattice.Lifecycle

open Asyncio Asyncio.Coro

variable {config : Config} {x : Job} {h : BotHistory}

/-! ## Own entries -/

theorem Quiet.of_own_eq {log log' : BotLog} (hquiet : Quiet x log) (h : own x log' = own x log) :
    Quiet x log' := by
  unfold Quiet
  rw [h]
  exact hquiet

theorem Quiet.call (hquiet : Quiet x h.log) (c : Call) (r : Outcome Exc c.Res) (s : Shared) :
    Quiet x (History.call (S := sig) x c r s h).log := by
  intro e he
  rw [own_call] at he
  rcases List.mem_append.mp he with hold | hnew
  · exact hquiet e hold
  · rw [List.mem_singleton.mp hnew]
    exact id

theorem Quiet.drop (hquiet : Quiet x h.log) (kind : Kind) (task : Nat) :
    Quiet x (h.act (botWorld config) x (.drop kind task)).log := by
  intro e he
  rw [own_act] at he
  rcases List.mem_append.mp he with hold | hnew
  · exact hquiet e hold
  · rw [List.mem_singleton.mp hnew]
    exact id

/-- The weakest precondition under the invariant. -/
abbrev runs {α : Type} (config : Config) (x : Job) (c : Coro sig α)
    (Q : Outcome Exc α → BotHistory → Prop) (h : BotHistory) : Prop :=
  c.wpOwn (botWorld config) Shared.Le x (Sound config) (Awaits x) Q h

/-! ## Initialization -/

/-- A waiter learns the value with which the task has ended, or drops the task that has failed. -/
theorem wp_shielded {kind : Kind} {task : Nat} {waiter : Bool}
    {Q : Outcome Exc kind.Val → BotHistory → Prop} (hI : Sound config h) (hx : x ≠ .close)
    (hquiet : Quiet x h.log)
    (hasked : kind = .credentials → ∃ e ∈ h.log, e.job = x ∧ asked e = some task)
    (hQ : ∀ o h', h.state.Le h'.state → Quiet x h'.log → Sound config h' →
      (∀ value, o = .ret value → Ended kind task (.ok value) h'.state) →
      (waiter = false → o ≠ .cancelled) → Q o h') :
    runs config x (shielded kind task waiter) Q h := by
  refine ⟨⟨hI, hquiet, nofun⟩, fun h' hle hown hR hI' r s ha => ?_⟩
  have hquiet' : Quiet x h'.log := hquiet.of_own_eq hown
  replace hasked : kind = .credentials → ∃ e ∈ h'.log, e.job = x ∧ asked e = some task := by
    intro hk
    obtain ⟨e, hmem, he⟩ := hasked hk
    exact ⟨e, hle.subset hmem, he⟩
  have hcall : (∀ e, r ≠ .raised e) →
      Sound config (History.call (S := sig) x (.join kind task waiter) r s h') := by
    intro hr
    refine hI'.call x (.join kind task waiter) r s ha nofun nofun ?_
    rintro task' waiter' heq
    cases heq
    exact .inr ⟨hasked rfl, hr⟩
  obtain ⟨hanswer, rfl⟩ := ha
  cases r with
  | ret value =>
    refine hQ _ _ hR (hquiet'.call _ _ _) (hcall nofun) (fun value' heq => ?_) fun _ => nofun
    cases heq
    rcases hanswer with ⟨o, hended, ho⟩ | ⟨-, ho⟩
    · cases o with
      | ok value' => cases ho; exact hended
      | error e => cases ho
    · cases ho
  | raised e =>
    rcases hanswer with ⟨o, hended, ho⟩ | ⟨-, ho⟩
    · cases o with
      | ok value' => cases ho
      | error e' =>
        cases ho
        refine hQ _ _ (hR.trans drop_le) ((hquiet'.call _ _ _).drop kind task)
          (hI'.raised hx hended hasked) nofun fun _ => nofun
    · cases ho
  | cancelled =>
    refine hQ _ _ hR (hquiet'.call _ _ _) (hcall nofun) nofun fun hwaiter => ?_
    rcases hanswer with ⟨o, -, ho⟩ | ⟨htrue, -⟩
    · cases o <;> cases ho
    · rw [hwaiter] at htrue
      cases htrue

/-- A caller ends with what a task has returned. -/
theorem Sound.answered (hI : Sound config h) (x : Job) (kind : Kind) (o : Outcome Exc kind.Val)
    (ho : ∀ value, o = .ret value → ∃ task, Ended kind task (.ok value) h.state) :
    Sound config (h.act (botWorld config) x (.answered kind o)) where
  toCore := hI.toCore.act x _ hI.inv fun _ _ _ h' => .inl h'
  toProviderRuns := hI.toProviderRuns.act x _ (fun _ _ _ h' => .inl h') fun _ _ h' => .inl h'
  seen := fun task => (failureSeen_act x _).trans (hI.seen task)
  justified := by
    refine explained_snoc.mpr ⟨hI.justified, ?_⟩
    change Returned config h.log kind o
    cases kind with
    | credentials =>
      cases o with
      | ret value =>
        intro hp
        obtain ⟨task, hended⟩ := ho value rfl
        exact hI.returned hp task value hended
      | raised e => exact trivial
      | cancelled => exact trivial
    | userCredentials => exact trivial
    | client => exact trivial
    | userClient => exact trivial

theorem cached_of_request {kind : Kind} {value : kind.Val} {s : Shared}
    (h : (request kind s).1 = .inl value) : cached kind s = some value := by
  unfold request at h
  split at h
  · next value' hcached =>
    cases h
    exact hcached
  · cases h

theorem wp_caller (hI : Sound config h) (number : Nat) (kind : Kind)
    (hquiet : Quiet (.caller number kind) h.log) :
    runs config (.caller number kind) (body (.caller number kind)) (fun _ => Sound config) h := by
  refine wpOwn_andThen.mpr ⟨⟨hI, hquiet, nofun⟩, fun h' _ hown _ hI' r s ha => ?_⟩
  replace ha : Answer config (.request kind) h'.state r s := ha
  have hle := answer_le ha
  have hquiet' := (hquiet.of_own_eq hown).call (.request kind) r s
  have hcall := hI'.call (.caller number kind) (.request kind) r s ha nofun nofun nofun
  cases r with
  | raised e => rcases ha with ⟨hr, -⟩ | ⟨hr, -⟩ <;> cases hr
  | cancelled => exact hcall.answered _ kind .cancelled nofun
  | ret result =>
    cases result with
    | inl value =>
      refine hcall.answered _ kind (.ret value) fun value' heq => ?_
      cases heq
      rcases ha with ⟨hr, -⟩ | ⟨hr, -⟩
      · have hcached := cached_of_request (Outcome.ret.inj hr).symm
        obtain ⟨task, hended⟩ := hI'.inv.cached kind value hcached
        exact ⟨task, hle.ended _ _ _ hended⟩
      · cases hr
    | inr task =>
      refine wp_shielded hcall nofun hquiet' (fun hk => ?_) fun o h'' _ _ hI'' hvalue _ => ?_
      · subst hk
        exact ⟨_, List.mem_append_right _ (List.mem_singleton.mpr rfl), rfl, rfl⟩
      · exact hI''.answered _ kind o fun value heq => ⟨task, hvalue value heq⟩

/-- What the rest of a shared task, up to its last step, leaves. -/
def Settles (config : Config) (kind : Kind) (task : Nat) :
    Outcome Exc (Option Credentials) → BotHistory → Prop
  | .ret credentials, h =>
    Sound config (h.act (botWorld config) (.task kind task) (.finish kind task credentials))
  | .raised e, h => Sound config (h.act (botWorld config) (.task kind task) (.fail kind task e))
  | .cancelled, h => Sound config h

theorem Sound.settles (hI : Sound config h) {kind : Kind} {task : Nat}
    (hquiet : Quiet (.task kind task) h.log) (hlt : task < (h.state.tasks kind).length)
    (o : Outcome Exc (Option Credentials))
    (hvalue : ∀ credentials, o = .ret credentials → kind = .credentials →
      config.hasProvider = true → credentials ∈ successes h.log) : Settles config kind task o h := by
  cases o with
  | ret credentials =>
    exact hI.finish (hI.toCore.running hquiet hlt) credentials (hvalue credentials rfl)
  | raised e => exact hI.fail kind task e
  | cancelled => exact hI

theorem outcome_eq_ret {α : Type} {e : Except Exc α} {a : α} : outcome e = .ret a ↔ e = .ok a := by
  cases e <;> simp [outcome]

theorem outcome_ne_cancelled {α : Type} {e : Except Exc α} : outcome e ≠ .cancelled := by
  cases e <;> nofun

theorem resolved_of_start {credentials : Option Credentials} {s : Shared}
    (hp : config.hasProvider = true)
    (h : (start config .credentials s).1 = .ok (.value credentials)) :
    s.resolved = some credentials := by
  unfold start at h
  split at h
  · cases h
  · cases hres : s.resolved with
    | some credentials' =>
      rw [hres] at h
      cases h
      rfl
    | none =>
      rw [hres] at h
      cases h

theorem start_credentials_ne_wait {task : Nat} {s : Shared} :
    (start config .credentials s).1 ≠ .ok (.wait task) := by
  intro h
  unfold start at h
  split at h
  · cases h
  · cases hres : s.resolved with
    | some credentials =>
      rw [hres] at h
      cases h
    | none =>
      rw [hres] at h
      dsimp only at h
      split at h <;> cases h

/-- The run of the credential provider, with the last step of its task. -/
theorem wp_provider {kind : Kind} {task : Nat} (hI : Sound config h)
    (hquiet : Quiet (.task kind task) h.log) (hlt : task < (h.state.tasks kind).length) :
    runs config (.task kind task) (awaitCall (.provider kind)) (Settles config kind task) h := by
  refine ⟨⟨hI, hquiet, fun kind' heq => ?_⟩, fun h' _ hown hR hI' r s ha => ?_⟩
  · cases heq
    exact ⟨task, rfl⟩
  · replace ha : Answer config (.provider kind) h'.state r s := ha
    have hquiet' := hquiet.of_own_eq hown
    have hlt' := hlt.trans_le (hR.length kind)
    by_cases hk : kind = .credentials
    · subst hk
      have hrun := hI'.toCore.running hquiet' hlt'
      obtain ⟨hr, rfl⟩ := ha
      cases r with
      | ret credentials => exact hI'.provided hrun credentials
      | raised e => exact hI'.refused hrun e
      | cancelled => exact absurd rfl hr
    · have hcall := hI'.call (.task kind task) (.provider kind) r s ha
        (fun heq => hk (Call.provider.inj heq)) nofun nofun
      exact hcall.settles (hquiet'.call _ _ _) (hlt'.trans_le ((answer_le ha).length kind)) r
        fun _ _ heq => absurd heq hk

/-- Without a provider for the USER identity, its credentials are the others where they are a user's. -/
theorem wp_classify {task task' : Nat} (hI : Sound config h)
    (hquiet : Quiet (.task .userCredentials task) h.log)
    (hlt : task < (h.state.tasks .userCredentials).length)
    (hasked : ∃ e ∈ h.log, e.job = .task .userCredentials task ∧ asked e = some task') :
    runs config (.task .userCredentials task) ((shielded .credentials task' false).bind fun single =>
      pure (if Client.classify single = some .user then single else none))
      (Settles config .userCredentials task) h := by
  refine wpOwn_andThen.mpr (wp_shielded hI nofun hquiet (fun _ => hasked) ?_)
  intro o h' hle hquiet' hI' _ _
  have hlt' := hlt.trans_le (hle.length .userCredentials)
  cases o with
  | ret single => exact hI'.settles hquiet' hlt' (.ret _) fun _ _ hk => by cases hk
  | raised e => exact hI'.settles hquiet' hlt' (.raised e) nofun
  | cancelled => exact hI'

theorem wp_runTask {kind : Kind} {task : Nat} (hI : Sound config h)
    (hquiet : Quiet (.task kind task) h.log) (hlt : task < (h.state.tasks kind).length) :
    runs config (.task kind task) (runTask kind) (Settles config kind task) h := by
  refine ⟨⟨hI, hquiet, nofun⟩, fun h' _ hown hR hI' r s ha => ?_⟩
  replace ha : Answer config (.start kind) h'.state r s := ha
  have hquiet' := (hquiet.of_own_eq hown).call (.start kind) r s
  have hlt' := (hlt.trans_le (hR.length kind)).trans_le ((answer_le ha).length kind)
  have hcall := hI'.call (.task kind task) (.start kind) r s ha nofun nofun nofun
  cases r with
  | cancelled => exact absurd ha.1.symm outcome_ne_cancelled
  | raised e => exact hcall.settles hquiet' hlt' (.raised e) nofun
  | ret next =>
    have hnext := outcome_eq_ret.mp ha.1.symm
    cases next with
    | value credentials =>
      refine hcall.settles hquiet' hlt' (.ret credentials) fun credentials' heq hk hp => ?_
      cases heq
      subst hk
      exact hcall.resolved hp credentials ((answer_resolved ha).trans (resolved_of_start hp hnext))
    | provide => exact wp_provider hcall hquiet' hlt'
    | wait task' =>
      have hasked : kind = .userCredentials ∨ kind = .client →
          ∃ e ∈ (History.call (S := sig) (.task kind task) (.start kind) (.ret (.wait task')) s h').log,
            e.job = .task kind task ∧ asked e = some task' := by
        intro hk
        refine ⟨_, List.mem_append_right _ (List.mem_singleton.mpr rfl), rfl, ?_⟩
        rcases hk with rfl | rfl <;> rfl
      cases kind with
      | credentials => exact absurd hnext start_credentials_ne_wait
      | userCredentials => exact wp_classify hcall hquiet' hlt' (hasked (.inl rfl))
      | client =>
        refine wp_shielded hcall nofun hquiet' (fun _ => hasked (.inr rfl)) ?_
        intro o h'' hle hquiet'' hI'' _ _
        exact hI''.settles hquiet'' (hlt'.trans_le (hle.length .client)) o fun _ _ hk => by cases hk
      | userClient =>
        refine wp_shielded hcall nofun hquiet' nofun ?_
        intro o h'' hle hquiet'' hI'' _ _
        exact hI''.settles hquiet'' (hlt'.trans_le (hle.length .userClient)) o fun _ _ hk => by cases hk

theorem wp_sharedTask {kind : Kind} {task : Nat} (hI : Sound config h)
    (hquiet : Quiet (.task kind task) h.log) (hlt : task < (h.state.tasks kind).length) :
    runs config (.task kind task) (sharedTask kind task) (fun _ => Sound config) h := by
  refine wpOwn_andThen.mpr (wpOwn_mono (fun o h' ho => ?_) (wp_runTask hI hquiet hlt))
  cases o with
  | ret credentials => exact ho
  | raised e => exact ho
  | cancelled => exact ho

/-! ## `close` -/

theorem Core.closings_own (hC : Core h) : closings (own .close h.log) = closings h.log := by
  unfold closings own
  rw [List.filterMap_filter]
  refine List.filterMap_congr fun e he => ?_
  split
  · rfl
  · next hjob =>
    cases hclosing : closing e with
    | none => rfl
    | some transport =>
      exact absurd (decide_eq_true (hC.closer e he (by rw [hclosing]; rfl))) hjob

/-- What the loop over the tasks ends with: it has awaited them all, or a task has failed. -/
def AwaitEnds (tasks : List (Kind × Nat)) : Outcome Exc Unit → Shared → Prop
  | .ret _, s => ∀ task ∈ tasks, ∃ o, Ended task.1 task.2 o s ∧
      ∀ e, o = .error e → e.isChatApiError = true
  | .raised _, s => ∃ task ∈ tasks, ∃ e, Ended task.1 task.2 (.error e) s ∧ ¬ e.isChatApiError = true
  | .cancelled, _ => False

/-- What `close` knows after a part of it that closes nothing. -/
structure Kept (h h' : BotHistory) : Prop where
  longer : h.log <+: h'.log
  grown : h.state.Le h'.state
  quiet : Quiet .close h'.log
  closings : closings (own .close h'.log) = closings (own .close h.log)

theorem Kept.trans {h h' h'' : BotHistory} (hk : Kept h h') (hk' : Kept h' h'') : Kept h h'' :=
  ⟨hk.longer.trans hk'.longer, hk.grown.trans hk'.grown, hk'.quiet, hk'.closings.trans hk.closings⟩

theorem AwaitEnds.cons {kind : Kind} {task : Nat} {rest : List (Kind × Nat)} {s : Shared}
    {r : Outcome Exc Unit} {o : Except Exc kind.Val} (hended : Ended kind task o s)
    (hgood : ∀ e, o = .error e → e.isChatApiError = true) (hrest : AwaitEnds rest r s) :
    AwaitEnds ((kind, task) :: rest) r s := by
  cases r with
  | ret a => exact List.forall_mem_cons.mpr ⟨⟨o, hended, hgood⟩, hrest⟩
  | raised e =>
    obtain ⟨task', hmem, hfailed⟩ := hrest
    exact ⟨task', List.mem_cons_of_mem _ hmem, hfailed⟩
  | cancelled => exact hrest

theorem wp_awaitTasks (tasks : List (Kind × Nat)) {Q : Outcome Exc Unit → BotHistory → Prop}
    (hI : Sound config h) (hquiet : Quiet .close h.log)
    (hQ : ∀ o h', Kept h h' → Sound config h' → AwaitEnds tasks o h'.state → Q o h') :
    runs config .close (awaitTasks tasks) Q h := by
  induction tasks generalizing h with
  | nil => exact hQ _ _ ⟨List.prefix_rfl, .refl _, hquiet, rfl⟩ hI nofun
  | cons head rest ih =>
    obtain ⟨kind, task⟩ := head
    refine ⟨⟨hI, hquiet, nofun⟩, fun h' hle hown hR hI' r s ha => ?_⟩
    replace ha : Answer config (.join kind task false) h'.state r s := ha
    have hcall := hI'.call .close (.join kind task false) r s ha nofun nofun fun _ _ _ => .inl rfl
    obtain ⟨hanswer, rfl⟩ := ha
    have hkept : Kept h (History.call (S := sig) .close (.join kind task false) r h'.state h') := by
      refine ⟨hle.trans (List.prefix_append _ _), hR, (hquiet.of_own_eq hown).call _ _ _, ?_⟩
      rw [own_call, closings_snoc, hown]
      exact List.append_nil _
    rcases hanswer with ⟨o, hended, rfl⟩ | ⟨hfalse, -⟩
    · cases o with
      | ok value =>
        refine ih hcall hkept.quiet fun o h'' hkept' hI'' ho => hQ o h'' (hkept.trans hkept') hI'' ?_
        exact AwaitEnds.cons (hkept'.grown.ended _ _ _ hended) nofun ho
      | error e =>
        change runs config .close (if e.isChatApiError then awaitTasks rest else raise e) Q _
        split
        · next hchat =>
          refine ih hcall hkept.quiet fun o h'' hkept' hI'' ho => hQ o h'' (hkept.trans hkept') hI'' ?_
          refine AwaitEnds.cons (hkept'.grown.ended _ _ _ hended) (fun e' heq => ?_) ho
          cases heq
          exact hchat
        · next hother => exact hQ _ _ hkept hcall ⟨_, List.mem_cons_self, e, hended, hother⟩
    · cases hfalse

/-- The loop over the clients closes each of their transports once. -/
theorem wp_closeTransports (clients : List (Option Transport)) (closed : List Transport)
    {Q : Outcome Exc Unit → BotHistory → Prop} (hI : Sound config h) (hquiet : Quiet .close h.log)
    (hclosed : ∀ transport, transport ∈ closings (own .close h.log) ↔ transport ∈ closed)
    (hnodup : (closings (own .close h.log)).Nodup)
    (hQ : ∀ h', h.log <+: h'.log → h.state.Le h'.state → Sound config h' →
      (closings (own .close h'.log)).Nodup →
      (∀ transport, transport ∈ closings (own .close h'.log) ↔
        transport ∈ closed ∨ some transport ∈ clients) → Q (.ret ()) h') :
    runs config .close (closeTransports closed clients) Q h := by
  induction clients generalizing h closed with
  | nil =>
    refine hQ h List.prefix_rfl (.refl _) hI hnodup fun transport => ?_
    rw [hclosed, or_iff_left List.not_mem_nil]
  | cons client rest ih =>
    cases client with
    | none =>
      refine ih closed hI hquiet hclosed hnodup fun h' hle hR hI' hnodup' hmem => ?_
      refine hQ h' hle hR hI' hnodup' fun transport => (hmem transport).trans ?_
      rw [List.mem_cons, or_iff_right (a := some transport = none) nofun]
    | some client =>
      unfold closeTransports
      split
      · next hseen =>
        refine ih closed hI hquiet hclosed hnodup fun h' hle hR hI' hnodup' hmem => ?_
        refine hQ h' hle hR hI' hnodup' fun transport => (hmem transport).trans ?_
        rw [List.mem_cons, Option.some.injEq]
        constructor
        · exact Or.imp_right .inr
        · rintro (hold | rfl | hrest)
          · exact .inl hold
          · exact .inl hseen
          · exact .inr hrest
      · next hnew =>
        refine ⟨⟨hI, hquiet, nofun⟩, fun h' hle hown hR hI' r s ha => ?_⟩
        replace ha : Answer config (.closeTransport client) h'.state r s := ha
        have hcall := hI'.call .close (.closeTransport client) r s ha nofun (fun _ _ => rfl) nofun
        obtain ⟨rfl, rfl⟩ := ha
        have hclosings : closings (own .close (History.call (S := sig) .close (.closeTransport client)
            (.ret ()) h'.state h').log) = closings (own .close h.log) ++ [client] := by
          rw [own_call, closings_snoc, hown]
          rfl
        refine ih (client :: closed) hcall ((hquiet.of_own_eq hown).call _ _ _) (fun transport => ?_) ?_
          fun h'' hle' hR' hI'' hnodup' hmem => ?_
        · rw [hclosings, List.mem_append, List.mem_singleton, List.mem_cons, hclosed, or_comm]
        · rw [hclosings]
          refine List.nodup_append.mpr ⟨hnodup, List.nodup_singleton client, fun a ha b hb heq => ?_⟩
          rw [List.mem_singleton.mp hb] at heq
          exact hnew ((hclosed client).mp (heq ▸ ha))
        · have hle'' := hle.trans ((List.prefix_append _ _).trans hle')
          refine hQ h'' hle'' (hR.trans hR') hI'' hnodup' fun transport => (hmem transport).trans ?_
          rw [List.mem_cons, List.mem_cons, Option.some.injEq, or_assoc, or_left_comm]

/-- `close` ends with what it has to show for every client it found published. -/
theorem Sound.closed (hI : Sound config h) (o : Outcome Exc Unit)
    (hclose : ∀ tasks pre, .called .close .beginClose (.ret (some tasks)) pre ∈ h.log →
      ((∀ transport ∈ pre.published, (closings h.log).count transport = 1) ↔
        pre.published = [] ∨ NoneFailed tasks h.state)) :
    Sound config (h.act (botWorld config) .close (.closed o)) where
  toCore := hI.toCore.act .close _ hI.inv fun _ _ _ h' => .inl h'
  toProviderRuns := hI.toProviderRuns.act .close _ (fun _ _ _ h' => .inl h') fun _ _ h' => .inl h'
  seen := fun task => (failureSeen_act _ _).trans (hI.seen task)
  justified := by
    refine explained_snoc.mpr ⟨hI.justified, fun tasks pre hmem => ?_⟩
    rw [(hI.frozen tasks pre hmem).2]
    exact hclose tasks pre hmem

theorem closed_raised {tasks : List (Kind × Nat)} {log : BotLog} {published : List Transport}
    {s : Shared} (hends : ∃ task ∈ tasks, ∃ e, Ended task.1 task.2 (.error e) s ∧ ¬ e.isChatApiError = true)
    (hclosings : closings log = []) :
    (∀ transport ∈ published, (closings log).count transport = 1) ↔
      published = [] ∨ NoneFailed tasks s := by
  obtain ⟨task, hmem, e, hended, hother⟩ := hends
  rw [or_iff_left fun hnone => hother (hnone task hmem e hended), hclosings]
  constructor
  · intro h
    refine List.eq_nil_iff_forall_not_mem.mpr fun transport ht => ?_
    cases h transport ht
  · rintro rfl
    exact nofun

theorem wp_closeClients {tasks : List (Kind × Nat)} {pre : Shared} (hI : Sound config h)
    (hquiet : Quiet .close h.log)
    (hbegan : .called .close .beginClose (.ret (some tasks)) pre ∈ h.log)
    (hends : AwaitEnds tasks (.ret ()) h.state) (hclosings : closings (own .close h.log) = []) :
    runs config .close (((awaitCall .clients).bind fun clients => closeTransports [] clients).andThen
      fun o => act (S := sig) (.closed o)) (fun _ => Sound config) h := by
  refine ⟨⟨hI, hquiet, nofun⟩, fun h' hle hown hR hI' r s ha => ?_⟩
  replace ha : Answer config .clients h'.state r s := ha
  have hcall := hI'.call .close .clients r s ha nofun nofun nofun
  obtain ⟨rfl, rfl⟩ := ha
  have hnone : closings (own .close (History.call (S := sig) .close .clients
      (.ret [h'.state.client, h'.state.userClient]) h'.state h').log) = [] := by
    rw [own_call, closings_snoc, hown, hclosings]
    rfl
  change runs config .close ((closeTransports [] [h'.state.client, h'.state.userClient]).andThen
    fun o => act (S := sig) (.closed o)) (fun _ => Sound config) _
  refine wpOwn_andThen.mpr (wp_closeTransports _ [] hcall ((hquiet.of_own_eq hown).call _ _ _) ?_ ?_ ?_)
  · rw [hnone]
    exact fun _ => Iff.rfl
  · rw [hnone]
    exact List.nodup_nil
  · intro h'' hle'' hR'' hI'' hnodup hmem
    refine hI''.closed _ fun tasks' pre' hbegan' => ?_
    have hbegan'' := (hle.trans ((List.prefix_append _ _).trans hle'')).subset hbegan
    obtain ⟨rfl, rfl⟩ := hI''.began _ _ _ _ hbegan'' hbegan'
    refine iff_of_true (fun transport ht => ?_) (.inr fun task htask e he => ?_)
    · -- a published client is the cached one, and its transport has been closed
      rw [← hI''.toCore.closings_own]
      refine List.count_eq_one_of_mem hnodup ((hmem transport).mpr (.inr ?_))
      rw [← (hI'.frozen _ _ (hle.subset hbegan)).2] at ht
      rcases hI'.inv.published transport ht with hclient | huser
      · exact List.mem_cons.mpr (.inl hclient.symm)
      · exact List.mem_cons_of_mem _ (List.mem_singleton.mpr huser.symm)
    · obtain ⟨o, hended, hgood⟩ := hends task htask
      have hended' := hR''.ended _ _ _ (hR.ended _ _ _ hended)
      exact hgood e (hended'.unique he)

theorem wp_close (hI : Sound config h) (hown : own .close h.log = []) :
    runs config .close (body .close) (fun _ => Sound config) h := by
  have hquiet : Quiet .close h.log := by
    rw [Quiet, hown]
    exact List.forall_mem_nil _
  refine ⟨⟨hI, hquiet, nofun⟩, fun h' hle hown' _ hI' r s ha => ?_⟩
  replace ha : Answer config .beginClose h'.state r s := ha
  have hcall := hI'.call .close .beginClose r s ha nofun nofun nofun
  have hquiet' := (hquiet.of_own_eq hown').call .beginClose r s
  have hownCall := own_call (S := sig) Job.close Call.beginClose r s h'
  rw [hown', hown, List.nil_append] at hownCall
  cases r with
  | raised e => cases ha.1
  | cancelled => cases ha.1
  | ret found =>
    cases found with
    | none =>
      -- another `close` has begun, and this one returns at once
      refine hcall.closed (.ret ()) fun tasks pre hmem => ?_
      have hmem' := (mem_own (x := Job.close)).mpr ⟨hmem, rfl⟩
      rw [hownCall] at hmem'
      cases List.mem_singleton.mp hmem'
    | some tasks =>
      have hbegan : .called .close .beginClose (.ret (some tasks)) h'.state ∈
          (History.call (S := sig) .close .beginClose (.ret (some tasks)) s h').log :=
        List.mem_append_right _ (List.mem_singleton.mpr rfl)
      have hnone : closings (own .close
          (History.call (S := sig) .close .beginClose (.ret (some tasks)) s h').log) = [] := by
        rw [hownCall]
        rfl
      change runs config .close (((awaitTasks tasks).bind fun _ =>
        (awaitCall .clients).bind fun clients => closeTransports [] clients).andThen fun o =>
          act (S := sig) (.closed o)) (fun _ => Sound config) _
      refine wpOwn_andThen.mpr (wpOwn_andThen.mpr (wp_awaitTasks tasks hcall hquiet' ?_))
      intro o h'' hkept hI'' hends
      have hbegan' := hkept.longer.subset hbegan
      cases o with
      | ret a =>
        exact wpOwn_andThen.mp
          (wp_closeClients hI'' hkept.quiet hbegan' hends (hkept.closings.trans hnone))
      | raised e =>
        refine hI''.closed _ fun tasks' pre' hmem => ?_
        obtain ⟨rfl, rfl⟩ := hI''.began _ _ _ _ hbegan' hmem
        refine closed_raised hends ?_
        rw [← hI''.toCore.closings_own, hkept.closings, hnone]
      | cancelled => exact hends.elim

/-! ## Every run -/

theorem not_ended_new {kind : Kind} {task : Nat} {o : Except Exc kind.Val} :
    ¬ Ended kind task o .new := by
  intro h
  have hnil : ([] : List (Status kind))[task]? = some (some o) := h
  rw [List.getElem?_nil] at hnil
  cases hnil

theorem Sound.new (config : Config) : Sound config ⟨.new, []⟩ where
  inv := .new
  made := fun _ _ _ h => absurd h not_ended_new
  closer := fun _ h => absurd h List.not_mem_nil
  frozen := fun _ _ h => absurd h List.not_mem_nil
  began := fun _ _ _ _ h => absurd h List.not_mem_nil
  once := Nat.zero_le 1
  succeeded := fun _ h => absurd h List.not_mem_nil
  returned := fun _ _ _ h => absurd h not_ended_new
  resolved := fun _ _ h => by cases h
  failed := by
    rintro task ⟨e, pre, hmem⟩
    exact absurd hmem List.not_mem_nil
  seen := by
    refine fun task => ⟨?_, fun hdropped => absurd hdropped.1 (Nat.not_lt_zero task)⟩
    rintro ⟨x, waiter, e, pre, -, hmem⟩
    exact absurd hmem List.not_mem_nil
  justified := explained_nil _

theorem sound_invariant (config : Config) :
    (botSystem config).OwnInvariant Shared.Le (Sound config) Awaits where
  init := by
    rintro s rfl
    exact .new config
  env := fun _ _ _ hs => hs.elim
  grows := botWorld_grows config
  fresh := fun _ _ hx => hx.1
  body := by
    intro p x hx hI hown
    have hquiet : Quiet x p.hist.log := by
      rw [Quiet, hown]
      exact List.forall_mem_nil _
    cases x with
    | caller number kind => exact wp_caller hI number kind hquiet
    | task kind number => exact wp_sharedTask hI hquiet (of_decide_eq_true hx.2)
    | close => exact wp_close hI hown

/-- The invariant holds in every reachable state of a `Bot`. -/
theorem sound_reach {p : BotPool} (hp : (botSystem config).Reach p) : Sound config p.hist :=
  ((sound_invariant config).reach hp).inv

end Chattice.Lifecycle
