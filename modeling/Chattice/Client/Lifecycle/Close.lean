import Chattice.Client.Lifecycle.Rules

/-!
# `close` and initialization

* `close_linearizes` : once `close` has begun nothing is published, and when it ends it has closed the
  transport of every published client exactly once if and only if there was none or no task that it
  found has failed with another exception than a `ChatAPIError`;
* `close_leaks` : a credential provider that raises keeps `close` from closing anything.
-/

namespace Chattice.Lifecycle

open Asyncio Asyncio.Coro

/-- **`close` is linearizable with initialization**, up to the exceptions it does not swallow. -/
theorem close_linearizes (config : Config) (p : BotPool) (hp : (botSystem config).Reach p) :
    (∀ tasks pre₀, .called .close .beginClose (.ret (some tasks)) pre₀ ∈ p.hist.log →
      p.hist.state.published = pre₀.published) ∧
    ∀ log rest o pre tasks pre₀, p.hist.log = log ++ .acted .close (.closed o) pre :: rest →
      .called .close .beginClose (.ret (some tasks)) pre₀ ∈ log →
        ((∀ transport ∈ pre.published, (closings log).count transport = 1) ↔
          pre₀.published = [] ∨ NoneFailed tasks pre) := by
  have hI := sound_reach hp
  constructor
  · intro tasks pre₀ hbegan
    exact (hI.frozen tasks pre₀ hbegan).2
  · intro log rest o pre tasks pre₀ hlog hbegan
    exact hI.justified log _ rest hlog tasks pre₀ hbegan

/-! ## Two runs -/

/-- The answer of a run in which nothing is cancelled and every provider raises `e`; a task that has not
ended cannot be joined. -/
def answered (config : Config) (e : Exc) : (c : Call) → Shared → Option (Outcome Exc c.Res × Shared)
  | .request kind, s => some (.ret (request kind s).1, (request kind s).2)
  | .start kind, s => some (outcome (start config kind s).1, (start config kind s).2)
  | .join kind task _, s =>
    match (s.tasks kind)[task]? with
    | some (some o) => some (outcome o, s)
    | _ => none
  | .provider _, s => some (.raised e, s)
  | .beginClose, s => some (.ret (beginClose s).1, (beginClose s).2)
  | .clients, s => some (.ret [s.client, s.userClient], s)
  | .closeTransport _, s => some (.ret (), s)

theorem answered_answer {config : Config} {e : Exc} {c : Call} {s s' : Shared} {r : Outcome Exc c.Res}
    (h : answered config e c s = some (r, s')) : Answer config c s r s' := by
  cases c with
  | join kind task waiter =>
    replace h : (match (s.tasks kind)[task]? with
      | some (some o) => some (outcome o, s)
      | _ => none) = some (r, s') := h
    split at h
    · next o ho =>
      cases h
      exact ⟨.inl ⟨o, ho, rfl⟩, rfl⟩
    · cases h
  | request kind => cases h; exact .inl ⟨rfl, rfl⟩
  | start kind => cases h; exact ⟨rfl, rfl⟩
  | provider kind => cases h; exact ⟨nofun, rfl⟩
  | beginClose => cases h; exact ⟨rfl, rfl⟩
  | clients => cases h; exact ⟨rfl, rfl⟩
  | closeTransport transport => cases h; exact ⟨rfl, rfl⟩

/-- One step of a run: a new task, the answer to what task number `i` awaits, or its cancellation. -/
inductive Move where
  | spawn (x : Job)
  | resume (i : Nat)
  | cancel (i : Nat)

/-- A step that is not possible is left out. -/
def move (config : Config) (e : Exc) (p : BotPool) (m : Move) : BotPool :=
  match m with
  | .spawn x =>
    if x ∉ p.jobs ∧ x.created p.hist.state = true then p.spawn (botWorld config) x (body x) else p
  | .resume i =>
    match p.tasks[i]? with
    | some (x, .await c next) =>
      match answered config e c p.hist.state with
      | some (r, s) => p.resume (botWorld config) i x c next r s
      | none => p
    | _ => p
  | .cancel i =>
    match p.tasks[i]? with
    | some (x, .await (.join kind task true) next) =>
      p.resume (botWorld config) i x (.join kind task true) next .cancelled p.hist.state
    | _ => p

theorem move_reach {config : Config} {e : Exc} {p : BotPool} (hp : (botSystem config).Reach p)
    (m : Move) : (botSystem config).Reach (move config e p m) := by
  cases m with
  | spawn x =>
    change (botSystem config).Reach (if _ then _ else _)
    split
    · next hx => exact hp.spawn hx
    · exact hp
  | resume i =>
    dsimp only [move]
    split
    · next hi =>
      split
      · next hanswer => exact hp.resume hi (answered_answer hanswer)
      · exact hp
    · exact hp
  | cancel i =>
    dsimp only [move]
    split
    · next hi => exact hp.resume hi ⟨.inr ⟨rfl, rfl⟩, rfl⟩
    · exact hp

def runMoves (config : Config) (e : Exc) (moves : List Move) : BotPool :=
  moves.foldl (move config e) ⟨⟨.new, []⟩, []⟩

theorem runMoves_reach (config : Config) (e : Exc) (moves : List Move) :
    (botSystem config).Reach (runMoves config e moves) := by
  suffices h : ∀ p, (botSystem config).Reach p →
      (botSystem config).Reach (moves.foldl (move config e) p) from h _ (.init rfl)
  induction moves with
  | nil => exact fun p hp => hp
  | cons m moves ih => exact fun p hp => ih _ (move_reach hp m)

def serviceBot : Config where
  credentials := some ⟨none, true, none, .absent, .absent, .absent⟩
  hasProvider := false
  hasUserProvider := true
  hasTransport := false

def clientMoves : List Move :=
  [.spawn (.caller 0 .client), .resume 0, .spawn (.task .client 0), .resume 1,
    .spawn (.task .credentials 0), .resume 2, .resume 1, .resume 0]

/-- The `Bot` is closed undisturbed. -/
def closeMoves : List Move :=
  clientMoves ++ [.spawn .close, .resume 3, .resume 3, .resume 3, .resume 3, .resume 3]

/-- The provider of the USER identity is running when `close` begins, and raises. -/
def leakMoves : List Move :=
  clientMoves ++ [.spawn (.caller 1 .userCredentials), .resume 3, .spawn (.task .userCredentials 0),
    .resume 4, .spawn .close, .resume 5, .resume 4, .resume 5, .resume 5]

/-- The state in which `close` has ended. -/
def closedIn : Entry sig Job Shared → Option Shared
  | .acted .close (.closed _) pre => some pre
  | _ => none

theorem log_of_closed {log : BotLog} {P : Shared → Bool}
    (h : (log.getLast?.bind closedIn).any P = true) :
    ∃ o pre, log = log.dropLast ++ [.acted .close (.closed o) pre] ∧ P pre = true := by
  obtain ⟨pre, hbind, hP⟩ := Option.any_eq_true _ _ |>.mp h
  obtain ⟨entry, hlast, hclosed⟩ := Option.bind_eq_some_iff.mp hbind
  unfold closedIn at hclosed
  split at hclosed
  · next o pre' =>
    cases hclosed
    exact ⟨o, pre, (List.dropLast_append_getLast? _ hlast).symm, hP⟩
  · cases hclosed

/-- The tasks that `close` has found, and the state it found them in. -/
def found : Entry sig Job Shared → Option (List (Kind × Nat) × Shared)
  | .called .close .beginClose (.ret (some tasks)) pre => some (tasks, pre)
  | _ => none

theorem mem_of_found {log : BotLog} {tasks : List (Kind × Nat)}
    (h : (log.findSome? found).map Prod.fst = some tasks) :
    ∃ pre, .called .close .beginClose (.ret (some tasks)) pre ∈ log := by
  obtain ⟨⟨tasks', pre⟩, hfind, rfl⟩ := Option.map_eq_some_iff.mp h
  obtain ⟨entry, hmem, hfound⟩ := List.exists_of_findSome?_eq_some hfind
  unfold found at hfound
  split at hfound
  · cases hfound
    exact ⟨pre, hmem⟩
  · cases hfound

def boom : Exc := .other "ValueError" "boom"

/-- Closed undisturbed, a `Bot` closes the transport of its client once. -/
theorem closed_once : ∃ log o pre,
    (runMoves serviceBot boom closeMoves).hist.log = log ++ [.acted .close (.closed o) pre] ∧
      pre.published = [.grpc .client 0] ∧
      ∀ transport ∈ pre.published, (closings log).count transport = 1 := by
  have hlast : ((runMoves serviceBot boom closeMoves).hist.log.getLast?.bind closedIn).any (fun pre =>
      decide (pre.published = [.grpc .client 0] ∧ NoneFailed [(.credentials, 0), (.client, 0)] pre)) =
        true := by decide +kernel
  have hfound : ((runMoves serviceBot boom closeMoves).hist.log.dropLast.findSome? found).map Prod.fst =
      some [(.credentials, 0), (.client, 0)] := by decide +kernel
  obtain ⟨o, pre, hlog, hpre⟩ := log_of_closed hlast
  obtain ⟨hpublished, hnone⟩ := of_decide_eq_true hpre
  obtain ⟨pre₀, hbegan⟩ := mem_of_found hfound
  have hclosed := (close_linearizes serviceBot _ (runMoves_reach serviceBot boom closeMoves)).2
    _ [] o pre _ pre₀ hlog hbegan
  exact ⟨_, o, pre, hlog, hpublished, hclosed.mpr (.inr hnone)⟩

/-- Once `close` has begun nothing is published, and when it ends the transport of every published client
has been closed exactly once. -/
def Linearizable (config : Config) : Prop :=
  ∀ p, (botSystem config).Reach p →
    (∀ tasks pre₀, .called .close .beginClose (.ret (some tasks)) pre₀ ∈ p.hist.log →
      p.hist.state.published = pre₀.published) ∧
    ∀ log rest o pre, p.hist.log = log ++ .acted .close (.closed o) pre :: rest →
      ∀ transport ∈ pre.published, (closings log).count transport = 1

/-- A provider for the USER identity that raises while `close` awaits it leaks the APP transport. -/
theorem close_leaks : ¬ Linearizable serviceBot := by
  intro h
  have hlast : ((runMoves serviceBot boom leakMoves).hist.log.getLast?.bind closedIn).any (fun pre =>
      decide (pre.published = [.grpc .client 0])) = true := by decide +kernel
  have hnone : closings (runMoves serviceBot boom leakMoves).hist.log.dropLast = [] := by
    decide +kernel
  obtain ⟨o, pre, hlog, hpre⟩ := log_of_closed hlast
  have hcount := (h _ (runMoves_reach serviceBot boom leakMoves)).2 _ [] o pre hlog (.grpc .client 0)
    (of_decide_eq_true hpre ▸ List.mem_singleton.mpr rfl)
  rw [hnone] at hcount
  cases hcount

end Chattice.Lifecycle
