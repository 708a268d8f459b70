import Chattice.Asyncio.Parts
import Chattice.Fsm.Context
import Chattice.Fsm.KeyIsolation

/-!
# Conversations

A dispatcher with a `MemoryStorage` is fed with any number of events at once. The filters, the middleware
and the handlers await whatever they like, and reach the storage through the context of their event; the
events of one storage key are a conversation.

* `feed` : the task of one event; `fsmSystem` : the runs of the dispatcher;
* `conversation` : the runs in which one conversation and its record are all there is;
* `conversation_isolated` : what happens to a conversation is a run of its own.
-/

namespace Chattice.Fsm

open Asyncio Asyncio.Coro
open Routing (Exc Raised Context Failure FeedDispatcher Line)

structure Incoming (V : Type) where
  event : Event
  context : Context V

/-- How an event was settled: what `feed_update` called, and how it ended. -/
abbrev Settled (V : Type) := List (Line V) × Asyncio.Outcome Failure (Option V)

variable {O : Outside} {V : Type}

def feed (same : Exc → Exc → Bool) (d : FeedDispatcher (Handling O) V) (strategy : FSMStrategy)
    (x : Incoming V) : Coro (fsmSig O (Settled V)) Unit :=
  ((FSMContext.mk (StorageKey.build x.event strategy)).run
    (d.feedUpdate same (.event x.event) x.context)).bind fun settled => act (S := fsmSig O _) settled

/-! ## The runs -/

/-- What a task finds that is cancelled while it waits for the lock of a key. -/
def cancelledError : Raised := .baseException "CancelledError"

/-- A storage that serves a call in one step on the state `σ`; what else is awaited leaves the storage as it
is and returns or raises anything. -/
def storageWorld {σ : Type} (serve : σ → StorageKey → StorageCall PyValue.Fields → σ × StorageResult) :
    World (fsmSig O (Settled V)) σ where
  act := fun _ s => s
  Answer := fun c s r s' =>
    match c with
    | .storage key call =>
      (r = .ret (.ok (serve s key call).2) ∧ s' = (serve s key call).1) ∨
        (r = .ret (.error cancelledError) ∧ s' = s)
    | .outside _ => (∃ result, r = .ret result) ∧ s' = s

/-- The events that a dispatcher is fed with, over one storage. -/
def fsmSystem (same : Exc → Exc → Bool) (d : FeedDispatcher (Handling O) V) (strategy : FSMStrategy) :
    System (fsmSig O (Settled V)) (Incoming V) (StorageKey → Option MemoryStorage.Record) where
  world := storageWorld MemoryStorage.exec
  body := feed same d strategy
  Init := fun s => s = fun _ => none
  Env := fun _ _ => False
  Admits := fun _ _ => True

/-- The events of one key, over the record of that key. -/
def conversation (same : Exc → Exc → Bool) (d : FeedDispatcher (Handling O) V) (strategy : FSMStrategy)
    (key : StorageKey) :
    System (fsmSig O (Settled V)) (Incoming V) (Option MemoryStorage.Record) where
  world := storageWorld fun entry _ call => MemoryStorage.call entry call
  body := feed same d strategy
  Init := fun s => s = none
  Env := fun _ _ => False
  Admits := fun _ x => StorageKey.build x.event strategy = some key

/-! ## Isolation -/

variable {same : Exc → Exc → Bool} {d : FeedDispatcher (Handling O) V} {strategy : FSMStrategy}

/-- The task of an event calls the storage on the key of the event only. -/
theorem feed_within (x : Incoming V) : (feed same d strategy x).Within fun c =>
    StorageAwaited.key c = none ∨ StorageAwaited.key c = StorageKey.build x.event strategy :=
  within_bind (FSMContext.run_within _) fun _ => nofun

/-- A call on a key is a call on its record, and leaves every other one. -/
theorem storageWorld_part {key : StorageKey} {c : StorageAwaited O}
    {s s' : StorageKey → Option MemoryStorage.Record} {r : Outcome Empty (StorageAwaited.Res c)}
    (hc : StorageAwaited.key c = some key)
    (ha : (storageWorld (V := V) MemoryStorage.exec).Answer c s r s') :
    (storageWorld (V := V) fun entry _ call => MemoryStorage.call entry call).Answer c (s key) r (s' key) ∧
      ∀ other, other ≠ key → s' other = s other := by
  cases c with
  | outside call => cases hc
  | storage k call =>
    cases hc
    obtain ⟨rfl, rfl⟩ | ⟨rfl, rfl⟩ := ha
    · refine ⟨.inl ⟨rfl, ?_⟩, fun other hother => ?_⟩
      · exact Function.update_self ..
      · exact Function.update_of_ne hother ..
    · exact ⟨.inr ⟨rfl, rfl⟩, fun _ _ => rfl⟩

theorem storageWorld_outside {c : StorageAwaited O} {s s' : StorageKey → Option MemoryStorage.Record}
    {r : Outcome Empty (StorageAwaited.Res c)} (hc : StorageAwaited.key c = none)
    (ha : (storageWorld (V := V) MemoryStorage.exec).Answer c s r s') :
    s' = s ∧ ∀ key, (storageWorld (V := V) fun entry _ call => MemoryStorage.call entry call).Answer c
      (s key) r (s key) := by
  cases c with
  | storage k call => cases hc
  | outside call => exact ⟨ha.2, fun key => ⟨ha.1, rfl⟩⟩

/-- The dispatcher over its storage is made of its conversations. -/
theorem fsmSystem_parted (same : Exc → Exc → Bool) (d : FeedDispatcher (Handling O) V)
    (strategy : FSMStrategy) :
    Parted (fsmSystem same d strategy) (conversation same d strategy)
      (fun x => StorageKey.build x.event strategy) StorageAwaited.key where
  body := fun _ _ => rfl
  keeps := feed_within
  act := fun _ _ => rfl
  actPart := fun _ _ _ => rfl
  answer := fun _ _ _ _ _ hc ha => storageWorld_part hc ha
  outside := fun _ _ _ _ hc ha => storageWorld_outside hc ha
  init := by
    rintro key s rfl
    rfl
  env := fun _ _ _ hs => hs.elim
  admits := fun _ _ _ _ hkey => hkey

/-- **Main result.** However the events of any conversations interleave, and whatever their handlers await,
the record of a conversation, what its calls are answered and how its events are settled are those of a run
in which that conversation is all there is. -/
theorem conversation_isolated (same : Exc → Exc → Bool) (d : FeedDispatcher (Handling O) V)
    (strategy : FSMStrategy)
    (p : Pool (fsmSig O (Settled V)) (Incoming V) (StorageKey → Option MemoryStorage.Record))
    (hp : (fsmSystem same d strategy).Reach p) (key : StorageKey) :
    (conversation same d strategy key).Reach (p.part (fun x => StorageKey.build x.event strategy) key) :=
  hp.part (fsmSystem_parted same d strategy) key

/-! ## A run -/

/-- An application that awaits nothing but its context. -/
def contextOnly : Outside := ⟨Empty, fun _ => Unit⟩

/-- `class Wizard(StatesGroup): asked = State()` -/
def asked : State := { group := some "Wizard", name := some "asked" }

/-- A message is the answer in the state `asked`, and sets that state otherwise; `true` is the context. -/
def wizard : FeedDispatcher (Handling contextOnly) Bool where
  router := .mk "dispatcher"
    (fun
      | .message => ⟨[], [
          ⟨"app.answer", [stateFilter id ["Wizard:asked"]], fun _ _ => pure (.ok true)⟩,
          ⟨"app.ask", [], fun _ _ => (awaitContext (.setState (.member asked))).bind fun
            | .ok _ => pure (.ok false)
            | .error raised => pure (.error raised)⟩]⟩
      | _ => ⟨[], []⟩) [] []
  hooks := ⟨none, none⟩
  strictInteractions := false
  bot := none
  previewCapabilities := false
  state := some fun _ => true
  beforeEvent := none
  afterEvent := none

def messageOf (user : String) : Incoming Bool where
  event := ⟨.null, none, some ⟨some user, none, none⟩, some ⟨some "spaces/team", none, none, none, none⟩,
    none, none, none, none, .message "hi" none none none none⟩
  context := []

abbrev WizardPool :=
  Pool (fsmSig contextOnly (Settled Bool)) (Incoming Bool) (StorageKey → Option MemoryStorage.Record)

abbrev wizardSystem := fsmSystem (fun _ _ => false) wizard .userInSpace

def serve : (c : StorageAwaited contextOnly) → (StorageKey → Option MemoryStorage.Record) →
    Outcome Empty (StorageAwaited.Res c) × (StorageKey → Option MemoryStorage.Record)
  | .storage key call, s => (.ret (.ok (MemoryStorage.exec s key call).2), (MemoryStorage.exec s key call).1)
  | .outside call, _ => nomatch call

def startEvent (p : WizardPool) (user : String) : WizardPool :=
  p.spawn wizardSystem.world (messageOf user) (wizardSystem.body (messageOf user))

def answerCall (p : WizardPool) (i : Nat) : WizardPool := p.reply wizardSystem.world serve i

/-- Ann is asked while Ben's message is on its way, and answers before Ben is asked. -/
def interleaved : WizardPool :=
  let p := startEvent (startEvent ⟨⟨fun _ => none, []⟩, []⟩ "users/ann") "users/ben"
  let p := answerCall (answerCall (answerCall p 0) 1) 0
  answerCall (startEvent p "users/ann") 2

theorem interleaved_reach : wizardSystem.Reach interleaved := by
  have hserve : ∀ c s, wizardSystem.world.Answer c s (serve c s).1 (serve c s).2 := by
    intro c s
    cases c with
    | storage key call => exact .inl ⟨rfl, rfl⟩
    | outside call => exact nomatch call
  have hstart : ∀ {p : WizardPool} (user : String), wizardSystem.Reach p →
      wizardSystem.Reach (startEvent p user) := fun user hp => .spawn hp trivial
  have hstep : ∀ {p : WizardPool} (i : Nat), wizardSystem.Reach p →
      wizardSystem.Reach (answerCall p i) := fun i hp => hp.reply hserve i
  exact hstep 2 (hstart _ (hstep 0 (hstep 1 (hstep 0 (hstart _ (hstart _ (.init rfl)))))))

/-- Ann's conversation is a run without Ben: her first message asks, her second one is the answer. -/
theorem interleaved_isolated :
    (conversation (fun _ _ => false) wizard .userInSpace ⟨some "users/ann", some "spaces/team", none⟩).Reach
        (interleaved.part (fun x => StorageKey.build x.event .userInSpace)
          ⟨some "users/ann", some "spaces/team", none⟩) ∧
      (interleaved.part (fun x => StorageKey.build x.event .userInSpace)
        ⟨some "users/ann", some "spaces/team", none⟩).hist.state = some ⟨some "Wizard:asked", []⟩ ∧
      ∃ t pre, .acted (messageOf "users/ann") (t, .ret (some true)) pre ∈
        (interleaved.part (fun x => StorageKey.build x.event .userInSpace)
          ⟨some "users/ann", some "spaces/team", none⟩).hist.log :=
  ⟨conversation_isolated _ wizard .userInSpace interleaved interleaved_reach _, rfl, _, _,
    List.mem_of_getElem? (i := 4) rfl⟩

end Chattice.Fsm
