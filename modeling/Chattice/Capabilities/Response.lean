import Chattice.Events.Base
import Chattice.Python.Str
import Mathlib.Data.Finset.Basic

/-!
# What the response channel can do

`ResponseCapabilities.resolve`: the capabilities of a transport and an event. `require` and its texts
are left out.

* `AnyEvent` : an event of any class;
* `canOpenDialog`, `resolve` : the two rules that handlers are told;
* `httpCapabilities` : the capabilities over HTTP, with one lemma for each of them.
-/

namespace Chattice

/-- An event of a class of the adapter or of a subclass of one, or of another class, as `ErrorEvent` and
`Event` itself. -/
inductive AnyEvent where
  | known (event : Event)
  | other (className : String)

def AnyEvent.body : AnyEvent → Option EventBody
  | .known event => some event.body
  | .other _ => none

/-- The string that a dialog type is compared by. -/
def DialogEventType.text : DialogEventType → String
  | .requestDialog => "REQUEST_DIALOG"
  | .submitDialog => "SUBMIT_DIALOG"
  | .cancelDialog => "CANCEL_DIALOG"
  | .other type => type

/-- `event.dialog is not None and event.dialog.type == type` -/
def Event.hasDialog (event : Event) (type : DialogEventType) : Bool :=
  match event.dialog with
  | some dialog => dialog.type.text == type.text
  | none => false

end Chattice

namespace Chattice.Capabilities

open Python (Text)

/-- `can_open_dialog` -/
def canOpenDialog : Option AnyEvent → Bool
  | some (.known event) =>
    match event.body with
    | .command .. => true
    | .action .. => event.hasDialog .requestDialog
    | _ => false
  | _ => false

inductive ResponseCapability where
  | syncResponse | dialogs | appHome | cardUpdateBot | cardUpdateUser | updateWidget
  deriving DecidableEq, Repr

/-- What the class of the event adds, besides dialogs. -/
def eventCapabilities : Option EventBody → Finset ResponseCapability
  | some .appHome => {.appHome}
  | some (.formSubmit ..) => {.appHome}
  | some (.widgetUpdated ..) => {.updateWidget}
  | some (.action _ _ _ senderType _ _) =>
    if senderType = some "BOT" then {.cardUpdateBot}
    else if senderType = some "HUMAN" then {.cardUpdateUser}
    else ∅
  | some (.message _ _ matchedUrl _ _) => if matchedUrl.isSome then {.cardUpdateUser} else ∅
  | _ => ∅

def httpCapabilities (event : Option AnyEvent) : Finset ResponseCapability :=
  {.syncResponse} ∪ (if canOpenDialog event then {.dialogs} else ∅) ∪
    eventCapabilities (event.bind AnyEvent.body)

/-- `ResponseCapabilities.resolve` -/
def resolve (transport : String) (event : Option AnyEvent) :
    Except Text (Finset ResponseCapability) :=
  if transport = "pubsub" then .ok ∅
  else if transport = "http" then .ok (httpCapabilities event)
  else .error [.text "Unknown transport ", .repr (.str transport), .text "; supported: http, pubsub"]

theorem resolve_http (event : Option AnyEvent) : resolve "http" event = .ok (httpCapabilities event) :=
  rfl

/-! ## The capabilities over HTTP -/

theorem syncResponse_mem (event : Option AnyEvent) : .syncResponse ∈ httpCapabilities event := by
  simp [httpCapabilities]

theorem mem_httpCapabilities {capability : ResponseCapability} (hsync : capability ≠ .syncResponse)
    (hdialogs : capability ≠ .dialogs) (event : Option AnyEvent) :
    capability ∈ httpCapabilities event ↔ capability ∈ eventCapabilities (event.bind AnyEvent.body) := by
  unfold httpCapabilities
  rw [Finset.mem_union, or_iff_right]
  intro h
  obtain h | h := Finset.mem_union.mp h
  · exact hsync (Finset.mem_singleton.mp h)
  · split at h
    · exact hdialogs (Finset.mem_singleton.mp h)
    · exact absurd h (Finset.notMem_empty _)

theorem dialogs_notMem (body : Option EventBody) : .dialogs ∉ eventCapabilities body := by
  unfold eventCapabilities
  split
  case _ => decide
  case _ => decide
  case _ => decide
  case _ =>
    split
    · decide
    · split <;> decide
  case _ => split <;> decide
  case _ => decide

theorem dialogs_mem_iff (event : Option AnyEvent) :
    .dialogs ∈ httpCapabilities event ↔ canOpenDialog event = true := by
  unfold httpCapabilities
  rw [Finset.mem_union, or_iff_left (dialogs_notMem _), Finset.mem_union, or_iff_right (by decide)]
  split
  · next h => exact iff_of_true (Finset.mem_singleton.mpr rfl) h
  · next h => exact iff_of_false (Finset.notMem_empty _) h

theorem updateWidget_mem_iff (body : Option EventBody) :
    .updateWidget ∈ eventCapabilities body ↔
      ∃ functionName parameters formInputs,
        body = some (.widgetUpdated functionName parameters formInputs) := by
  unfold eventCapabilities
  split
  case _ => exact iff_of_false (by decide) nofun
  case _ => exact iff_of_false (by decide) nofun
  case _ => exact iff_of_true (by decide) ⟨_, _, _, rfl⟩
  case _ =>
    refine iff_of_false ?_ nofun
    split
    · decide
    · split <;> decide
  case _ =>
    refine iff_of_false ?_ nofun
    split <;> decide
  case _ hwidget _ _ =>
    refine iff_of_false (by decide) ?_
    rintro ⟨functionName, parameters, formInputs, rfl⟩
    exact hwidget _ _ _ rfl

end Chattice.Capabilities
