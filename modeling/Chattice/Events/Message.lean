import Chattice.Events.Base

/-!
# Message content read from `raw`

Seven properties of a message event are not stored: they are recomputed from the payload the event
keeps. An immutable snapshot has the items of what it was taken from.

* `content_eq_empty` : a message event shows nothing exactly when its message is `Bare`.
-/

namespace Chattice

open Json

/-- `_raw_message` -/
def rawMessage : Json → Fields
  | .dict raw =>
    let event := match get raw "chat" with
      | .dict wrapped => wrapped
      | _ => raw
    match get event "message" with
    | .dict message => message
    | _ => []
  | _ => []

/-- `_mapping_snapshot` -/
def mappingSnapshot : Json → Option Fields
  | .dict fields => some fields
  | _ => none

/-- `_mapping_sequence` -/
def mappingSequence : Json → List Fields
  | .list items => items.filterMap mappingSnapshot
  | _ => []

namespace Event

def attachments (event : Event) : List Fields :=
  mappingSequence (get (rawMessage event.raw) "attachment")

def annotations (event : Event) : List Fields :=
  mappingSequence (get (rawMessage event.raw) "annotations")

def isUserMention (item : Fields) : Bool :=
  match get item "type" with
  | .str "USER_MENTION" => true
  | _ => false

def mentions (event : Event) : List Fields := event.annotations.filter isUserMention

def quote (event : Event) : Option Fields :=
  mappingSnapshot (get (rawMessage event.raw) "quotedMessageMetadata")

def reactionSummaries (event : Event) : List Fields :=
  mappingSequence (get (rawMessage event.raw) "emojiReactionSummaries")

def isPrivate (event : Event) : Bool :=
  match get (rawMessage event.raw) "privateMessageViewer" with
  | .null => false
  | _ => true

def isSilent (event : Event) : Bool :=
  match get (rawMessage event.raw) "silent" with
  | .bool true => true
  | _ => false

end Event

/-- What a message event shows of its message. -/
structure MessageContent where
  attachments : List Fields
  annotations : List Fields
  mentions : List Fields
  quote : Option Fields
  reactionSummaries : List Fields
  isPrivate : Bool
  isSilent : Bool

/-- The content of a message event; other events have none of the seven properties. -/
def Event.content (event : Event) : Option MessageContent :=
  match event.body with
  | .message .. => some ⟨event.attachments, event.annotations, event.mentions, event.quote,
      event.reactionSummaries, event.isPrivate, event.isSilent⟩
  | _ => none

/-- The content of a message with none of the fields the properties read. -/
def MessageContent.empty : MessageContent := ⟨[], [], [], none, [], false, false⟩

/-! ## When a message shows nothing -/

def NoMapping (value : Json) : Prop :=
  ∀ items, value = .list items → ∀ item ∈ items, mappingSnapshot item = none

/-- The message has nothing that a property shows. -/
structure Bare (message : Fields) : Prop where
  attachment : NoMapping (get message "attachment")
  annotations : NoMapping (get message "annotations")
  quote : mappingSnapshot (get message "quotedMessageMetadata") = none
  reactions : NoMapping (get message "emojiReactionSummaries")
  viewer : get message "privateMessageViewer" = .null
  silent : get message "silent" ≠ .bool true

theorem mappingSequence_eq_nil {value : Json} : mappingSequence value = [] ↔ NoMapping value := by
  unfold mappingSequence NoMapping
  split
  · next items =>
    rw [List.filterMap_eq_nil_iff]
    constructor
    · intro h items' heq
      cases heq
      exact h
    · intro h
      exact h items rfl
  · next hlist => exact iff_of_true rfl fun items heq => absurd heq (hlist items)

def contentKeys : List String :=
  ["attachment", "annotations", "quotedMessageMetadata", "emojiReactionSummaries",
    "privateMessageViewer", "silent"]

theorem Bare.of_missing {message : Fields}
    (h : ∀ key ∈ contentKeys, get message key = .null) : Bare message := by
  have hnone {key : String} (hkey : key ∈ contentKeys) : NoMapping (get message key) := by
    intro items hitems
    rw [h key hkey] at hitems
    cases hitems
  refine ⟨hnone (by decide), hnone (by decide), ?_, hnone (by decide), h _ (by decide), ?_⟩
  · rw [h _ (by decide)]
    rfl
  · rw [h _ (by decide)]
    exact Json.noConfusion

theorem Event.isPrivate_eq_false {event : Event} :
    event.isPrivate = false ↔ get (rawMessage event.raw) "privateMessageViewer" = .null := by
  unfold Event.isPrivate
  split
  · next hnull => exact iff_of_true rfl hnull
  · next hviewer => exact iff_of_false nofun hviewer

theorem Event.isSilent_eq_false {event : Event} :
    event.isSilent = false ↔ get (rawMessage event.raw) "silent" ≠ .bool true := by
  unfold Event.isSilent
  split
  · next htrue => exact iff_of_false nofun (absurd htrue)
  · next hsilent => exact iff_of_true rfl hsilent

/-- A message event shows nothing exactly when its message is bare. -/
theorem content_eq_empty {event : Event} (h : event.content.isSome = true) :
    event.content = some .empty ↔ Bare (rawMessage event.raw) := by
  unfold Event.content at h ⊢
  split
  · rw [Option.some.injEq, MessageContent.empty, MessageContent.mk.injEq]
    constructor
    · rintro ⟨hattachment, hannotations, -, hquote, hreactions, hviewer, hsilent⟩
      exact ⟨mappingSequence_eq_nil.mp hattachment, mappingSequence_eq_nil.mp hannotations, hquote,
        mappingSequence_eq_nil.mp hreactions, Event.isPrivate_eq_false.mp hviewer,
        Event.isSilent_eq_false.mp hsilent⟩
    · intro hbare
      have hannotations : event.annotations = [] := mappingSequence_eq_nil.mpr hbare.annotations
      have hmentions : event.mentions = [] := by
        unfold Event.mentions
        rw [hannotations, List.filter_nil]
      exact ⟨mappingSequence_eq_nil.mpr hbare.attachment, hannotations, hmentions, hbare.quote,
        mappingSequence_eq_nil.mpr hbare.reactions, Event.isPrivate_eq_false.mpr hbare.viewer,
        Event.isSilent_eq_false.mpr hbare.silent⟩
  · next hbody =>
    split at h
    · next heq => exact absurd heq (hbody _ _ _ _ _)
    · cases h

end Chattice
