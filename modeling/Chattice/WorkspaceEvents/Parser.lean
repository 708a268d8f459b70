import Chattice.Data.Except
import Chattice.Events.Base
import Chattice.Python.Str
import Chattice.Transports.Encoders

/-!
# Structured and pushed CloudEvents

`parse_workspace_event` reads a CloudEvent with all fields at the top level, and
`parse_workspace_envelope` a Pub/Sub envelope with the attributes beside base64 data.

* `Reads` : the attributes that either parser accepts, with the event they give;
* `parseWorkspaceEvent_eq_ok`, `parseAttributes_eq_ok` : what each parser accepts;
* `parseWorkspaceEvent_raisesOnly`, `parseWorkspaceEnvelope_raisesOnly` : what each parser raises;
* `parsers_agree` : the two parsers on a CloudEvent and the envelope that carries it.
-/

namespace Chattice.WorkspaceEvents

open GoogleChat (Stdlib)
open Json Python

/-! ## The parsers -/

inductive Exc where
  | workspaceEventError (text : Text)
  | other (className : String)
  deriving Repr

def Exc.isWorkspaceEventError : Exc → Bool
  | .workspaceEventError _ => true
  | .other _ => false

/-- `raise WorkspaceEventError(text)` -/
def malformed {α : Type} (text : Text) : Except Exc α := .error (.workspaceEventError text)

/-- `REQUIRED_SPECVERSION` -/
def requiredSpecversion : String := "1.0"

/-- `TYPE_PREFIX` -/
def typePrefix : String := "google.workspace."

structure WorkspaceEvent where
  eventId : String
  source : String
  subject : Option String
  eventTime : Option DateTime
  data : Fields
  cloudType : String
  raw : Fields
  deriving Repr

/-- `raw.replace("Z", "+00:00")` -/
def replaceZ (s : String) : String :=
  .ofList (s.toList.flatMap fun c => if c = 'Z' then "+00:00".toList else [c])

/-- `parse_event_time` -/
def parseEventTime (lib : Stdlib) : Json → Except Exc (Option DateTime)
  | .null => .ok none
  | .str raw =>
    match lib.fromisoformat (replaceZ raw) with
    | none => malformed [.text "Invalid 'time' value ", .repr (.str raw)]
    | some (_, none) => malformed
        [.text "'time' value ", .repr (.str raw), .text " is not timezone-aware"]
    | some (micros, some utcoffset) => .ok (some ⟨micros, utcoffset⟩)
  | _ => malformed [.text "Workspace event 'time' must be an RFC 3339 string"]

mutual

/-- `deep_snapshot`: a JSON value is copied. -/
def deepSnapshot : Json → Json
  | .list items => .list (snapshotItems items)
  | .dict fields => .dict (snapshotFields fields)
  | value => value
termination_by structural value => value

def snapshotItems : List Json → List Json
  | [] => []
  | item :: items => deepSnapshot item :: snapshotItems items
termination_by structural items => items

def snapshotFields : Fields → Fields
  | [] => []
  | (key, value) :: fields => (key, deepSnapshot value) :: snapshotFields fields
termination_by structural fields => fields

end

def checkSpecversion (specversion : Json) : Except Exc Unit :=
  if pyEq specversion (.str requiredSpecversion) then .ok ()
  else malformed [.text "Unsupported specversion ", .repr specversion, .text "; expected ",
    .repr (.str requiredSpecversion)]

def text (value : Json) (error : String) : Except Exc String :=
  match value with
  | .str s => .ok s
  | _ => malformed [.text error]

def checkType (cloudType : Json) : Except Exc String :=
  let error : Text := [.text "Workspace event 'type' must be a ", .repr (.str typePrefix),
    .text "-prefixed string"]
  match cloudType with
  | .str s => if startsWith s typePrefix then .ok s else malformed error
  | _ => malformed error

/-- A string or `None`. -/
def optionalText (value : Json) (error : String) : Except Exc (Option String) :=
  match value with
  | .null => .ok none
  | .str s => .ok (some s)
  | _ => malformed [.text error]

/-- `data` of a structured event; `None` is an empty mapping. -/
def structuredData (value : Json) : Except Exc Fields :=
  match value with
  | .null => .ok []
  | .dict data => .ok data
  | _ => malformed [.text "Workspace event 'data' must be a mapping or absent"]

/-- `parse_workspace_event` -/
def parseWorkspaceEvent (lib : Stdlib) : Json → Except Exc WorkspaceEvent
  | .dict payload => do
    checkSpecversion (get payload "specversion")
    let eventId ← text (get payload "id") "Workspace event 'id' must be a string"
    let source ← text (get payload "source") "Workspace event 'source' must be a string"
    let cloudType ← checkType (get payload "type")
    let subject ← optionalText (get payload "subject")
      "Workspace event 'subject' must be a string or absent"
    let eventTime ← parseEventTime lib (get payload "time")
    let data ← structuredData (get payload "data")
    pure ⟨eventId, source, subject, eventTime, snapshotFields data, cloudType, snapshotFields payload⟩
  | _ => malformed [.text "Workspace event payload must be a mapping"]

/-- A required attribute, checked to be a non-empty string. -/
def requireAttribute (attributes : Fields) (required : String) : Except Exc String :=
  let error : Text := [.text "Workspace push envelope requires attribute ", .repr (.str required)]
  match get attributes required with
  | .str value => if value = "" then malformed error else .ok value
  | _ => malformed error

def checkContentType (datacontenttype : Json) : Except Exc Unit :=
  match datacontenttype with
  | .null => .ok ()
  | value =>
    if pyEq value (.str "application/json") then .ok ()
    else malformed [.text "Unsupported ce-datacontenttype ", .repr value,
      .text "; expected 'application/json'"]

/-- `_decode_envelope_data` -/
def decodeEnvelopeData (lib : Stdlib) (message : Fields) : Except Exc Fields :=
  match get message "data" with
  | .str raw =>
    match lib.b64decode raw with
    | none => malformed [.text "Workspace push envelope 'message.data' is not valid base64"]
    | some decoded =>
      match lib.loadsBytes decoded with
      | none => malformed [.text "Workspace push envelope 'message.data' does not contain valid JSON"]
      | some (.dict inner) => .ok inner
      | some _ => malformed
          [.text "Workspace push envelope 'message.data' must decode to a JSON mapping"]
  | _ => malformed [.text "Workspace push envelope 'message.data' must be a base64 string"]

/-- The attributes of an envelope: those the loop requires, in its order, then the checks. -/
def parseAttributes (lib : Stdlib) (payload message attributes : Fields) :
    Except Exc WorkspaceEvent := do
  let eventId ← requireAttribute attributes "ce-id"
  let source ← requireAttribute attributes "ce-source"
  let specversion ← requireAttribute attributes "ce-specversion"
  let ceType ← requireAttribute attributes "ce-type"
  checkSpecversion (.str specversion)
  let cloudType ← checkType (.str ceType)
  checkContentType (get attributes "ce-datacontenttype")
  let subject ← optionalText (get attributes "ce-subject")
    "Workspace event 'ce-subject' must be a string or absent"
  let eventTime ← parseEventTime lib (get attributes "ce-time")
  let data ← decodeEnvelopeData lib message
  pure ⟨eventId, source, subject, eventTime, data, cloudType, payload⟩

/-- `parse_workspace_envelope` -/
def parseWorkspaceEnvelope (lib : Stdlib) : Json → Except Exc WorkspaceEvent
  | .dict payload =>
    match get payload "message" with
    | .dict message =>
      match get message "attributes" with
      | .dict attributes => parseAttributes lib payload message attributes
      | _ => malformed [.text "Workspace push envelope requires 'message.attributes' (ce-* fields)"]
    | _ => malformed [.text ("Workspace push payload must be a Pub/Sub envelope with a " ++
        "'message' object")]
  | _ => malformed [.text "Workspace event payload must be a mapping"]

/-! ## Snapshots -/

mutual

@[simp]
theorem deepSnapshot_eq (value : Json) : deepSnapshot value = value := by
  cases value with
  | list items => rw [deepSnapshot, snapshotItems_eq items]
  | dict fields => rw [deepSnapshot, snapshotFields_eq fields]
  | _ => rfl

theorem snapshotItems_eq (items : List Json) : snapshotItems items = items := by
  cases items with
  | nil => rfl
  | cons item items => rw [snapshotItems, deepSnapshot_eq item, snapshotItems_eq items]

theorem snapshotFields_eq (fields : Fields) : snapshotFields fields = fields := by
  cases fields with
  | nil => rfl
  | cons field fields =>
    obtain ⟨key, value⟩ := field
    rw [snapshotFields, deepSnapshot_eq value, snapshotFields_eq fields]

end

/-! ## The checks -/

theorem pyEq_str_iff {value : Json} {s : String} : pyEq value (.str s) = true ↔ value = .str s := by
  cases value with
  | str s' => rw [pyEq, beq_iff_eq, Json.str.injEq]
  | _ => exact iff_of_false nofun nofun

theorem checkSpecversion_eq_ok {value : Json} :
    checkSpecversion value = .ok () ↔ value = .str requiredSpecversion := by
  unfold checkSpecversion
  rw [← pyEq_str_iff]
  split
  · next h => exact iff_of_true rfl h
  · next h => exact iff_of_false nofun h

theorem text_eq_ok {value : Json} {error s : String} : text value error = .ok s ↔ value = .str s := by
  cases value with
  | str s' => rw [text, Except.ok.injEq, Json.str.injEq]
  | _ => exact iff_of_false nofun nofun

theorem checkType_eq_ok {value : Json} {s : String} :
    checkType value = .ok s ↔ value = .str s ∧ startsWith s typePrefix = true := by
  cases value with
  | str s' =>
    simp only [checkType]
    split
    · next h =>
      rw [Except.ok.injEq, Json.str.injEq]
      exact ⟨fun heq => ⟨heq, heq ▸ h⟩, And.left⟩
    · next h =>
      refine iff_of_false nofun ?_
      rintro ⟨heq, hs⟩
      cases heq
      exact h hs
  | _ => exact iff_of_false nofun nofun

def ofOptional : Option String → Json
  | none => .null
  | some s => .str s

theorem optionalText_eq_ok {value : Json} {error : String} {o : Option String} :
    optionalText value error = .ok o ↔ value = ofOptional o := by
  cases value with
  | null => cases o <;> simp [optionalText, ofOptional]
  | str s => cases o <;> simp [optionalText, ofOptional]
  | _ => cases o <;> exact iff_of_false nofun nofun

theorem requireAttribute_eq_ok {attributes : Fields} {required s : String} :
    requireAttribute attributes required = .ok s ↔ get attributes required = .str s ∧ s ≠ "" := by
  unfold requireAttribute
  split
  · next value hvalue =>
    rw [hvalue, Json.str.injEq]
    split
    · next hempty =>
      refine iff_of_false nofun ?_
      rintro ⟨rfl, hne⟩
      exact hne hempty
    · next hne =>
      rw [Except.ok.injEq]
      exact ⟨fun heq => ⟨heq, heq ▸ hne⟩, And.left⟩
  · next hother => exact iff_of_false nofun fun h => hother s h.1

/-! ## What the parsers accept -/

/-- The attributes of an event, found by their names. -/
structure Reads (lib : Stdlib) (field : String → Json) (event : WorkspaceEvent) : Prop where
  specversion : field "specversion" = .str requiredSpecversion
  id : field "id" = .str event.eventId
  source : field "source" = .str event.source
  type : field "type" = .str event.cloudType
  startsWith : startsWith event.cloudType typePrefix = true
  subject : field "subject" = ofOptional event.subject
  time : parseEventTime lib (field "time") = .ok event.eventTime

variable {lib : Stdlib} {event : WorkspaceEvent}

theorem parseWorkspaceEvent_eq_ok {c : Fields} :
    parseWorkspaceEvent lib (.dict c) = .ok event ↔ Reads lib (get c) event ∧
      structuredData (get c "data") = .ok event.data ∧ event.raw = c := by
  unfold parseWorkspaceEvent
  constructor
  · intro h
    obtain ⟨⟨⟩, hspecversion, h⟩ := Except.bind_eq_ok.mp h
    obtain ⟨eventId, hid, h⟩ := Except.bind_eq_ok.mp h
    obtain ⟨source, hsource, h⟩ := Except.bind_eq_ok.mp h
    obtain ⟨cloudType, htype, h⟩ := Except.bind_eq_ok.mp h
    obtain ⟨subject, hsubject, h⟩ := Except.bind_eq_ok.mp h
    obtain ⟨eventTime, htime, h⟩ := Except.bind_eq_ok.mp h
    obtain ⟨data, hdata, h⟩ := Except.bind_eq_ok.mp h
    rw [← Except.pure_eq_ok.mp h, snapshotFields_eq, snapshotFields_eq]
    obtain ⟨htype, hprefix⟩ := checkType_eq_ok.mp htype
    exact ⟨⟨checkSpecversion_eq_ok.mp hspecversion, text_eq_ok.mp hid, text_eq_ok.mp hsource, htype,
      hprefix, optionalText_eq_ok.mp hsubject, htime⟩, hdata, rfl⟩
  · rintro ⟨hreads, hdata, rfl⟩
    refine Except.bind_eq_ok.mpr ⟨(), checkSpecversion_eq_ok.mpr hreads.specversion, ?_⟩
    refine Except.bind_eq_ok.mpr ⟨_, text_eq_ok.mpr hreads.id, ?_⟩
    refine Except.bind_eq_ok.mpr ⟨_, text_eq_ok.mpr hreads.source, ?_⟩
    refine Except.bind_eq_ok.mpr ⟨_, checkType_eq_ok.mpr ⟨hreads.type, hreads.startsWith⟩, ?_⟩
    refine Except.bind_eq_ok.mpr ⟨_, optionalText_eq_ok.mpr hreads.subject, ?_⟩
    refine Except.bind_eq_ok.mpr ⟨_, hreads.time, ?_⟩
    refine Except.bind_eq_ok.mpr ⟨_, hdata, ?_⟩
    rw [snapshotFields_eq, snapshotFields_eq]
    rfl

theorem parseAttributes_eq_ok {payload message attributes : Fields} :
    parseAttributes lib payload message attributes = .ok event ↔
      Reads lib (fun name => get attributes ("ce-" ++ name)) event ∧ event.eventId ≠ "" ∧
        event.source ≠ "" ∧ checkContentType (get attributes "ce-datacontenttype") = .ok () ∧
        decodeEnvelopeData lib message = .ok event.data ∧ event.raw = payload := by
  unfold parseAttributes
  constructor
  · intro h
    obtain ⟨eventId, hid, h⟩ := Except.bind_eq_ok.mp h
    obtain ⟨source, hsource, h⟩ := Except.bind_eq_ok.mp h
    obtain ⟨specversion, hspecversion, h⟩ := Except.bind_eq_ok.mp h
    obtain ⟨ceType, hceType, h⟩ := Except.bind_eq_ok.mp h
    obtain ⟨⟨⟩, hversion, h⟩ := Except.bind_eq_ok.mp h
    obtain ⟨cloudType, htype, h⟩ := Except.bind_eq_ok.mp h
    obtain ⟨⟨⟩, hcontent, h⟩ := Except.bind_eq_ok.mp h
    obtain ⟨subject, hsubject, h⟩ := Except.bind_eq_ok.mp h
    obtain ⟨eventTime, htime, h⟩ := Except.bind_eq_ok.mp h
    obtain ⟨data, hdata, h⟩ := Except.bind_eq_ok.mp h
    rw [← Except.pure_eq_ok.mp h]
    obtain ⟨hid, hidne⟩ := requireAttribute_eq_ok.mp hid
    obtain ⟨hsource, hsourcene⟩ := requireAttribute_eq_ok.mp hsource
    obtain ⟨htype, hprefix⟩ := checkType_eq_ok.mp htype
    have hversion := checkSpecversion_eq_ok.mp hversion
    refine ⟨⟨?_, hid, hsource, ?_, hprefix, optionalText_eq_ok.mp hsubject, htime⟩, hidne, hsourcene,
      hcontent, hdata, rfl⟩
    · rw [← hversion]
      exact (requireAttribute_eq_ok.mp hspecversion).1
    · rw [← htype]
      exact (requireAttribute_eq_ok.mp hceType).1
  · rintro ⟨hreads, hid, hsource, hcontent, hdata, rfl⟩
    have htypene : event.cloudType ≠ "" := by
      intro hempty
      have hprefix := hreads.startsWith
      rw [hempty] at hprefix
      revert hprefix
      decide
    refine Except.bind_eq_ok.mpr ⟨_, requireAttribute_eq_ok.mpr ⟨hreads.id, hid⟩, ?_⟩
    refine Except.bind_eq_ok.mpr ⟨_, requireAttribute_eq_ok.mpr ⟨hreads.source, hsource⟩, ?_⟩
    refine Except.bind_eq_ok.mpr ⟨_, requireAttribute_eq_ok.mpr ⟨hreads.specversion, by decide⟩, ?_⟩
    refine Except.bind_eq_ok.mpr ⟨_, requireAttribute_eq_ok.mpr ⟨hreads.type, htypene⟩, ?_⟩
    refine Except.bind_eq_ok.mpr ⟨(), checkSpecversion_eq_ok.mpr rfl, ?_⟩
    refine Except.bind_eq_ok.mpr ⟨_, checkType_eq_ok.mpr ⟨rfl, hreads.startsWith⟩, ?_⟩
    refine Except.bind_eq_ok.mpr ⟨(), hcontent, ?_⟩
    refine Except.bind_eq_ok.mpr ⟨_, optionalText_eq_ok.mpr hreads.subject, ?_⟩
    refine Except.bind_eq_ok.mpr ⟨_, hreads.time, ?_⟩
    exact Except.bind_eq_ok.mpr ⟨_, hdata, rfl⟩

/-! ## What the parsers raise -/

/-- The parser raises no other exception than `WorkspaceEventError`. -/
abbrev Guarded {α : Type} (x : Except Exc α) : Prop :=
  Except.RaisesOnly (fun e => e.isWorkspaceEventError = true) x

section Guarded

open Except (raisesOnly_bind raisesOnly_error raisesOnly_ok)

theorem guarded_malformed {α : Type} (error : Text) : Guarded (malformed error : Except Exc α) :=
  raisesOnly_error.mpr rfl

theorem guarded_checkSpecversion (value : Json) : Guarded (checkSpecversion value) := by
  unfold checkSpecversion
  split
  · exact raisesOnly_ok ()
  · exact guarded_malformed _

theorem guarded_text (value : Json) (error : String) : Guarded (text value error) := by
  unfold text
  split
  · exact raisesOnly_ok _
  · exact guarded_malformed _

theorem guarded_checkType (value : Json) : Guarded (checkType value) := by
  simp only [checkType]
  split
  · split
    · exact raisesOnly_ok _
    · exact guarded_malformed _
  · exact guarded_malformed _

theorem guarded_optionalText (value : Json) (error : String) : Guarded (optionalText value error) := by
  unfold optionalText
  split
  · exact raisesOnly_ok _
  · exact raisesOnly_ok _
  · exact guarded_malformed _

theorem guarded_parseEventTime (value : Json) : Guarded (parseEventTime lib value) := by
  unfold parseEventTime
  split
  · exact raisesOnly_ok _
  · split
    · exact guarded_malformed _
    · exact guarded_malformed _
    · exact raisesOnly_ok _
  · exact guarded_malformed _

theorem guarded_structuredData (value : Json) : Guarded (structuredData value) := by
  unfold structuredData
  split
  · exact raisesOnly_ok _
  · exact raisesOnly_ok _
  · exact guarded_malformed _

theorem guarded_requireAttribute (attributes : Fields) (required : String) :
    Guarded (requireAttribute attributes required) := by
  unfold requireAttribute
  split
  · split
    · exact guarded_malformed _
    · exact raisesOnly_ok _
  · exact guarded_malformed _

theorem guarded_checkContentType (value : Json) : Guarded (checkContentType value) := by
  unfold checkContentType
  split
  · exact raisesOnly_ok ()
  · split
    · exact raisesOnly_ok ()
    · exact guarded_malformed _

theorem guarded_decodeEnvelopeData (message : Fields) : Guarded (decodeEnvelopeData lib message) := by
  unfold decodeEnvelopeData
  split
  · split
    · exact guarded_malformed _
    · split
      · exact guarded_malformed _
      · exact raisesOnly_ok _
      · exact guarded_malformed _
  · exact guarded_malformed _

/-- A malformed event is a `WorkspaceEventError`, whatever the payload. -/
theorem parseWorkspaceEvent_raisesOnly (payload : Json) : Guarded (parseWorkspaceEvent lib payload) := by
  unfold parseWorkspaceEvent
  split
  · refine raisesOnly_bind.mpr ⟨guarded_checkSpecversion _, fun _ _ => ?_⟩
    refine raisesOnly_bind.mpr ⟨guarded_text _ _, fun _ _ => ?_⟩
    refine raisesOnly_bind.mpr ⟨guarded_text _ _, fun _ _ => ?_⟩
    refine raisesOnly_bind.mpr ⟨guarded_checkType _, fun _ _ => ?_⟩
    refine raisesOnly_bind.mpr ⟨guarded_optionalText _ _, fun _ _ => ?_⟩
    refine raisesOnly_bind.mpr ⟨guarded_parseEventTime _, fun _ _ => ?_⟩
    exact raisesOnly_bind.mpr ⟨guarded_structuredData _, fun _ _ => raisesOnly_ok _⟩
  · exact guarded_malformed _

theorem parseAttributes_raisesOnly (payload message attributes : Fields) :
    Guarded (parseAttributes lib payload message attributes) := by
  unfold parseAttributes
  refine raisesOnly_bind.mpr ⟨guarded_requireAttribute _ _, fun _ _ => ?_⟩
  refine raisesOnly_bind.mpr ⟨guarded_requireAttribute _ _, fun _ _ => ?_⟩
  refine raisesOnly_bind.mpr ⟨guarded_requireAttribute _ _, fun _ _ => ?_⟩
  refine raisesOnly_bind.mpr ⟨guarded_requireAttribute _ _, fun _ _ => ?_⟩
  refine raisesOnly_bind.mpr ⟨guarded_checkSpecversion _, fun _ _ => ?_⟩
  refine raisesOnly_bind.mpr ⟨guarded_checkType _, fun _ _ => ?_⟩
  refine raisesOnly_bind.mpr ⟨guarded_checkContentType _, fun _ _ => ?_⟩
  refine raisesOnly_bind.mpr ⟨guarded_optionalText _ _, fun _ _ => ?_⟩
  refine raisesOnly_bind.mpr ⟨guarded_parseEventTime _, fun _ _ => ?_⟩
  exact raisesOnly_bind.mpr ⟨guarded_decodeEnvelopeData _, fun _ _ => raisesOnly_ok _⟩

/-- A malformed envelope is a `WorkspaceEventError`, whatever the payload. -/
theorem parseWorkspaceEnvelope_raisesOnly (payload : Json) :
    Guarded (parseWorkspaceEnvelope lib payload) := by
  unfold parseWorkspaceEnvelope
  split
  · split
    · split
      · exact parseAttributes_raisesOnly _ _ _
      · exact guarded_malformed _
    · exact guarded_malformed _
  · exact guarded_malformed _

end Guarded

/-! ## Agreement -/

/-- The data of a structured event, empty when absent. -/
def eventData (c : Fields) : Fields :=
  match get c "data" with
  | .dict data => data
  | _ => []

/-- The attributes of an event that travel beside its data. -/
def ceNames : List String := ["id", "source", "specversion", "type", "time", "subject"]

/-- The push envelope of `c`: its attributes under their `ce-` names, an absent one being absent, and its
data as base64 JSON. -/
structure IsPush (encoders : Pubsub.Encoders) (c envelope message attributes : Fields) : Prop where
  envelope_message : get envelope "message" = .dict message
  message_attributes : get message "attributes" = .dict attributes
  ce : ∀ name ∈ ceNames, get attributes ("ce-" ++ name) = get c name
  datacontenttype : get attributes "ce-datacontenttype" = .null ∨
    get attributes "ce-datacontenttype" = get c "datacontenttype"
  data : get message "data" = .str (encoders.data (eventData c))

/-- The fields of two events that do not depend on the shape they were read from. -/
structure WorkspaceEvent.Agrees (a b : WorkspaceEvent) : Prop where
  eventId : a.eventId = b.eventId
  source : a.source = b.source
  subject : a.subject = b.subject
  eventTime : a.eventTime = b.eventTime
  cloudType : a.cloudType = b.cloudType
  data : a.data = b.data

section Agreement

variable {encoders : Pubsub.Encoders} {c envelope message attributes : Fields}

theorem structuredData_eq_ok (hdata : get c "data" = .null ∨ ∃ data, get c "data" = .dict data) :
    structuredData (get c "data") = .ok (eventData c) := by
  unfold eventData
  obtain hnull | ⟨data, hdict⟩ := hdata
  · rw [hnull]
    rfl
  · rw [hdict]
    rfl

theorem IsPush.decodeEnvelopeData (hinv : encoders.Inverted lib)
    (hpush : IsPush encoders c envelope message attributes) :
    decodeEnvelopeData lib message = .ok (eventData c) := by
  simp only [WorkspaceEvents.decodeEnvelopeData, hpush.data, Pubsub.Encoders.data, hinv.b64decode,
    hinv.loadsBytes]

theorem IsPush.checkContentType (hpush : IsPush encoders c envelope message attributes)
    (hcontent : get c "datacontenttype" = .null ∨ get c "datacontenttype" = .str "application/json") :
    checkContentType (get attributes "ce-datacontenttype") = .ok () := by
  have hcases : get attributes "ce-datacontenttype" = .null ∨
      get attributes "ce-datacontenttype" = .str "application/json" := by
    obtain hnull | hsame := hpush.datacontenttype
    · exact .inl hnull
    · rw [hsame]
      exact hcontent
  obtain hnull | hjson := hcases
  · rw [hnull]
    rfl
  · rw [hjson]
    rfl

/-- The envelope's attributes read as those of the event do. -/
theorem IsPush.reads_iff (hpush : IsPush encoders c envelope message attributes) :
    Reads lib (fun name => get attributes ("ce-" ++ name)) event ↔ Reads lib (get c) event := by
  have hid := hpush.ce "id" (by decide)
  have hsource := hpush.ce "source" (by decide)
  have hspecversion := hpush.ce "specversion" (by decide)
  have htype := hpush.ce "type" (by decide)
  have htime := hpush.ce "time" (by decide)
  have hsubject := hpush.ce "subject" (by decide)
  constructor
  · intro h
    exact ⟨hspecversion ▸ h.specversion, hid ▸ h.id, hsource ▸ h.source, htype ▸ h.type, h.startsWith,
      hsubject ▸ h.subject, htime ▸ h.time⟩
  · intro h
    exact ⟨hspecversion ▸ h.specversion, hid ▸ h.id, hsource ▸ h.source, htype ▸ h.type, h.startsWith,
      hsubject ▸ h.subject, htime ▸ h.time⟩

theorem IsPush.parseWorkspaceEnvelope (hpush : IsPush encoders c envelope message attributes) :
    parseWorkspaceEnvelope lib (.dict envelope) = parseAttributes lib envelope message attributes := by
  simp only [WorkspaceEvents.parseWorkspaceEnvelope, hpush.envelope_message, hpush.message_attributes]

/-- The events that the two parsers give differ in the payload that they keep. -/
theorem IsPush.parsed_iff (hinv : encoders.Inverted lib)
    (hpush : IsPush encoders c envelope message attributes)
    (hdata : get c "data" = .null ∨ ∃ data, get c "data" = .dict data)
    (hcontent : get c "datacontenttype" = .null ∨ get c "datacontenttype" = .str "application/json")
    (hid : get c "id" ≠ .str "") (hsource : get c "source" ≠ .str "") :
    WorkspaceEvents.parseWorkspaceEvent lib (.dict c) = .ok { event with raw := c } ↔
      WorkspaceEvents.parseWorkspaceEnvelope lib (.dict envelope) =
        .ok { event with raw := envelope } := by
  rw [hpush.parseWorkspaceEnvelope, parseWorkspaceEvent_eq_ok, parseAttributes_eq_ok, hpush.reads_iff,
    structuredData_eq_ok hdata, hpush.decodeEnvelopeData hinv, hpush.checkContentType hcontent]
  constructor
  · rintro ⟨hreads, hsame, -⟩
    refine ⟨⟨hreads.specversion, hreads.id, hreads.source, hreads.type, hreads.startsWith,
      hreads.subject, hreads.time⟩, ?_, ?_, rfl, hsame, rfl⟩
    · rintro hempty
      exact hid (hreads.id.trans (congrArg Json.str hempty))
    · rintro hempty
      exact hsource (hreads.source.trans (congrArg Json.str hempty))
  · rintro ⟨hreads, -, -, -, hsame, -⟩
    exact ⟨⟨hreads.specversion, hreads.id, hreads.source, hreads.type, hreads.startsWith,
      hreads.subject, hreads.time⟩, hsame, rfl⟩

/-- **Main result.** A CloudEvent is accepted in its structured form exactly when the envelope that
carries it is, with the same event, and either form is rejected by a `WorkspaceEventError` only. -/
theorem parsers_agree (hinv : encoders.Inverted lib)
    (hpush : IsPush encoders c envelope message attributes)
    (hdata : get c "data" = .null ∨ ∃ data, get c "data" = .dict data)
    (hcontent : get c "datacontenttype" = .null ∨ get c "datacontenttype" = .str "application/json")
    (hid : get c "id" ≠ .str "") (hsource : get c "source" ≠ .str "") :
    ((∃ a, parseWorkspaceEvent lib (.dict c) = .ok a) ↔
        ∃ b, parseWorkspaceEnvelope lib (.dict envelope) = .ok b) ∧
      Guarded (parseWorkspaceEvent lib (.dict c)) ∧
      Guarded (parseWorkspaceEnvelope lib (.dict envelope)) ∧
      ∀ a b, parseWorkspaceEvent lib (.dict c) = .ok a →
        parseWorkspaceEnvelope lib (.dict envelope) = .ok b → a.Agrees b := by
  have hparsed (event : WorkspaceEvent) :
      parseWorkspaceEvent lib (.dict c) = .ok { event with raw := c } ↔
        parseWorkspaceEnvelope lib (.dict envelope) = .ok { event with raw := envelope } :=
    hpush.parsed_iff hinv hdata hcontent hid hsource
  have hstructured {a : WorkspaceEvent} (ha : parseWorkspaceEvent lib (.dict c) = .ok a) :
      parseWorkspaceEnvelope lib (.dict envelope) = .ok { a with raw := envelope } := by
    refine (hparsed a).mp ?_
    obtain ⟨-, -, hraw⟩ := parseWorkspaceEvent_eq_ok.mp ha
    rw [ha, ← hraw]
  refine ⟨⟨?_, ?_⟩, parseWorkspaceEvent_raisesOnly _, parseWorkspaceEnvelope_raisesOnly _, ?_⟩
  · rintro ⟨a, ha⟩
    exact ⟨_, hstructured ha⟩
  · rintro ⟨b, hb⟩
    refine ⟨_, (hparsed b).mpr ?_⟩
    rw [hpush.parseWorkspaceEnvelope] at hb ⊢
    obtain ⟨-, -, -, -, -, hraw⟩ := parseAttributes_eq_ok.mp hb
    rw [hb, ← hraw]
  · intro a b ha hb
    rw [hstructured ha] at hb
    cases hb
    exact ⟨rfl, rfl, rfl, rfl, rfl, rfl⟩

/-! ## A created message -/

def createdData : Fields := [("space", .str "A")]

def createdDocuments : List (Json × String) := [(.dict createdData, "\x7b\"space\": \"A\"\x7d")]

def createdLib : Stdlib :=
  { Pubsub.wireLib createdDocuments with
    fromisoformat := fun raw =>
      if raw = "2026-01-01T00:00:00+00:00" then some (1767225600000000, some 0) else none }

def created : Fields :=
  [("specversion", .str "1.0"), ("id", .str "e1"), ("source", .str "//chat"),
    ("type", .str "google.workspace.chat"), ("time", .str "2026-01-01T00:00:00Z"),
    ("data", .dict createdData)]

def createdAttributes : Fields :=
  [("ce-id", .str "e1"), ("ce-source", .str "//chat"), ("ce-specversion", .str "1.0"),
    ("ce-type", .str "google.workspace.chat"), ("ce-time", .str "2026-01-01T00:00:00Z")]

def createdMessage : Fields :=
  [("attributes", .dict createdAttributes),
    ("data", .str ((Pubsub.wireEncoders createdDocuments).data createdData))]

theorem createdLib_inverted : (Pubsub.wireEncoders createdDocuments).Inverted createdLib := by
  have hinv : (Pubsub.wireEncoders createdDocuments).Inverted (Pubsub.wireLib createdDocuments) := by
    refine Pubsub.wireEncoders_inverted ?_ ?_
    · intro item hitem
      obtain rfl := List.mem_singleton.mp hitem
      exact ⟨_, _, rfl, by decide⟩
    · intro a ha b hb _
      rw [List.mem_singleton.mp ha, List.mem_singleton.mp hb]
  exact ⟨hinv.loads, hinv.loadsBytes, hinv.decode, hinv.b64decode⟩

theorem created_isPush : IsPush (Pubsub.wireEncoders createdDocuments) created
    [("message", .dict createdMessage)] createdMessage createdAttributes where
  envelope_message := rfl
  message_attributes := rfl
  ce := by
    intro name hname
    simp only [ceNames, List.mem_cons, List.not_mem_nil, or_false] at hname
    obtain rfl | rfl | rfl | rfl | rfl | rfl := hname <;> rfl
  datacontenttype := .inl rfl
  data := rfl

/-- The envelope of the created message is accepted. -/
theorem created_pushed :
    ∃ b, parseWorkspaceEnvelope createdLib (.dict [("message", .dict createdMessage)]) = .ok b := by
  have hid : get created "id" ≠ .str "" := by
    show Json.str "e1" ≠ .str ""
    simp
  have hsource : get created "source" ≠ .str "" := by
    show Json.str "//chat" ≠ .str ""
    simp
  have hagree := parsers_agree createdLib_inverted created_isPush (.inr ⟨_, rfl⟩) (.inl rfl) hid hsource
  exact hagree.1.mp ⟨_, rfl⟩

end Agreement

end Chattice.WorkspaceEvents
