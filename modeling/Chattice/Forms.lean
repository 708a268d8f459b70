import Chattice.Dispatcher.Dependency

/-!
# Typed forms

`FormModel.from_form_inputs` decodes the form inputs of an event into a dataclass, field by field, and
`FormFilter` hands the instance to the handler under the name `form`. The constructor of the dataclass is a
parameter: it is given the inputs of the fields, and may raise.

* `fromFormInputs`, `formFilter` : the two functions;
* `Field.Fits` : an input that a field takes;
* `decodeFields_of_fits` : the inputs that decode, and what the constructor is given;
* `form_reaches_handler` : what a handler with the filter gets for its parameter `form`.
-/

namespace Chattice.Forms

open Python (Text)
open Routing

/-! ## Models -/

/-- `_SUPPORTED` -/
inductive InputKind where
  | stringInput | dateInput | dateTimeInput | timeInput | unknownFormInput
  deriving DecidableEq, Repr

def InputKind.className : InputKind → String
  | stringInput => "StringInput"
  | dateInput => "DateInput"
  | dateTimeInput => "DateTimeInput"
  | timeInput => "TimeInput"
  | unknownFormInput => "UnknownFormInput"

def kind : FormValue → InputKind
  | .stringInput _ => .stringInput
  | .dateInput _ => .dateInput
  | .dateTimeInput .. => .dateTimeInput
  | .timeInput .. => .timeInput
  | .unknownFormInput .. => .unknownFormInput

/-- The type of a field, as `get_type_hints` returns it. -/
inductive Target where
  | input (kind : InputKind)
  | noneType
  | union (arguments : List Target)
  | other

def Target.isNoneType : Target → Bool
  | noneType => true
  | _ => false

/-- `_unwrap_optional` -/
def unwrapOptional : Target → Target
  | .union [a, b] => if b.isNoneType then a else if a.isNoneType then b else .union [a, b]
  | target => target

structure Field where
  name : String
  target : Target
  hasDefault : Bool

/-- A dataclass that derives from `FormModel`: no two fields have one name. -/
structure FormModel where
  className : String
  fields : List Field
  names : (fields.map Field.name).Nodup

/-- An exception; those of the constructor may be others. -/
inductive Exc where
  | formDecodeError (message : Text)
  | typeError (message : Text)
  | other (raised : Raised)

/-! ## Decoding -/

/-- One field: the input it takes, or nothing where its default applies. -/
def Field.decode (model : FormModel) (inputs : FormInputs) (field : Field) :
    Except Exc (Option FormValue) :=
  match unwrapOptional field.target with
  | .input expected =>
    match inputs.lookup field.name with
    | none =>
      if field.hasDefault then .ok none
      else .error (.formDecodeError [.text "missing required form input ", .repr (.str field.name),
        .text s!" for {model.className}"])
    | some value =>
      if kind value = expected then .ok (some value)
      else .error (.formDecodeError [.text "form input ", .repr (.str field.name),
        .text s!" is {(kind value).className}, expected {expected.className}"])
  | _ => .error (.typeError [.text "FormModel field ", .repr (.str field.name),
      .text (" must be one of ['StringInput', 'DateInput', 'DateTimeInput', 'TimeInput', " ++
        "'UnknownFormInput']")])

abbrev Values := List (String × FormValue)

def decodeFields (model : FormModel) (inputs : FormInputs) : List Field → Except Exc Values
  | [] => .ok []
  | field :: fields =>
    match field.decode model inputs with
    | .error e => .error e
    | .ok none => decodeFields model inputs fields
    | .ok (some value) => (decodeFields model inputs fields).map ((field.name, value) :: ·)

/-- `FormModel.from_form_inputs`; `cls` is the constructor. -/
def fromFormInputs {V : Type} (model : FormModel) (cls : Values → Except Exc V) (inputs : FormInputs) :
    Except Exc V := do
  cls (← decodeFields model inputs model.fields)

/-- `event.form_inputs` of the two classes that have one. -/
def formInputs : Routed → Option FormInputs
  | .event event =>
    match event.body with
    | .action _ _ formInputs _ _ _ => some formInputs
    | .formSubmit _ _ formInputs => some formInputs
    | _ => none
  | _ => none

variable {m : Type → Type} {V : Type}

/-- What the filter makes of an exception. -/
def Exc.caught : Exc → Except Raised (FilterValue V)
  | .formDecodeError _ => .ok (.bool false)
  | .typeError message => .error (.exception ⟨["TypeError", "Exception"], message, true, none, none⟩)
  | .other raised => .error raised

/-- The `try` of the filter. -/
def decoded : Except Exc V → Except Raised (FilterValue V)
  | .ok instance_ => .ok (.mapping [(.str "form", instance_)])
  | .error e => e.caught

/-- `FormFilter.__call__` -/
def formValue (model : FormModel) (cls : Values → Except Exc V) (event : Routed) :
    Except Raised (FilterValue V) :=
  match formInputs event with
  | none => .ok (.bool false)
  | some inputs => decoded (fromFormInputs model cls inputs)

/-- `FormModel.filter` -/
def formFilter [Monad m] (model : FormModel) (cls : Values → Except Exc V) : Filter m Routed V where
  repr := s!"<FormFilter {model.className}>"
  call := fun event _ => pure (formValue model cls event)

/-! ## The inputs that decode -/

/-- The input is of the class that the field declares, or the field is optional. -/
def Field.Fits (inputs : FormInputs) (field : Field) : Prop :=
  ∃ expected, unwrapOptional field.target = .input expected ∧
    (inputs.lookup field.name).elim (field.hasDefault = true) fun value => kind value = expected

/-- The field declares no class of inputs. -/
def Field.unsupported (field : Field) : Bool :=
  match unwrapOptional field.target with
  | .input _ => false
  | _ => true

section Decode

variable {model : FormModel} {inputs : FormInputs} {field : Field} {fields : List Field}

theorem decode_of_fits (h : field.Fits inputs) :
    field.decode model inputs = .ok (inputs.lookup field.name) := by
  obtain ⟨expected, htarget, hinput⟩ := h
  unfold Field.decode
  rw [htarget]
  dsimp only
  cases hlookup : inputs.lookup field.name with
  | none =>
    rw [hlookup] at hinput
    exact if_pos hinput
  | some value =>
    rw [hlookup] at hinput
    exact if_pos hinput

theorem decode_of_not_fits (model : FormModel) (h : ¬ field.Fits inputs) :
    ∃ e, field.decode model inputs = .error e ∧ ((∃ message, e = .formDecodeError message) ∨
      field.unsupported = true ∧ ∃ message, e = .typeError message) := by
  unfold Field.decode Field.unsupported
  split
  · next expected htarget =>
    split
    · next hlookup =>
      have hdefault : ¬ field.hasDefault = true := by
        intro hdefault
        refine h ⟨expected, htarget, ?_⟩
        rw [hlookup]
        exact hdefault
      rw [if_neg hdefault]
      exact ⟨_, rfl, .inl ⟨_, rfl⟩⟩
    · next value hlookup =>
      have hkind : ¬ kind value = expected := by
        intro hkind
        refine h ⟨expected, htarget, ?_⟩
        rw [hlookup]
        exact hkind
      rw [if_neg hkind]
      exact ⟨_, rfl, .inl ⟨_, rfl⟩⟩
  · exact ⟨_, rfl, .inr ⟨rfl, _, rfl⟩⟩

/-- What the constructor is given. -/
def given (inputs : FormInputs) (fields : List Field) : Values :=
  fields.filterMap fun field => (inputs.lookup field.name).map (field.name, ·)

theorem given_cons : given inputs (field :: fields) =
    (inputs.lookup field.name).elim (given inputs fields) fun value =>
      (field.name, value) :: given inputs fields := by
  rw [given, List.filterMap_cons]
  cases inputs.lookup field.name <;> rfl

theorem decodeFields_of_fits (h : ∀ field ∈ fields, field.Fits inputs) :
    decodeFields model inputs fields = .ok (given inputs fields) := by
  induction fields with
  | nil => rfl
  | cons field fields ih =>
    rw [decodeFields, decode_of_fits (h field List.mem_cons_self),
      ih fun f hf => h f (List.mem_cons_of_mem _ hf), given_cons]
    cases inputs.lookup field.name <;> rfl

/-- The first field that does not fit ends the loop. -/
theorem decodeFields_of_not_fits (model : FormModel) (h : ∃ field ∈ fields, ¬ field.Fits inputs) :
    ∃ e, decodeFields model inputs fields = .error e ∧ ((∃ message, e = .formDecodeError message) ∨
      (∃ field ∈ fields, field.unsupported = true) ∧ ∃ message, e = .typeError message) := by
  induction fields with
  | nil =>
    obtain ⟨field, hfield, -⟩ := h
    cases hfield
  | cons field fields ih =>
    rw [decodeFields]
    by_cases hfits : field.Fits inputs
    · obtain ⟨field', hfield', hnot⟩ := h
      have hrest : field' ∈ fields := by
        obtain rfl | hrest := List.mem_cons.mp hfield'
        · exact absurd hfits hnot
        · exact hrest
      obtain ⟨e, herror, hkind⟩ := ih ⟨field', hrest, hnot⟩
      rw [decode_of_fits hfits, herror]
      refine ⟨e, ?_, hkind.imp id fun ⟨⟨f, hf, hunsupported⟩, hmessage⟩ =>
        ⟨⟨f, List.mem_cons_of_mem _ hf, hunsupported⟩, hmessage⟩⟩
      cases inputs.lookup field.name <;> rfl
    · obtain ⟨e, herror, hkind⟩ := decode_of_not_fits model hfits
      rw [herror]
      exact ⟨e, rfl, hkind.imp id fun ⟨hunsupported, hmessage⟩ =>
        ⟨⟨field, List.mem_cons_self, hunsupported⟩, hmessage⟩⟩

theorem lookup_given (hfield : field ∈ model.fields) :
    (given inputs model.fields).lookup field.name = inputs.lookup field.name :=
  lookup_filterMap Field.name (fun field => inputs.lookup field.name) hfield model.names

end Decode

/-! ## What the handler gets -/

/-- `isinstance(event, FormSubmitEvent)` -/
def isFormSubmit : Routed → Bool
  | .event event =>
    match event.body with
    | .formSubmit .. => true
    | _ => false
  | _ => false

theorem contains_form (event : Routed) : (eventAliases event).contains "form" = isFormSubmit event := by
  cases event with
  | error source exception => rfl
  | other eventType => rfl
  | event event =>
    obtain ⟨raw, eventTime, actor, space, thread, dialog, locale, timezone, body⟩ := event
    cases body with
    | action name parameters formInputs senderType source message =>
      cases dialog with
      | none => rfl
      | some dialog =>
        obtain ⟨type, isDialogEvent⟩ := dialog
        cases type <;> rfl
    | _ => rfl

theorem lookup_append_form {data : Context V} {value : V} (hdata : data.has "form" = false) :
    (data ++ [("form", value)]).lookup "form" = some value := by
  induction data with
  | nil => rfl
  | cons entry data ih =>
    rw [Context.has, List.any_cons, Bool.or_eq_false_iff] at hdata
    have hne : ("form" == entry.1) = false := by
      rw [beq_eq_false_iff_ne] at hdata ⊢
      exact hdata.1.symm
    rw [List.cons_append, List.lookup_cons, hne]
    exact ih hdata.2

theorem source_form (callback : Callback m V) {parameter : Parameter V} {event : Routed}
    {data : Context V} {value : V} (hname : parameter.name = "form")
    (htypes : eventTypes (callback.hint parameter) = [])
    (hdata : data.has "form" = false) :
    callback.source event (data ++ [("form", value)]) parameter =
      some (if (callback.hint parameter).untyped && isFormSubmit event then .event event
        else .value value) := by
  have halias : (callback.parameterPlan parameter).eventAlias = (callback.hint parameter).untyped := by
    show ((eventTypes _).isEmpty && (callback.hint parameter).untyped && aliasNames.contains _) = _
    rw [htypes, hname]
    exact Bool.and_true _
  unfold Callback.source Callback.given
  rw [htypes, List.isEmpty_nil, if_pos rfl, if_pos rfl, hname, halias, contains_form,
    lookup_append_form hdata]
  split <;> rfl

section Handler

variable [Monad m] [LawfulMonad m] {model : FormModel} {cls : Values → Except Exc V} {event : Routed}
  {data : Context V}

/-- What one filter leaves of the context. -/
def settled (filter_ : Filter m Routed V) (data : Context V) :
    Except Raised (FilterValue V) → Except Raised (Option (Context V))
  | .error raised => .error raised
  | .ok (.bool true) => .ok (some data)
  | .ok (.bool false) => .ok none
  | .ok (.other typeName) => .error (.exception (filter_.unsupported typeName))
  | .ok (.mapping items) =>
    match mergeItems filter_ items data with
    | .error e => .error (.exception e)
    | .ok data => .ok (some data)

theorem evaluate_eq (filter_ : Filter m Routed V) {ended : Except Raised (FilterValue V)}
    (h : filter_.call event data = pure ended) :
    evaluateFilters event [filter_] data = pure (settled filter_ data ended) := by
  rw [evaluateFilters, h, pure_bind]
  cases ended with
  | error raised => rfl
  | ok value =>
    cases value with
    | bool value => cases value <;> rfl
    | other typeName => rfl
    | mapping items =>
      rw [settled]
      dsimp only
      cases mergeItems filter_ items data <;> rfl

theorem formValue_of_fits {inputs : FormInputs} (hinputs : formInputs event = some inputs)
    (hfits : ∀ field ∈ model.fields, field.Fits inputs) :
    formValue model cls event = decoded (cls (given inputs model.fields)) := by
  rw [formValue, hinputs]
  dsimp only
  rw [fromFormInputs, decodeFields_of_fits hfits]
  rfl

theorem evaluate_of_built {inputs : FormInputs} (hinputs : formInputs event = some inputs)
    (hfits : ∀ field ∈ model.fields, field.Fits inputs) (hdata : data.has "form" = false) {instance_ : V}
    (hbuilt : cls (given inputs model.fields) = .ok instance_) :
    evaluateFilters event [formFilter model cls] data =
      (pure (.ok (some (data ++ [("form", instance_)]))) : m (Except Raised (Option (Context V)))) := by
  have hmerge : mergeItems (formFilter (m := m) model cls) [(.str "form", instance_)] data =
      .ok (data ++ [("form", instance_)]) := by
    rw [mergeItems, hdata]
    rfl
  rw [evaluate_eq (formFilter model cls) (congrArg pure (formValue_of_fits hinputs hfits)), hbuilt, decoded,
    settled, hmerge]

/-- What an exception makes of the filters: one of the form is no match. -/
def Exc.ends : Exc → Except Raised (Option (Context V))
  | .formDecodeError _ => .ok none
  | .typeError message => .error (.exception ⟨["TypeError", "Exception"], message, true, none, none⟩)
  | .other raised => .error raised

omit [Monad m] [LawfulMonad m] in
theorem settled_caught (filter_ : Filter m Routed V) (e : Exc) : settled filter_ data e.caught = e.ends := by
  cases e <;> rfl

theorem evaluate_of_raised {inputs : FormInputs} (hinputs : formInputs event = some inputs)
    (hfits : ∀ field ∈ model.fields, field.Fits inputs) {e : Exc}
    (hbuilt : cls (given inputs model.fields) = .error e) :
    evaluateFilters event [formFilter model cls] data =
      (pure e.ends : m (Except Raised (Option (Context V)))) := by
  rw [evaluate_eq (formFilter model cls) (congrArg pure (formValue_of_fits hinputs hfits)), hbuilt, decoded,
    settled_caught]

/-- Other events do not match; a field of an unsupported type may raise instead. -/
theorem evaluate_of_not_fits (hnot : ∀ inputs, formInputs event = some inputs →
    ∃ field ∈ model.fields, ¬ field.Fits inputs) :
    evaluateFilters event [formFilter model cls] data =
        (pure (.ok none) : m (Except Raised (Option (Context V)))) ∨
      (∃ field ∈ model.fields, field.unsupported = true) ∧
        ∃ message, evaluateFilters event [formFilter model cls] data =
          (pure (Exc.typeError message).ends : m (Except Raised (Option (Context V)))) := by
  cases hinputs : formInputs event with
  | none =>
    have hvalue : formValue model cls event = .ok (.bool false) := by
      rw [formValue, hinputs]
    exact .inl (evaluate_eq (formFilter model cls) (congrArg pure hvalue))
  | some inputs =>
    obtain ⟨e, herror, hkind⟩ := decodeFields_of_not_fits model (hnot inputs hinputs)
    have hvalue : formValue model cls event = e.caught := by
      rw [formValue, hinputs]
      dsimp only
      rw [fromFormInputs, herror]
      rfl
    have hevaluated : evaluateFilters event [formFilter model cls] data =
        (pure (settled (formFilter model cls) data e.caught) : m _) :=
      evaluate_eq (formFilter model cls) (congrArg pure hvalue)
    rw [settled_caught] at hevaluated
    obtain ⟨message, rfl⟩ | ⟨hunsupported, message, rfl⟩ := hkind
    · exact .inl hevaluated
    · exact .inr ⟨hunsupported, message, hevaluated⟩

/-- **Main result.** A handler with the filter of a form model runs for an event exactly when the inputs of
the event fit every field and the constructor returns. Its parameter `form` is then the instance, made of the
inputs of its fields; an unannotated parameter of that name is the event instead when the event is a form
submission. What the constructor raises goes on, unless it is a `FormDecodeError`. -/
theorem form_reaches_handler (model : FormModel) (cls : Values → Except Exc V) (event : Routed)
    (data : Context V) (callback : Callback m V) (parameter : Parameter V)
    (hname : parameter.name = "form") (htypes : eventTypes (callback.hint parameter) = [])
    (hdata : data.has "form" = false) :
    (∀ inputs, formInputs event = some inputs → (∀ field ∈ model.fields, field.Fits inputs) →
      (∀ field ∈ model.fields, (given inputs model.fields).lookup field.name = inputs.lookup field.name) ∧
      (∀ instance_, cls (given inputs model.fields) = .ok instance_ →
        evaluateFilters event [formFilter model cls] data =
            (pure (.ok (some (data ++ [("form", instance_)]))) : m (Except Raised (Option (Context V)))) ∧
          callback.source event (data ++ [("form", instance_)]) parameter =
            some (if (callback.hint parameter).untyped && isFormSubmit event then .event event
              else .value instance_)) ∧
      ∀ e, cls (given inputs model.fields) = .error e →
        evaluateFilters event [formFilter model cls] data =
          (pure e.ends : m (Except Raised (Option (Context V))))) ∧
    ((∀ inputs, formInputs event = some inputs → ∃ field ∈ model.fields, ¬ field.Fits inputs) →
      evaluateFilters event [formFilter model cls] data =
          (pure (.ok none) : m (Except Raised (Option (Context V)))) ∨
        (∃ field ∈ model.fields, field.unsupported = true) ∧
          ∃ message, evaluateFilters event [formFilter model cls] data =
            (pure (Exc.typeError message).ends : m (Except Raised (Option (Context V))))) := by
  refine ⟨fun inputs hinputs hfits => ⟨fun field => lookup_given, fun instance_ hbuilt => ⟨?_, ?_⟩,
    fun e hbuilt => evaluate_of_raised hinputs hfits hbuilt⟩, evaluate_of_not_fits⟩
  · exact evaluate_of_built hinputs hfits hdata hbuilt
  · exact source_form callback hname htypes hdata

end Handler

/-- `name: StringInput`, `birthday: DateInput | None = None` -/
def contactForm : FormModel where
  className := "ContactForm"
  fields := [⟨"name", .input .stringInput, false⟩, ⟨"birthday", .union [.input .dateInput, .noneType], true⟩]
  names := by decide

def contactInputs : FormInputs := [("name", .stringInput ["Ada"])]

/-- A form that was sent from App Home. -/
def contactSubmitted : Routed :=
  .event ⟨.null, none, none, none, none, none, none, none, .formSubmit "contact.submit" [] contactInputs⟩

/-- `async def submit(form: ContactForm)` -/
def submit : Callback Id Nat where
  module := some "app"
  qualname := some "submit"
  repr := "<function submit>"
  isCoroutineFunction := true
  callIsCoroutineFunction := false
  signature := some ⟨[⟨"form", .positionalOrKeyword, .other, none⟩], by decide⟩
  hints := some []
  body := fun arguments => some (.ok arguments.length)

theorem contactForm_fits : ∀ field ∈ contactForm.fields, field.Fits contactInputs := by
  intro field hfield
  obtain rfl | hfield := List.mem_cons.mp hfield
  · exact ⟨.stringInput, rfl, rfl⟩
  · rw [List.mem_singleton.mp hfield]
    exact ⟨.dateInput, rfl, rfl⟩

theorem contactForm_submitted :
    submit.source contactSubmitted [("bot", 0), ("form", 1)] ⟨"form", .positionalOrKeyword, .other, none⟩ =
      some (.value 1) :=
  (((form_reaches_handler contactForm (fun values => .ok values.length) contactSubmitted [("bot", 0)] submit
    ⟨"form", .positionalOrKeyword, .other, none⟩ rfl rfl rfl).1 contactInputs rfl contactForm_fits).2.1
      1 rfl).2

end Chattice.Forms
