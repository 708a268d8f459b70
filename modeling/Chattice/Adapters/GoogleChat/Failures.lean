import Chattice.Adapters.GoogleChat.Parser
import Chattice.Data.Except

/-!
# How `parse_interaction` fails

The endpoint answers 400 to a `GoogleInteractionError`. Every other exception of the parser has one
of two causes: a payload nested too deep to be copied, and a form date whose digits `int` rejects.

* `epoch_raises` : the conversion that is not guarded;
* `parseFormInputs_raises` : the form inputs that raise something else;
* `parseInteractionWithin_raises_iff` : the payloads on which the parser keeps to its family.
-/

namespace Chattice.GoogleChat

open Json Python Except

/-- `isinstance(error, GoogleInteractionError)` -/
def Exc.isInteractionError : Exc → Bool
  | .invalidInteractionPayload _ | .conflictingEnvelope _ | .unsupportedEnvelope _ => true
  | .pubSubEnvelopeError _ | .other _ => false

/-- Every exception of the computation is a `GoogleInteractionError`. -/
abbrev InFamily {α : Type} (x : Except Exc α) : Prop :=
  RaisesOnly (fun e => e.isInteractionError = true) x

/-- `parse_interaction` on an interpreter whose `deepcopy` stays within the recursion limit for the
payloads in `copies`. -/
def parseInteractionWithin (copies : Fields → Bool) (lib : Stdlib) (payload : Fields) :
    Except Exc Event :=
  if copies payload then parseInteraction lib payload else .error (.other "RecursionError")

variable {lib : Stdlib}

/-! ## The envelope and the metadata -/

theorem mergeField_inFamily (event : Fields) (field : String × Json) :
    InFamily (mergeField event field) := by
  obtain ⟨key, value⟩ := field
  simp only [mergeField]
  split
  · exact raisesOnly_ok _
  · split
    · split
      · exact raisesOnly_error.mpr rfl
      · exact raisesOnly_ok _
    · exact raisesOnly_ok _

theorem selectEvent_inFamily (raw : Fields) : InFamily (selectEvent raw) := by
  unfold selectEvent
  split
  · split
    · exact raisesOnly_error.mpr rfl
    · exact raisesOnly_ok _
  · split
    · exact raisesOnly_error.mpr rfl
    · split
      · exact raisesOnly_ok _
      · split
        · exact raisesOnly_error.mpr rfl
        · exact raisesOnly_foldlM (fun event field _ => mergeField_inFamily event field) _
  · exact raisesOnly_error.mpr rfl

theorem commonObject_inFamily (name : String) (value : Json) :
    InFamily (commonObject name value) := by
  unfold commonObject
  split
  · exact raisesOnly_ok _
  · exact raisesOnly_ok _
  · exact raisesOnly_error.mpr rfl

theorem normalizeEnvelope_inFamily (payload : Fields) : InFamily (normalizeEnvelope payload) := by
  unfold normalizeEnvelope
  refine raisesOnly_bind.mpr ⟨selectEvent_inFamily _, fun event _ => ?_⟩
  refine raisesOnly_bind.mpr ⟨commonObject_inFamily _ _, fun innerCommon _ => ?_⟩
  refine raisesOnly_bind.mpr ⟨commonObject_inFamily _ _, fun outerCommon _ => ?_⟩
  split
  · split
    · exact raisesOnly_error.mpr rfl
    · exact raisesOnly_ok _
  · exact raisesOnly_ok _
  · exact raisesOnly_ok _

theorem timestamp_inFamily (value : Option String) : InFamily (timestamp lib value) := by
  unfold timestamp
  split
  · exact raisesOnly_ok _
  · dsimp only
    generalize lib.fromisoformat _ = found
    split
    · exact raisesOnly_error.mpr rfl
    · exact raisesOnly_error.mpr rfl
    · exact raisesOnly_ok _

theorem toDialog_inFamily (isDialog : Option Bool) (type : Option String) :
    InFamily (toDialog isDialog type) := by
  unfold toDialog
  split
  · split
    · exact raisesOnly_error.mpr rfl
    · exact raisesOnly_ok _
  · split
    · exact raisesOnly_error.mpr rfl
    · exact raisesOnly_ok _

/-! ## The branches without form inputs -/

theorem requireActorSpace_inFamily (type : String) (actor : Option UserRef)
    (space : Option SpaceRef) : InFamily (requireActorSpace type actor space) := by
  unfold requireActorSpace
  split
  · exact raisesOnly_ok _
  · exact raisesOnly_error.mpr rfl

theorem messageBody_inFamily (message : Option MessageModel) :
    InFamily (messageBody lib message) := by
  unfold messageBody
  split
  · exact raisesOnly_error.mpr rfl
  · split
    · unfold slashCommandBody
      split
      · exact raisesOnly_error.mpr rfl
      · split
        · exact raisesOnly_error.mpr rfl
        · exact raisesOnly_ok _
    · split
      · exact raisesOnly_error.mpr rfl
      · exact raisesOnly_ok _

theorem appCommandBody_inFamily (model : InteractionModel) : InFamily (appCommandBody model) := by
  unfold appCommandBody
  split
  · exact raisesOnly_ok _
  · exact raisesOnly_error.mpr rfl

theorem fallbackParameters_inFamily (parameters : List ActionParameterModel) :
    InFamily (fallbackParameters parameters) := by
  unfold fallbackParameters
  refine raisesOnly_foldlM (fun collected item _ => ?_) _
  split
  · exact raisesOnly_error.mpr rfl
  · exact raisesOnly_ok _

/-! ## Form inputs -/

/-- `msSinceEpoch` is a string of digits that is no decimal number: `isdigit` accepts it and `int`
does not. -/
def BadEpoch (lib : Stdlib) (body : Fields) : Prop :=
  ∃ s, get body "msSinceEpoch" = .str s ∧ lib.isdigit s = true ∧ lib.int s = none

def FlagValid (body : Fields) (key : String) : Prop :=
  get body key = .null ∨ ∃ b, get body key = .bool b

def DateReached (kind : String) (body : Fields) : Prop :=
  kind = "dateInput" ∨ kind = "dateTimeInput" ∧ FlagValid body "hasDate" ∧ FlagValid body "hasTime"

def BadDate (lib : Stdlib) (input : Fields) : Prop :=
  ∃ kind body, (knownInputs.filter fun kind => (input.lookup kind).isSome) = [kind] ∧
    get input kind = .dict body ∧ BadEpoch lib body ∧ DateReached kind body

/-- The first input that is not well formed has a bad date. -/
def BadForm (lib : Stdlib) (values : List (String × Fields)) : Prop :=
  ∃ before input after, values = before ++ input :: after ∧
    (∀ input' ∈ before, ∃ parsed, parseFormInput lib input' = .ok parsed) ∧ BadDate lib input.2

theorem epoch_raises (widget : String) (body : Fields) :
    InFamily (epoch lib widget body) ↔ ¬ BadEpoch lib body := by
  unfold epoch BadEpoch
  split
  · next n hn =>
    refine iff_of_true (raisesOnly_ok n) ?_
    rintro ⟨s, hs, -⟩
    rw [hn] at hs
    cases hs
  · next s hs =>
    split
    · next hdigit =>
      split
      · next n hn =>
        refine iff_of_true (raisesOnly_ok n) ?_
        rintro ⟨s', hs', -, hnone⟩
        cases hs.symm.trans hs'
        rw [hn] at hnone
        cases hnone
      · next hnone =>
        refine iff_of_false (fun h => ?_) fun h => h ⟨s, hs, hdigit, hnone⟩
        have hfamily : (Exc.other "ValueError").isInteractionError = true := h _ rfl
        cases hfamily
    · next hdigit =>
      refine iff_of_true (raisesOnly_error.mpr rfl) ?_
      rintro ⟨s', hs', hdigit', -⟩
      cases hs.symm.trans hs'
      exact hdigit hdigit'
  · next hstr =>
    refine iff_of_true (raisesOnly_error.mpr rfl) ?_
    rintro ⟨s, hs, -⟩
    exact hstr s hs

theorem optionalBool_inFamily (widget : String) (body : Fields) (key : String) :
    InFamily (optionalBool widget body key) := by
  unfold optionalBool
  split
  · exact raisesOnly_ok _
  · exact raisesOnly_ok _
  · exact raisesOnly_error.mpr rfl

theorem optionalBool_eq_ok (widget : String) {body : Fields} {key : String} :
    (∃ flag, optionalBool widget body key = .ok flag) ↔ FlagValid body key := by
  unfold optionalBool FlagValid
  split
  · next h => exact iff_of_true ⟨none, rfl⟩ (.inl h)
  · next b h => exact iff_of_true ⟨some b, rfl⟩ (.inr ⟨b, h⟩)
  · next hnull hbool =>
    refine iff_of_false nofun ?_
    rintro (h | ⟨b, h⟩)
    · exact hnull h
    · exact hbool b h

theorem parseValue_raises (widget kind : String) (body : Fields) :
    InFamily (parseValue lib widget kind body) ↔
      ¬ (BadEpoch lib body ∧ DateReached kind body) := by
  unfold parseValue
  split
  · next hkind =>
    subst hkind
    refine iff_of_true ?_ fun h => absurd h.2 (by simp [DateReached])
    split
    · split
      · exact raisesOnly_ok _
      · exact raisesOnly_error.mpr rfl
    · exact raisesOnly_error.mpr rfl
  · split
    · next hkind =>
      have hreached : DateReached kind body := .inl hkind
      refine (raisesOnly_bind_left fun _ _ => raisesOnly_ok _).trans ?_
      exact (epoch_raises widget body).trans (not_congr (and_iff_left hreached).symm)
    · next hdate =>
      split
      · next hkind =>
        have hreached : DateReached kind body ↔
            FlagValid body "hasDate" ∧ FlagValid body "hasTime" := by
          rw [DateReached, or_iff_right hdate, and_iff_right hkind]
        rw [hreached, ← optionalBool_eq_ok widget, ← optionalBool_eq_ok widget]
        constructor
        · rintro h ⟨hbad, ⟨hasDate, hd⟩, hasTime, ht⟩
          have hafter := (raisesOnly_bind.mp ((raisesOnly_bind.mp h).2 hasDate hd)).2 hasTime ht
          exact (epoch_raises widget body).mp (raisesOnly_bind.mp hafter).1 hbad
        · intro h
          refine raisesOnly_bind.mpr ⟨optionalBool_inFamily _ _ _, fun hasDate hd => ?_⟩
          refine raisesOnly_bind.mpr ⟨optionalBool_inFamily _ _ _, fun hasTime ht => ?_⟩
          refine raisesOnly_bind.mpr ⟨?_, fun _ _ => raisesOnly_ok _⟩
          exact (epoch_raises widget body).mpr fun hbad => h ⟨hbad, ⟨hasDate, hd⟩, hasTime, ht⟩
      · next hdateTime =>
        refine iff_of_true ?_ fun h => ?_
        · split
          · split
            · exact raisesOnly_ok _
            · exact raisesOnly_error.mpr rfl
          · exact raisesOnly_error.mpr rfl
        · exact h.2.elim hdate fun h => hdateTime h.1

theorem parseFormInput_raises (widget : String) (input : Fields) :
    InFamily (parseFormInput lib (widget, input)) ↔ ¬ BadDate lib input := by
  simp only [parseFormInput]
  unfold BadDate
  split
  · next hnone =>
    refine iff_of_true (raisesOnly_ok _) ?_
    rintro ⟨kind, body, hkind, -⟩
    rw [hnone] at hkind
    cases hkind
  · next kind hone =>
    split
    · next body hbody =>
      refine (raisesOnly_bind_left fun _ _ => raisesOnly_ok _).trans ?_
      refine (parseValue_raises widget kind body).trans (not_congr ?_)
      constructor
      · rintro ⟨hbad, hreached⟩
        exact ⟨kind, body, hone, hbody, hbad, hreached⟩
      · rintro ⟨kind', body', hkind', hbody', hbad, hreached⟩
        cases hone.symm.trans hkind'
        cases hbody.symm.trans hbody'
        exact ⟨hbad, hreached⟩
    · next hbody =>
      refine iff_of_true (raisesOnly_error.mpr rfl) ?_
      rintro ⟨kind', body, hkind', hdict, -⟩
      cases hone.symm.trans hkind'
      exact hbody body hdict
  · next hmany =>
    refine iff_of_true (raisesOnly_error.mpr rfl) ?_
    rintro ⟨kind, body, hkind, -⟩
    exact hmany kind hkind

theorem parseFormInputs_raises (values : List (String × Fields)) :
    InFamily (parseFormInputs lib values) ↔ ¬ BadForm lib values := by
  rw [parseFormInputs, InFamily, raisesOnly_mapM]
  constructor
  · rintro h ⟨before, input, after, hsplit, hbefore, hbad⟩
    exact (parseFormInput_raises input.1 input.2).mp (h before input after hsplit hbefore) hbad
  · intro h before input after hsplit hbefore
    refine (parseFormInput_raises input.1 input.2).mpr fun hbad => ?_
    exact h ⟨before, input, after, hsplit, hbefore, hbad⟩

/-! ## The parser -/

def InteractionModel.formInputs (model : InteractionModel) : List (String × Fields) :=
  (model.common.map CommonEventModel.formInputs).getD []

theorem commonAction_raises (model : InteractionModel) :
    InFamily (commonAction lib model) ↔ ¬ BadForm lib model.formInputs := by
  refine (raisesOnly_bind_left fun formInputs _ => ?_).trans (parseFormInputs_raises _)
  refine raisesOnly_bind.mpr ⟨fallbackParameters_inFamily _, fun fallback _ => ?_⟩
  split
  · exact raisesOnly_error.mpr rfl
  · split
    · exact raisesOnly_error.mpr rfl
    · exact raisesOnly_ok _

theorem actionBody_raises (raw : Fields) (model : InteractionModel) (actor : Option UserRef)
    (space : Option SpaceRef) (dialog : Option DialogMetadata) :
    InFamily (actionBody lib raw model actor space dialog) ↔ ¬ BadForm lib model.formInputs := by
  refine (raisesOnly_bind_left fun action _ => ?_).trans (commonAction_raises model)
  obtain ⟨parameters, formInputs, functionName⟩ := action
  dsimp only
  split
  · split
    · exact raisesOnly_error.mpr rfl
    · exact raisesOnly_ok _
  · split
    · split
      · exact raisesOnly_error.mpr rfl
      · exact raisesOnly_ok _
    · split
      · exact appCommandBody_inFamily model
      · exact raisesOnly_bind.mpr
          ⟨requireActorSpace_inFamily _ _ _, fun _ _ => raisesOnly_ok _⟩

def formTypes : List String := ["CARD_CLICKED", "WIDGET_UPDATED", "APP_COMMAND", "SUBMIT_FORM"]

/-- The interaction is of a type that reads the form inputs, and these are bad. -/
def BadInteraction (lib : Stdlib) (model : InteractionModel) : Prop :=
  model.type ∈ formTypes ∧ BadForm lib model.formInputs

theorem not_badInteraction {model : InteractionModel} (h : model.type ∉ formTypes) :
    ¬ BadInteraction lib model := fun hbad => h hbad.1

theorem eventBody_raises (raw : Fields) (model : InteractionModel) (actor : Option UserRef)
    (space : Option SpaceRef) (dialog : Option DialogMetadata) :
    InFamily (eventBody lib raw model actor space dialog) ↔ ¬ BadInteraction lib model := by
  have hspace (body : EventBody) : InFamily (do
      requireActorSpace model.type actor space
      pure body) :=
    raisesOnly_bind.mpr ⟨requireActorSpace_inFamily _ _ _, fun _ _ => raisesOnly_ok _⟩
  have hother : ∀ type ∈ ["MESSAGE", "ADDED_TO_SPACE", "REMOVED_FROM_SPACE", "APP_HOME"],
      type ∉ formTypes := by decide
  unfold eventBody
  split
  · next hunknown =>
    refine iff_of_true (raisesOnly_ok _) (not_badInteraction fun hform => hunknown ?_)
    exact (by decide : ∀ type ∈ formTypes, type ∈ knownTypes) _ hform
  · next hknown =>
    split
    · next htype =>
      exact iff_of_true (messageBody_inFamily _)
        (not_badInteraction (hother _ (by rw [htype]; decide)))
    · next hmessage =>
      split
      · next htype =>
        exact iff_of_true (hspace _) (not_badInteraction (hother _ (by rw [htype]; decide)))
      · next hadded =>
        split
        · next htype =>
          exact iff_of_true (hspace _) (not_badInteraction (hother _ (by rw [htype]; decide)))
        · next hremoved =>
          split
          · next htype =>
            exact iff_of_true (hspace _) (not_badInteraction (hother _ (by rw [htype]; decide)))
          · next hhome =>
            have hform : model.type ∈ formTypes := by
              simp only [knownTypes, Decidable.not_not, List.mem_cons, List.not_mem_nil, or_false,
                hmessage, hadded, hremoved, hhome, false_or] at hknown
              simpa only [formTypes, List.mem_cons, List.not_mem_nil, or_false] using hknown
            rw [actionBody_raises, BadInteraction, and_iff_right hform]

theorem interactionEvent_raises (raw : Fields) (model : InteractionModel) :
    InFamily (interactionEvent lib raw model) ↔
      ¬ ((∃ eventTime, timestamp lib model.eventTime = .ok eventTime) ∧
        (∃ dialog, toDialog model.isDialogEvent model.dialogEventType = .ok dialog) ∧
          BadInteraction lib model) := by
  refine (raisesOnly_bind_right (timestamp_inFamily _)).trans ?_
  constructor
  · rintro h ⟨⟨eventTime, htime⟩, ⟨dialog, hdialog⟩, hbad⟩
    have hbody := (raisesOnly_bind_right (toDialog_inFamily _ _)).mp (h eventTime htime) dialog hdialog
    exact (eventBody_raises _ _ _ _ _).mp (raisesOnly_bind.mp hbody).1 hbad
  · intro h eventTime htime
    refine (raisesOnly_bind_right (toDialog_inFamily _ _)).mpr fun dialog hdialog => ?_
    refine (raisesOnly_bind_left fun _ _ => raisesOnly_ok _).mpr ?_
    exact (eventBody_raises _ _ _ _ _).mpr fun hbad =>
      h ⟨⟨eventTime, htime⟩, ⟨dialog, hdialog⟩, hbad⟩

/-- The parser gets to the form inputs of the payload, and these are bad. -/
def ReachesBadForm (lib : Stdlib) (payload : Fields) : Prop :=
  ∃ envelope model, normalizeEnvelope payload = .ok envelope ∧
    InteractionModel.validate envelope.event = some model ∧
    (∃ eventTime, timestamp lib model.eventTime = .ok eventTime) ∧
    (∃ dialog, toDialog model.isDialogEvent model.dialogEventType = .ok dialog) ∧
    BadInteraction lib model

theorem parseInteraction_raises (payload : Fields) :
    InFamily (parseInteraction lib payload) ↔ ¬ ReachesBadForm lib payload := by
  refine (raisesOnly_bind_right (normalizeEnvelope_inFamily payload)).trans ?_
  constructor
  · rintro h ⟨envelope, model, henvelope, hmodel, htime, hdialog, hbad⟩
    have hrest := h envelope henvelope
    simp only [hmodel] at hrest
    have hspecified : ¬ (model.type = "UNSPECIFIED" ∨ model.type = "TYPE_UNSPECIFIED") := by
      have hform := hbad.1
      rintro (htype | htype)
      · rw [htype] at hform
        exact absurd hform (by decide)
      · rw [htype] at hform
        exact absurd hform (by decide)
    rw [if_neg hspecified] at hrest
    exact (interactionEvent_raises _ _).mp hrest ⟨htime, hdialog, hbad⟩
  · intro h envelope henvelope
    split
    · exact raisesOnly_error.mpr rfl
    · next model hmodel =>
      split
      · exact raisesOnly_error.mpr rfl
      · refine (interactionEvent_raises _ _).mpr ?_
        rintro ⟨htime, hdialog, hbad⟩
        exact h ⟨envelope, model, henvelope, hmodel, htime, hdialog, hbad⟩

/-- **Main result.** The parser raises nothing but `GoogleInteractionError`s exactly on the payloads
that can be copied and in which it does not get to a form date whose digits `int` rejects. -/
theorem parseInteractionWithin_raises_iff (copies : Fields → Bool) (lib : Stdlib)
    (payload : Fields) :
    (∀ e, parseInteractionWithin copies lib payload = .error e → e.isInteractionError = true) ↔
      copies payload = true ∧ ¬ ReachesBadForm lib payload := by
  unfold parseInteractionWithin
  cases copies payload with
  | true => exact (parseInteraction_raises payload).trans (and_iff_right rfl).symm
  | false =>
    refine iff_of_false (fun h => ?_) nofun
    have hfamily : (Exc.other "RecursionError").isInteractionError = true := h _ rfl
    cases hfamily

/-! ## A superscript digit -/

/-- A library that knows the one string: `"²".isdigit()` is true and `int("²")` raises. -/
def superscriptLib : Stdlib where
  fromisoformat := fun _ => none
  int := fun _ => none
  isdigit := fun s => s == "²"
  b64decode := fun _ => none
  loadsBytes := fun _ => none
  loads := fun _ => none
  decode := fun _ => none

/-- A click whose form has the date `{"msSinceEpoch": "²"}`. -/
def superscriptPayload : Fields :=
  [("type", .str "CARD_CLICKED"),
    ("common", .dict [("invokedFunction", .str "save"),
      ("formInputs", .dict [("when", .dict [("dateInput",
        .dict [("msSinceEpoch", .str "²")])])])])]

/-- The parser raises the `ValueError` of `int`. -/
theorem superscript_raises_valueError :
    ¬ ∀ (copies : Fields → Bool) (lib : Stdlib) (payload : Fields) (e : Exc),
      parseInteractionWithin copies lib payload = .error e → e.isInteractionError = true := by
  intro h
  have hraised : parseInteractionWithin (fun _ => true) superscriptLib superscriptPayload =
      .error (.other "ValueError") := rfl
  have hfamily := h _ _ _ _ hraised
  cases hfamily

end Chattice.GoogleChat
