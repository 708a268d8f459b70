import Chattice.Actions

/-!
# `ActionData` through a click

The parameters of a button come back in the click under `common`, maybe among others, or as the
parameters of the form action.

* `action_of_parse` : the parameters of a parsed click are those of the common action;
* `Carries` : a payload that carries the parameters of a button;
* `readsBack_click_iff` : the instance is read back from the click exactly when it is rebuilt, which
  under the generated constructor is when every attribute survives.
-/

namespace Chattice.Actions

open GoogleChat (Stdlib InteractionModel ActionParameterModel parseInteraction normalizeEnvelope
  commonAction fallbackParameters)

/-- `common.parameters` -/
def commonParameters (model : InteractionModel) : List (String × String) :=
  (model.common.map GoogleChat.CommonEventModel.parameters).getD []

/-- `action.parameters` -/
def actionParameters (model : InteractionModel) : List (String × String) :=
  ((model.action.map GoogleChat.FormActionModel.parameters).getD []).map fun item =>
    (item.key, item.value)

/-- The payload carries the parameters for the names of a model: under `common`, maybe among other
names, or, where it has none there, as the parameters of the action. -/
def Carries (names : List String) (parameters : List (String × String)) (payload : Json.Fields) :
    Prop :=
  ∃ envelope model, normalizeEnvelope payload = .ok envelope ∧
    InteractionModel.validate envelope.event = some model ∧
      (commonParameters model ≠ [] ∧
          (∀ name ∈ names, (commonParameters model).lookup name = parameters.lookup name) ∨
        commonParameters model = [] ∧
          ∀ name, (actionParameters model).lookup name = parameters.lookup name)

/-! ## The parsed click -/

theorem fallbackParameters_eq {items : List ActionParameterModel} {parameters : List (String × String)}
    (h : fallbackParameters items = .ok parameters) :
    parameters = items.map fun item => (item.key, item.value) := by
  have hfold (collected : List (String × String)) {result : List (String × String)}
      (hresult : items.foldlM (fun collected item =>
        if (collected.lookup item.key).isSome then
          Except.error (GoogleChat.invalid [.text "Duplicate action parameter ", .repr (.str item.key)])
        else .ok (collected ++ [(item.key, item.value)])) collected = .ok result) :
      result = collected ++ items.map fun item => (item.key, item.value) := by
    clear h
    induction items generalizing collected with
    | nil =>
      rw [List.foldlM_nil, Except.pure_eq_ok] at hresult
      rw [← hresult, List.map_nil, List.append_nil]
    | cons item items ih =>
      rw [List.foldlM_cons] at hresult
      obtain ⟨collected', hitem, hrest⟩ := Except.bind_eq_ok.mp hresult
      rw [Except.ite_error_eq_ok] at hitem
      rw [ih _ hrest, ← Except.ok.inj hitem.2, List.map_cons, List.append_assoc]
      rfl
  exact hfold [] h

/-- The parameters under `common`, where there are any, else those of the action. -/
theorem commonAction_parameters {lib : Stdlib} {model : InteractionModel}
    {parameters : List (String × String)} {formInputs : FormInputs} {name : String}
    (h : commonAction lib model = .ok (parameters, formInputs, name)) :
    parameters =
      if commonParameters model = [] then actionParameters model else commonParameters model := by
  unfold commonAction at h
  obtain ⟨inputs, -, h⟩ := Except.bind_eq_ok.mp h
  obtain ⟨fallback, hfallback, h⟩ := Except.bind_eq_ok.mp h
  rw [Except.ite_error_eq_ok, Except.ite_error_eq_ok, Except.pure_eq_ok] at h
  rw [← (Prod.mk.inj h.2.2).1, fallbackParameters_eq hfallback]
  simp only [List.isEmpty_iff]
  rfl

section Parse

open GoogleChat (slashCommandBody messageBody appCommandBody actionBody eventBody interactionEvent)

variable {lib : Stdlib} {raw : Json.Fields} {model : InteractionModel} {actor : Option UserRef}
  {space : Option SpaceRef} {dialog : Option DialogMetadata}

/-- The parameters of an `ActionEvent`. -/
def clicked : EventBody → Option (List (String × String))
  | .action _ parameters _ _ _ _ => some parameters
  | _ => none

theorem clicked_message {message : Option GoogleChat.MessageModel} {body : EventBody}
    (h : messageBody lib message = .ok body) : clicked body = none := by
  unfold messageBody at h
  repeat' split at h
  · cases h
  · unfold slashCommandBody at h
    repeat' split at h
    all_goals cases h
    rfl
  · cases h
  · cases h
    rfl

theorem clicked_appCommand {body : EventBody} (h : appCommandBody model = .ok body) :
    clicked body = none := by
  unfold appCommandBody at h
  split at h
  · cases h
    rfl
  · cases h

/-- Only the click branch gives an `ActionEvent`, with the parameters of the common action. -/
theorem commonAction_of_actionBody {parameters : List (String × String)} {body : EventBody}
    (h : actionBody lib raw model actor space dialog = .ok body)
    (hbody : clicked body = some parameters) :
    ∃ formInputs name, commonAction lib model = .ok (parameters, formInputs, name) := by
  unfold actionBody at h
  obtain ⟨⟨parameters', formInputs, name⟩, hcommon, h⟩ := Except.bind_eq_ok.mp h
  dsimp only at h
  split at h
  · rw [Except.ite_error_eq_ok] at h
    rw [← Except.pure_eq_ok.mp h.2] at hbody
    rw [← Option.some_inj.mp hbody]
    exact ⟨_, _, hcommon⟩
  · split at h
    · rw [Except.ite_error_eq_ok] at h
      rw [← Except.pure_eq_ok.mp h.2] at hbody
      cases hbody
    · split at h
      · rw [clicked_appCommand h] at hbody
        cases hbody
      · obtain ⟨_, -, h⟩ := Except.bind_eq_ok.mp h
        rw [← Except.pure_eq_ok.mp h] at hbody
        cases hbody

theorem commonAction_of_eventBody {parameters : List (String × String)} {body : EventBody}
    (h : eventBody lib raw model actor space dialog = .ok body)
    (hbody : clicked body = some parameters) :
    ∃ formInputs name, commonAction lib model = .ok (parameters, formInputs, name) := by
  have hplain {type : String} {other : EventBody} (hother : clicked other = none)
      (h : (do GoogleChat.requireActorSpace type actor space; pure other) =
        (.ok body : Except GoogleChat.Exc EventBody)) : False := by
    obtain ⟨_, -, h⟩ := Except.bind_eq_ok.mp h
    rw [← Except.pure_eq_ok.mp h, hother] at hbody
    cases hbody
  unfold eventBody at h
  repeat' split at h
  · rw [← Except.pure_eq_ok.mp h] at hbody
    cases hbody
  · rw [clicked_message h] at hbody
    cases hbody
  · exact (hplain rfl h).elim
  · exact (hplain rfl h).elim
  · exact (hplain rfl h).elim
  · exact commonAction_of_actionBody h hbody

/-- The parameters of a parsed click are those of the common action of its validated payload. -/
theorem action_of_parse {payload : Json.Fields} {event : Event} {parameters : List (String × String)}
    (h : parseInteraction lib payload = .ok event) (hbody : clicked event.body = some parameters) :
    ∃ envelope model formInputs name, normalizeEnvelope payload = .ok envelope ∧
      InteractionModel.validate envelope.event = some model ∧
        commonAction lib model = .ok (parameters, formInputs, name) := by
  unfold parseInteraction at h
  obtain ⟨envelope, henvelope, h⟩ := Except.bind_eq_ok.mp h
  split at h
  · cases h
  · next model hmodel =>
    rw [Except.ite_error_eq_ok] at h
    unfold interactionEvent at h
    obtain ⟨_, -, h⟩ := Except.bind_eq_ok.mp h.2
    obtain ⟨_, -, h⟩ := Except.bind_eq_ok.mp h
    obtain ⟨body, hevent, h⟩ := Except.bind_eq_ok.mp h
    rw [← Except.pure_eq_ok.mp h] at hbody
    obtain ⟨formInputs, name, hcommon⟩ := commonAction_of_eventBody hevent hbody
    exact ⟨envelope, model, formInputs, name, henvelope, hmodel, hcommon⟩

end Parse

/-! ## The round trip -/

/-- **Typed data through a click.** The instance of a button is read back from the parameters of the
parsed click exactly when the constructor gives it again from what the declared types read of its
attributes. Under the constructor that `@dataclass` generates this is so exactly when no field declared
`int` holds a `bool`, a member with an `int` mixin in such a field is shown as a text that `int` reads
as its number, and a member in a field of its Enum class is equal to the one whose value has the text
that is sent. -/
theorem readsBack_click_iff (lib : Stdlib) (hints : ReadsInts lib) {cls : DataClass}
    (data : Instance cls) (hadmits : List.Forall₂ Admits cls.fields data.values) (text : String)
    (button : Cards.Button) (hbutton : dataButton text data = .ok button) (payload : Json.Fields)
    (hcarries : Carries (cls.fields.map Field.name) button.parameters payload) (event : Event)
    (hparse : parseInteraction lib payload = .ok event) (parameters : List (String × String))
    (hclicked : clicked event.body = some parameters) :
    (ReadsBack lib parameters data ↔ Rebuilt lib data) ∧
      (cls.Generated → (ReadsBack lib parameters data ↔
        List.Forall₂ (fun field value => Survives lib field.type.unwrapOptional value)
          cls.fields data.values)) := by
  have hencode : toParameters data = .ok button.parameters := by
    unfold dataButton at hbutton
    split at hbutton
    · cases hbutton
    · obtain ⟨sent, hsent, hbutton⟩ := Except.bind_eq_ok.mp hbutton
      rw [hsent, ← Except.pure_eq_ok.mp hbutton]
  suffices hreceived : ∀ name ∈ cls.fields.map Field.name,
      parameters.lookup name = button.parameters.lookup name by
    have hread := fromParameters_iff hints hadmits hencode hreceived
    exact ⟨hread, fun hgenerated => hread.trans (rebuilt_iff hgenerated hadmits)⟩
  intro name hname
  obtain ⟨envelope, model, hnormalize, hvalidate, hmodel⟩ := hcarries
  obtain ⟨envelope', model', formInputs, function, hnormalize', hvalidate', hcommon⟩ :=
    action_of_parse hparse hclicked
  rw [hnormalize, Except.ok.injEq] at hnormalize'
  subst hnormalize'
  rw [hvalidate, Option.some_inj] at hvalidate'
  subst hvalidate'
  rw [commonAction_parameters hcommon]
  rcases hmodel with ⟨hsome, hsame⟩ | ⟨hnone, hsame⟩
  · rw [if_neg hsome]
    exact hsame name hname
  · rw [if_pos hnone]
    exact hsame name

/-- `class Level(IntEnum): ONE = 1`; with `shown`, `class Level(int, Enum)`. -/
def level (shown : String) : EnumClass := ⟨"Level", [.int "ONE" "1" shown 1], fun _ => false⟩

def deployFields (shown : String) : List Field :=
  [⟨"service", .required .str, none⟩, ⟨"level", .required (.enum (level shown)), none⟩,
    ⟨"replicas", .optional .int, some .none⟩]

/-- `class Deploy(ActionData, function="deploy")` with a text, a level and an optional number. -/
def deploy (shown : String) : DataClass where
  name := "Deploy"
  function := some "deploy"
  fields := deployFields shown
  nodup := by simp [deployFields]
  init keywords :=
    match generatedInit (deployFields shown) keywords with
    | some values => .ok values
    | none => .error (.typeError
        [.text "Deploy.__init__() missing 1 required positional argument: 'service'"])

theorem deploy_generated (shown : String) : (deploy shown).Generated := by
  intro keywords values
  simp only [deploy]
  cases generatedInit (deployFields shown) keywords with
  | none => exact iff_of_false nofun nofun
  | some out => rw [Except.ok.injEq, Option.some_inj]

/-- `Deploy(service="api", level=Level.ONE)` -/
def deployApi (shown : String) : Instance (deploy shown) where
  values := [.str "api", .member (.int "ONE" "1" shown 1), .none]
  typed := .cons trivial (.cons (.inl (List.mem_singleton.mpr rfl)) (.cons (.inl rfl) .nil))

theorem deployApi_admits (shown : String) :
    List.Forall₂ Admits (deploy shown).fields (deployApi shown).values := by
  refine .cons ⟨trivial, nofun, trivial⟩ (.cons ⟨?_, nofun, ?_⟩ (.cons ⟨.inl rfl, ?_, trivial⟩ .nil))
  · exact .inl (List.mem_singleton.mpr rfl)
  · exact List.nodup_cons.mpr ⟨List.not_mem_nil, List.nodup_nil⟩
  · exact fun _ => rfl

def deployClicked (shown : String) : Json.Fields :=
  [("type", .str "CARD_CLICKED"),
    ("common", .dict [("invokedFunction", .str "deploy"), ("parameters", .dict
      [("service", .str "api"), ("level", .str shown), ("autocomplete_widget_query", .str "a")])])]

theorem deployClicked_carries (shown : String) :
    Carries ((deploy shown).fields.map Field.name) [("service", "api"), ("level", shown)]
      (deployClicked shown) := by
  refine ⟨_, _, rfl, rfl, .inl ⟨List.cons_ne_nil _ _, ?_⟩⟩
  intro name hname
  simp only [deploy, deployFields, List.map_cons, List.map_nil, List.mem_cons, List.not_mem_nil,
    or_false] at hname
  rcases hname with rfl | rfl | rfl <;> rfl

/-- `int` on the numerals. -/
def intLib : Stdlib :=
  ⟨fun _ => none, String.toInt?, fun _ => false, fun _ => none, fun _ => none, fun _ => none,
    fun _ => none⟩

theorem toInt?_of_head {s : String} {c : Char} {rest : List Char} (h : s.toList = c :: rest)
    (hdigit : c.isDigit = false) (hunderscore : c ≠ '_') (hminus : c ≠ '-') : s.toInt? = none := by
  cases hint : s.toInt? with
  | none => rfl
  | some n =>
    rcases String.toInt?_eq_some_iff.mp hint with ⟨b, hnat, -⟩ | ⟨t, rfl, -⟩
    · obtain ⟨-, hchars, -⟩ := String.isNat_iff.mp (String.isNat_of_toNat?_eq_some hnat)
      rcases hchars c (h ▸ List.mem_cons_self) with hc | hc
      · rw [hdigit] at hc
        cases hc
      · exact absurd hc hunderscore
    · rw [String.toList_append] at h
      exact absurd (List.cons.inj h).1.symm hminus

theorem intLib_readsInts : ReadsInts intLib := by
  have htrue : "true".toList = 't' :: ['r', 'u', 'e'] := rfl
  have hfalse : "false".toList = 'f' :: ['a', 'l', 's', 'e'] := rfl
  exact ⟨fun n _ => Int.toInt?_repr n, toInt?_of_head htrue rfl (by decide) (by decide),
    toInt?_of_head hfalse rfl (by decide) (by decide)⟩

/-- The level shows as its number. -/
theorem deployApi_readsBack :
    ReadsBack intLib [("service", "api"), ("level", "1"), ("autocomplete_widget_query", "a")]
      (deployApi "1") := by
  obtain ⟨-, hiff⟩ := readsBack_click_iff intLib intLib_readsInts (deployApi "1") (deployApi_admits "1")
    "Deploy" _ rfl (deployClicked "1") (deployClicked_carries "1") _ rfl
    [("service", "api"), ("level", "1"), ("autocomplete_widget_query", "a")] rfl
  refine (hiff (deploy_generated "1")).mpr (.cons trivial (.cons ?_ (.cons trivial .nil)))
  exact ⟨_, List.mem_singleton.mpr rfl, rfl, rfl⟩

/-- The level shows as `Level.ONE`. -/
theorem deployApi_lost :
    ¬ ∀ (lib : Stdlib), ReadsInts lib → ∀ (cls : DataClass) (data : Instance cls),
      List.Forall₂ Admits cls.fields data.values → ∀ (text : String) (button : Cards.Button),
      dataButton text data = .ok button → ∀ payload : Json.Fields,
      Carries (cls.fields.map Field.name) button.parameters payload → ∀ event : Event,
      parseInteraction lib payload = .ok event → ∀ parameters : List (String × String),
      clicked event.body = some parameters → ReadsBack lib parameters data := by
  intro h
  obtain ⟨values, hdecoded, -⟩ := h intLib intLib_readsInts (deploy "Level.ONE")
    (deployApi "Level.ONE") (deployApi_admits "Level.ONE") "Deploy" _ rfl
    (deployClicked "Level.ONE") (deployClicked_carries "Level.ONE") _ rfl
    [("service", "api"), ("level", "Level.ONE"), ("autocomplete_widget_query", "a")] rfl
  -- no member has the text that was sent
  have hrefused : (fromParameters intLib (deploy "Level.ONE") [("service", "api"),
      ("level", "Level.ONE"), ("autocomplete_widget_query", "a")]).isOk = false := by decide
  rw [hdecoded] at hrefused
  cases hrefused

end Chattice.Actions
