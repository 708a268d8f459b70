import Chattice.Cards.Equality

/-!
# Widgets read back from their messages

What `from_proto` builds from the message of a widget, field by field, and when it is equal to the
widget. Every optional field is read back; what is lost is what the reader never looks at.

* `Button.rebuilds_action`, `Button.rebuilds_link` : the two kinds of buttons;
* `Widget.rebuilds` : a typed widget is read back equal exactly when it is `Kept`.
-/

namespace Chattice.Cards

open Protobuf

/-! ## Optional fields -/

theorem orNone_textOf {s : Option String} (hs : s ≠ some "") : orNone (textOf (s.bind ofText)) = s := by
  cases s with
  | none => rfl
  | some s =>
    rw [Option.bind_some, textOf_ofText, orNone, if_neg fun h => hs (congrArg some h)]

theorem intOrNone_intOf {n : Option Int} (hn : n ≠ some 0) :
    intOrNone (intOf (n.bind ofInt)) = n := by
  cases n with
  | none => rfl
  | some n => rw [Option.bind_some, intOf_ofInt, intOrNone, if_neg fun h => hn (congrArg some h)]

theorem intOrNone_intOf64 {n : Option Int} (hn : n ≠ some 0) :
    intOrNone (intOf (n.bind ofInt64)) = n := by
  cases n with
  | none => rfl
  | some n => rw [Option.bind_some, intOf_ofInt64, intOrNone, if_neg fun h => hn (congrArg some h)]

theorem enumOrNone_enumOf {zero : String} {name : Option String} (hname : name ≠ some zero) :
    enumOrNone zero (enumOf zero (name.bind (ofEnum zero))) = name := by
  cases name with
  | none => exact if_pos rfl
  | some name =>
    rw [Option.bind_some, enumOf_ofEnum, enumOrNone, if_neg fun h => hname (congrArg some h)]

/-! ## Dictionaries -/

theorem dictSet_of_not_mem {items : List (String × String)} {item : String × String}
    (h : item.1 ∉ items.map Prod.fst) : dictSet items item = items ++ [item] := by
  induction items with
  | nil => rfl
  | cons first rest ih =>
    rw [List.map_cons, List.mem_cons, not_or] at h
    rw [dictSet, if_neg (Ne.symm h.1), ih h.2, List.cons_append]

theorem foldl_dictSet {items done : List (String × String)}
    (h : ((done ++ items).map Prod.fst).Nodup) : items.foldl dictSet done = done ++ items := by
  induction items generalizing done with
  | nil => exact (List.append_nil done).symm
  | cons item items ih =>
    have hassoc : done ++ item :: items = (done ++ [item]) ++ items := by simp
    have hnew : item.1 ∉ done.map Prod.fst := by
      rw [List.map_append, List.map_cons] at h
      intro hmem
      exact (List.nodup_append.mp h).2.2 _ hmem _ List.mem_cons_self rfl
    rw [List.foldl_cons, dictSet_of_not_mem hnew, hassoc]
    exact ih (hassoc ▸ h)

theorem parametersFromProto_toProto {parameters : List (String × String)}
    (h : (parameters.map Prod.fst).Nodup) :
    parametersFromProto (parametersToProto parameters) = parameters := by
  have hread : (parametersToProto parameters).map (fun p => (p.text "key", p.text "value")) =
      parameters := by
    rw [parametersToProto, List.map_map]
    conv_rhs => rw [← List.map_id parameters]
    refine List.map_congr_left ?_
    rintro ⟨key, value⟩ -
    simp [Message.text]
  rw [parametersFromProto, hread]
  exact foldl_dictSet h

theorem lookup_of_mem {α : Type} {items : List (String × α)} {key : String} {value : α}
    (hnodup : (items.map Prod.fst).Nodup) (h : (key, value) ∈ items) :
    items.lookup key = some value := by
  induction items with
  | nil => cases h
  | cons item rest ih =>
    obtain ⟨first, v⟩ := item
    rw [List.map_cons, List.nodup_cons] at hnodup
    cases h with
    | head => simp
    | tail _ h =>
      have hne : key ≠ first := by
        rintro rfl
        exact hnodup.1 (List.mem_map.mpr ⟨_, h, rfl⟩)
      rw [List.lookup_cons, beq_eq_false_iff_ne.mpr hne]
      exact ih hnodup.2 h

theorem sameDict_self {items : List (String × String)} (h : (items.map Prod.fst).Nodup) :
    sameDict items items = true := by
  rw [sameDict, beq_self_eq_true, Bool.true_and, List.all_eq_true]
  rintro ⟨key, value⟩ hmem
  show (items.lookup key == some value) = true
  rw [lookup_of_mem h hmem]
  exact beq_self_eq_true _

/-! ## Colours -/

theorem keys_of_mapM {sdk : Sdk} {items : List (String × Channel)} {sent : List (String × Option Value)}
    (h : items.mapM (channelToProto sdk) = .ok sent) : sent.map Prod.fst = items.map Prod.fst := by
  have hall := Except.mapM_eq_ok.mp h
  clear h
  induction hall with
  | nil => rfl
  | cons hitem _ ih => rw [List.map_cons, List.map_cons, ih, (channelToProto_eq_ok hitem).1]

theorem lookup_of_channel {sdk : Sdk} {items : List (String × Channel)} {m : Message}
    (hnodup : (items.map Prod.fst).Nodup) (hm : colorToProto sdk (.mapping items) = .ok m)
    {key : String} {channel : Channel} (hmem : (key, channel) ∈ items) :
    channelToProto sdk (key, channel) = .ok (key, m.lookup key) := by
  obtain ⟨sent, hsent, hm⟩ := Except.bind_eq_ok.mp hm
  obtain ⟨-, rfl⟩ := construct_eq_ok.mp hm
  rw [← keys_of_mapM hsent] at hnodup
  obtain ⟨⟨name, value⟩, hfound, hitem⟩ := Except.exists_mem_of_mapM hsent hmem
  obtain rfl : name = key := (channelToProto_eq_ok hitem).1
  have hsame : (sent.map fun item => (item.1, id item.2)) = sent := List.map_id sent
  have hlookup := Message.lookup_build_map id hnodup name
  rw [hsame, lookup_of_mem hnodup hfound, Option.bind_some] at hlookup
  rw [hitem, hlookup]
  rfl

theorem float_pyEq {sdk : Sdk} (hsdk : sdk.Lawful) {key : String} (hkey : key ≠ "alpha")
    {channel : Channel} (hnumber : ∃ q, channel.amount = some q ∧ Representable32 q)
    {value : Option Value} (h : channelToProto sdk (key, channel) = .ok (key, value)) :
    Channel.pyEq (.plain (.float (floatOf value))) channel = true := by
  obtain ⟨q, hq, hrep⟩ := hnumber
  rw [channelToProto, if_neg hkey] at h
  split at h
  · obtain ⟨_, hvalue, h⟩ := Except.bind_eq_ok.mp h
    cases h
    cases channel with
    | floatValue r => cases hvalue
    | plain json =>
      have hsend : floatToProto sdk (.plain json) = do return ofFloat (← numberToProto sdk json) := by
        cases json with
        | null => cases hq
        | _ => rfl
      obtain ⟨sent, hsent, hvalue⟩ := Except.bind_eq_ok.mp (hsend.symm.trans hvalue)
      cases hvalue
      unfold numberToProto at hsent
      split at hsent
      · next r hr =>
        cases hsent
        -- what has a number is no mapping of a `FloatValue`
        have hamount : (Channel.plain json).amount = json.number := by
          cases json <;> first | rfl | cases hr
        obtain rfl : r = q := Option.some.inj (hr.symm.trans (hamount.symm.trans hq))
        rw [floatOf_ofFloat, hsdk.float32 r hrep]
        show Json.pyEq (.float r) json = true
        rw [Json.pyEq, hr]
        exact beq_self_eq_true _
      · cases hsent
  · cases h

/-- The reader puts a `FloatValue` under `alpha`, whatever was sent. -/
theorem alpha_pyEq_iff {sdk : Sdk} {channel : Channel} {value : Option Value}
    (h : channelToProto sdk ("alpha", channel) = .ok ("alpha", value)) :
    Channel.pyEq (.floatValue (floatValueOf value)) channel = true ↔ ∃ q, channel = .floatValue q := by
  rw [channelToProto, if_pos rfl] at h
  obtain ⟨_, hvalue, h⟩ := Except.bind_eq_ok.mp h
  cases h
  cases channel with
  | plain json => exact iff_of_false nofun nofun
  | floatValue q =>
    cases hvalue
    exact iff_of_true (beq_self_eq_true q) ⟨q, rfl⟩

theorem colorToMapping_pyEq_iff {sdk : Sdk} (hsdk : sdk.Lawful) {color : Color} {m : Message}
    (hcolor : CompleteColor color) (hm : colorToProto sdk color = .ok m) :
    Color.pyEq (colorToMapping m) color = true ↔ color.HasFloatValue := by
  cases color with
  | mapping items =>
    obtain ⟨hkeys, hnumbers⟩ := hcolor
    have hnodup : (items.map Prod.fst).Nodup := hkeys.nodup_iff.mpr (by decide)
    have hlength : items.length = 4 := by
      have hlength := hkeys.length_eq
      rwa [List.length_map] at hlength
    -- each channel is there, and has been sent
    have hchannel (key : String) (hkey : key ∈ ["red", "green", "blue", "alpha"]) :
        ∃ channel, items.lookup key = some channel ∧
          (∃ q, channel.amount = some q ∧ Representable32 q) ∧
            channelToProto sdk (key, channel) = .ok (key, m.lookup key) := by
      obtain ⟨⟨name, channel⟩, hmem, rfl⟩ := List.mem_map.mp (hkeys.mem_iff.mpr hkey)
      exact ⟨channel, lookup_of_mem hnodup hmem, hnumbers _ hmem, lookup_of_channel hnodup hm hmem⟩
    have hfloat (key : String) (hkey : key ∈ ["red", "green", "blue", "alpha"]) (hne : key ≠ "alpha") :
        (items.lookup key).any (Channel.pyEq (.plain (.float (m.float key)))) = true := by
      obtain ⟨channel, hlookup, hnumber, hsent⟩ := hchannel key hkey
      rw [hlookup, Option.any_some]
      exact float_pyEq hsdk hne hnumber hsent
    obtain ⟨alpha, hlookup, -, hsent⟩ := hchannel "alpha" (by decide)
    have halpha := alpha_pyEq_iff hsent
    simp only [colorToMapping, Color.pyEq, Color.HasFloatValue, hlength, hlookup, List.all_cons,
      List.all_nil, hfloat "red" (by decide) (by decide), hfloat "green" (by decide) (by decide),
      hfloat "blue" (by decide) (by decide), Option.any_some, Option.some.injEq, Bool.true_and,
      Bool.and_true]
    exact halpha
  | message red green blue alpha => exact iff_of_false nofun nofun
  | other value => cases hm

/-! ## Lists -/

/-- The value the reader builds is equal to `a` exactly when `kept` holds. -/
def Rebuilds {α : Type} (same : α → α → Bool) (read : Except Exc α) (a : α) (kept : Prop) : Prop :=
  ∃ rebuilt, read = .ok rebuilt ∧ (same rebuilt a = true ↔ kept)

theorem sameList_iff {α : Type} {same : α → α → Bool} {kept : α → Prop} {l l' : List α}
    (h : List.Forall₂ (fun a a' => same a' a = true ↔ kept a) l l') :
    sameList same l' l = true ↔ ∀ a ∈ l, kept a := by
  induction h with
  | nil => exact iff_of_true rfl fun _ h => nomatch h
  | cons hsame _ ih => rw [sameList, Bool.and_eq_true, hsame, ih, List.forall_mem_cons]

theorem rebuilds_mapM {α : Type} {same : α → α → Bool} {kept : α → Prop}
    {write : α → Except Exc Message} {read : Message → Except Exc α} {l : List α}
    {messages : List Message} (hmessages : l.mapM write = .ok messages)
    (h : ∀ a ∈ l, ∀ m, write a = .ok m → Rebuilds same (read m) a (kept a)) :
    Rebuilds (sameList same) (messages.mapM read) l (∀ a ∈ l, kept a) := by
  have hwritten := Except.mapM_eq_ok.mp hmessages
  clear hmessages
  have hread : ∃ rebuilt, List.Forall₂ (fun m a' => read m = .ok a') messages rebuilt ∧
      List.Forall₂ (fun a a' => same a' a = true ↔ kept a) l rebuilt := by
    induction hwritten with
    | nil => exact ⟨[], .nil, .nil⟩
    | cons hm _ ih =>
      obtain ⟨a', hread, hsame⟩ := h _ List.mem_cons_self _ hm
      obtain ⟨rebuilt, hreads, hsames⟩ := ih fun a ha => h a (List.mem_cons_of_mem _ ha)
      exact ⟨a' :: rebuilt, .cons hread hreads, .cons hsame hsames⟩
  obtain ⟨rebuilt, hreads, hsames⟩ := hread
  exact ⟨rebuilt, Except.mapM_eq_ok.mpr hreads, sameList_iff hsames⟩

/-! ## Actions, links and buttons -/

theorem Action.fromProto_toProto {sdk : Sdk} {action : Action} {m : Message}
    (haction : action.Regular) (hm : action.toProto sdk = .ok m) : fromProto m = action := by
  obtain ⟨-, rfl⟩ := construct_eq_ok.mp hm
  obtain ⟨function, parameters, interaction⟩ := action
  simp [fromProto, Message.text, Message.messages, Message.enumName,
    orNone_textOf haction.function, parametersFromProto_toProto haction.parameters,
    enumOrNone_enumOf haction.interaction]

theorem OpenLink.fromProto_toProto {sdk : Sdk} {link : OpenLink} {m : Message}
    (hlink : link.openAs = none) (hm : link.toProto sdk = .ok m) : fromProto m = link := by
  obtain ⟨-, rfl⟩ := construct_eq_ok.mp hm
  obtain ⟨url, openAs⟩ := link
  cases hlink
  simp [fromProto, Message.text]

theorem Action.pyEq_self {action : Action} (haction : action.Regular) :
    action.pyEq action = true := by
  simp [Action.pyEq, sameDict_self haction.parameters]

theorem buttonTypeName_enumOf {type : Option String}
    (htype : ∀ name ∈ ["", "TYPE_UNSPECIFIED", "BUTTON_TYPE_UNSPECIFIED"], type ≠ some name) :
    buttonTypeName (enumOf buttonTypeZero (type.bind (ofEnum buttonTypeZero))) = type := by
  cases type with
  | none => rfl
  | some type =>
    have hne (name : String) (hname : name ∈ ["", "TYPE_UNSPECIFIED", "BUTTON_TYPE_UNSPECIFIED"]) :
        type ≠ name := fun h => htype name hname (congrArg some h)
    rw [Option.bind_some, enumOf_ofEnum, buttonTypeName, if_neg]
    rintro (h | h | h)
    · exact hne "" (by decide) h
    · exact hne "TYPE_UNSPECIFIED" (by decide) h
    · exact hne "BUTTON_TYPE_UNSPECIFIED" (by decide) h

theorem Button.color_read {sdk : Sdk} (hsdk : sdk.Lawful) {button : Button} (hbutton : button.Regular)
    {color : Option Value} (hcolor : optional (colorToProto sdk) button.color = .ok color) :
    sameOption Color.pyEq
        (if color.isSome then some (colorToMapping (messageOf color)) else none) button.color = true ↔
      ∀ given, button.color = some given → given.HasFloatValue := by
  obtain ⟨hnone, rfl⟩ | ⟨given, m, hgiven, hm, rfl⟩ := optional_eq_ok hcolor
  · rw [hnone]
    exact iff_of_true rfl nofun
  · rw [hgiven]
    refine (colorToMapping_pyEq_iff hsdk (hbutton.color given hgiven) hm).trans ?_
    exact ⟨fun h color heq => Option.some.inj heq ▸ h, fun h => h given rfl⟩

/-- An action button is read back, if its colour is. -/
theorem Button.rebuilds_action {sdk : Sdk} (hsdk : sdk.Lawful) {button : Button}
    (hbutton : button.Regular) {function : String} (haction : button.action = some function)
    {m : Message} (hm : button.toProto sdk = .ok m) :
    Rebuilds pyEq (fromProto m) button
      (∀ color, button.color = some color → color.HasFloatValue) := by
  obtain ⟨onClick, hclick, hm⟩ := Except.bind_eq_ok.mp hm
  obtain ⟨color, hcolor, hm⟩ := Except.bind_eq_ok.mp hm
  have hread := button.color_read hsdk hbutton hcolor
  obtain ⟨-, rfl⟩ := construct_eq_ok.mp hm
  have hlink : button.openLink = none := button.notBoth.resolve_left (by simp [haction])
  have hload : ((if button.loadIndicator then "SPINNER" else "NONE") == "SPINNER") =
      button.loadIndicator := by
    cases button.loadIndicator <;> rfl
  have hfunction : orNone function = some function :=
    if_neg fun h : function = "" => hbutton.action (h ▸ haction)
  simp only [onClickToProto, haction] at hclick
  cases hclick
  refine ⟨{ button with
    color := if color.isSome then some (colorToMapping (messageOf color)) else none }, ?_, ?_⟩
  · simp [fromProto, actionToProto, Message.hasField, Message.message, Message.text, Message.bool,
      Message.enumName, Message.messages, Message.texts, haction, hlink, hload, hfunction,
      parametersFromProto_toProto hbutton.parameters, enumOrNone_enumOf hbutton.interaction,
      buttonTypeName_enumOf hbutton.type, orNone_textOf hbutton.altText]
  · rw [← hread]
    simp [pyEq, sameDict_self hbutton.parameters]

/-- An open-link button comes back without what belongs to an action, and without its colour. -/
theorem Button.rebuilds_link {sdk : Sdk} {button : Button} (hbutton : button.Regular) {url : String}
    (haction : button.action = none) (hlink : button.openLink = some url) {m : Message}
    (hm : button.toProto sdk = .ok m) : Rebuilds pyEq (fromProto m) button button.Unadorned := by
  obtain ⟨onClick, hclick, hm⟩ := Except.bind_eq_ok.mp hm
  obtain ⟨color, -, hm⟩ := Except.bind_eq_ok.mp hm
  obtain ⟨-, rfl⟩ := construct_eq_ok.mp hm
  simp only [onClickToProto, haction, hlink] at hclick
  cases hclick
  refine ⟨{
    text := button.text, action := none, interaction := none, parameters := []
    openLink := button.openLink, color := none, type := button.type, disabled := button.disabled
    altText := button.altText, requiredWidgets := [], persistValues := false, loadIndicator := false
    notBoth := .inl rfl }, ?_, ?_⟩
  · simp [fromProto, Message.hasField, Message.message, Message.text, Message.bool, Message.enumName,
      hlink, buttonTypeName_enumOf hbutton.type, orNone_textOf hbutton.altText]
  · have hcolor : sameOption Color.pyEq none button.color = true ↔ button.color = none := by
      cases button.color <;> simp [sameOption]
    have hparameters : sameDict [] button.parameters = true ↔ button.parameters = [] := by
      cases button.parameters <;> simp [sameDict]
    constructor
    · intro heq
      simp only [pyEq, Bool.and_eq_true, beq_iff_eq, hcolor, hparameters] at heq
      obtain ⟨⟨⟨⟨⟨⟨⟨⟨⟨⟨⟨-, -⟩, hinteraction⟩, hparams⟩, -⟩, hnone⟩, -⟩, -⟩, -⟩, hwidgets⟩, hpersist⟩,
        hload⟩ := heq
      exact ⟨hnone, hinteraction.symm, hparams, hwidgets.symm, hpersist.symm, hload.symm⟩
    · intro hplain
      simp [pyEq, sameOption, sameDict, haction, hplain.color, hplain.interaction, hplain.parameters,
        hplain.requiredWidgets, hplain.persistValues, hplain.loadIndicator]

theorem Button.rebuilds {sdk : Sdk} (hsdk : sdk.Lawful) {button : Button} (hbutton : button.Regular)
    {m : Message} (hm : button.toProto sdk = .ok m) :
    Rebuilds pyEq (fromProto m) button button.Kept := by
  cases haction : button.action with
  | some function =>
    have hlink : button.openLink = none := button.notBoth.resolve_left (by simp [haction])
    obtain ⟨rebuilt, hread, hsame⟩ := rebuilds_action hsdk hbutton haction hm
    refine ⟨rebuilt, hread, hsame.trans ⟨fun h => ⟨fun hne => absurd hlink hne, fun _ => h⟩, ?_⟩⟩
    exact fun h => h.action hlink
  | none =>
    cases hlink : button.openLink with
    | some url =>
      obtain ⟨rebuilt, hread, hsame⟩ := rebuilds_link hbutton haction hlink hm
      have hne : button.openLink ≠ none := fun h => nomatch hlink.symm.trans h
      refine ⟨rebuilt, hread, hsame.trans ⟨fun h => ⟨fun _ => h, fun heq => absurd heq hne⟩, ?_⟩⟩
      exact fun h => h.link hne
    | none =>
      obtain ⟨onClick, hclick, -⟩ := Except.bind_eq_ok.mp hm
      simp only [onClickToProto, haction, hlink] at hclick
      cases hclick

/-! ## Text and selection inputs -/

theorem TextInputType.ofValue_value (type : TextInputType) : ofValue type.value = .ok type := by
  cases type <;> rfl

theorem TextInputType.value_ne_zero (type : TextInputType) : type.value ≠ inputTypeZero := by
  cases type <;> decide

theorem Validation.fromProto_toProto {sdk : Sdk} {validation : Validation} {m : Message}
    (hlimit : validation.characterLimit ≠ some 0) (hm : validation.toProto sdk = .ok m) :
    fromProto m = .ok (if validation = ⟨none, none⟩ then none else some validation) := by
  obtain ⟨-, rfl⟩ := construct_eq_ok.mp hm
  obtain ⟨limit, type⟩ := validation
  have hread := intOrNone_intOf hlimit
  cases type with
  | none =>
    have hunset : enumOf inputTypeZero none = inputTypeZero := rfl
    have hnone : enumOrNone inputTypeZero inputTypeZero = none := if_pos rfl
    cases limit with
    | none => simp [fromProto, Message.int, Message.enumName, hunset, intOf]
    | some n =>
      have hn : n ≠ 0 := fun h => hlimit (congrArg some h)
      rw [Option.bind_some, intOf_ofInt] at hread
      simp [fromProto, Message.int, Message.enumName, hunset, hnone, hn, hread]
  | some type =>
    have htype : enumOrNone inputTypeZero type.value = some type.value := if_neg type.value_ne_zero
    simp [fromProto, Message.int, Message.enumName, type.value_ne_zero, hread, htype,
      type.ofValue_value]

theorem filter_ne_eq_self {α : Type} [DecidableEq α] {o : Option α} {a : α} :
    o.filter (· ≠ a) = o ↔ o ≠ some a := by
  cases o with
  | none => exact iff_of_true rfl nofun
  | some b => by_cases hb : b = a <;> simp [hb]

theorem TextInput.rebuilds {sdk : Sdk} {widget : TextInput} (hwidget : widget.Regular) {m : Message}
    (hm : widget.toProto sdk = .ok m) :
    Rebuilds (· == ·) (fromProto m) widget (widget.validation ≠ some ⟨none, none⟩) := by
  obtain ⟨name, label, hintText, value, validation⟩ := widget
  obtain ⟨given, hgiven, hm⟩ := Except.bind_eq_ok.mp hm
  obtain ⟨-, rfl⟩ := construct_eq_ok.mp hm
  have hhint := orNone_textOf hwidget.hintText
  have hvalue := orNone_textOf hwidget.value
  have hvalidation : Validation.fromProto (messageOf given) =
      .ok (validation.filter (· ≠ ⟨none, none⟩)) := by
    obtain ⟨rfl, rfl⟩ | ⟨validation, message, rfl, hmessage, rfl⟩ := optional_eq_ok hgiven
    · rfl
    · rw [messageOf_ofMessage,
        Validation.fromProto_toProto (hwidget.characterLimit validation rfl) hmessage,
        Option.filter_some]
      by_cases hempty : validation = ⟨none, none⟩ <;> simp [hempty]
  refine ⟨⟨name, label, hintText, value, validation.filter (· ≠ ⟨none, none⟩)⟩, ?_, ?_⟩
  · simp [fromProto, Message.message, Message.text, hvalidation, hhint, hvalue]
  · rw [beq_iff_eq, TextInput.mk.injEq]
    simp only [true_and]
    exact filter_ne_eq_self

theorem sameDict_item {sdk : Sdk} {item : List (String × String)}
    (hitem : (item.map Prod.fst).Perm ["text", "value"]) {m : Message}
    (hm : sdk.construct "SelectionItem" (item.map fun entry => (entry.1, ofText entry.2)) = .ok m) :
    sameDict [("text", m.text "text"), ("value", m.text "value")] item = true := by
  obtain ⟨-, rfl⟩ := construct_eq_ok.mp hm
  have hnodup : (item.map Prod.fst).Nodup := hitem.nodup_iff.mpr (by decide)
  have hlength : item.length = 2 := by
    have hkeys := hitem.length_eq
    rwa [List.length_map] at hkeys
  have hfound (key : String) (hkey : key ∈ ["text", "value"]) :
      item.lookup key =
        some (Message.text (.build (item.map fun entry => (entry.1, ofText entry.2))) key) := by
    obtain ⟨⟨k, value⟩, hmem, rfl⟩ := List.mem_map.mp (hitem.mem_iff.mpr hkey)
    rw [Message.text, Message.lookup_build_map ofText hnodup, lookup_of_mem hnodup hmem,
      Option.bind_some, textOf_ofText]
  simp [sameDict, hlength, ← hfound]

theorem sameList_items {sdk : Sdk} {items : List (List (String × String))}
    (hitems : ∀ item ∈ items, (item.map Prod.fst).Perm ["text", "value"]) {messages : List Message}
    (hmessages : items.mapM (fun item => sdk.construct "SelectionItem"
      (item.map fun entry => (entry.1, ofText entry.2))) = .ok messages) :
    sameList sameDict
      (messages.map fun i => [("text", i.text "text"), ("value", i.text "value")]) items = true := by
  have hall := Except.mapM_eq_ok.mp hmessages
  clear hmessages
  induction hall with
  | nil => rfl
  | cons hm _ ih =>
    rw [List.map_cons, sameList, sameDict_item (hitems _ List.mem_cons_self) hm, Bool.true_and]
    exact ih fun item hmem => hitems item (List.mem_cons_of_mem _ hmem)

/-- The interaction of an external data source is dropped. -/
theorem sameOption_source {sdk : Sdk} {source : Option Action}
    (hregular : ∀ action, source = some action → action.Regular) {value : Option Value}
    (hvalue : optional (Action.toProto sdk) source = .ok value) :
    sameOption Action.pyEq (if value.isSome then some { Action.fromProto (messageOf value) with
      interaction := none } else none) source = true ↔
        ∀ action, source = some action → action.interaction = none := by
  obtain ⟨rfl, rfl⟩ | ⟨action, m, rfl, hm, rfl⟩ := optional_eq_ok hvalue
  · exact iff_of_true rfl nofun
  · have haction := hregular action rfl
    have hread : Action.fromProto m = action := Action.fromProto_toProto haction hm
    show Action.pyEq { Action.fromProto m with interaction := none } action = true ↔ _
    rw [hread]
    simp only [Action.pyEq, sameDict_self haction.parameters, beq_self_eq_true, Bool.true_and,
      beq_iff_eq]
    constructor
    · rintro h _ ⟨⟩
      exact h.symm
    · exact fun h => (h action rfl).symm

theorem SelectionInput.rebuilds {sdk : Sdk} {widget : SelectionInput} (hwidget : widget.Regular)
    {m : Message} (hm : widget.toProto sdk = .ok m) :
    Rebuilds pyEq (.ok (fromProto m)) widget
      (∀ action, widget.externalDataSource = some action → action.interaction = none) := by
  obtain ⟨items, hitems, hm⟩ := Except.bind_eq_ok.mp hm
  obtain ⟨source, hsource, hm⟩ := Except.bind_eq_ok.mp hm
  obtain ⟨-, rfl⟩ := construct_eq_ok.mp hm
  have hsame := sameList_items hwidget.items hitems
  have hkept := sameOption_source hwidget.source hsource
  refine ⟨_, rfl, ?_⟩
  rw [← hkept]
  simp [pyEq, fromProto, Action.fromProto, Message.hasField, Message.message, Message.text,
    Message.messages, Message.int, intOrNone_intOf hwidget.maxSelectedItems,
    intOrNone_intOf hwidget.minQueryLength]
  exact fun _ => hsame

/-! ## Images -/

theorem OnClick.fromProto_toProto {sdk : Sdk} {click : OnClick} (hclick : click.Regular)
    {m : Message} (hm : click.toProto sdk = .ok m) : fromProto m = some click := by
  cases click with
  | action clicked =>
    obtain ⟨inner, hinner, hm⟩ := Except.bind_eq_ok.mp hm
    cases hm
    simp [fromProto, Message.hasField, Message.message, Action.fromProto_toProto hclick hinner]
  | openLink link =>
    obtain ⟨inner, hinner, hm⟩ := Except.bind_eq_ok.mp hm
    cases hm
    simp [fromProto, Message.hasField, Message.message, OpenLink.fromProto_toProto hclick hinner]

theorem OnClick.pyEq_self {click : OnClick} (hclick : click.Regular) : click.pyEq click = true := by
  cases click with
  | action clicked => exact Action.pyEq_self hclick
  | openLink link =>
    have hnone : link.openAs = none := hclick
    simp [pyEq, OpenLink.pyEq, hnone, sameOption]

theorem OnClick.read_optional {sdk : Sdk} {click : Option OnClick}
    (hregular : ∀ c, click = some c → c.Regular) {value : Option Value}
    (hvalue : optional (OnClick.toProto sdk) click = .ok value) :
    fromProto (messageOf value) = click ∧ sameOption pyEq click click = true := by
  obtain ⟨rfl, rfl⟩ | ⟨click, m, rfl, hm, rfl⟩ := optional_eq_ok hvalue
  · exact ⟨rfl, rfl⟩
  · exact ⟨fromProto_toProto (hregular click rfl) hm, pyEq_self (hregular click rfl)⟩

theorem Image.rebuilds {sdk : Sdk} {image : Image} (himage : image.Regular sdk) {m : Message}
    (hm : image.toProto sdk = .ok m) :
    Rebuilds pyEq (ofUrl sdk (m.text "image_url") (orNone (m.text "alt_text"))
      (OnClick.fromProto (m.message "on_click"))) image True := by
  obtain ⟨source, altText, onClick⟩ := image
  obtain ⟨url, hurl, hhttps⟩ := himage.source
  cases hurl
  obtain ⟨click, hclick, hm⟩ := Except.bind_eq_ok.mp hm
  obtain ⟨-, rfl⟩ := construct_eq_ok.mp hm
  obtain ⟨hread, hself⟩ := OnClick.read_optional himage.onClick hclick
  have halt := orNone_textOf himage.altText
  refine ⟨⟨.url url, altText, onClick⟩, ?_, ?_⟩
  · simp [ofUrl, Message.text, Message.message, hhttps, halt, hread]
  · refine iff_of_true ?_ trivial
    simp [pyEq, hself]

/-! ## Widgets -/

theorem whichWidget_field (kind : Kind) (m : Message) :
    whichWidget [(kind.field, .message m)] = some kind := by
  cases kind <;> rfl

theorem message_field (kind : Kind) (m : Message) :
    Message.message [(kind.field, .message m)] kind.field = m := by
  cases kind <;> rfl

/-- **A typed widget** is read back equal exactly when nothing the reader drops is set. -/
theorem Widget.rebuilds {sdk : Sdk} (hsdk : sdk.Lawful) {widget : Widget} (hwidget : widget.Regular sdk)
    {m : Message} (hm : widget.toProto sdk = .ok m) :
    Rebuilds pyEq (fromProto sdk m) widget widget.Kept := by
  cases widget with
  | textParagraph w =>
    obtain ⟨inner, hinner, hm⟩ := Except.bind_eq_ok.mp hm
    cases hm
    obtain ⟨-, rfl⟩ := construct_eq_ok.mp hinner
    refine ⟨.textParagraph w, ?_, iff_of_true (beq_self_eq_true w) trivial⟩
    simp [fromProto, whichWidget_field, message_field, Message.text, Message.int,
      intOrNone_intOf hwidget]
  | divider =>
    obtain ⟨inner, -, hm⟩ := Except.bind_eq_ok.mp hm
    cases hm
    refine ⟨.divider, ?_, iff_of_true rfl trivial⟩
    simp only [fromProto, whichWidget_field]
  | buttonList w =>
    obtain ⟨inner, hinner, hm⟩ := Except.bind_eq_ok.mp hm
    cases hm
    obtain ⟨buttons, hbuttons, hinner⟩ := Except.bind_eq_ok.mp hinner
    obtain ⟨-, rfl⟩ := construct_eq_ok.mp hinner
    obtain ⟨rebuilt, hread, hsame⟩ := rebuilds_mapM hbuttons fun button hmem m hm =>
      Button.rebuilds hsdk (hwidget button hmem) hm
    refine ⟨.buttonList ⟨rebuilt⟩, ?_, hsame⟩
    simp [fromProto, whichWidget_field, message_field, Message.messages, hread]
  | textInput w =>
    obtain ⟨inner, hinner, hm⟩ := Except.bind_eq_ok.mp hm
    cases hm
    obtain ⟨rebuilt, hread, hsame⟩ := TextInput.rebuilds hwidget hinner
    refine ⟨.textInput rebuilt, ?_, hsame⟩
    simp [fromProto, whichWidget_field, message_field, hread]
  | selectionInput w =>
    obtain ⟨inner, hinner, hm⟩ := Except.bind_eq_ok.mp hm
    cases hm
    obtain ⟨rebuilt, hread, hsame⟩ := SelectionInput.rebuilds hwidget hinner
    cases hread
    refine ⟨.selectionInput (.fromProto inner), ?_, hsame⟩
    simp only [fromProto, whichWidget_field, message_field]
  | dateTimePicker w =>
    obtain ⟨inner, hinner, hm⟩ := Except.bind_eq_ok.mp hm
    cases hm
    obtain ⟨-, rfl⟩ := construct_eq_ok.mp hinner
    refine ⟨.dateTimePicker w, ?_, iff_of_true (beq_self_eq_true w) trivial⟩
    simp [fromProto, whichWidget_field, message_field, Message.text, Message.int,
      intOrNone_intOf64 hwidget.1, intOrNone_intOf hwidget.2]
  | image w =>
    obtain ⟨inner, hinner, hm⟩ := Except.bind_eq_ok.mp hm
    cases hm
    obtain ⟨rebuilt, hread, hsame⟩ := Image.rebuilds hwidget hinner
    refine ⟨.image rebuilt, ?_, hsame⟩
    simp [fromProto, whichWidget_field, message_field, hread]
  | raw w => cases hwidget

end Chattice.Cards
