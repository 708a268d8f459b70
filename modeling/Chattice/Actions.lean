import Chattice.Adapters.GoogleChat.Parser
import Chattice.Cards.Widgets
import Chattice.Data.Except
import Mathlib.Algebra.Group.Nat.Defs
import Mathlib.Data.List.Forall2
import Std.Data.String.ToInt

/-!
# `ActionData`

Typed action parameters: a dataclass whose fields are texts, numbers, booleans, members of Enum classes
or `None`, and its codec over the flat string parameters of a card action. An instance is the list of
its attributes in the order of the fields; the constructor of the dataclass is a parameter.

* `encodeValue` looks at the value, `decodeValue` at the declared type;
* `restored` : what the declared type reads from the text of a value;
* `Rebuilt` : the constructor gives the instance again from what is restored;
* `fromParameters_iff` : an instance is read back exactly when it is rebuilt;
* `rebuilt_iff` : under the generated constructor, exactly when every attribute survives.
-/

namespace Chattice.Actions

open GoogleChat (Stdlib)
open Python (Text)

/-- What the codec raises, and what a constructor raises of another class. -/
inductive Exc where
  | actionDataDecodeError (text : Text)
  | valueError (text : Text)
  | typeError (text : Text)
  | other (className text : String)
  deriving Repr

/-- A member of an Enum class. `valueText` is `str(member.value)`, which the class may set apart from
the number or the text that a mixin makes of the member; `shown` is `str(member)` where that is sent. -/
inductive Member where
  | plain (name valueText : String)
  | int (name valueText shown : String) (number : Int)
  | str (name valueText text : String)
  deriving DecidableEq, Repr

/-- `str(member.value)` -/
def Member.valueText : Member → String
  | .plain _ valueText => valueText
  | .int _ valueText _ _ => valueText
  | .str _ valueText _ => valueText

/-- The text that is sent for the member: its value's for a plain one, its own for a mixin. -/
def Member.sent : Member → String
  | .plain _ valueText => valueText
  | .int _ _ shown _ => shown
  | .str _ _ text => text

/-- An Enum class: its members in the order of the iteration, and its instances that the iteration
leaves out (the composites of a `Flag`). -/
structure EnumClass where
  name : String
  members : List Member
  composite : Member → Bool

def EnumClass.withValueText (cls : EnumClass) (raw : String) : Option Member :=
  cls.members.find? fun m => m.valueText = raw

inductive Value where
  | none
  | str (s : String)
  | int (n : Int)
  | bool (b : Bool)
  | member (m : Member)
  deriving DecidableEq, Repr

/-- What `==` compares: numbers, texts, or the objects themselves. -/
inductive Value.Compared where
  | none
  | number (n : Int)
  | text (s : String)
  | object (m : Member)
  deriving DecidableEq, Repr

def Value.compared : Value → Value.Compared
  | .none => .none
  | .str s => .text s
  | .int n => .number n
  | .bool b => .number (if b then 1 else 0)
  | .member (.int _ _ _ number) => .number number
  | .member (.str _ _ text) => .text text
  | .member (.plain name valueText) => .object (.plain name valueText)

/-- The type of a field that is no `Optional`. -/
inductive Scalar where
  | str | int | bool
  | enum (cls : EnumClass)

inductive FieldType where
  | required (scalar : Scalar)
  | optional (scalar : Scalar)

/-- `_unwrap_optional` -/
def FieldType.unwrapOptional : FieldType → Scalar
  | .required scalar => scalar
  | .optional scalar => scalar

/-- `isinstance`: a `bool` and a member with an `int` mixin are `int`s, a member with a `str` mixin is
a `str`. -/
def Scalar.Has : Scalar → Value → Prop
  | .str, .str _ => True
  | .str, .member (.str _ _ _) => True
  | .int, .int _ => True
  | .int, .bool _ => True
  | .int, .member (.int _ _ _ _) => True
  | .bool, .bool _ => True
  | .enum cls, .member m => m ∈ cls.members ∨ cls.composite m = true
  | _, _ => False

def FieldType.Has : FieldType → Value → Prop
  | .required scalar, value => scalar.Has value
  | .optional scalar, value => value = .none ∨ scalar.Has value

/-- A dataclass field; without a default, `default` is `none`. -/
structure Field where
  name : String
  type : FieldType
  default : Option Value

/-- An `ActionData` dataclass. Its constructor takes keywords, and gives the attributes in the order of
the fields or raises. -/
structure DataClass where
  name : String
  function : Option String
  fields : List Field
  nodup : (fields.map Field.name).Nodup
  init : List (String × Value) → Except Exc (List Value)

structure Instance (cls : DataClass) where
  values : List Value
  typed : List.Forall₂ (fun field value => field.type.Has value) cls.fields values

/-- The attributes that the constructor of `@dataclass` sets over the fields: every keyword names a
field, and a field without a default has a keyword. -/
def generatedInit (fields : List Field) (keywords : List (String × Value)) : Option (List Value) :=
  if ∀ keyword ∈ keywords, keyword.1 ∈ fields.map Field.name then
    fields.mapM fun field => (keywords.lookup field.name).or field.default
  else none

/-- The constructor is the one that `@dataclass` generates, with all the fields and nothing after them
(no `__post_init__`, no `field(init=False)`). -/
def DataClass.Generated (cls : DataClass) : Prop :=
  ∀ keywords values, cls.init keywords = .ok values ↔ generatedInit cls.fields keywords = some values

/-! ## The codec -/

/-- `str(n)`, which raises beyond 4300 digits. -/
def strOfInt (n : Int) : Except Exc String :=
  if n.natAbs < 10 ^ 4300 then .ok (toString n)
  else .error (.valueError [.text "Exceeds the limit (4300 digits) for integer string conversion"])

/-- `_encode_value` -/
def encodeValue : Value → Except Exc String
  | .bool b => .ok (if b then "true" else "false")
  | .str s => .ok s
  | .member (.str _ _ text) => .ok text
  | .int n => strOfInt n
  | .member (.int _ _ shown _) => .ok shown
  | .member (.plain _ valueText) => .ok valueText
  | .none => .error (.typeError
      [.text "ActionData field values must be str/int/float/bool/Enum, got NoneType"])

/-- `_decode_value` -/
def decodeValue (lib : Stdlib) (raw : String) : Scalar → Except Exc Value
  | .str => .ok (.str raw)
  | .int =>
    match lib.int raw with
    | some n => .ok (.int n)
    | none => .error (.actionDataDecodeError
        [.text "cannot decode ", .repr (.str raw), .text " as int"])
  | .bool =>
    if raw = "true" then .ok (.bool true)
    else if raw = "false" then .ok (.bool false)
    else .error (.actionDataDecodeError
      [.text "cannot decode ", .repr (.str raw), .text " as bool (expected 'true'/'false')"])
  | .enum cls =>
    match cls.withValueText raw with
    | some m => .ok (.member m)
    | none => .error (.actionDataDecodeError
        [.text "cannot decode ", .repr (.str raw), .text (" as " ++ cls.name)])

/-- The parameters of the attributes that are not `None`. -/
def encodeFields : List Field → List Value → Except Exc (List (String × String))
  | field :: fields, value :: values =>
    if value = .none then encodeFields fields values
    else do
      let text ← encodeValue value
      return (field.name, text) :: (← encodeFields fields values)
  | _, _ => .ok []

/-- `to_parameters` -/
def toParameters {cls : DataClass} (data : Instance cls) : Except Exc (List (String × String)) :=
  encodeFields cls.fields data.values

/-- The keywords that the loop of `from_parameters` collects. -/
def decodeFields (lib : Stdlib) (className : String) (parameters : List (String × String)) :
    List Field → Except Exc (List (String × Value))
  | [] => .ok []
  | field :: fields =>
    match parameters.lookup field.name with
    | none =>
      match field.default with
      | none => .error (.actionDataDecodeError [.text "missing required parameter ",
          .repr (.str field.name), .text (" for " ++ className)])
      | some _ => decodeFields lib className parameters fields
    | some raw => do
      let value ← decodeValue lib raw field.type.unwrapOptional
      return (field.name, value) :: (← decodeFields lib className parameters fields)

/-- `from_parameters`: the attributes of the instance. -/
def fromParameters (lib : Stdlib) (cls : DataClass) (parameters : List (String × String)) :
    Except Exc (List Value) := do
  let values ← decodeFields lib cls.name parameters cls.fields
  cls.init values

/-- `Button(text, action=data)` -/
def dataButton {cls : DataClass} (text : String) (data : Instance cls) : Except Exc Cards.Button :=
  match cls.function with
  | none => .error (.valueError [.text ("Button ActionData requires a Google action function; " ++
      "declare the model as class Deploy(ActionData, function='deploy')")])
  | some function => do
    let parameters ← toParameters data
    return {
      text, action := some function, interaction := none, parameters, openLink := none
      color := none, type := none, disabled := false, altText := none, requiredWidgets := []
      persistValues := false, loadIndicator := false, notBoth := .inr rfl }

/-! ## What is restored -/

/-- What the declared type reads from the text that is sent for a value, where it reads anything: a
plain text or number, or the first member whose value has the text. -/
def restored (lib : Stdlib) : Scalar → Value → Option Value
  | .str, .str s => some (.str s)
  | .str, .member m => some (.str m.sent)
  | .int, .int n => some (.int n)
  | .int, .member m => (lib.int m.sent).map .int
  | .bool, .bool b => some (.bool b)
  | .enum cls, .member m => (cls.withValueText m.sent).map .member
  | _, _ => none

/-- What the value must be for the declared type to read it back: no `bool` where an `int` is declared,
a member with an `int` mixin there only if it is shown as a text that `int` reads as its number, and
where an Enum class is declared, a member equal to the one whose value has the text that is sent. -/
def Survives (lib : Stdlib) : Scalar → Value → Prop
  | .int, .bool _ => False
  | .int, .member (.int _ _ shown number) => lib.int shown = some number
  | .enum cls, .member m =>
    ∃ found ∈ cls.members, found.valueText = m.sent ∧
      (Value.member found).compared = (Value.member m).compared
  | _, _ => True

def Scalar.Distinct : Scalar → Prop
  | .enum cls => (cls.members.map Member.valueText).Nodup
  | _ => True

/-- `int(text)` undoes `str(n)`, and raises for what is no numeral. -/
structure ReadsInts (lib : Stdlib) : Prop where
  numeral : ∀ n : Int, n.natAbs < 10 ^ 4300 → lib.int (toString n) = some n
  boolean : lib.int "true" = none ∧ lib.int "false" = none

variable {lib : Stdlib}

theorem withValueText_eq_some {cls : EnumClass} (hdistinct : (cls.members.map Member.valueText).Nodup)
    {raw : String} {m : Member} :
    cls.withValueText raw = some m ↔ m ∈ cls.members ∧ m.valueText = raw := by
  unfold EnumClass.withValueText
  generalize cls.members = members at hdistinct
  induction members with
  | nil => simp
  | cons first members ih =>
    rw [List.map_cons, List.nodup_cons] at hdistinct
    rw [List.find?_cons, List.mem_cons]
    by_cases hfirst : first.valueText = raw
    · have hother : ¬ (m ∈ members ∧ m.valueText = raw) := fun hm =>
        hdistinct.1 (List.mem_map.mpr ⟨m, hm.1, hm.2.trans hfirst.symm⟩)
      simp only [hfirst, decide_true, Option.some_inj]
      constructor
      · rintro rfl
        exact ⟨.inl rfl, hfirst⟩
      · rintro ⟨rfl | htail, htext⟩
        · rfl
        · exact absurd ⟨htail, htext⟩ hother
    · simp only [hfirst, decide_false, ih hdistinct.2]
      constructor
      · exact fun hm => ⟨.inr hm.1, hm.2⟩
      · rintro ⟨rfl | htail, htext⟩
        · exact absurd htext hfirst
        · exact ⟨htail, htext⟩

theorem decodeValue_int {raw : String} {value : Value} :
    decodeValue lib raw .int = .ok value ↔ (lib.int raw).map .int = some value := by
  simp only [decodeValue]
  cases lib.int raw with
  | none => simp
  | some n => simp

theorem decodeValue_enum {cls : EnumClass} {raw : String} {value : Value} :
    decodeValue lib raw (.enum cls) = .ok value ↔
      (cls.withValueText raw).map .member = some value := by
  simp only [decodeValue]
  cases cls.withValueText raw with
  | none => simp
  | some m => simp

theorem encodeValue_member (m : Member) : encodeValue (.member m) = .ok m.sent := by
  cases m <;> rfl

theorem encodeValue_int {n : Int} {raw : String} (h : encodeValue (.int n) = .ok raw) :
    n.natAbs < 10 ^ 4300 ∧ toString n = raw := by
  rw [encodeValue, strOfInt] at h
  split at h
  · next hdigits => exact ⟨hdigits, Except.ok.inj h⟩
  · cases h

/-! ### What a type has -/

theorem Scalar.has_str : {value : Value} → Scalar.str.Has value →
    (∃ s, value = .str s) ∨ ∃ name valueText text, value = .member (.str name valueText text)
  | .str s, _ => .inl ⟨s, rfl⟩
  | .member (.str name valueText text), _ => .inr ⟨name, valueText, text, rfl⟩

theorem Scalar.has_int : {value : Value} → Scalar.int.Has value →
    (∃ n, value = .int n) ∨ (∃ b, value = .bool b) ∨
      ∃ name valueText shown number, value = .member (.int name valueText shown number)
  | .int n, _ => .inl ⟨n, rfl⟩
  | .bool b, _ => .inr (.inl ⟨b, rfl⟩)
  | .member (.int name valueText shown number), _ =>
    .inr (.inr ⟨name, valueText, shown, number, rfl⟩)

theorem Scalar.has_bool : {value : Value} → Scalar.bool.Has value → ∃ b, value = .bool b
  | .bool b, _ => ⟨b, rfl⟩

theorem Scalar.has_enum {cls : EnumClass} : {value : Value} → (Scalar.enum cls).Has value →
    ∃ m, value = .member m
  | .member m, _ => ⟨m, rfl⟩

/-! ### One attribute -/

theorem decodeValue_int_iff {value decoded : Value} {raw : String} (hints : ReadsInts lib)
    (htyped : Scalar.int.Has value) (hencode : encodeValue value = .ok raw) :
    decodeValue lib raw .int = .ok decoded ↔ restored lib .int value = some decoded := by
  rw [decodeValue_int]
  rcases Scalar.has_int htyped with ⟨n, rfl⟩ | ⟨b, rfl⟩ | ⟨name, valueText, shown, number, rfl⟩
  · obtain ⟨hdigits, rfl⟩ := encodeValue_int hencode
    rw [hints.numeral n hdigits]
    rfl
  · -- `int` reads neither of the two texts of a `bool`
    have hnone : lib.int raw = none := by
      rw [← Except.ok.inj hencode]
      cases b
      · exact hints.boolean.2
      · exact hints.boolean.1
    rw [hnone]
    rfl
  · rw [← Except.ok.inj hencode]
    rfl

/-- The text of a value of the type is read as what is restored of it. -/
theorem decodeValue_iff {scalar : Scalar} {value decoded : Value} {raw : String} (hints : ReadsInts lib)
    (htyped : scalar.Has value) (hencode : encodeValue value = .ok raw) :
    decodeValue lib raw scalar = .ok decoded ↔ restored lib scalar value = some decoded := by
  cases scalar with
  | int => exact decodeValue_int_iff hints htyped hencode
  | str =>
    rcases Scalar.has_str htyped with ⟨s, rfl⟩ | ⟨name, valueText, text, rfl⟩
    · rw [← Except.ok.inj hencode]
      simp [decodeValue, restored]
    · rw [← Except.ok.inj hencode]
      simp [decodeValue, restored, Member.sent]
  | bool =>
    obtain ⟨b, rfl⟩ := Scalar.has_bool htyped
    rw [← Except.ok.inj hencode]
    cases b <;> simp [decodeValue, restored]
  | enum cls =>
    obtain ⟨m, rfl⟩ := Scalar.has_enum htyped
    rw [encodeValue_member] at hencode
    rw [← Except.ok.inj hencode, decodeValue_enum]
    rfl

theorem survives_member_iff {cls : EnumClass} {m : Member}
    (hdistinct : (cls.members.map Member.valueText).Nodup) :
    Survives lib (.enum cls) (.member m) ↔
      ∃ r, restored lib (.enum cls) (.member m) = some r ∧
        r.compared = (Value.member m).compared := by
  simp only [Survives, restored, Option.map_eq_some_iff, withValueText_eq_some hdistinct]
  constructor
  · rintro ⟨found, hmem, htext, hsame⟩
    exact ⟨_, ⟨found, ⟨hmem, htext⟩, rfl⟩, hsame⟩
  · rintro ⟨_, ⟨found, ⟨hmem, htext⟩, rfl⟩, hsame⟩
    exact ⟨found, hmem, htext, hsame⟩

/-- A value survives when what is restored of it is equal to it. -/
theorem survives_iff {scalar : Scalar} {value : Value} (htyped : scalar.Has value)
    (hdistinct : scalar.Distinct) :
    Survives lib scalar value ↔
      ∃ r, restored lib scalar value = some r ∧ r.compared = value.compared := by
  cases scalar with
  | str =>
    rcases Scalar.has_str htyped with ⟨s, rfl⟩ | ⟨name, valueText, text, rfl⟩
    · exact iff_of_true trivial ⟨_, rfl, rfl⟩
    · exact iff_of_true trivial ⟨_, rfl, rfl⟩
  | int =>
    rcases Scalar.has_int htyped with ⟨n, rfl⟩ | ⟨b, rfl⟩ | ⟨name, valueText, shown, number, rfl⟩
    · exact iff_of_true trivial ⟨_, rfl, rfl⟩
    · exact iff_of_false id nofun
    · cases hint : lib.int shown <;> simp [Survives, restored, Member.sent, Value.compared, hint]
  | bool =>
    obtain ⟨b, rfl⟩ := Scalar.has_bool htyped
    exact iff_of_true trivial ⟨_, rfl, rfl⟩
  | enum cls =>
    obtain ⟨m, rfl⟩ := Scalar.has_enum htyped
    exact survives_member_iff hdistinct

/-! ## All attributes -/

/-- The entries of the attributes other than `None`, each under the name of its field. -/
inductive Entries {α : Type} (R : Field → Value → α → Prop) :
    List Field → List Value → List (String × α) → Prop
  | nil : Entries R [] [] []
  | skip {field : Field} {fields : List Field} {values : List Value} {entries : List (String × α)}
      (rest : Entries R fields values entries) : Entries R (field :: fields) (.none :: values) entries
  | entry {field : Field} {fields : List Field} {value : Value} {values : List Value} {a : α}
      {entries : List (String × α)} (some : value ≠ .none) (first : R field value a)
      (rest : Entries R fields values entries) :
      Entries R (field :: fields) (value :: values) ((field.name, a) :: entries)

/-- The entry of a field, `none` where its attribute is left out. -/
def Entry {α : Type} (R : Field → Value → α → Prop) (entries : List (String × α)) (field : Field)
    (value : Value) : Prop :=
  if value = .none then entries.lookup field.name = none
  else ∃ a, entries.lookup field.name = some a ∧ R field value a

section Entries

variable {α : Type} {R : Field → Value → α → Prop} {fields : List Field} {values : List Value}
  {entries : List (String × α)}

theorem lookup_cons_of_ne {name name' : String} {a : α} (h : name ≠ name') :
    ((name', a) :: entries).lookup name = entries.lookup name := by
  rw [List.lookup_cons, beq_eq_false_iff_ne.mpr h]

theorem Entries.names (h : Entries R fields values entries) :
    ∀ entry ∈ entries, entry.1 ∈ fields.map Field.name := by
  induction h with
  | nil => exact nofun
  | skip _ ih => exact fun entry hentry => List.mem_cons_of_mem _ (ih entry hentry)
  | entry _ _ _ ih =>
    intro entry hentry
    rcases List.mem_cons.mp hentry with rfl | htail
    · exact List.mem_cons_self
    · exact List.mem_cons_of_mem _ (ih entry htail)

/-- Every field finds its own entry, and no other name finds one. -/
theorem Entries.lookup (h : Entries R fields values entries) (hnodup : (fields.map Field.name).Nodup) :
    (∀ name, name ∉ fields.map Field.name → entries.lookup name = none) ∧
      List.Forall₂ (Entry R entries) fields values := by
  induction h with
  | nil => exact ⟨fun _ _ => rfl, .nil⟩
  | skip _ ih =>
    rw [List.map_cons, List.nodup_cons] at hnodup
    obtain ⟨habsent, hrest⟩ := ih hnodup.2
    refine ⟨fun name hname => habsent name fun hmem => hname (List.mem_cons_of_mem _ hmem), .cons ?_ hrest⟩
    rw [Entry, if_pos rfl]
    exact habsent _ hnodup.1
  | @entry field fields value values a entries hsome hfirst _ ih =>
    rw [List.map_cons, List.nodup_cons] at hnodup
    obtain ⟨habsent, hrest⟩ := ih hnodup.2
    refine ⟨fun name hname => ?_, .cons ?_ ?_⟩
    · rw [List.map_cons, List.mem_cons, not_or] at hname
      rw [lookup_cons_of_ne hname.1]
      exact habsent name hname.2
    · rw [Entry, if_neg hsome]
      exact ⟨a, List.lookup_cons_self, hfirst⟩
    · -- the other names are found behind the first
      have hnames : ∀ other ∈ fields, other.name ≠ field.name := fun other hother heq =>
        hnodup.1 (heq ▸ List.mem_map_of_mem hother)
      refine ((List.forall₂_and_left _ _).mpr ⟨hnames, hrest⟩).imp ?_
      rintro other value ⟨hother, hentry⟩
      rwa [Entry, lookup_cons_of_ne hother]

theorem exists_entries (h : List.Forall₂ (fun field value => value = .none ∨ ∃ a, R field value a)
    fields values) : ∃ entries, Entries R fields values entries := by
  induction h with
  | nil => exact ⟨[], .nil⟩
  | @cons field value fields values hfield _ ih =>
    obtain ⟨entries, hrest⟩ := ih
    by_cases hnone : value = .none
    · subst hnone
      exact ⟨entries, .skip hrest⟩
    · obtain ⟨a, ha⟩ := hfield.resolve_left hnone
      exact ⟨_, .entry hnone ha hrest⟩

end Entries

theorem entries_encodeFields {fields : List Field} {values : List Value} {R : Field → Value → Prop}
    (htyped : List.Forall₂ R fields values) {parameters : List (String × String)}
    (h : encodeFields fields values = .ok parameters) :
    Entries (fun _ value raw => encodeValue value = .ok raw) fields values parameters := by
  induction htyped generalizing parameters with
  | nil =>
    rw [← Except.ok.inj h]
    exact .nil
  | @cons field value fields values _ _ ih =>
    rw [encodeFields] at h
    by_cases hnone : value = .none
    · subst hnone
      exact .skip (ih h)
    · rw [if_neg hnone] at h
      obtain ⟨text, htext, h⟩ := Except.bind_eq_ok.mp h
      obtain ⟨rest, hencode, h⟩ := Except.bind_eq_ok.mp h
      rw [← Except.pure_eq_ok.mp h]
      exact .entry hnone htext (ih hencode)

/-- What a field asks of a well-typed value: `None` is its default, and the members of its Enum class
have different texts. -/
structure Admits (field : Field) (value : Value) : Prop where
  typed : field.type.Has value
  absent : value = .none → field.default = some .none
  distinct : field.type.unwrapOptional.Distinct

theorem has_unwrapOptional {type : FieldType} {value : Value} (h : type.Has value)
    (hsome : value ≠ .none) : type.unwrapOptional.Has value := by
  cases type with
  | required scalar => exact h
  | optional scalar => exact h.resolve_left hsome

theorem survives_none (scalar : Scalar) : Survives lib scalar .none := by
  cases scalar <;> exact trivial

/-- The keywords of the attributes other than `None`, as their declared types read them. -/
def Keywords (lib : Stdlib) : List Field → List Value → List (String × Value) → Prop :=
  Entries fun field value r => restored lib field.type.unwrapOptional value = some r

/-- The loop collects the keywords of what is restored. -/
theorem decodeFields_iff (hints : ReadsInts lib) {className : String} {fields : List Field}
    {values : List Value} {received : List (String × String)} {keywords : List (String × Value)}
    (hadmits : List.Forall₂ Admits fields values)
    (hsent : List.Forall₂ (Entry (fun _ value raw => encodeValue value = .ok raw) received)
      fields values) :
    decodeFields lib className received fields = .ok keywords ↔
      Keywords lib fields values keywords := by
  induction hadmits generalizing keywords with
  | nil =>
    constructor
    · intro h
      rw [← Except.ok.inj h]
      exact .nil
    · intro h
      cases h
      rfl
  | @cons field value fields values hfield _ ih =>
    obtain ⟨hentry, hrests⟩ := List.forall₂_cons.mp hsent
    rw [decodeFields]
    by_cases hnone : value = .none
    · subst hnone
      rw [Entry, if_pos rfl] at hentry
      rw [hentry, hfield.absent rfl]
      refine (ih hrests).trans ⟨.skip, fun h => ?_⟩
      cases h with
      | skip hrest => exact hrest
      | entry hsome => exact absurd rfl hsome
    · rw [Entry, if_neg hnone] at hentry
      obtain ⟨raw, hraw, hencode⟩ := hentry
      have hdecode (decoded : Value) : decodeValue lib raw field.type.unwrapOptional = .ok decoded ↔
          restored lib field.type.unwrapOptional value = some decoded :=
        decodeValue_iff hints (has_unwrapOptional hfield.typed hnone) hencode
      rw [hraw]
      constructor
      · intro h
        obtain ⟨decoded, hdecoded, h⟩ := Except.bind_eq_ok.mp h
        obtain ⟨rest, hrest, h⟩ := Except.bind_eq_ok.mp h
        rw [← Except.pure_eq_ok.mp h]
        exact .entry hnone ((hdecode decoded).mp hdecoded) ((ih hrests).mp hrest)
      · intro h
        cases h with
        | skip => exact absurd rfl hnone
        | @entry _ _ _ _ decoded rest _ hfirst hrest =>
          exact Except.bind_eq_ok.mpr ⟨decoded, (hdecode decoded).mpr hfirst,
            Except.bind_eq_ok.mpr ⟨rest, (ih hrests).mpr hrest, rfl⟩⟩

def ReadsBack (lib : Stdlib) {cls : DataClass} (parameters : List (String × String))
    (data : Instance cls) : Prop :=
  ∃ values, fromParameters lib cls parameters = .ok values ∧
    values.map Value.compared = data.values.map Value.compared

/-- The constructor gives the instance again from its attributes other than `None`, as their declared
types read them. -/
def Rebuilt (lib : Stdlib) {cls : DataClass} (data : Instance cls) : Prop :=
  ∃ keywords values, Keywords lib cls.fields data.values keywords ∧ cls.init keywords = .ok values ∧
    values.map Value.compared = data.values.map Value.compared

/-- An instance is read back, from its own parameters among any others, exactly when it is rebuilt. -/
theorem fromParameters_iff (hints : ReadsInts lib) {cls : DataClass} {data : Instance cls}
    (hadmits : List.Forall₂ Admits cls.fields data.values)
    {parameters received : List (String × String)} (hencode : toParameters data = .ok parameters)
    (hreceived : ∀ name ∈ cls.fields.map Field.name,
      received.lookup name = parameters.lookup name) :
    ReadsBack lib received data ↔ Rebuilt lib data := by
  obtain ⟨-, hsent⟩ := (entries_encodeFields data.typed hencode).lookup cls.nodup
  have hnames : ∀ field ∈ cls.fields, received.lookup field.name = parameters.lookup field.name :=
    fun field hfield => hreceived _ (List.mem_map_of_mem hfield)
  have hwire := ((List.forall₂_and_left _ _).mpr ⟨hnames, hsent⟩).imp
    (S := Entry (fun _ value raw => encodeValue value = .ok raw) received)
    fun field value ⟨hname, hentry⟩ => by rwa [Entry, hname]
  unfold ReadsBack Rebuilt fromParameters
  constructor
  · rintro ⟨values, h, hsame⟩
    obtain ⟨keywords, hkeywords, hinit⟩ := Except.bind_eq_ok.mp h
    exact ⟨keywords, values, (decodeFields_iff hints hadmits hwire).mp hkeywords, hinit, hsame⟩
  · rintro ⟨keywords, values, hkeywords, hinit, hsame⟩
    have hdecoded : decodeFields lib cls.name received cls.fields = .ok keywords :=
      (decodeFields_iff hints hadmits hwire).mpr hkeywords
    exact ⟨values, Except.bind_eq_ok.mpr ⟨keywords, hdecoded, hinit⟩, hsame⟩

/-! ## The generated constructor -/

theorem forall₂_and {α β : Type} {R S : α → β → Prop} {as : List α} {bs : List β}
    (h : List.Forall₂ R as bs) (h' : List.Forall₂ S as bs) :
    List.Forall₂ (fun a b => R a b ∧ S a b) as bs := by
  induction h with
  | nil => exact .nil
  | cons hhead _ ih =>
    cases h' with
    | cons hhead' htail' => exact .cons ⟨hhead, hhead'⟩ (ih htail')

theorem forall₂_congr {α β : Type} {R S : α → β → Prop} {as : List α} {bs : List β}
    (h : List.Forall₂ (fun a b => R a b ↔ S a b) as bs) :
    List.Forall₂ R as bs ↔ List.Forall₂ S as bs := by
  induction h with
  | nil => exact iff_of_true .nil .nil
  | cons hhead _ ih => rw [List.forall₂_cons, List.forall₂_cons, hhead, ih]

theorem mapM_compared_iff {f : Field → Option Value} {fields : List Field} {values : List Value} :
    (∃ out, fields.mapM f = some out ∧ out.map Value.compared = values.map Value.compared) ↔
      List.Forall₂ (fun field value => ∃ r, f field = some r ∧ r.compared = value.compared)
        fields values := by
  induction fields generalizing values with
  | nil => simp [eq_comm]
  | cons field fields ih =>
    rw [List.forall₂_cons_left_iff]
    constructor
    · rintro ⟨out, hout, hsame⟩
      rw [List.mapM_cons] at hout
      obtain ⟨first, hfirst, hout⟩ := Option.bind_eq_some_iff.mp hout
      obtain ⟨rest, hrest, hout⟩ := Option.bind_eq_some_iff.mp hout
      rw [← Option.some_inj.mp hout, List.map_cons] at hsame
      obtain ⟨value, values, rfl, hvalue, hvalues⟩ := List.map_eq_cons_iff.mp hsame.symm
      exact ⟨value, values, ⟨first, hfirst, hvalue.symm⟩, ih.mp ⟨rest, hrest, hvalues.symm⟩, rfl⟩
    · rintro ⟨value, values, ⟨first, hfirst, hvalue⟩, hvalues, rfl⟩
      obtain ⟨rest, hrest, hsame⟩ := ih.mpr hvalues
      refine ⟨first :: rest, ?_, by rw [List.map_cons, List.map_cons, hvalue, hsame]⟩
      rw [List.mapM_cons, hfirst, Option.bind_eq_bind, Option.bind_some, hrest]
      rfl

theorem assigned_iff {field : Field} {value : Value} {keywords : List (String × Value)}
    (hadmits : Admits field value)
    (hentry : Entry (fun field value r => restored lib field.type.unwrapOptional value = some r)
      keywords field value) :
    (∃ r, (keywords.lookup field.name).or field.default = some r ∧ r.compared = value.compared) ↔
      Survives lib field.type.unwrapOptional value := by
  by_cases hnone : value = .none
  · subst hnone
    rw [Entry, if_pos rfl] at hentry
    rw [hentry, hadmits.absent rfl]
    exact iff_of_true ⟨.none, rfl, rfl⟩ (survives_none _)
  · rw [Entry, if_neg hnone] at hentry
    obtain ⟨r, hlookup, hrestored⟩ := hentry
    rw [survives_iff (has_unwrapOptional hadmits.typed hnone) hadmits.distinct, hlookup, hrestored,
      Option.some_or]

/-- Under the generated constructor an instance is rebuilt exactly when every attribute survives. -/
theorem rebuilt_iff {cls : DataClass} (hgenerated : cls.Generated) {data : Instance cls}
    (hadmits : List.Forall₂ Admits cls.fields data.values) :
    Rebuilt lib data ↔
      List.Forall₂ (fun field value => Survives lib field.type.unwrapOptional value)
        cls.fields data.values := by
  have hassigned {keywords : List (String × Value)}
      (hkeywords : Keywords lib cls.fields data.values keywords) :
      (∃ values, cls.init keywords = .ok values ∧
          values.map Value.compared = data.values.map Value.compared) ↔
        List.Forall₂ (fun field value => Survives lib field.type.unwrapOptional value)
          cls.fields data.values := by
    obtain ⟨-, hentries⟩ := Entries.lookup hkeywords cls.nodup
    simp only [hgenerated keywords, generatedInit, if_pos (Entries.names hkeywords), mapM_compared_iff]
    have hfields := (forall₂_and hadmits hentries).imp fun _ _ h => assigned_iff h.1 h.2
    exact forall₂_congr hfields
  constructor
  · rintro ⟨keywords, values, hkeywords, hinit, hsame⟩
    exact (hassigned hkeywords).mp ⟨values, hinit, hsame⟩
  · intro hsurvives
    obtain ⟨keywords, hkeywords⟩ : ∃ keywords, Keywords lib cls.fields data.values keywords := by
      refine exists_entries ((forall₂_and hadmits hsurvives).imp ?_)
      rintro field value ⟨hfield, hvalue⟩
      refine or_iff_not_imp_left.mpr fun hsome => ?_
      obtain ⟨r, hr, -⟩ :=
        (survives_iff (has_unwrapOptional hfield.typed hsome) hfield.distinct).mp hvalue
      exact ⟨r, hr⟩
    obtain ⟨values, hinit, hsame⟩ := (hassigned hkeywords).mpr hsurvives
    exact ⟨keywords, values, hkeywords, hinit, hsame⟩

end Chattice.Actions
