import Chattice.Json

/-!
# Protobuf messages

A message holds the fields that are set, each under its name; a scalar field with its default value,
the first enumerator and an empty list are unset. In JSON every set field has the lowerCamelCase form
of its name for a key.

* `Message.build` : the message of a constructor call;
* `Message.text`, `Message.int`, … : reading a field, the default where it is unset;
* `Message.toDict` : the JSON mapping;
* `hasKey_toJson` : the keys anywhere in the JSON are the JSON names of the fields set anywhere.
-/

namespace Chattice.Protobuf

inductive Scalar where
  | text (s : String)
  | bool (b : Bool)
  | int (n : Int)
  | int64 (n : Int)
  | float (q : Rat)
  /-- A `google.protobuf.FloatValue`: a message of its own, whose JSON is the number. -/
  | floatValue (q : Rat)
  | enumerator (name : String)
  deriving DecidableEq, Repr

inductive Value where
  | scalar (s : Scalar)
  | message (fields : List (String × Value))
  | repeated (items : List Value)

abbrev Message := List (String × Value)

/-! ## The values of a constructor call -/

def ofText (s : String) : Option Value := if s = "" then none else some (.scalar (.text s))

def ofBool (b : Bool) : Option Value := if b then some (.scalar (.bool true)) else none

def ofInt (n : Int) : Option Value := if n = 0 then none else some (.scalar (.int n))

def ofInt64 (n : Int) : Option Value := if n = 0 then none else some (.scalar (.int64 n))

def ofFloat (q : Rat) : Option Value := if q = 0 then none else some (.scalar (.float q))

/-- A `FloatValue` that is given is set, whatever its number. -/
def ofFloatValue (q : Rat) : Option Value := some (.scalar (.floatValue q))

/-- An enumerator; `zero` is the one with the number 0. -/
def ofEnum (zero name : String) : Option Value :=
  if name = zero then none else some (.scalar (.enumerator name))

/-- A message that is given is set, whatever it holds. -/
def ofMessage (m : Message) : Option Value := some (.message m)

def ofTexts (texts : List String) : Option Value :=
  if texts = [] then none else some (.repeated (texts.map fun s => .scalar (.text s)))

def ofMessages (messages : List Message) : Option Value :=
  if messages = [] then none else some (.repeated (messages.map .message))

/-! ## Reading a field -/

def textOf : Option Value → String
  | some (.scalar (.text s)) => s
  | _ => ""

def boolOf : Option Value → Bool
  | some (.scalar (.bool b)) => b
  | _ => false

def intOf : Option Value → Int
  | some (.scalar (.int n)) => n
  | some (.scalar (.int64 n)) => n
  | _ => 0

def floatOf : Option Value → Rat
  | some (.scalar (.float q)) => q
  | _ => 0

/-- The number of a `FloatValue`. -/
def floatValueOf : Option Value → Rat
  | some (.scalar (.floatValue q)) => q
  | _ => 0

def enumOf (zero : String) : Option Value → String
  | some (.scalar (.enumerator name)) => name
  | _ => zero

/-- An unset message reads as an empty one. -/
def messageOf : Option Value → Message
  | some (.message m) => m
  | _ => []

def itemsOf : Option Value → List Value
  | some (.repeated items) => items
  | _ => []

def textsOf (v : Option Value) : List String := (itemsOf v).map fun item => textOf (some item)

def messagesOf (v : Option Value) : List Message := (itemsOf v).map fun item => messageOf (some item)

@[simp]
theorem textOf_ofText (s : String) : textOf (ofText s) = s := by
  by_cases hs : s = ""
  · rw [ofText, if_pos hs, hs]
    rfl
  · rw [ofText, if_neg hs]
    rfl

@[simp]
theorem boolOf_ofBool (b : Bool) : boolOf (ofBool b) = b := by
  cases b <;> rfl

@[simp]
theorem intOf_ofInt (n : Int) : intOf (ofInt n) = n := by
  by_cases hn : n = 0
  · rw [ofInt, if_pos hn, hn]
    rfl
  · rw [ofInt, if_neg hn]
    rfl

@[simp]
theorem intOf_ofInt64 (n : Int) : intOf (ofInt64 n) = n := by
  by_cases hn : n = 0
  · rw [ofInt64, if_pos hn, hn]
    rfl
  · rw [ofInt64, if_neg hn]
    rfl

@[simp]
theorem floatOf_ofFloat (q : Rat) : floatOf (ofFloat q) = q := by
  by_cases hq : q = 0
  · rw [ofFloat, if_pos hq, hq]
    rfl
  · rw [ofFloat, if_neg hq]
    rfl

@[simp]
theorem enumOf_ofEnum (zero name : String) : enumOf zero (ofEnum zero name) = name := by
  by_cases hname : name = zero
  · rw [ofEnum, if_pos hname, hname]
    rfl
  · rw [ofEnum, if_neg hname]
    rfl

@[simp]
theorem messageOf_ofMessage (m : Message) : messageOf (ofMessage m) = m := rfl

@[simp]
theorem isSome_ofMessage (m : Message) : (ofMessage m).isSome = true := rfl

@[simp]
theorem textsOf_ofTexts (texts : List String) : textsOf (ofTexts texts) = texts := by
  by_cases htexts : texts = []
  · rw [ofTexts, if_pos htexts, htexts]
    rfl
  · rw [ofTexts, if_neg htexts, textsOf, itemsOf, List.map_map]
    exact List.map_id texts

@[simp]
theorem messagesOf_ofMessages (messages : List Message) :
    messagesOf (ofMessages messages) = messages := by
  by_cases hmessages : messages = []
  · rw [ofMessages, if_pos hmessages, hmessages]
    rfl
  · rw [ofMessages, if_neg hmessages, messagesOf, itemsOf, List.map_map]
    exact List.map_id messages

namespace Message

/-- `Type(**kwargs)` -/
def build (kwargs : List (String × Option Value)) : Message :=
  kwargs.filterMap fun (name, value) => value.map fun v => (name, v)

@[simp]
theorem lookup_build_nil (name : String) : (build []).lookup name = none := rfl

@[simp]
theorem lookup_build_cons (name key : String) (value : Option Value)
    (kwargs : List (String × Option Value)) :
    (build ((key, value) :: kwargs)).lookup name =
      if name = key then value.or ((build kwargs).lookup name) else (build kwargs).lookup name := by
  cases value with
  | none =>
    show (build kwargs).lookup name = _
    split <;> rfl
  | some v =>
    show ((key, v) :: build kwargs).lookup name = _
    by_cases hname : name = key
    · rw [if_pos hname, List.lookup_cons, beq_iff_eq.mpr hname]
      rfl
    · rw [if_neg hname, List.lookup_cons, beq_eq_false_iff_ne.mpr hname]

theorem lookup_build_map {α : Type} {items : List (String × α)} (value : α → Option Value)
    (h : (items.map Prod.fst).Nodup) (name : String) :
    (build (items.map fun item => (item.1, value item.2))).lookup name =
      (items.lookup name).bind value := by
  induction items with
  | nil => rfl
  | cons item items ih =>
    obtain ⟨key, a⟩ := item
    rw [List.map_cons, List.nodup_cons] at h
    rw [List.map_cons, lookup_build_cons, ih h.2]
    by_cases hname : name = key
    · have hnone : items.lookup name = none := by
        rw [List.lookup_eq_none_iff]
        rintro ⟨k, b⟩ hmem
        rw [bne_iff_ne]
        rintro rfl
        exact h.1 (List.mem_map.mpr ⟨_, hmem, hname⟩)
      rw [if_pos hname, List.lookup_cons, beq_iff_eq.mpr hname, hnone, Option.bind_none,
        Option.or_none]
      rfl
    · rw [if_neg hname, List.lookup_cons, beq_eq_false_iff_ne.mpr hname]

def text (m : Message) (name : String) : String := textOf (m.lookup name)

def bool (m : Message) (name : String) : Bool := boolOf (m.lookup name)

def int (m : Message) (name : String) : Int := intOf (m.lookup name)

def float (m : Message) (name : String) : Rat := floatOf (m.lookup name)

def floatValue (m : Message) (name : String) : Rat := floatValueOf (m.lookup name)

def enumName (m : Message) (name zero : String) : String := enumOf zero (m.lookup name)

def message (m : Message) (name : String) : Message := messageOf (m.lookup name)

def texts (m : Message) (name : String) : List String := textsOf (m.lookup name)

def messages (m : Message) (name : String) : List Message := messagesOf (m.lookup name)

/-- `m.HasField(name)` -/
def hasField (m : Message) (name : String) : Bool := (m.lookup name).isSome

end Message

/-! ## The JSON mapping -/

/-- The lowerCamelCase form of a field name; `up` after an underscore. -/
def camel (up : Bool) : List Char → List Char
  | [] => []
  | c :: cs =>
    if c = '_' then camel true cs else (if up then c.toUpper else c) :: camel false cs

/-- `field.json_name` -/
def jsonName (name : String) : String := .ofList (camel false name.toList)

/-- A 64-bit number is a text. -/
def Scalar.toJson : Scalar → Json
  | .text s => .str s
  | .bool b => .bool b
  | .int n => .int n
  | .int64 n => .str (toString n)
  | .float q => .float q
  | .floatValue q => .float q
  | .enumerator name => .str name

mutual

def Value.toJson : Value → Json
  | .scalar s => s.toJson
  | .message fields => .dict (fieldsToDict fields)
  | .repeated items => .list (itemsToList items)
termination_by structural value => value

def fieldsToDict : List (String × Value) → List (String × Json)
  | [] => []
  | (name, value) :: fields => (jsonName name, value.toJson) :: fieldsToDict fields
termination_by structural fields => fields

def itemsToList : List Value → List Json
  | [] => []
  | item :: items => item.toJson :: itemsToList items
termination_by structural items => items

end

/-- `MessageToDict(m)` -/
def Message.toDict (m : Message) : Json.Fields := fieldsToDict m

mutual

/-- Some dictionary in the value has the key. -/
def hasKey (key : String) : Json → Bool
  | .list items => itemsHaveKey key items
  | .dict fields => fieldsHaveKey key fields
  | _ => false
termination_by structural value => value

def fieldsHaveKey (key : String) : List (String × Json) → Bool
  | [] => false
  | (k, value) :: fields => k == key || hasKey key value || fieldsHaveKey key fields
termination_by structural fields => fields

def itemsHaveKey (key : String) : List Json → Bool
  | [] => false
  | item :: items => hasKey key item || itemsHaveKey key items
termination_by structural items => items

end

mutual

/-- Some message in the value has a field with the JSON name set. -/
def Value.sets (key : String) : Value → Bool
  | .scalar _ => false
  | .message fields => fieldsSet key fields
  | .repeated items => itemsSet key items
termination_by structural value => value

def fieldsSet (key : String) : List (String × Value) → Bool
  | [] => false
  | (name, value) :: fields => jsonName name == key || value.sets key || fieldsSet key fields
termination_by structural fields => fields

def itemsSet (key : String) : List Value → Bool
  | [] => false
  | item :: items => item.sets key || itemsSet key items
termination_by structural items => items

end

/-- A field with the JSON name is set in the message or anywhere below it. -/
def Message.sets (key : String) (m : Message) : Bool := fieldsSet key m

variable (key : String)

theorem hasKey_scalar (s : Scalar) : hasKey key s.toJson = false := by
  cases s <;> rfl

mutual

/-- **The JSON of a message has a key exactly where the message has the field.** -/
theorem hasKey_toJson (value : Value) : hasKey key value.toJson = value.sets key := by
  cases value with
  | scalar s => exact hasKey_scalar key s
  | message fields => exact fieldsHaveKey_toDict fields
  | repeated items => exact itemsHaveKey_toList items

theorem fieldsHaveKey_toDict (fields : List (String × Value)) :
    fieldsHaveKey key (fieldsToDict fields) = fieldsSet key fields := by
  cases fields with
  | nil => rfl
  | cons field fields =>
    obtain ⟨name, value⟩ := field
    rw [fieldsToDict, fieldsHaveKey, fieldsSet, hasKey_toJson value, fieldsHaveKey_toDict fields]

theorem itemsHaveKey_toList (items : List Value) :
    itemsHaveKey key (itemsToList items) = itemsSet key items := by
  cases items with
  | nil => rfl
  | cons item items =>
    rw [itemsToList, itemsHaveKey, itemsSet, hasKey_toJson item, itemsHaveKey_toList items]

end

theorem fieldsSet_eq_any (fields : List (String × Value)) :
    fieldsSet key fields =
      fields.any fun (name, value) => jsonName name == key || value.sets key := by
  induction fields with
  | nil => rfl
  | cons field fields ih =>
    obtain ⟨name, value⟩ := field
    rw [fieldsSet, ih, List.any_cons]

theorem itemsSet_eq_any (items : List Value) : itemsSet key items = items.any (Value.sets key) := by
  induction items with
  | nil => rfl
  | cons item items ih => rw [itemsSet, ih, List.any_cons]

theorem sets_of_forall {m : Message}
    (h : ∀ entry ∈ m, jsonName entry.1 ≠ key ∧ entry.2.sets key = false) : m.sets key = false := by
  rw [Message.sets, fieldsSet_eq_any, List.any_eq_false]
  intro entry hentry
  obtain ⟨hname, hvalue⟩ := h entry hentry
  simp [beq_eq_false_iff_ne.mpr hname, hvalue]

/-- The value of a field sets the key below it. -/
def setsIn (value : Option Value) : Bool := value.any (Value.sets key)

@[simp]
theorem sets_build_nil : Message.sets key (.build []) = false := rfl

theorem sets_build_cons {name : String} (hname : jsonName name ≠ key) (value : Option Value)
    (kwargs : List (String × Option Value)) :
    Message.sets key (.build ((name, value) :: kwargs)) =
      (setsIn key value || Message.sets key (.build kwargs)) := by
  cases value with
  | none => rfl
  | some v =>
    show (jsonName name == key || v.sets key || Message.sets key (.build kwargs)) = _
    rw [beq_eq_false_iff_ne.mpr hname, Bool.false_or]
    rfl

@[simp]
theorem setsIn_none : setsIn key none = false := rfl

@[simp]
theorem setsIn_ofText (s : String) : setsIn key (ofText s) = false := by
  unfold ofText
  split <;> rfl

@[simp]
theorem setsIn_ofBool (b : Bool) : setsIn key (ofBool b) = false := by
  cases b <;> rfl

@[simp]
theorem setsIn_ofInt (n : Int) : setsIn key (ofInt n) = false := by
  unfold ofInt
  split <;> rfl

@[simp]
theorem setsIn_ofInt64 (n : Int) : setsIn key (ofInt64 n) = false := by
  unfold ofInt64
  split <;> rfl

@[simp]
theorem setsIn_ofFloat (q : Rat) : setsIn key (ofFloat q) = false := by
  unfold ofFloat
  split <;> rfl

@[simp]
theorem setsIn_ofEnum (zero name : String) : setsIn key (ofEnum zero name) = false := by
  unfold ofEnum
  split <;> rfl

@[simp]
theorem setsIn_ofMessage (m : Message) : setsIn key (ofMessage m) = m.sets key := rfl

@[simp]
theorem setsIn_ofTexts (texts : List String) : setsIn key (ofTexts texts) = false := by
  unfold ofTexts
  split
  · rfl
  · show itemsSet key _ = false
    rw [itemsSet_eq_any, List.any_map]
    exact List.any_eq_false.mpr fun _ _ => nofun

@[simp]
theorem setsIn_ofMessages (messages : List Message) :
    setsIn key (ofMessages messages) = messages.any (Message.sets key) := by
  unfold ofMessages
  split
  · next h => rw [h]; rfl
  · show itemsSet key _ = _
    rw [itemsSet_eq_any, List.any_map]
    rfl

theorem setsIn_bind {α : Type} {value : α → Option Value} (h : ∀ a, setsIn key (value a) = false)
    (o : Option α) : setsIn key (o.bind value) = false := by
  cases o with
  | none => rfl
  | some a => exact h a

@[simp]
theorem setsIn_bind_ofText (s : Option String) : setsIn key (s.bind ofText) = false :=
  setsIn_bind key (setsIn_ofText key) s

@[simp]
theorem setsIn_bind_ofInt (n : Option Int) : setsIn key (n.bind ofInt) = false :=
  setsIn_bind key (setsIn_ofInt key) n

@[simp]
theorem setsIn_bind_ofInt64 (n : Option Int) : setsIn key (n.bind ofInt64) = false :=
  setsIn_bind key (setsIn_ofInt64 key) n

@[simp]
theorem setsIn_bind_ofEnum (zero : String) (name : Option String) :
    setsIn key (name.bind (ofEnum zero)) = false :=
  setsIn_bind key (setsIn_ofEnum key zero) name

end Chattice.Protobuf
