import Chattice.Json
import Mathlib.Data.Rat.Encodable
import Mathlib.Logic.Encodable.Basic
import Mathlib.Logic.Equiv.List
import Mathlib.Tactic.DeriveEncodable

/-!
# A text for every JSON value

`json.dumps` and `json.loads` are parameters of the stores that keep texts, with the assumption that
`loads` undoes `dumps`. Here is a pair that meets it and agrees with them on one given document.

* `Code` : labelled binary trees; `code` writes a value as one, `ofCode` reads it back;
* `dumps`, `loads` : the given text for the given document, and a tally of the code for every other
  value;
* `loads_dumps` : `loads` undoes `dumps`;
* `dumpsAll`, `loadsAll` : the same for several given documents.
-/

namespace Chattice.Json

inductive Code where
  | leaf
  | node (label : Nat) (left right : Code)
  deriving DecidableEq, Encodable

def textLabel (s : String) : Nat := Encodable.encode (s.toList.map Char.toNat)

def ofTextLabel (n : Nat) : String :=
  .ofList (((Encodable.decode n : Option (List Nat)).getD []).map Char.ofNat)

@[simp]
theorem ofTextLabel_textLabel (s : String) : ofTextLabel (textLabel s) = s := by
  have hchars : Char.ofNat ∘ Char.toNat = id := by
    funext c
    exact Char.ofNat_toNat c
  rw [ofTextLabel, textLabel, Encodable.encodek, Option.getD_some, List.map_map, hchars, List.map_id,
    String.ofList_toList]

def Code.atom (label : Nat) : Code := .node label .leaf .leaf

mutual

def code : Json → Code
  | .null => .node 0 .leaf .leaf
  | .bool b => .node 1 (.atom b.toNat) .leaf
  | .int n => .node 2 (.atom (Encodable.encode n)) .leaf
  | .float q => .node 3 (.atom (Encodable.encode q)) .leaf
  | .str s => .node 4 (.atom (textLabel s)) .leaf
  | .list items => .node 5 (codeItems items) .leaf
  | .dict fields => .node 6 (codeFields fields) .leaf
termination_by structural value => value

def codeItems : List Json → Code
  | [] => .leaf
  | item :: items => .node 0 (code item) (codeItems items)
termination_by structural items => items

def codeFields : List (String × Json) → Code
  | [] => .leaf
  | (key, value) :: fields => .node (textLabel key) (code value) (codeFields fields)
termination_by structural fields => fields

end

def Code.label : Code → Nat
  | .leaf => 0
  | .node label _ _ => label

mutual

def ofCode : Code → Json
  | .node 1 b _ => .bool (b.label == 1)
  | .node 2 n _ => .int ((Encodable.decode n.label).getD 0)
  | .node 3 q _ => .float ((Encodable.decode q.label).getD 0)
  | .node 4 s _ => .str (ofTextLabel s.label)
  | .node 5 items _ => .list (itemsOfCode items)
  | .node 6 fields _ => .dict (fieldsOfCode fields)
  | _ => .null
termination_by structural c => c

def itemsOfCode : Code → List Json
  | .leaf => []
  | .node _ item items => ofCode item :: itemsOfCode items
termination_by structural c => c

def fieldsOfCode : Code → List (String × Json)
  | .leaf => []
  | .node key value fields => (ofTextLabel key, ofCode value) :: fieldsOfCode fields
termination_by structural c => c

end

mutual

@[simp]
theorem ofCode_code (value : Json) : ofCode (code value) = value := by
  cases value with
  | null => rfl
  | bool b => cases b <;> rfl
  | int n =>
    rw [code, ofCode, Code.atom, Code.label, Encodable.encodek]
    rfl
  | float q =>
    rw [code, ofCode, Code.atom, Code.label, Encodable.encodek]
    rfl
  | str s => simp [code, ofCode, Code.atom, Code.label]
  | list items => simp [code, ofCode, itemsOfCode_codeItems items]
  | dict fields => simp [code, ofCode, fieldsOfCode_codeFields fields]

theorem itemsOfCode_codeItems (items : List Json) : itemsOfCode (codeItems items) = items := by
  cases items with
  | nil => rfl
  | cons item items =>
    rw [codeItems, itemsOfCode, ofCode_code item, itemsOfCode_codeItems items]

theorem fieldsOfCode_codeFields (fields : List (String × Json)) :
    fieldsOfCode (codeFields fields) = fields := by
  cases fields with
  | nil => rfl
  | cons field fields =>
    obtain ⟨key, value⟩ := field
    rw [codeFields, fieldsOfCode, ofTextLabel_textLabel, ofCode_code value,
      fieldsOfCode_codeFields fields]

end

theorem code_injective : Function.Injective code :=
  Function.LeftInverse.injective ofCode_code

/-! ## Texts -/

/-- The code counted out. -/
def tally (c : Code) : String := .ofList (List.replicate (Encodable.encode c) '|')

def ofTally (s : String) : Option Code := Encodable.decode s.toList.length

theorem ofTally_tally (c : Code) : ofTally (tally c) = some c := by
  simp [ofTally, tally, Encodable.encodek]

section Known

variable (known : Json) (text : String)

def dumps (value : Json) : String := if code value = code known then text else tally (code value)

def loads (s : String) : Option Json := if s = text then some known else (ofTally s).map ofCode

/-- The text of the known document starts as no tally does. -/
def Distinct (text : String) : Prop := ∃ c rest, text.toList = c :: rest ∧ c ≠ '|'

theorem Distinct.ne_tally {text : String} (h : Distinct text) (c : Code) : text ≠ tally c := by
  rintro rfl
  obtain ⟨char, rest, htext, hchar⟩ := h
  rw [tally, String.toList_ofList] at htext
  have hmem : char ∈ List.replicate (Encodable.encode c) '|' := by
    rw [htext]
    exact List.mem_cons_self
  exact hchar (List.eq_of_mem_replicate hmem)

theorem loads_dumps (h : Distinct text) (value : Json) :
    loads known text (dumps known text value) = some value := by
  rw [dumps]
  split
  · next hsame => rw [loads, if_pos rfl, code_injective hsame]
  · rw [loads, if_neg (h.ne_tally _).symm, ofTally_tally, Option.map_some, ofCode_code]

end Known

section Documents

variable (known : List (Json × String))

/-- The given texts for the given documents, and a tally for every other value. -/
def dumpsAll (value : Json) : String :=
  match known.find? fun item => code item.1 = code value with
  | some item => item.2
  | none => tally (code value)

def loadsAll (s : String) : Option Json :=
  match known.find? fun item => item.2 = s with
  | some item => some item.1
  | none => (ofTally s).map ofCode

theorem loadsAll_dumpsAll {known : List (Json × String)} (hknown : ∀ item ∈ known, Distinct item.2)
    (hsame : ∀ a ∈ known, ∀ b ∈ known, a.2 = b.2 → a.1 = b.1) (value : Json) :
    loadsAll known (dumpsAll known value) = some value := by
  unfold dumpsAll
  split
  · next item hfind =>
    have hcode : code item.1 = code value := by simpa using List.find?_some hfind
    have hitem := List.mem_of_find?_eq_some hfind
    unfold loadsAll
    split
    · next other hother =>
      have htext : other.2 = item.2 := by simpa using List.find?_some hother
      rw [hsame other (List.mem_of_find?_eq_some hother) item hitem htext, code_injective hcode]
    · next hnone => exact absurd (List.find?_eq_none.mp hnone item hitem) (by simp)
  · unfold loadsAll
    split
    · next other hother =>
      have htext : other.2 = tally (code value) := by simpa using List.find?_some hother
      exact absurd htext ((hknown other (List.mem_of_find?_eq_some hother)).ne_tally _)
    · rw [ofTally_tally, Option.map_some, ofCode_code]

end Documents

end Chattice.Json
