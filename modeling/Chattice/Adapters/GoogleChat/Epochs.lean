import Chattice.Adapters.GoogleChat.Inputs
import Mathlib.Algebra.Group.Int.Defs
import Mathlib.Data.Int.Order.Basic
import Std.Data.String.ToInt

/-!
# Epoch values in two encodings

`msSinceEpoch` comes as a JSON number or as the decimal string of an int64. The string is accepted when
`str.isdigit` holds of it, which a sign excludes.

* `Respelled` : some epoch numbers of a form replaced by their decimal strings;
* `epoch_text_iff` : the string is read as its number exactly when the number is not negative;
* `parseFormInputs_respelled_iff` : the same for a whole form.
-/

namespace Chattice.GoogleChat

open Json

def IsInt64 (n : Int) : Prop := -2 ^ 63 ≤ n ∧ n < 2 ^ 63

/-- `int(str(n))` is `n`, and of ASCII strings `isdigit` accepts the non-empty ones of digits. -/
structure ReadsNumerals (lib : Stdlib) : Prop where
  int : ∀ n, IsInt64 n → lib.int (toString n) = some n
  isdigit : ∀ s : String, (∀ c ∈ s.toList, c.toNat < 128) →
    lib.isdigit s = (s != "" && s.toList.all Char.isDigit)

/-- The body with the number as a decimal string. -/
def withText (body : Fields) (n : Int) : Fields := set body "msSinceEpoch" (.str (toString n))

structure EpochNumber where
  widget : String
  body : Fields
  n : Int

/-- `values'` is `values` with the listed epoch numbers replaced by their decimal strings. -/
inductive Respelled : List (String × Fields) → List (String × Fields) → List EpochNumber → Prop where
  | nil : Respelled [] [] []
  | keep (item : String × Fields) {values values' : List (String × Fields)}
      {epochs : List EpochNumber} (rest : Respelled values values' epochs) :
      Respelled (item :: values) (item :: values') epochs
  | text (widget : String) {input : Fields} {kind : String} (body : Fields) {n : Int}
      (hkind : kind ∈ ["dateInput", "dateTimeInput"]) (hinput : input.lookup kind = some (.dict body))
      (hbody : body.lookup "msSinceEpoch" = some (.int n)) (hn : IsInt64 n)
      {values values' : List (String × Fields)} {epochs : List EpochNumber}
      (rest : Respelled values values' epochs) :
      Respelled ((widget, input) :: values)
        ((widget, set input kind (.dict (withText body n))) :: values') (⟨widget, body, n⟩ :: epochs)

/-! ## Numerals -/

theorem toNat_lt_of_isDigit {c : Char} (h : c.isDigit = true) : c.toNat < 128 := by
  rw [Char.isDigit, Bool.and_eq_true, decide_eq_true_eq, decide_eq_true_eq] at h
  have hle : c.val.toNat ≤ 57 := h.2
  show c.val.toNat < 128
  omega

theorem isdigit_toString {lib : Stdlib} (hlib : ReadsNumerals lib) (n : Int) :
    lib.isdigit (toString n) = true ↔ 0 ≤ n := by
  have hdigits (m : Nat) : ∀ c ∈ (m.repr).toList, c.isDigit = true := by
    intro c hc
    rw [Nat.toList_repr] at hc
    exact Nat.isDigit_of_mem_toDigits (by decide) (by decide) hc
  have hascii (m : Nat) : ∀ c ∈ (m.repr).toList, c.toNat < 128 := fun c hc =>
    toNat_lt_of_isDigit (hdigits m c hc)
  cases n with
  | ofNat m =>
    have hrepr : toString (Int.ofNat m) = m.repr := rfl
    rw [hrepr, hlib.isdigit m.repr (hascii m)]
    refine iff_of_true ?_ (Int.natCast_nonneg m)
    rw [Bool.and_eq_true, bne_iff_ne, List.all_eq_true]
    exact ⟨Nat.repr_ne_empty, hdigits m⟩
  | negSucc m =>
    have hrepr : (toString (Int.negSucc m)).toList = '-' :: (m + 1).repr.toList := by
      show ("-" ++ (m + 1).repr).toList = _
      rw [String.toList_append]
      rfl
    rw [hlib.isdigit _ (by
      rw [hrepr, List.forall_mem_cons]
      exact ⟨by decide, hascii (m + 1)⟩), hrepr]
    refine iff_of_false ?_ (by omega)
    simp

/-- **One epoch value.** Its decimal string is read as the number exactly when it has no sign. -/
theorem epoch_text_iff {lib : Stdlib} (hlib : ReadsNumerals lib) {n : Int} (hn : IsInt64 n)
    (widget : String) (body : Fields) : epoch lib widget (withText body n) = .ok n ↔ 0 ≤ n := by
  rw [← isdigit_toString hlib]
  unfold epoch
  have hget : Json.get (withText body n) "msSinceEpoch" = .str (toString n) := by
    rw [Json.get, withText, lookup_set_self, Option.getD_some]
  simp only [hget, hlib.int n hn]
  split
  next h => exact iff_of_true rfl h
  next h => exact iff_of_false nofun h

theorem epoch_number {lib : Stdlib} {body : Fields} {n : Int}
    (hbody : body.lookup "msSinceEpoch" = some (.int n)) (widget : String) :
    epoch lib widget body = .ok n := by
  simp only [epoch, Json.get, hbody, Option.getD_some]

/-! ## Forms -/

theorem get_withText (body : Fields) (n : Int) {key : String} (hkey : key ≠ "msSinceEpoch") :
    Json.get (withText body n) key = Json.get body key := by
  rw [Json.get, withText, lookup_set_of_ne body _ hkey, Json.get]

theorem parseValue_text {lib : Stdlib} {widget kind : String} {body : Fields} {n : Int}
    (hkind : kind ∈ ["dateInput", "dateTimeInput"])
    (hepoch : epoch lib widget (withText body n) = epoch lib widget body) :
    parseValue lib widget kind (withText body n) = parseValue lib widget kind body := by
  have hdate := get_withText body n (show "hasDate" ≠ "msSinceEpoch" by decide)
  have htime := get_withText body n (show "hasTime" ≠ "msSinceEpoch" by decide)
  obtain rfl | hkind := List.mem_cons.mp hkind
  · simp [parseValue, hepoch]
  · obtain rfl := List.mem_singleton.mp hkind
    simp [parseValue, hepoch, optionalBool, hdate, htime]

theorem parseFormInput_text {lib : Stdlib} {widget kind : String} {input body : Fields} {n : Int}
    (hkind : kind ∈ ["dateInput", "dateTimeInput"]) (hinput : input.lookup kind = some (.dict body))
    (hepoch : epoch lib widget (withText body n) = epoch lib widget body) :
    parseFormInput lib (widget, set input kind (.dict (withText body n))) =
      parseFormInput lib (widget, input) := by
  have hknown : (knownInputs.filter fun k =>
      ((set input kind (.dict (withText body n))).lookup k).isSome) =
        knownInputs.filter fun k => (input.lookup k).isSome := by
    refine List.filter_congr fun k _ => ?_
    rw [lookup_set]
    split
    next hk => rw [hk, hinput]; rfl
    next => rfl
  have hmem : kind ∈ knownInputs.filter fun k => (input.lookup k).isSome := by
    refine List.mem_filter.mpr ⟨?_, by rw [hinput]; rfl⟩
    obtain rfl | hkind := List.mem_cons.mp hkind
    · decide
    · obtain rfl := List.mem_singleton.mp hkind
      decide
  simp only [parseFormInput, hknown]
  split
  · next hnone =>
    rw [hnone] at hmem
    cases hmem
  · next only honly =>
    rw [honly] at hmem
    obtain rfl := List.mem_singleton.mp hmem
    have hget : Json.get input kind = .dict body := by rw [Json.get, hinput, Option.getD_some]
    have hset : Json.get (set input kind (.dict (withText body n))) kind = .dict (withText body n) := by
      rw [Json.get, lookup_set_self, Option.getD_some]
    rw [hget, hset]
    simp only [parseValue_text hkind hepoch]
  · rfl

/-- A form without negative numbers is parsed alike. -/
theorem parseFormInputs_respelled {lib : Stdlib} (hlib : ReadsNumerals lib)
    {values values' : List (String × Fields)} {epochs : List EpochNumber}
    (h : Respelled values values' epochs) (hpos : ∀ e ∈ epochs, 0 ≤ e.n) :
    parseFormInputs lib values' = parseFormInputs lib values := by
  unfold parseFormInputs
  induction h with
  | nil => rfl
  | keep item rest ih => rw [List.mapM_cons, List.mapM_cons, ih hpos]
  | text widget body hkind hinput hbody hn rest ih =>
    rw [List.forall_mem_cons] at hpos
    have hnumber : epoch lib widget body = .ok _ := epoch_number hbody widget
    have hepoch := ((epoch_text_iff hlib hn widget body).mpr hpos.1).trans hnumber.symm
    rw [List.mapM_cons, List.mapM_cons, ih hpos.2, parseFormInput_text hkind hinput hepoch]

theorem Respelled.number {values values' : List (String × Fields)} {epochs : List EpochNumber}
    (h : Respelled values values' epochs) : ∀ e ∈ epochs,
      IsInt64 e.n ∧ e.body.lookup "msSinceEpoch" = some (.int e.n) := by
  induction h with
  | nil => exact fun _ he => nomatch he
  | keep item rest ih => exact ih
  | text widget body hkind hinput hbody hn rest ih =>
    rw [List.forall_mem_cons]
    exact ⟨⟨hn, hbody⟩, ih⟩

/-- **A form in the other encoding.** For every form and every choice of int64 epoch numbers in it, the
form with their decimal strings is parsed alike, and each number is read from both encodings, exactly
when none of them is negative. -/
theorem parseFormInputs_respelled_iff {lib : Stdlib} (hlib : ReadsNumerals lib)
    {values values' : List (String × Fields)} {epochs : List EpochNumber}
    (h : Respelled values values' epochs) :
    (parseFormInputs lib values' = parseFormInputs lib values ∧ ∀ e ∈ epochs,
      epoch lib e.widget e.body = .ok e.n ∧ epoch lib e.widget (withText e.body e.n) = .ok e.n) ↔
        ∀ e ∈ epochs, 0 ≤ e.n := by
  constructor
  · rintro ⟨-, hread⟩ e he
    exact (epoch_text_iff hlib (h.number e he).1 e.widget e.body).mp (hread e he).2
  · intro hpos
    refine ⟨parseFormInputs_respelled hlib h hpos, fun e he => ?_⟩
    obtain ⟨hn, hbody⟩ := h.number e he
    exact ⟨epoch_number hbody e.widget, (epoch_text_iff hlib hn e.widget e.body).mpr (hpos e he)⟩

/-- The library with Python's `int` and `isdigit` on ASCII strings. -/
def numeralLib : Stdlib where
  fromisoformat _ := none
  int := String.toInt?
  isdigit s := s != "" && s.toList.all Char.isDigit
  b64decode _ := none
  loadsBytes _ := none
  loads _ := none
  decode _ := none

theorem numeralLib_readsNumerals : ReadsNumerals numeralLib where
  int n _ := Int.toInt?_repr n
  isdigit _ _ := rfl

def dateBody (n : Int) : Fields := [("msSinceEpoch", .int n)]

def birthdayForm (n : Int) : List (String × Fields) := [("birthday", [("dateInput", .dict (dateBody n))])]

theorem birthdayForm_respelled {n : Int} (hn : IsInt64 n) :
    Respelled (birthdayForm n)
      [("birthday", [("dateInput", .dict [("msSinceEpoch", .str (toString n))])])]
      [⟨"birthday", dateBody n, n⟩] :=
  .text "birthday" (dateBody n) (.head _) rfl rfl hn .nil

/-- A date after 1970 is read from both encodings. -/
theorem birthdayForm_textAlike :
    parseFormInputs numeralLib
      [("birthday", [("dateInput", .dict [("msSinceEpoch", .str (toString (1000425600000 : Int)))])])] =
        parseFormInputs numeralLib (birthdayForm 1000425600000) :=
  ((parseFormInputs_respelled_iff numeralLib_readsNumerals
    (birthdayForm_respelled ⟨by decide, by decide⟩)).mpr
      (by rintro e he; cases List.mem_singleton.mp he; decide)).1

/-- A date before 1970 is read from the number alone. -/
theorem beforeEpoch_rejected : IsInt64 (-1) ∧
    parseFormInputs numeralLib (birthdayForm (-1)) = .ok [("birthday", .dateInput (-1))] ∧
    ¬ ∃ data, parseFormInputs numeralLib
      [("birthday", [("dateInput", .dict [("msSinceEpoch", .str (toString (-1 : Int)))])])] =
        .ok data := by
  refine ⟨⟨by decide, by decide⟩, rfl, ?_⟩
  rintro ⟨data, hdata⟩
  cases hdata

end Chattice.GoogleChat
