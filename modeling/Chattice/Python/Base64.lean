import Mathlib.Data.List.Basic

/-!
# Base64 and UTF-8

* `b64encode` : the standard alphabet, padded; `b64decode` : the strict decoder;
* `utf8` : a text as bytes; `ofUtf8` : its decoder;
* `b64decode_b64encode`, `ofUtf8_utf8` : the decoders undo the encoders.
-/

namespace Chattice.Base64

def char (n : Nat) : Char :=
  if n < 26 then Char.ofNat (65 + n)
  else if n < 52 then Char.ofNat (71 + n)
  else if n < 62 then Char.ofNat (n - 4)
  else if n = 62 then '+'
  else '/'

def digit (c : Char) : Option Nat :=
  let n := c.toNat
  if 65 ≤ n ∧ n ≤ 90 then some (n - 65)
  else if 97 ≤ n ∧ n ≤ 122 then some (n - 71)
  else if 48 ≤ n ∧ n ≤ 57 then some (n + 4)
  else if c = '+' then some 62
  else if c = '/' then some 63
  else none

/-- Three bytes are four digits; one or two left over are padded. -/
def encodeChars : List UInt8 → List Char
  | [] => []
  | [a] => [char (a.toNat / 4), char (a.toNat % 4 * 16), '=', '=']
  | [a, b] =>
    [char (a.toNat / 4), char (a.toNat % 4 * 16 + b.toNat / 16), char (b.toNat % 16 * 4), '=']
  | a :: b :: c :: rest =>
    char (a.toNat / 4) :: char (a.toNat % 4 * 16 + b.toNat / 16) ::
      char (b.toNat % 16 * 4 + c.toNat / 64) :: char (c.toNat % 64) :: encodeChars rest

/-- The bytes of the digits `x`, `y`, `z`, `w`. -/
def first (x y : Nat) : UInt8 := .ofNat (x * 4 + y / 16)

def second (y z : Nat) : UInt8 := .ofNat (y % 16 * 16 + z / 4)

def third (z w : Nat) : UInt8 := .ofNat (z % 4 * 64 + w)

/-- Whole groups of four characters, with padding in the last one only. -/
def decodeChars : List Char → Option (List UInt8)
  | [] => some []
  | a :: b :: c :: d :: rest =>
    match digit a, digit b, digit c, digit d with
    | some x, some y, some z, some w =>
      (decodeChars rest).map fun bytes => first x y :: second y z :: third z w :: bytes
    | some x, some y, some z, none =>
      if d = '=' ∧ rest = [] then some [first x y, second y z] else none
    | some x, some y, none, none =>
      if c = '=' ∧ d = '=' ∧ rest = [] then some [first x y] else none
    | _, _, _, _ => none
  | _ => none

def b64encode (bytes : List UInt8) : String := .ofList (encodeChars bytes)

def b64decode (s : String) : Option (List UInt8) := decodeChars s.toList

theorem digit_char {n : Nat} (h : n < 64) : digit (char n) = some n := by
  revert h n
  decide

theorem digit_pad : digit '=' = none := by decide

theorem ofNat_eq {a : UInt8} {n : Nat} (h : n = a.toNat) : UInt8.ofNat n = a := by
  rw [h, UInt8.ofNat_toNat]

theorem first_digits (a : UInt8) (k : Nat) (hk : k < 16) :
    first (a.toNat / 4) (a.toNat % 4 * 16 + k) = a :=
  ofNat_eq (by omega)

theorem second_digits (a b : UInt8) (k : Nat) (hk : k < 4) :
    second (a.toNat % 4 * 16 + b.toNat / 16) (b.toNat % 16 * 4 + k) = b := by
  have hb := b.toNat_lt
  exact ofNat_eq (by omega)

theorem third_digits (b c : UInt8) :
    third (b.toNat % 16 * 4 + c.toNat / 64) (c.toNat % 64) = c := by
  have hc := c.toNat_lt
  exact ofNat_eq (by omega)

theorem decodeChars_encodeChars (bytes : List UInt8) :
    decodeChars (encodeChars bytes) = some bytes := by
  induction bytes using encodeChars.induct with
  | case1 => rfl
  | case2 a =>
    have ha := a.toNat_lt
    have hfirst := first_digits a 0 (by decide)
    rw [Nat.add_zero] at hfirst
    rw [encodeChars, decodeChars, digit_char (by omega), digit_char (by omega), digit_pad]
    simp only [and_self, if_true, hfirst]
  | case3 a b =>
    have ha := a.toNat_lt
    have hb := b.toNat_lt
    have hsecond := second_digits a b 0 (by decide)
    rw [Nat.add_zero] at hsecond
    rw [encodeChars, decodeChars, digit_char (by omega), digit_char (by omega),
      digit_char (by omega), digit_pad]
    simp only [and_self, if_true, hsecond, first_digits a (b.toNat / 16) (by omega)]
  | case4 a b c rest ih =>
    have ha := a.toNat_lt
    have hb := b.toNat_lt
    have hc := c.toNat_lt
    rw [encodeChars, decodeChars, digit_char (by omega), digit_char (by omega),
      digit_char (by omega), digit_char (by omega)]
    simp only [ih, Option.map_some, third_digits, second_digits a b (c.toNat / 64) (by omega),
      first_digits a (b.toNat / 16) (by omega)]

theorem b64decode_b64encode (bytes : List UInt8) : b64decode (b64encode bytes) = some bytes := by
  rw [b64decode, b64encode, String.toList_ofList, decodeChars_encodeChars]

/-! ## UTF-8 -/

def utf8 (s : String) : List UInt8 := s.toUTF8.data.toList

def ofUtf8 (bytes : List UInt8) : Option String := String.fromUTF8? ⟨bytes.toArray⟩

theorem ofUtf8_utf8 (s : String) : ofUtf8 (utf8 s) = some s := by
  rw [ofUtf8, utf8, Array.toArray_toList]
  exact dif_pos s.isValidUTF8

end Chattice.Base64
