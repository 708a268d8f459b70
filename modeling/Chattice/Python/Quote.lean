import Chattice.Python.Base64

/-!
# Percent encoding

`urllib.parse.quote`: the UTF-8 bytes of a text, the safe ones as they are and the others as `%XX`.

* `unquote_quote` : the decoder undoes it, so no two texts are quoted alike.
-/

namespace Chattice.Python

open Base64

def isUnreserved (c : Char) : Bool :=
  c.isAlphanum || c == '_' || c == '.' || c == '-' || c == '~'

def hexDigit (n : Nat) : Char := if n < 10 then Char.ofNat (48 + n) else Char.ofNat (55 + n)

def hexValue (c : Char) : Option Nat :=
  let n := c.toNat
  if 48 ≤ n ∧ n ≤ 57 then some (n - 48)
  else if 65 ≤ n ∧ n ≤ 70 then some (n - 55)
  else if 97 ≤ n ∧ n ≤ 102 then some (n - 87)
  else none

/-- A byte that stays as it is: an ASCII character that is unreserved or in `safe`. -/
def isSafeByte (safe : List Char) (b : UInt8) : Bool :=
  b.toNat < 128 && (isUnreserved (.ofNat b.toNat) || safe.contains (.ofNat b.toNat))

def quoteByte (safe : List Char) (b : UInt8) : List Char :=
  if isSafeByte safe b then [.ofNat b.toNat]
  else ['%', hexDigit (b.toNat / 16), hexDigit (b.toNat % 16)]

/-- `quote(s, safe)` -/
def quote (s : String) (safe : List Char) : String :=
  .ofList ((utf8 s).flatMap (quoteByte safe))

/-- The bytes of an ASCII text with every `%XX` replaced by its byte. -/
def unquoteBytes : List Char → Option (List UInt8)
  | [] => some []
  | '%' :: high :: low :: rest =>
    match hexValue high, hexValue low with
    | some h, some l => (unquoteBytes rest).map (UInt8.ofNat (16 * h + l) :: ·)
    | _, _ => none
  | c :: rest =>
    if c.toNat < 128 && c != '%' then (unquoteBytes rest).map (UInt8.ofNat c.toNat :: ·) else none

/-- The text a quoted text stands for. -/
def unquote (s : String) : Option String := (unquoteBytes s.toList).bind ofUtf8

/-! ## The round trip -/

variable {safe : List Char}

theorem hexValue_hexDigit {n : Nat} (h : n < 16) : hexValue (hexDigit n) = some n := by
  revert h n
  decide

theorem toNat_ofNat_ascii {n : Nat} (h : n < 128) : (Char.ofNat n).toNat = n := by
  revert h n
  decide +kernel

theorem unquoteBytes_ascii {c : Char} (hascii : c.toNat < 128) (hpercent : c ≠ '%') (rest : List Char) :
    unquoteBytes (c :: rest) = (unquoteBytes rest).map (UInt8.ofNat c.toNat :: ·) := by
  rw [unquoteBytes]
  · rw [if_pos]
    rw [Bool.and_eq_true, decide_eq_true_eq, bne_iff_ne]
    exact ⟨hascii, hpercent⟩
  · rintro high low rest' rfl -
    exact hpercent rfl

theorem unquoteBytes_quoteByte (hsafe : '%' ∉ safe) (b : UInt8) (rest : List Char) :
    unquoteBytes (quoteByte safe b ++ rest) = (unquoteBytes rest).map (b :: ·) := by
  unfold quoteByte
  split
  · next h =>
    rw [isSafeByte, Bool.and_eq_true, decide_eq_true_eq] at h
    have hpercent : Char.ofNat b.toNat ≠ '%' := by
      intro heq
      rw [heq] at h
      obtain h | h := Bool.or_eq_true_iff.mp h.2
      · cases h
      · exact hsafe (List.contains_iff_mem.mp h)
    have htoNat := toNat_ofNat_ascii h.1
    rw [List.singleton_append, unquoteBytes_ascii (by omega) hpercent, htoNat, UInt8.ofNat_toNat]
  · have hb := b.toNat_lt
    have hhigh : hexValue (hexDigit (b.toNat / 16)) = some (b.toNat / 16) := hexValue_hexDigit (by omega)
    have hlow : hexValue (hexDigit (b.toNat % 16)) = some (b.toNat % 16) := hexValue_hexDigit (by omega)
    show unquoteBytes ('%' :: hexDigit (b.toNat / 16) :: hexDigit (b.toNat % 16) :: rest) = _
    rw [unquoteBytes, hhigh, hlow]
    have hbyte : 16 * (b.toNat / 16) + b.toNat % 16 = b.toNat := Nat.div_add_mod _ _
    simp only [hbyte, UInt8.ofNat_toNat]

theorem unquoteBytes_flatMap (hsafe : '%' ∉ safe) (bytes : List UInt8) :
    unquoteBytes (bytes.flatMap (quoteByte safe)) = some bytes := by
  induction bytes with
  | nil => rfl
  | cons b bytes ih => rw [List.flatMap_cons, unquoteBytes_quoteByte hsafe, ih, Option.map_some]

/-- The decoder undoes `quote`. -/
theorem unquote_quote (hsafe : '%' ∉ safe) (s : String) : unquote (quote s safe) = some s := by
  rw [unquote, quote, String.toList_ofList, unquoteBytes_flatMap hsafe, Option.bind_some, ofUtf8_utf8]

end Chattice.Python
