import Chattice.Json

/-!
# Python strings

The `str` methods the sources use, on lists of code points, and the parts of a formatted message.
-/

namespace Chattice.Python

/-- The code points of `str.isspace` that `str.strip()` removes. -/
def isSpace (c : Char) : Bool :=
  let n := c.toNat
  (9 ≤ n && n ≤ 13) || (28 ≤ n && n ≤ 32) || n == 0x85 || n == 0xa0 || n == 0x1680 ||
    (0x2000 ≤ n && n ≤ 0x200a) || n == 0x2028 || n == 0x2029 || n == 0x202f || n == 0x205f ||
    n == 0x3000

/-- `s.strip()` -/
def strip (s : String) : String :=
  .ofList (((s.toList.dropWhile isSpace).reverse.dropWhile isSpace).reverse)

/-- `s.startswith(p)` -/
def startsWith (s p : String) : Bool := p.toList.isPrefixOf s.toList

/-- `s.removeprefix(p)` -/
def removePrefix (s p : String) : String :=
  if startsWith s p then .ofList (s.toList.drop p.toList.length) else s

/-- `s.count(c)` for a single character. -/
def count (s : String) (c : Char) : Nat := s.toList.count c

/-- `c in s` for a single character. -/
def contains (s : String) (c : Char) : Bool := s.toList.contains c

/-- The parts before and after the first `sep`. -/
def splitOnce (sep : List Char) : List Char → Option (List Char × List Char)
  | [] => if sep = [] then some ([], []) else none
  | c :: rest =>
    if sep.isPrefixOf (c :: rest) then some ([], (c :: rest).drop sep.length)
    else (splitOnce sep rest).map fun (before, after) => (c :: before, after)

/-- `s.partition(sep)` or `s.split(sep, 1)` of a string that contains `sep`. -/
def partition (s sep : String) : Option (String × String) :=
  (splitOnce sep.toList s.toList).map fun (before, after) => (.ofList before, .ofList after)

/-- `bool(s)` of an optional string: `None` and the empty string are false. -/
def truthy : Option String → Bool
  | some s => s != ""
  | none => false

/-- A part of a formatted message: its own text, or a value formatted with `!r`. -/
inductive Piece where
  | text (s : String)
  | repr (value : Json)
  deriving Repr

/-- A formatted message. -/
abbrev Text := List Piece

end Chattice.Python
