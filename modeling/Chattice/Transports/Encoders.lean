import Chattice.Adapters.GoogleChat.Inputs
import Chattice.Json.Text
import Chattice.Python.Base64

/-!
# The encoders of a publisher

What a publisher puts into `message.data`, and the assumption that the decoders of the library undo it.

* `Encoders.Inverted` : JSON, UTF-8 and base64 decoding undo encoding;
* `wireLib`, `wireEncoders` : a library that does, with JSON texts for given documents.
-/

namespace Chattice.Pubsub

open GoogleChat Json

/-- `json.dumps`, `str.encode` and `base64.b64encode`. -/
structure Encoders where
  dumps : Json → String
  encode : String → List UInt8
  b64encode : List UInt8 → String

/-- The decoders of the library undo the encoders. -/
structure Encoders.Inverted (encoders : Encoders) (lib : Stdlib) : Prop where
  loads : ∀ value, lib.loads (encoders.dumps value) = some value
  loadsBytes : ∀ value, lib.loadsBytes (encoders.encode (encoders.dumps value)) = some value
  decode : ∀ text, lib.decode (encoders.encode text) = some text
  b64decode : ∀ bytes, lib.b64decode (encoders.b64encode bytes) = some bytes

/-- The object as `message.data` of an envelope. -/
def Encoders.data (encoders : Encoders) (object : Fields) : String :=
  encoders.b64encode (encoders.encode (encoders.dumps (.dict object)))

/-! ## A library -/

/-- Base64 and UTF-8 as they are, JSON texts for the given documents. -/
def wireLib (known : List (Json × String)) : Stdlib where
  fromisoformat _ := none
  int := String.toInt?
  isdigit s := s != "" && s.toList.all Char.isDigit
  b64decode := Base64.b64decode
  loadsBytes bytes := (Base64.ofUtf8 bytes).bind (loadsAll known)
  loads := loadsAll known
  decode := Base64.ofUtf8

def wireEncoders (known : List (Json × String)) : Encoders where
  dumps := dumpsAll known
  encode := Base64.utf8
  b64encode := Base64.b64encode

theorem wireEncoders_inverted {known : List (Json × String)}
    (hknown : ∀ item ∈ known, Distinct item.2)
    (hsame : ∀ a ∈ known, ∀ b ∈ known, a.2 = b.2 → a.1 = b.1) :
    (wireEncoders known).Inverted (wireLib known) where
  loads := loadsAll_dumpsAll hknown hsame
  loadsBytes value := by
    show (Base64.ofUtf8 (Base64.utf8 (dumpsAll known value))).bind (loadsAll known) = _
    rw [Base64.ofUtf8_utf8, Option.bind_some, loadsAll_dumpsAll hknown hsame]
  decode := Base64.ofUtf8_utf8
  b64decode := Base64.b64decode_b64encode

end Chattice.Pubsub
