import Switchyard.Checksum.Sha256
import Switchyard.Json.Canonical

/-!
# Content checksums

The checksum of a value is the hash of its canonical text, in lowercase hexadecimal.  Two values
with the same canonical text have the same checksum whatever they were read from.
-/

set_option autoImplicit false

namespace Switchyard

/-- A byte as two digits. -/
def hexByte (b : UInt8) : List Char := Text.hexDigits 2 b.toNat

namespace Json

/-- The canonical text of a value in UTF-8. -/
def canonicalBytes (v : Json) : List UInt8 := v.text.toUTF8.toList

/-- The checksum of a value's canonical text. -/
def checksum (v : Json) : String :=
  String.ofList ((Checksum.sha256 v.canonicalBytes).flatMap hexByte)

end Json

end Switchyard
