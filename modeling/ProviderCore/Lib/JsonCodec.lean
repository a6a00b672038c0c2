import ProviderCore.Lib.Json
import ProviderCore.Lib.Text

/-!
# JSON texts

How a program reads and writes JSON texts is a parameter.  What a development needs of it is
stated as a property of the codec.
-/

structure JsonCodec where
  parse : List UInt8 → Option Json
  render : Json → String

namespace JsonCodec

variable (codec : JsonCodec)

def parseText (text : String) : Option Json := codec.parse (Text.utf8 text)

def renderBytes (tree : Json) : List UInt8 := Text.utf8 (codec.render tree)

/-- A tree is written on one line, which is not empty. -/
structure OneLine : Prop where
  noBreak : ∀ tree, ∀ byte ∈ codec.renderBytes tree, byte ≠ 13 ∧ byte ≠ 10
  nonempty : ∀ tree, codec.renderBytes tree ≠ []

end JsonCodec
