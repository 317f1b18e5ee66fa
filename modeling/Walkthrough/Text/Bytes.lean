import Walkthrough.Text.Line
import Walkthrough.Text.Utf8
/-!
# Texts as bytes

How a text stands in a file. It is written as it is; when it is read, bytes
that encode nothing become replacement characters, and every line end becomes
a line feed.
-/

namespace Walkthrough.Text

/-- The bytes of a text. -/
def toBytes (s : String) : List UInt8 := Utf8.encode s.toList

/-- The text that some bytes are read as. -/
def ofBytes (bytes : List UInt8) : String :=
  String.ofList (unifyLineEnds (Utf8.decode bytes))

end Walkthrough.Text
