/-!
# Bytes of texts

A text is stored and sent as the bytes of its UTF-8 encoding. Not every sequence
of bytes encodes a text.
-/

namespace ChartParser.Text

/-- The bytes that encode a text. -/
def bytes (text : String) : List UInt8 :=
  text.toUTF8.data.toList

end ChartParser.Text
