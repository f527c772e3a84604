import Choreo.Proto

/-!
# Text as bytes

The operations on text that several packages use: strict decoding of UTF-8, trimming, and the
removal of a fixed beginning.

## Main definitions

* `fromUtf8`: the text of valid bytes.
* `trim`, `trimStart`, `trimEndMatches`: trimming.
* `stripPrefix`: the text after a fixed beginning.
-/

namespace Choreo

/-- Unicode white space, as string trimming removes it. -/
def isWhitespace (c : Char) : Bool :=
  (9 ≤ c.toNat && c.toNat ≤ 13) || c.toNat = 0x20 || c.toNat = 0x85 || c.toNat = 0xA0 ||
    c.toNat = 0x1680 || (0x2000 ≤ c.toNat && c.toNat ≤ 0x200A) || c.toNat = 0x2028 ||
    c.toNat = 0x2029 || c.toNat = 0x202F || c.toNat = 0x205F || c.toNat = 0x3000

/-- Removes white space at both ends. -/
def trim (text : String) : String :=
  String.ofList ((text.toList.dropWhile isWhitespace).reverse.dropWhile isWhitespace).reverse

/-- Removes white space at the beginning. -/
def trimStart (text : String) : String := String.ofList (text.toList.dropWhile isWhitespace)

/-- Removes every copy of a character from the end. -/
def trimEndMatches (c : Char) (text : String) : String :=
  String.ofList (text.toList.reverse.dropWhile (· == c)).reverse

/-- The text after a fixed beginning, if it begins so. -/
def stripPrefix (start text : String) : Option String :=
  if start.toList.isPrefixOf text.toList then
    some (String.ofList (text.toList.drop start.toList.length))
  else none

/-- Decodes bytes, if they are valid UTF-8. -/
def fromUtf8 (bytes : Bytes) : Option String := String.fromUTF8? ⟨bytes.toArray⟩

end Choreo
