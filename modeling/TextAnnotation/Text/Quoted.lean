import TextAnnotation.Text.CodePoints
import TextAnnotation.Text.Property.GraphemeExtend
import TextAnnotation.Text.Property.Unprintable

/-!
Texts in quotation marks, for messages and descriptions. What a reader could not see or could not tell
apart is written as an escape.
-/

namespace TextAnnotation.Text

/-- The digits of a number to base sixteen, in lower case. -/
def hexadecimal (n : Nat) : String := String.ofList (Nat.toDigits 16 n)

/-- A code point written by its number. -/
def numericEscape (c : Char) : String := "\\u\x7b" ++ hexadecimal c.toNat ++ "\x7d"

/-- A character between two marks `quote`: the mark itself and the backslash are escaped, as is every
character without a form of its own and every mark that would join the character before it. -/
def escaped (quote c : Char) : String :=
  if c == '\x00' then "\\0"
  else if c == '\t' then "\\t"
  else if c == '\r' then "\\r"
  else if c == '\n' then "\\n"
  else if c == '\\' || c == quote then String.ofList ['\\', c]
  else if 0x20 ≤ c.toNat && c.toNat < 0x7F then String.singleton c
  else if Property.graphemeExtend.contains c || Property.unprintable.contains c then numericEscape c
  else String.singleton c

/-- A text in double quotation marks. -/
def quoted (text : String) : String :=
  "\"" ++ String.join (text.toList.map (escaped '"')) ++ "\""

/-- A character in single quotation marks. -/
def quotedChar (c : Char) : String := "'" ++ escaped '\'' c ++ "'"

end TextAnnotation.Text
