import TextAnnotation.Pipeline.Error
import TextAnnotation.Text.Utf8

/-!
Character sets of text files.
-/

namespace TextAnnotation

inductive Charset where
  | utf8
  /-- Every byte is the code point of the same number. -/
  | latin1
deriving DecidableEq, Repr

namespace Charset

/-- A name without anything but its letters and digits, in lower case. -/
def plainName (name : String) : String :=
  String.ofList ((name.toList.filter Char.isAlphanum).map Char.toLower)

/-- The character set of a name, in any of the usual spellings. -/
def ofName (name : String) : Except PipelineError Charset :=
  match plainName name with
  | "utf8" => .ok .utf8
  | "iso88591" | "latin1" | "l1" => .ok .latin1
  | _ => .error (.unsupportedCharset name)

/-- The text of the bytes of a file. What is no text becomes replacement characters. -/
def decode : Charset → List UInt8 → String
  | .utf8, bytes => Text.Utf8.decodeLossily bytes
  | .latin1, bytes => String.ofList (bytes.map fun byte => Char.ofNat byte.toNat)

def describe : Charset → String
  | .utf8 => "Utf8"
  | .latin1 => "Latin1"

end Charset

end TextAnnotation
