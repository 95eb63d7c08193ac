import TextAnnotation.Toml.Reader

/-!
Blanks, comments, texts and keys of TOML documents, in which every line ends in a line feed.
-/

namespace TextAnnotation.Toml

open Reader

/-- Every line feed that follows a carriage return stands for both. -/
def unifyLines : List Char → List Char
  | '\r' :: '\n' :: cs => '\n' :: unifyLines cs
  | c :: cs => c :: unifyLines cs
  | [] => []

def isSpace (c : Char) : Bool := c == ' ' || c == '\t'

/-- The characters that a line may hold, in comments and elsewhere. -/
def isPlain (c : Char) : Bool := c == '\t' || (' ' ≤ c && c != '\x7f')

def spaces : Reader Unit := do let _ ← takeWhile isSpace

/-- A comment up to the end of its line, if there is one here. -/
def comment : Reader Unit := do
  if ← accept "#" then let _ ← takeWhile isPlain

/-- The end of a line or of the document. -/
def lineEnd : Reader Unit := do
  if ← isAtEnd then return else expect "\n"

/-- Blanks, comments and line feeds. -/
def gap : Reader Unit := do
  let _ ← many do
    spaces
    if (← peek?) == some '#' then
      comment
      expect "\n"
      return some ()
    else if ← accept "\n" then return some ()
    else return none

def hexValue? (c : Char) : Option Nat :=
  if '0' ≤ c && c ≤ '9' then some (c.toNat - '0'.toNat)
  else if 'a' ≤ c && c ≤ 'f' then some (c.toNat - 'a'.toNat + 10)
  else if 'A' ≤ c && c ≤ 'F' then some (c.toNat - 'A'.toNat + 10)
  else none

/-- The character whose code point is spelled by so many hexadecimal digits. -/
def codePoint (digits : Nat) : Reader Char := do
  let cs ← (List.range digits).mapM fun _ => one fun c => (hexValue? c).isSome
  let n := (cs.filterMap hexValue?).foldl (fun n digit => 16 * n + digit) 0
  if n.isValidChar then return Char.ofNat n else failure

/-- The character that an escape stands for, after its backslash. -/
def escape : Reader Char := do
  match ← one fun _ => true with
  | 'b' => return '\x08'
  | 't' => return '\t'
  | 'n' => return '\n'
  | 'f' => return '\x0c'
  | 'r' => return '\r'
  | '"' => return '"'
  | '\\' => return '\\'
  | 'u' => codePoint 4
  | 'U' => codePoint 8
  | _ => failure

/-- A character of a text between marks. -/
def textChar (mark : Char) : Reader Char := do
  if mark = '"' then
    if ← accept "\\" then escape else one isPlain
  else one isPlain

/-- The rest of a text on one line, after its opening mark. -/
def lineText (mark : Char) : Reader String := do
  let cs ← many do
    if ← accept (String.singleton mark) then return none else return some (← textChar mark)
  return String.ofList cs

/-- Takes a backslash at the end of a line with all blanks and line feeds after it, and tells whether it
did. Between single marks a backslash stands for itself. -/
def lineJoin (mark : Char) : Reader Bool := do
  match mark, ← get with
  | '"', '\\' :: rest =>
    match rest.dropWhile isSpace with
    | '\n' :: rest =>
      set (rest.dropWhile fun c => isSpace c || c == '\n')
      return true
    | _ => return false
  | _, _ => return false

/-- The rest of a text over several lines, after its opening marks. Up to two marks may stand in it, also
right before the closing ones. -/
def blockTextUpTo (mark : Char) : Nat → Reader (List Char)
  | 0 => failure
  | most + 1 => do
    let marks ← takeWhile (· == mark)
    if 3 ≤ marks.length then
      if marks.length ≤ 5 then return marks.drop 3 else failure
    else if ← lineJoin mark then return marks ++ (← blockTextUpTo mark most)
    else
      let c ← if ← accept "\n" then pure '\n' else textChar mark
      return marks ++ c :: (← blockTextUpTo mark most)

def blockText (mark : Char) : Reader String := do
  let _ ← accept "\n"
  return String.ofList (← blockTextUpTo mark ((← get).length + 1))

/-- A text of either kind, which begins with the given mark. -/
def text (mark : Char) : Reader String := do
  if ← accept (String.ofList [mark, mark, mark]) then blockText mark
  else
    expect (String.singleton mark)
    lineText mark

/-- The characters of keys that are not between marks. -/
def isBareKeyChar (c : Char) : Bool := c.isAlphanum || c == '-' || c == '_'

/-- One part of a key. -/
def keyPart : Reader String := do
  if ← accept "\"" then lineText '"'
  else if ← accept "'" then lineText '\''
  else
    let cs ← takeWhile isBareKeyChar
    if cs.isEmpty then failure else return String.ofList cs

/-- A key has fewer parts than this, and fewer brackets and braces are open at a time. -/
def nestingLimit : Nat := 80

/-- The parts of a dotted key before the last, and the last, with blanks around each. -/
def keyUpTo : Nat → Reader (List String × String)
  | 0 => failure
  | most + 1 => do
    spaces
    let part ← keyPart
    spaces
    if ← accept "." then
      let (path, key) ← keyUpTo most
      return (part :: path, key)
    else return ([], part)

def key : Reader (List String × String) := keyUpTo (nestingLimit - 1)

end TextAnnotation.Toml
