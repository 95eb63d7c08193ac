/-!
Reading a text character by character. A reader takes what it reads from the front of the text, or fails.
-/

namespace TextAnnotation.Toml

abbrev Reader := StateT (List Char) Option

namespace Reader

/-- The next character, if there is one; it is not taken. -/
def peek? : Reader (Option Char) := return (← get).head?

/-- The next character, which must have a property. -/
def one (property : Char → Bool) : Reader Char := do
  match ← get with
  | c :: rest =>
    if property c then
      set rest
      return c
    else failure
  | [] => failure

/-- Takes the next character if it has a property, and tells whether it did. -/
def acceptOne (property : Char → Bool) : Reader Bool := do
  if (← peek?).any property then
    let _ ← one property
    return true
  else return false

/-- The characters up to the first without a property. -/
def takeWhile (property : Char → Bool) : Reader (List Char) := do
  let text ← get
  set (text.dropWhile property)
  return text.takeWhile property

/-- Takes the given characters if the text begins with them, and tells whether it did. -/
def accept (expected : String) : Reader Bool := do
  let text ← get
  if expected.toList.isPrefixOf text then
    set (text.drop expected.toList.length)
    return true
  else return false

/-- Takes the given characters, which must be next. -/
def expect (expected : String) : Reader Unit := do
  if ← accept expected then return else failure

/-- Whether the whole text is taken. -/
def isAtEnd : Reader Bool := return (← get).isEmpty

/-- The results of a reader that is run until it gives none, at most `most` times. -/
def manyUpTo (item? : Reader (Option α)) : Nat → Reader (List α)
  | 0 => failure
  | most + 1 => do
    match ← item? with
    | some item => return item :: (← manyUpTo item? most)
    | none => return []

/-- The results of a reader that is run until it gives none. It takes a character each time it gives a
result. -/
def many (item? : Reader (Option α)) : Reader (List α) := do manyUpTo item? ((← get).length + 1)

end Reader

end TextAnnotation.Toml
