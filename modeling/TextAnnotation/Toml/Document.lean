import TextAnnotation.Toml.Number
import TextAnnotation.Toml.Text

/-!
Reading TOML documents.
-/

namespace TextAnnotation.Toml

open Reader

/-- The items of an array, after its opening bracket. -/
def items (item : Reader Value) : Reader (List Value) := do
  let found ← many do
    gap
    if (← peek?) == some ']' then return none
    else
      let value ← item
      gap
      if ← accept "," then return some value
      else if (← peek?) == some ']' then return some value
      else failure
  expect "]"
  return found

/-- A key with its value in a table in braces. -/
def inlineEntry (item : Reader Value) : Reader ((List String × String) × Value) := do
  let key ← key
  expect "="
  spaces
  let value ← item
  spaces
  return (key, value)

/-- The entries of a table in braces, after the opening one. No comma ends them. -/
def inlineEntries (item : Reader Value) : Reader (List ((List String × String) × Value)) := do
  if ← accept "\x7d" then return []
  else
    let first ← inlineEntry item
    let rest ← many do
      if ← accept "," then return some (← inlineEntry item) else return none
    expect "\x7d"
    return first :: rest

/-- A table in braces, after the opening one. It stands on one line. -/
def inlineTable (item : Reader Value) : Reader Value := do
  spaces
  match inlineTable? (← inlineEntries item) with
  | some table => return table
  | none => failure

/-- A value other than an array or a table. -/
def scalar : Reader Value := do
  match ← peek? with
  | some '"' => return .text (← text '"')
  | some '\'' => return .text (← text '\'')
  | some 't' =>
    expect "true"
    return .truth true
  | some 'f' =>
    expect "false"
    return .truth false
  | some 'i' | some 'n' => number
  | some c => if isDigit c || c == '+' || c == '-' then numeric else failure
  | none => failure

/-- A value with at most `depth` brackets and braces open at a time. -/
def value : Nat → Reader Value
  | 0 => scalar
  | depth + 1 => do
    if ← accept "[" then return .array (← items (value depth))
    else if ← accept "\x7b" then inlineTable (value depth)
    else scalar

/-- What may follow a statement on its line. -/
def lineRest : Reader Unit := do
  spaces
  comment
  lineEnd

/-- The next statement, if there is one. -/
def statement? : Reader (Option Statement) := do
  gapBeforeStatement
  if ← isAtEnd then return none
  else if ← accept "[[" then
    let (path, key) ← key
    expect "]]"
    lineRest
    return some (.nextHeader path key)
  else if ← accept "[" then
    let (path, key) ← key
    expect "]"
    lineRest
    return some (.header path key)
  else
    let (path, key) ← key
    expect "="
    spaces
    let value ← value (nestingLimit - 1)
    lineRest
    return some (.entry path key value)
where
  /-- Blank lines and comments; the last line need not end in a line feed. -/
  gapBeforeStatement : Reader Unit := do
    let _ ← many do
      spaces
      if (← peek?) == some '#' then
        comment
        lineEnd
        return some ()
      else if ← accept "\n" then return some ()
      else return none

/-- The entries of the document that a text spells, if it spells one. A byte order mark may stand at its
beginning. -/
def parse? (source : String) : Option Entries := do
  let text := unifyLines source.toList
  let text := if text.head? = some '\ufeff' then text.drop 1 else text
  let (statements, _) ← StateT.run (many statement?) text
  entriesOf? statements

end TextAnnotation.Toml
