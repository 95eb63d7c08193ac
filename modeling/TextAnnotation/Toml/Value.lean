import TextAnnotation.Decimal.Binary64
import TextAnnotation.TextMap
import TextAnnotation.Toml.Moment

/-!
The values of a TOML document, and what may be added to a table, given how it came about.
-/

namespace TextAnnotation.Toml

/-- How a table came about. -/
inductive Origin where
  /-- On the way to a table that a header names. -/
  | implied
  /-- On the way to a value with a dotted key. -/
  | dotted
  /-- By a header of its own. -/
  | header
  /-- As a value in braces, to which nothing can be added. -/
  | inline
deriving DecidableEq, Repr

/-- A value; the entries of a table are in the order of their keys. -/
inductive Value where
  | text (value : String)
  | integer (value : Int)
  | float (value : Decimal.Binary64)
  | truth (value : Bool)
  | moment (value : Moment)
  | array (items : List Value)
  | table (origin : Origin) (entries : List (String × Value))
  /-- An array of tables made by headers: the earlier ones and the last, which is still open. -/
  | tables (earlier : List (List (String × Value))) (last : List (String × Value))

/-- The entries of a table in the order of their keys. -/
abbrev Entries := List (String × Value)

/-- A change of the table at the end of a path, which fails if the table does not admit it. -/
abbrev Change := Origin → Entries → Option Entries

/-- A way of following paths: what becomes of a table that is missing, and which tables may be entered. -/
structure Passage where
  missing : Origin
  enters : Origin → Bool

/-- The path of a header goes through all tables but those in braces. -/
def Passage.ofHeader : Passage := ⟨.implied, (· != .inline)⟩

/-- A dotted key does not enter tables that have a header of their own. -/
def Passage.ofKey : Passage := ⟨.dotted, fun origin => origin == .implied || origin == .dotted⟩

/-- The entries of a table with the table at the end of a path changed. Of an array of tables the last one
is entered. -/
def changeAt (passage : Passage) (change : Change) : List String → Change
  | [], origin, entries => change origin entries
  | key :: path, _, entries =>
    match entries.lookup key with
    | none => do
      let inner ← changeAt passage change path passage.missing []
      return TextMap.insertEntry key (.table passage.missing inner) entries
    | some (.table origin inner) =>
      if passage.enters origin then do
        let inner ← changeAt passage change path origin inner
        return TextMap.insertEntry key (.table origin inner) entries
      else none
    | some (.tables earlier last) => do
      let last ← changeAt passage change path .header last
      return TextMap.insertEntry key (.tables earlier last) entries
    | some _ => none

/-- Adds a value under a new key. -/
def define (key : String) (value : Value) : Change := fun _ entries =>
  if (entries.lookup key).isSome then none else some (TextMap.insertEntry key value entries)

/-- Adds a value under a dotted key. The table that holds it must have come about by dotted keys too. -/
def defineAt (path : List String) (key : String) (value : Value) : Change := fun origin entries =>
  if path.isEmpty then define key value origin entries
  else
    changeAt .ofKey
      (fun origin entries => if origin = .dotted then define key value origin entries else none)
      path origin entries

/-- Opens the table of a header: a new one, or one that was only implied so far. -/
def openTable (key : String) : Change := fun _ entries =>
  match entries.lookup key with
  | none => some (TextMap.insertEntry key (.table .header []) entries)
  | some (.table .implied inner) => some (TextMap.insertEntry key (.table .header inner) entries)
  | some _ => none

/-- Opens the next table of an array of tables. -/
def openNext (key : String) : Change := fun _ entries =>
  match entries.lookup key with
  | none => some (TextMap.insertEntry key (.tables [] []) entries)
  | some (.tables earlier last) => some (TextMap.insertEntry key (.tables (earlier ++ [last]) []) entries)
  | some _ => none

/-- The table in braces with the given values under dotted keys. -/
def inlineTable? (values : List ((List String × String) × Value)) : Option Value := do
  let entries ← values.foldlM (fun entries ((path, key), value) => defineAt path key value .inline entries) []
  return .table .inline entries

/-- What stands in a document, from top to bottom. -/
inductive Statement where
  | header (path : List String) (key : String)
  | nextHeader (path : List String) (key : String)
  | entry (path : List String) (key : String) (value : Value)

/-- The entries of a document so far, and the path of the table that its last header has opened. -/
structure Building where
  entries : Entries := []
  opened : List String := []

namespace Building

def add (building : Building) : Statement → Option Building
  | .header path key => do
    let entries ← changeAt .ofHeader (openTable key) path .header building.entries
    return { entries, opened := path ++ [key] }
  | .nextHeader path key => do
    let entries ← changeAt .ofHeader (openNext key) path .header building.entries
    return { entries, opened := path ++ [key] }
  | .entry path key value => do
    let entries ← changeAt .ofHeader (defineAt path key value) building.opened .header building.entries
    return { building with entries }

end Building

/-- The entries of a document, unless a statement contradicts an earlier one. -/
def entriesOf? (statements : List Statement) : Option Entries :=
  (statements.foldlM Building.add {}).map (·.entries)

end TextAnnotation.Toml
