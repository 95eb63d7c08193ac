import TextAnnotation.Decimal.Shortest
import TextAnnotation.Pipeline.Error
import TextAnnotation.Toml.Document

/-!
Settings: texts under keys. The settings of a TOML document have the keys on the way to a value, joined by
dots.
-/

namespace TextAnnotation

/-- Texts under keys. -/
abbrev Settings := TextMap String

namespace Settings

/-- A key below the path to its table. The table at an empty path is taken for the whole document. -/
def keyBelow (path key : String) : String := if path.isEmpty then key else path ++ "." ++ key

mutual

/-- The settings with those of the entries of a table written over them, one after the other. -/
def writeEntries (settings : Settings) (path : String) : List (String × Toml.Value) → Settings
  | [] => settings
  | (key, value) :: rest => writeEntries (write settings (keyBelow path key) value) path rest

/-- The settings with those of a value written over them. Arrays are left out. -/
def write (settings : Settings) (key : String) : Toml.Value → Settings
  | .table _ entries => writeEntries settings key entries
  | .text value => settings.insert key value
  | .integer value => settings.insert key (toString value)
  | .float value => settings.insert key value.render
  | .truth value => settings.insert key (Text.Description.truth value)
  | .moment value => settings.insert key value.render
  | .array _ => settings
  | .tables _ _ => settings

end

/-- The settings of a document, if the text is one. -/
def parse? (source : String) : Option Settings :=
  (Toml.parse? source).map (writeEntries TextMap.empty "")

/-- The settings of the document in a file. -/
def load (files : Files) (path : String) : Except PipelineError Settings :=
  match files.read path with
  | .error failure => .error (.unreadable path failure)
  | .ok bytes =>
    match Text.Utf8.decode bytes with
    | .error _ => .error (.unreadable path .notText)
    | .ok source =>
      match parse? source with
      | some settings => .ok settings
      | none => .error (.malformedSettings path)

/-- The setting of a key that must have one. -/
def require (settings : Settings) (key : String) : Except PipelineError String :=
  match settings.find? key with
  | some value => .ok value
  | none => .error (.missingSetting key)

end Settings

end TextAnnotation
