import TextAnnotation.Label
import TextAnnotation.Text.Description
import TextAnnotation.Text.Quoted

/-!
The names under which patterns refer to kinds of labels, with what they may ask of the labels of each.
-/

namespace TextAnnotation.Pattern

/-- A kind of label as patterns see it. The text of its labels can be read only if it is registered for
literals. -/
structure RegisteredKind where
  kind : LabelKind
  accessors : TextMap Accessor := {}
  text? : Option (Reading String) := none

/-- The registered kinds by alias, and the alias of the kind that literals match. -/
structure AliasTable where
  registered : TextMap RegisteredKind := {}
  tokenAlias? : Option String := none

namespace AliasTable

/-- The table with a kind under an alias, in place of any earlier one. If the alias was that of the
literals, they are left without a kind. -/
def register (table : AliasTable) (kindAlias : String) (kind : LabelKind)
    (accessors : List (String × Accessor)) : AliasTable :=
  { registered := table.registered.insert kindAlias { kind, accessors := .ofList accessors }
    tokenAlias? := if table.tokenAlias? = some kindAlias then none else table.tokenAlias? }

/-- The table with a kind under an alias that literals match from now on. Its labels have the accessor
`text`, unless the given ones replace it. -/
def registerToken (table : AliasTable) (kindAlias : String) (kind : LabelKind)
    (accessors : List (String × Accessor)) : AliasTable :=
  let registered : RegisteredKind :=
    { kind
      accessors := .ofList (("text", Accessor.text kind) :: accessors)
      text? := some ⟨kind, Label.text⟩ }
  { registered := table.registered.insert kindAlias registered, tokenAlias? := some kindAlias }

def contains (table : AliasTable) (kindAlias : String) : Bool := table.registered.contains kindAlias

def size (table : AliasTable) : Nat := table.registered.size

def isEmpty (table : AliasTable) : Bool := table.registered.isEmpty

def find? (table : AliasTable) (kindAlias : String) : Option RegisteredKind := table.registered.find? kindAlias

/-- An accessor of the labels that an alias stands for. -/
def accessor? (table : AliasTable) (kindAlias name : String) : Option Accessor :=
  (table.find? kindAlias).bind (·.accessors.find? name)

/-- The reading of the texts that literals match. -/
def tokenText? (table : AliasTable) : Option (Reading String) :=
  table.tokenAlias?.bind fun kindAlias => (table.find? kindAlias).bind (·.text?)

/-- The table as a record of its aliases. -/
def describe (table : AliasTable) : String :=
  Text.Description.record "LabelAliases" [
    ("aliases", Text.Description.list (table.registered.keys.map Text.quoted)),
    ("token_alias", Text.Description.optional (table.tokenAlias?.map Text.quoted))]

end AliasTable

end TextAnnotation.Pattern
