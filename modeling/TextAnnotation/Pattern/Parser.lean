import TextAnnotation.Pattern.Alias
import TextAnnotation.Pattern.Lexer
import TextAnnotation.Pattern.Node

/-!
Parsing patterns, by recursive descent over their lexemes:

    pattern     := alternation
    alternation := sequence ('|' sequence)*
    sequence    := element+
    element     := '->' | (NAME ':')? primary quantifier?
    primary     := '(' alternation ')' | lookahead | pinned | label | TEXT
    lookahead   := '(' '?' ('=' | '!') alternation ')'
    pinned      := '[' ('?' | '!')* (NAME ':')? label (alternation ('&' alternation)*)? ']'
    label       := NAME ('<' predicate (',' predicate)* '>')?
    predicate   := NAME '=' (TEXT | INTEGER | NAME | '$' NAME ('.' NAME)?)
    quantifier  := ('?' | '*' | '+' | '{' INTEGER (',' INTEGER?)? '}') '+'?

Aliases, accessors and captures are resolved on the way, so that every error has the offset of its cause.
Repetition never gives back what it has taken, so the `+` after a quantifier changes nothing.
-/

namespace TextAnnotation.Pattern

/-- A capture declared so far. The alias is that of the label it holds, where that is always of one
kind. -/
structure DeclaredCapture where
  name : String
  boundAlias? : Option String := none
deriving DecidableEq, Repr

/-- How far the parser has come: the lexeme under it, those ahead, and the kinds and captures met so
far. -/
structure Progress where
  current : Located
  ahead : List Located
  /-- Why there are no more lexemes, if the text breaks off. -/
  failure? : Option PatternError
  kinds : List LabelKind := []
  captures : List DeclaredCapture := []

abbrev Parse := StateT Progress (Except PatternError)

namespace Parse

def current : Parse Lexeme := return (← get).current.lexeme

def offset : Parse Nat := return (← get).current.offset

def malformed (fault : Fault) : Parse α := do throw (malformedAt (← offset) fault)

def unexpected (what : Expectation) : Parse α := do malformed (.expected what (← current))

/-- Steps over the current lexeme. Whatever breaks the text off is met on stepping up to it. -/
def advance : Parse Unit := do
  let progress ← get
  match progress.ahead, progress.failure? with
  | next :: ahead, _ => set { progress with current := next, ahead }
  | [], some e => throw e
  | [], none => return

/-- Steps over the current lexeme, which must be the given one. -/
def expect (lexeme : Lexeme) (what : Expectation) : Parse Unit := do
  if (← current) = lexeme then advance else unexpected what

/-- Steps over the current lexeme if it is the given one, and tells whether it was. -/
def accept (lexeme : Lexeme) : Parse Bool := do
  if (← current) = lexeme then
    advance
    return true
  else return false

/-- Steps over a name, and gives it with its offset. -/
def name (what : Expectation) : Parse (String × Nat) := do
  match ← current with
  | .name value =>
    let offset ← offset
    advance
    return (value, offset)
  | _ => unexpected what

/-- One item and more, as long as the separator follows, up to `more` further ones. -/
def separatedUpTo (separator : Lexeme) (item : Parse α) : Nat → Parse (List α)
  | 0 => return [← item]
  | more + 1 => do
    let first ← item
    if ← accept separator then return first :: (← separatedUpTo separator item more) else return [first]

/-- One item and more, as long as the separator follows. Every item but the first takes a lexeme. -/
def separated (separator : Lexeme) (item : Parse α) : Parse (List α) := do
  separatedUpTo separator item (← get).ahead.length

def endsSequence : Lexeme → Bool
  | .pipe | .rightParen | .rightBracket | .ampersand | .finish => true
  | _ => false

/-- Items up to the end of a sequence, at most `most`. -/
def untilEndUpTo (item : Parse α) : Nat → Parse (List α)
  | 0 => return []
  | most + 1 => do
    if endsSequence (← current) then return []
    else return (← item) :: (← untilEndUpTo item most)

/-- Items up to the end of a sequence. Every item takes a lexeme. -/
def untilEnd (item : Parse α) : Parse (List α) := do untilEndUpTo item ((← get).ahead.length + 1)

/-- The slot of a kind, a new one if the pattern has not referred to it yet. -/
def kindSlot (kind : LabelKind) : Parse Nat := do
  let progress ← get
  match progress.kinds.idxOf? kind with
  | some slot => return slot
  | none =>
    set { progress with kinds := progress.kinds ++ [kind] }
    return progress.kinds.length

/-- The slot of a new capture. -/
def declareCapture (name : String) (offset : Nat) : Parse Nat := do
  let progress ← get
  if progress.captures.any (·.name == name) then throw ⟨.duplicateCapture name, offset⟩
  else
    set { progress with captures := progress.captures ++ [({ name } : DeclaredCapture)] }
    return progress.captures.length

/-- Records of what kind the label of a capture is. -/
def bindAlias (slot : Nat) (boundAlias? : Option String) : Parse Unit :=
  modify fun progress =>
    { progress with captures := progress.captures.modify slot fun capture => { capture with boundAlias? } }

/-- A value that a predicate names. A name other than `true` and `false` is a text. -/
def value : Parse AttributeValue := do
  let value : AttributeValue ← match ← current with
    | .text text => pure (.text text)
    | .integer n => pure (.integer n)
    | .name "true" => pure (.truth true)
    | .name "false" => pure (.truth false)
    | .name text => pure (.text text)
    | _ => unexpected .value
  advance
  return value

/-- A reference to a capture, after its mark. -/
def captured (table : AliasTable) : Parse Expected := do
  let (name, offset) ← name .captureName
  let captures := (← get).captures
  match captures.findIdx? (·.name == name) with
  | none => throw ⟨.unknownCapture name, offset⟩
  | some slot =>
    if ← accept .dot then
      let (accessor, accessorOffset) ← Parse.name .accessor
      match captures[slot]?.bind (·.boundAlias?) with
      | none => throw (malformedAt offset (.severalKinds name))
      | some kindAlias =>
        match table.accessor? kindAlias accessor with
        | none => throw ⟨.unknownAccessor kindAlias accessor, accessorOffset⟩
        | some read => return .readingOf name slot accessor read
    else return .spanOf name slot

/-- A predicate on the labels that an alias stands for. -/
def predicate (table : AliasTable) (kindAlias : String) (registered : RegisteredKind) :
    Parse Predicate := do
  let (accessor, offset) ← name .accessor
  match registered.accessors.find? accessor with
  | none => throw ⟨.unknownAccessor kindAlias accessor, offset⟩
  | some read =>
    expect .equals .equals
    let expected ← if ← accept .dollar then captured table else pure (.value (← value))
    return { accessor, expected, read }

/-- A label, after its alias, which stands at `offset`. -/
def labelTerm (table : AliasTable) (kindAlias : String) (offset : Nat) : Parse LabelTerm := do
  match table.find? kindAlias with
  | none => throw ⟨.unknownAlias kindAlias, offset⟩
  | some registered =>
    let slot ← kindSlot registered.kind
    if ← accept .leftAngle then
      let predicates ← separated .comma (predicate table kindAlias registered)
      expect .rightAngle .closingAngle
      return { kindAlias, slot, predicates }
    else return { kindAlias, slot }

/-- A literal of a text that stands at `offset`. -/
def literal (table : AliasTable) (text : String) (offset : Nat) : Parse Node := do
  match table.tokenText? with
  | none => throw ⟨.noTokenKind, offset⟩
  | some read =>
    let slot ← kindSlot read.kind
    let literal := Literal.ofText text slot read
    if literal.wordCount = 0 then throw (malformedAt offset .emptyLiteral)
    else return .literal literal

/-- The largest count of a repetition. -/
def maxCount : Nat := 4294967295

def count : Parse Nat := do
  match ← current with
  | .integer value =>
    if 0 ≤ value ∧ value ≤ maxCount then
      advance
      return value.toNat
    else malformed (.invalidCount value)
  | _ => unexpected .count

/-- The bounds in braces, up to the closing brace. -/
def bounds : Parse (Nat × Option Nat) := do
  let minimum ← count
  let maximum? ←
    if ← accept .comma then
      if (← current) = .rightBrace then pure none else some <$> count
    else pure (some minimum)
  match maximum? with
  | some maximum => if maximum < minimum then malformed (.maximumBelowMinimum maximum minimum)
  | none => pure ()
  if (← current) = .rightBrace then return (minimum, maximum?) else unexpected .closingBrace

/-- The bounds of a quantifier up to its last lexeme; none if there is no quantifier. -/
def quantifierBounds? : Parse (Option (Nat × Option Nat)) := do
  match ← current with
  | .question => return some (0, some 1)
  | .star => return some (0, none)
  | .plus => return some (1, none)
  | .leftBrace =>
    advance
    return some (← bounds)
  | _ => return none

/-- A node under the quantifier that follows it, if one does. -/
def quantified (node : Node) : Parse Node := do
  match ← quantifierBounds? with
  | none => return node
  | some (minimum, maximum?) =>
    advance
    match ← current with
    | .plus => advance
    | .question => malformed .reluctantRepetition
    | _ => pure ()
    return .repetition node minimum maximum?

/-- A lookahead, after its opening parenthesis and question mark. -/
def lookahead (inner : Parse Node) : Parse Node := do
  let negated ← match ← current with
    | .equals => pure false
    | .bang => pure true
    | _ => unexpected .lookaheadSign
  advance
  let body ← inner
  expect .rightParen .closingParen
  return .lookahead body negated

/-- The flags of a pinned label: whether it seeks, and whether it is exact. At most `most` are read. -/
def flagsUpTo (seek exact : Bool) : Nat → Parse (Bool × Bool)
  | 0 => return (seek, exact)
  | most + 1 => do
    if ← accept .question then flagsUpTo true exact most
    else if ← accept .bang then flagsUpTo seek true most
    else return (seek, exact)

/-- A pinned label, after its opening bracket. -/
def pinned (table : AliasTable) (inner : Parse Node) : Parse Node := do
  let (seek, exact) ← flagsUpTo false false ((← get).ahead.length + 1)
  let (name, offset) ← name .labelKind
  let (capture?, term) ←
    if ← accept .colon then
      let slot ← declareCapture name offset
      let (kindAlias, aliasOffset) ← Parse.name .labelKind
      bindAlias slot (some kindAlias)
      pure (some slot, ← labelTerm table kindAlias aliasOffset)
    else pure (none, ← labelTerm table name offset)
  let conditions ← if (← current) = .rightBracket then pure [] else separated .ampersand inner
  expect .rightBracket .closingBracket
  let node := Node.pinned term seek exact conditions
  match capture? with
  | some slot => return .capture slot node
  | none => return node

/-- A primary that does not begin with a name. -/
def enclosed (table : AliasTable) (inner : Parse Node) : Parse Node := do
  match ← current with
  | .leftParen =>
    advance
    if ← accept .question then lookahead inner
    else
      let node ← inner
      expect .rightParen .closingParen
      return node
  | .leftBracket =>
    advance
    pinned table inner
  | .text text =>
    let offset ← offset
    advance
    literal table text offset
  | _ => unexpected .term

def primary (table : AliasTable) (inner : Parse Node) : Parse Node := do
  match ← current with
  | .name kindAlias =>
    let offset ← offset
    advance
    return .label (← labelTerm table kindAlias offset)
  | _ => enclosed table inner

def element (table : AliasTable) (inner : Parse Node) : Parse Node := do
  match ← current with
  | .arrow =>
    advance
    return .adjacent
  | .name name =>
    let offset ← offset
    advance
    if ← accept .colon then
      let slot ← declareCapture name offset
      let body ← quantified (← primary table inner)
      bindAlias slot body.boundAlias?
      return .capture slot body
    else quantified (.label (← labelTerm table name offset))
  | _ => quantified (← enclosed table inner)

/-- A sequence, its only element if it has one. -/
def sequence (table : AliasTable) (inner : Parse Node) : Parse Node := do
  match ← untilEnd (element table inner) with
  | [] => unexpected .term
  | [node] => return node
  | elements => return .sequence elements

/-- An alternation, its only alternative if it has one, with at most `depth` brackets open at a time. -/
def alternation (table : AliasTable) : Nat → Parse Node
  | 0 => unexpected .term
  | depth + 1 => do
    match ← separated .pipe (sequence table (alternation table depth)) with
    | [node] => return node
    | alternatives => return .alternation alternatives

end Parse

end TextAnnotation.Pattern

namespace TextAnnotation.Pattern

/-- The pattern that a text spells, with names from an alias table. Every open bracket takes a lexeme. -/
def parse (table : AliasTable) (source : String) : Except PatternError Pattern :=
  match lex source with
  | ⟨[], failure?⟩ => .error (failure?.getD (malformedAt 0 (.expected .term .finish)))
  | ⟨first :: ahead, failure?⟩ => do
    let (root, progress) ←
      (Parse.alternation table (ahead.length + 2)).run { current := first, ahead, failure? }
    if progress.current.lexeme = .finish then
      return {
        source, root
        kinds := progress.kinds
        captureNames := progress.captures.map (·.name) }
    else .error (malformedAt progress.current.offset (.expected .finish progress.current.lexeme))

end TextAnnotation.Pattern
