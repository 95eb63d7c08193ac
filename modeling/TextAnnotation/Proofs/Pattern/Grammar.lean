import TextAnnotation.Proofs.Pattern.Resolution

/-!
The grammar of patterns. The derivations of every nonterminal are trees; a tree spells lexemes, mentions names
on the way, and stands for a node:

    alternation := sequence ('|' sequence)*
    sequence    := element+
    element     := '->' | (NAME ':')? primary quantifier?
    primary     := '(' alternation ')' | lookahead | pinned | label | TEXT
    lookahead   := '(' '?' ('=' | '!') alternation ')'
    pinned      := '[' ('?' | '!')* (NAME ':')? label (alternation ('&' alternation)*)? ']'
    label       := NAME ('<' predicate (',' predicate)* '>')?
    predicate   := NAME '=' (TEXT | INTEGER | NAME | '$' NAME ('.' NAME)?)
    quantifier  := ('?' | '*' | '+' | '{' INTEGER (',' INTEGER?)? '}') '+'?

What a name stands for depends on what has been mentioned before it, and on nothing else.
-/

namespace TextAnnotation.Pattern

/-- One item or more. -/
inductive Series (α : Type) where
  | last (item : α)
  | next (item : α) (rest : Series α)

namespace Grammar

/-- What a predicate compares with. -/
inductive Operand where
  | text (value : String)
  | integer (value : Int)
  | bare (value : String)
  | capture (name : String)
  | reading (name accessor : String)

structure Predicate where
  accessor : String
  operand : Operand

structure Label where
  kindAlias : String
  predicates? : Option (Series Predicate)

inductive Bounds where
  | optional
  | any
  | some
  | exactly (count : Int)
  | atLeast (least : Int)
  | between (least most : Int)

structure Quantifier where
  bounds : Bounds
  possessive : Bool

inductive Flag where
  | seek
  | exact
deriving DecidableEq

mutual

inductive Element where
  | arrow
  | item (capture? : Option String) (primary : Primary) (quantifier? : Option Quantifier)

inductive Primary where
  | group (body : Series (Series Element))
  | lookahead (negated : Bool) (body : Series (Series Element))
  | pinned (flags : List Flag) (capture? : Option String) (label : Label)
    (conditions? : Option (Series (Series (Series Element))))
  | label (label : Label)
  | literal (text : String)

end

/-- A label of an alias, with nothing else said of it. -/
def Element.ofAlias (kindAlias : String) : Element := .item none (.label ⟨kindAlias, none⟩) none

abbrev Sequence := Series Element

abbrev Alternation := Series Sequence

/-- What a pattern mentions, in the order of its lexemes. -/
inductive Mention where
  /-- A capture of the name begins. -/
  | opens (name : String)
  /-- It is known from here on which labels the capture binds, if they are all of one alias. -/
  | closes (name : String) (boundAlias? : Option String)
  | refersTo (name : String)
  | reads (name accessor : String)
  | label (kindAlias : String)
  | asks (kindAlias accessor : String)
  | literal (text : String)
  | repeats (least : Int) (most? : Option Int)

end Grammar

namespace Series

def spell (separator : List Lexeme) (item : α → List Lexeme) : Series α → List Lexeme
  | last x => item x
  | next x rest => item x ++ separator ++ rest.spell separator item

def mentions (item : α → List Grammar.Mention) : Series α → List Grammar.Mention
  | last x => item x
  | next x rest => item x ++ rest.mentions item

/-- What the items stand for, each of them after what those before it have mentioned. -/
def resolve? (mentions : α → List Grammar.Mention) (item : List Grammar.Mention → α → Option β)
    (before : List Grammar.Mention) : Series α → Option (List β)
  | last x => (item before x).map ([·])
  | next x rest => do return (← item before x) :: (← rest.resolve? mentions item (before ++ mentions x))

end Series

namespace Grammar

def Operand.spell : Operand → List Lexeme
  | text value => [.text value]
  | integer value => [.integer value]
  | bare value => [.name value]
  | capture name => [.dollar, .name name]
  | reading name accessor => [.dollar, .name name, .dot, .name accessor]

def Predicate.spell (predicate : Predicate) : List Lexeme :=
  .name predicate.accessor :: .equals :: predicate.operand.spell

def Label.spell (label : Label) : List Lexeme :=
  .name label.kindAlias ::
    match label.predicates? with
    | none => []
    | some predicates => .leftAngle :: predicates.spell [.comma] Predicate.spell ++ [.rightAngle]

def Bounds.spell : Bounds → List Lexeme
  | optional => [.question]
  | any => [.star]
  | some => [.plus]
  | exactly count => [.leftBrace, .integer count, .rightBrace]
  | atLeast least => [.leftBrace, .integer least, .comma, .rightBrace]
  | between least most => [.leftBrace, .integer least, .comma, .integer most, .rightBrace]

def Quantifier.spell (quantifier : Quantifier) : List Lexeme :=
  quantifier.bounds.spell ++ if quantifier.possessive then [.plus] else []

def spellQuantifier : Option Quantifier → List Lexeme
  | none => []
  | some quantifier => quantifier.spell

def Flag.spell : Flag → Lexeme
  | seek => .question
  | exact => .bang

def spellCapture : Option String → List Lexeme
  | none => []
  | some name => [.name name, .colon]

mutual

def Element.spell : Element → List Lexeme
  | .arrow => [.arrow]
  | .item capture? primary quantifier? =>
    spellCapture capture? ++ primary.spell ++ spellQuantifier quantifier?

def Primary.spell : Primary → List Lexeme
  | .group body => .leftParen :: spellAlternation body ++ [.rightParen]
  | .lookahead negated body =>
    .leftParen :: .question :: (if negated then .bang else .equals) :: spellAlternation body ++ [.rightParen]
  | .pinned flags capture? label none =>
    .leftBracket :: flags.map Flag.spell ++ spellCapture capture? ++ label.spell ++ [.rightBracket]
  | .pinned flags capture? label (some conditions) =>
    .leftBracket :: flags.map Flag.spell ++ spellCapture capture? ++ label.spell ++
      spellConditions conditions ++ [.rightBracket]
  | .label label => label.spell
  | .literal text => [.text text]

def spellSequence : Series Element → List Lexeme
  | .last element => element.spell
  | .next element rest => element.spell ++ spellSequence rest

def spellAlternation : Series (Series Element) → List Lexeme
  | .last sequence => spellSequence sequence
  | .next sequence rest => spellSequence sequence ++ .pipe :: spellAlternation rest

def spellConditions : Series (Series (Series Element)) → List Lexeme
  | .last condition => spellAlternation condition
  | .next condition rest => spellAlternation condition ++ .ampersand :: spellConditions rest

end

/-- The alias of the labels that a capture of the tree binds, where they are all of one. -/
def Primary.boundAlias? : Primary → Option String
  | .group (.last (.last (.item none primary _))) => primary.boundAlias?
  | .pinned _ none term _ => some term.kindAlias
  | .label term => some term.kindAlias
  | _ => none

def Operand.mentions : Operand → List Mention
  | capture name => [.refersTo name]
  | reading name accessor => [.refersTo name, .reads name accessor]
  | _ => []

def Predicate.mentions (kindAlias : String) (predicate : Predicate) : List Mention :=
  .asks kindAlias predicate.accessor :: predicate.operand.mentions

def Label.mentions (label : Label) : List Mention :=
  .label label.kindAlias ::
    match label.predicates? with
    | none => []
    | some predicates => predicates.mentions (Predicate.mentions label.kindAlias)

def Bounds.mentions : Bounds → List Mention
  | exactly count => [.repeats count (Option.some count)]
  | atLeast least => [.repeats least none]
  | between least most => [.repeats least (Option.some most)]
  | _ => []

def mentionsQuantifier : Option Quantifier → List Mention
  | none => []
  | some quantifier => quantifier.bounds.mentions

def opening : Option String → List Mention
  | none => []
  | some name => [.opens name]

def closing (boundAlias? : Option String) : Option String → List Mention
  | none => []
  | some name => [.closes name boundAlias?]

mutual

def Element.mentions : Element → List Mention
  | .arrow => []
  | .item capture? primary quantifier? =>
    opening capture? ++ primary.mentions ++ mentionsQuantifier quantifier? ++ closing primary.boundAlias? capture?

/-- The capture of a pinned label is known to bind it before its predicates are met. -/
def Primary.mentions : Primary → List Mention
  | .group body => mentionsAlternation body
  | .lookahead _ body => mentionsAlternation body
  | .pinned _ capture? label none => opening capture? ++ closing (some label.kindAlias) capture? ++ label.mentions
  | .pinned _ capture? label (some conditions) =>
    opening capture? ++ closing (some label.kindAlias) capture? ++ label.mentions ++ mentionsConditions conditions
  | .label label => label.mentions
  | .literal text => [.literal text]

def mentionsSequence : Series Element → List Mention
  | .last element => element.mentions
  | .next element rest => element.mentions ++ mentionsSequence rest

def mentionsAlternation : Series (Series Element) → List Mention
  | .last sequence => mentionsSequence sequence
  | .next sequence rest => mentionsSequence sequence ++ mentionsAlternation rest

def mentionsConditions : Series (Series (Series Element)) → List Mention
  | .last condition => mentionsAlternation condition
  | .next condition rest => mentionsAlternation condition ++ mentionsConditions rest

end

/-- The captures declared by mentions, in order, each with what is known of it in the end. -/
def declared (mentions : List Mention) : List DeclaredCapture :=
  mentions.foldl (fun captures mention =>
    match mention with
    | .opens name => captures ++ [{ name }]
    | .closes name boundAlias? =>
      captures.map fun capture => if capture.name = name then { capture with boundAlias? } else capture
    | _ => captures) []

def Mention.kind? (table : AliasTable) : Mention → Option LabelKind
  | label kindAlias => (table.find? kindAlias).map (·.kind)
  | literal _ => table.tokenText?.map (·.kind)
  | _ => none

/-- The kinds of the labels mentioned, in the order of first use. -/
def kinds (table : AliasTable) (mentions : List Mention) : List LabelKind :=
  (mentions.filterMap (·.kind? table)).eraseDups

/-- The slot of a kind that is used after the given mentions. -/
def kindSlot (table : AliasTable) (before : List Mention) (kind : LabelKind) : Nat :=
  (kinds table before ++ [kind]).idxOf kind

/-- The alias of the labels that a capture is known to bind. -/
def boundAlias? (before : List Mention) (name : String) : Option String :=
  ((declared before).find? (·.name == name)).bind (·.boundAlias?)

/-- Whether a number may be the count of a repetition. -/
def Counts (count : Int) : Prop := 0 ≤ count ∧ count ≤ Parse.maxCount

/-- Whether something may be mentioned after the given mentions. -/
def Mention.Permitted (table : AliasTable) (before : List Mention) : Mention → Prop
  | opens name => name ∉ (declared before).map (·.name)
  | closes _ _ => True
  | refersTo name => name ∈ (declared before).map (·.name)
  | reads name accessor => ((boundAlias? before name).bind (table.accessor? · accessor)).isSome
  | label kindAlias => (table.find? kindAlias).isSome
  | asks kindAlias accessor => (table.accessor? kindAlias accessor).isSome
  | literal text => Text.words text ≠ [] ∧ table.tokenText?.isSome
  | repeats least most? => Counts least ∧ ∀ most ∈ most?, Counts most ∧ least ≤ most

/-- Whether everything may be mentioned after what is mentioned before it. -/
def Permitted (table : AliasTable) (before : List Mention) : List Mention → Prop
  | [] => True
  | mention :: rest => mention.Permitted table before ∧ Permitted table (before ++ [mention]) rest

instance decidableCounts (count : Int) : Decidable (Counts count) := inferInstanceAs (Decidable (_ ∧ _))

instance Mention.decidablePermitted (table : AliasTable) (before : List Mention) :
    (mention : Mention) → Decidable (mention.Permitted table before)
  | opens name => inferInstanceAs (Decidable (name ∉ _))
  | closes _ _ => isTrue trivial
  | refersTo name => inferInstanceAs (Decidable (name ∈ _))
  | reads _ _ => inferInstanceAs (Decidable (_ = true))
  | label _ => inferInstanceAs (Decidable (_ = true))
  | asks _ _ => inferInstanceAs (Decidable (_ = true))
  | literal _ => inferInstanceAs (Decidable (_ ≠ [] ∧ _ = true))
  | repeats _ _ => inferInstanceAs (Decidable (_ ∧ ∀ most ∈ _, _))

instance decidablePermitted (table : AliasTable) (before : List Mention) :
    (mentions : List Mention) → Decidable (Permitted table before mentions)
  | [] => isTrue trivial
  | mention :: rest =>
    @instDecidableAnd _ _ (mention.decidablePermitted table before)
      (decidablePermitted table (before ++ [mention]) rest)

def Operand.resolve? (table : AliasTable) (before : List Mention) : Operand → Option Expected
  | text value => some (.value (.text value))
  | integer value => some (.value (.integer value))
  | bare value =>
    some (.value (if value = "true" then .truth true else if value = "false" then .truth false else .text value))
  | capture name => ((declared before).findIdx? (·.name == name)).map (.spanOf name)
  | reading name accessor => do
    let slot ← (declared before).findIdx? (·.name == name)
    let kindAlias ← boundAlias? before name
    let read ← table.accessor? kindAlias accessor
    return .readingOf name slot accessor read

def Predicate.resolve? (table : AliasTable) (kindAlias : String) (before : List Mention)
    (predicate : Predicate) : Option Pattern.Predicate := do
  let read ← table.accessor? kindAlias predicate.accessor
  let expected ← predicate.operand.resolve? table (before ++ [.asks kindAlias predicate.accessor])
  return { accessor := predicate.accessor, expected, read }

def Label.resolve? (table : AliasTable) (before : List Mention) (label : Label) : Option LabelTerm := do
  let registered ← table.find? label.kindAlias
  let slot := kindSlot table before registered.kind
  match label.predicates? with
  | none => return { kindAlias := label.kindAlias, slot }
  | some series =>
    let predicates ← series.resolve? (Predicate.mentions label.kindAlias)
      (Predicate.resolve? table label.kindAlias) (before ++ [.label label.kindAlias])
    return { kindAlias := label.kindAlias, slot, predicates }

def Bounds.range : Bounds → Nat × Option Nat
  | optional => (0, Option.some 1)
  | any => (0, none)
  | some => (1, none)
  | exactly count => (count.toNat, Option.some count.toNat)
  | atLeast least => (least.toNat, none)
  | between least most => (least.toNat, Option.some most.toNat)

/-- A node under a quantifier. Whether that is possessive makes no difference. -/
def quantify (node : Node) : Option Quantifier → Node
  | none => node
  | some quantifier => .repetition node quantifier.bounds.range.1 quantifier.bounds.range.2

/-- A node in a capture, whose slot is the number of captures declared before. -/
def enclose (before : List Mention) (node : Node) : Option String → Node
  | none => node
  | some _ => .capture (declared before).length node

/-- A sequence, its only element if it has one. -/
def joinSequence : List Node → Node
  | [node] => node
  | nodes => .sequence nodes

/-- An alternation, its only alternative if it has one. -/
def joinAlternation : List Node → Node
  | [node] => node
  | nodes => .alternation nodes

def literalNode? (table : AliasTable) (before : List Mention) (text : String) : Option Node :=
  table.tokenText?.map fun read => .literal (.ofText text (kindSlot table before read.kind) read)

mutual

/-- The node that a tree stands for after the given mentions. -/
def Element.node? (table : AliasTable) (before : List Mention) : Element → Option Node
  | .arrow => some .adjacent
  | .item capture? primary quantifier? =>
    (primary.node? table (before ++ opening capture?)).map fun node =>
      enclose before (quantify node quantifier?) capture?

def Primary.node? (table : AliasTable) (before : List Mention) : Primary → Option Node
  | .group body => (alternatives? table before body).map joinAlternation
  | .lookahead negated body =>
    (alternatives? table before body).map fun nodes => .lookahead (joinAlternation nodes) negated
  | .pinned flags capture? label none =>
    (label.resolve? table (before ++ opening capture? ++ closing (some label.kindAlias) capture?)).map fun term =>
      enclose before (.pinned term (flags.contains .seek) (flags.contains .exact) []) capture?
  | .pinned flags capture? label (some conditions) => do
    let opened := before ++ opening capture? ++ closing (some label.kindAlias) capture?
    let term ← label.resolve? table opened
    let nodes ← conditions? table (opened ++ label.mentions) conditions
    return enclose before (.pinned term (flags.contains .seek) (flags.contains .exact) nodes) capture?
  | .label label => (label.resolve? table before).map .label
  | .literal text => literalNode? table before text

def elements? (table : AliasTable) (before : List Mention) : Series Element → Option (List Node)
  | .last element => (element.node? table before).map ([·])
  | .next element rest => do
    return (← element.node? table before) :: (← elements? table (before ++ element.mentions) rest)

def alternatives? (table : AliasTable) (before : List Mention) : Series (Series Element) → Option (List Node)
  | .last sequence => ((elements? table before sequence).map joinSequence).map ([·])
  | .next sequence rest => do
    return (← (elements? table before sequence).map joinSequence) ::
      (← alternatives? table (before ++ mentionsSequence sequence) rest)

def conditions? (table : AliasTable) (before : List Mention) :
    Series (Series (Series Element)) → Option (List Node)
  | .last condition => ((alternatives? table before condition).map joinAlternation).map ([·])
  | .next condition rest => do
    return (← (alternatives? table before condition).map joinAlternation) ::
      (← conditions? table (before ++ mentionsAlternation condition) rest)

end

end Grammar

end TextAnnotation.Pattern
