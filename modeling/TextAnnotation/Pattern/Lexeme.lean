import TextAnnotation.Text.Quoted

/-!
The lexemes of the pattern language and the errors of patterns, each with the offset of its cause.
-/

namespace TextAnnotation.Pattern

/-- A lexeme of the pattern language; `finish` stands after the last one. -/
inductive Lexeme where
  | name (value : String)
  | text (value : String)
  | integer (value : Int)
  | arrow | pipe | question | bang | colon | ampersand | dollar | dot | star | plus | comma | equals
  | leftParen | rightParen | leftBracket | rightBracket | leftAngle | rightAngle
  | leftBrace | rightBrace
  | finish
deriving DecidableEq, Repr

namespace Lexeme

/-- The lexeme as messages name it. -/
def describe : Lexeme → String
  | name value => "Ident(" ++ Text.quoted value ++ ")"
  | text value => "Str(" ++ Text.quoted value ++ ")"
  | integer value => "Int(" ++ toString value ++ ")"
  | arrow => "Arrow"
  | pipe => "Pipe"
  | question => "Question"
  | bang => "Bang"
  | colon => "Colon"
  | ampersand => "Amp"
  | dollar => "Dollar"
  | dot => "Dot"
  | star => "Star"
  | plus => "Plus"
  | comma => "Comma"
  | equals => "Eq"
  | leftParen => "LeftParen"
  | rightParen => "RightParen"
  | leftBracket => "LeftBracket"
  | rightBracket => "RightBracket"
  | leftAngle => "LeftAngle"
  | rightAngle => "RightAngle"
  | leftBrace => "LeftBrace"
  | rightBrace => "RightBrace"
  | finish => "Eof"

/-- The lexemes of one character. -/
def punctuation? : Char → Option Lexeme
  | '|' => some pipe
  | '?' => some question
  | '!' => some bang
  | ':' => some colon
  | '&' => some ampersand
  | '$' => some dollar
  | '.' => some dot
  | '*' => some star
  | '+' => some plus
  | ',' => some comma
  | '=' => some equals
  | '(' => some leftParen
  | ')' => some rightParen
  | '[' => some leftBracket
  | ']' => some rightBracket
  | '<' => some leftAngle
  | '>' => some rightAngle
  | '\x7b' => some leftBrace
  | '\x7d' => some rightBrace
  | _ => none

end Lexeme

/-- What a pattern lacks at some place. -/
inductive Expectation where
  | finish | term | closingParen | lookaheadSign | labelKind | closingBracket | accessor | equals
  | closingAngle | value | captureName | closingBrace | count
deriving DecidableEq, Repr

def Expectation.describe : Expectation → String
  | finish => "end of expression"
  | term => "a term"
  | closingParen => "')'"
  | lookaheadSign => "'=' or '!'"
  | labelKind => "a label type"
  | closingBracket => "']'"
  | accessor => "an accessor name"
  | equals => "'='"
  | closingAngle => "'>'"
  | value => "a value"
  | captureName => "a capture name"
  | closingBrace => "'\x7d'"
  | count => "a repetition count"

/-- How the text of a pattern can be malformed. -/
inductive Fault where
  | unexpectedCharacter (c : Char)
  | unterminatedText
  | invalidEscape
  | integerOutOfRange
  | expected (what : Expectation) (found : Lexeme)
  | invalidCount (value : Int)
  | maximumBelowMinimum (maximum minimum : Nat)
  | reluctantRepetition
  /-- A capture whose label can be of several kinds, or of none. -/
  | severalKinds (capture : String)
  | emptyLiteral
deriving DecidableEq, Repr

def Fault.message : Fault → String
  | unexpectedCharacter c => "unexpected character " ++ Text.quotedChar c
  | unterminatedText => "unterminated string"
  | invalidEscape => "invalid escape in string"
  | integerOutOfRange => "integer out of range"
  | expected what found => "expected " ++ what.describe ++ ", found " ++ found.describe
  | invalidCount value => "invalid repetition count " ++ toString value
  | maximumBelowMinimum maximum minimum =>
    "repetition maximum " ++ toString maximum ++ " is below minimum " ++ toString minimum
  | reluctantRepetition => "reluctant repetition is not supported"
  | severalKinds capture => "capture " ++ Text.quoted capture ++ " does not bind a single label type"
  | emptyLiteral => "empty literal"

/-- Why a pattern was refused. -/
inductive Problem where
  | malformed (fault : Fault)
  | unknownAlias (kindAlias : String)
  | unknownAccessor (kindAlias accessor : String)
  | duplicateCapture (name : String)
  | unknownCapture (name : String)
  | noTokenKind
deriving DecidableEq, Repr

end TextAnnotation.Pattern

namespace TextAnnotation

/-- A refused pattern: what is wrong, and the byte offset in the pattern where it is. -/
structure PatternError where
  problem : Pattern.Problem
  offset : Nat
deriving DecidableEq, Repr

def PatternError.message (e : PatternError) : String :=
  let offset := toString e.offset
  match e.problem with
  | .malformed fault => "syntax error at offset " ++ offset ++ ": " ++ fault.message
  | .unknownAlias kindAlias => "unknown label alias " ++ Text.quoted kindAlias ++ " at offset " ++ offset
  | .unknownAccessor kindAlias accessor =>
    "label type " ++ kindAlias ++ " has no accessor " ++ Text.quoted accessor ++ " (offset " ++ offset ++ ")"
  | .duplicateCapture name => "duplicate capture name " ++ Text.quoted name ++ " at offset " ++ offset
  | .unknownCapture name =>
    "back-reference to unknown capture " ++ Text.quoted name ++ " at offset " ++ offset
  | .noTokenKind => "literal at offset " ++ offset ++ " needs a registered token type"

end TextAnnotation
