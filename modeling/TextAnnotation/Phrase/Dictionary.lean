import TextAnnotation.Files
import TextAnnotation.Phrase.Detector
import TextAnnotation.Text.Utf8

/-!
Dictionary files: one phrase on a line, its words between blanks. The lines are decoded one by one, so
that a failure has a line.
-/

namespace TextAnnotation

/-- Why a dictionary could not be loaded. -/
inductive DictionaryError where
  | unreadable (path : String) (failure : ReadFailure)
  /-- A line, counted from one, that is no text. -/
  | malformedLine (path : String) (line : Nat) (failure : Text.Utf8.Malformed)
deriving DecidableEq, Repr

def DictionaryError.message : DictionaryError → String
  | .unreadable path failure => "failed to read dictionary " ++ path ++ ": " ++ failure.message
  | .malformedLine path line failure =>
    "dictionary " ++ path ++ " line " ++ toString line ++ ": invalid UTF-8: " ++ failure.message

namespace Dictionary

/-- The stretches of bytes between line feeds, the last one included even if it is empty. -/
def lines : List UInt8 → List (List UInt8)
  | [] => [[]]
  | b :: bytes =>
    if b = 0x0A then [] :: lines bytes
    else
      match lines bytes with
      | line :: rest => (b :: line) :: rest
      | [] => [[b]]

/-- The words of every line, the first of which has number `number`; or the first line that is no text. -/
def wordsOfLines (number : Nat) : List (List UInt8) → Except (Nat × Text.Utf8.Malformed) (List (List String))
  | [] => .ok []
  | line :: rest =>
    match Text.Utf8.decode line with
    | .ok text => do return Text.words text :: (← wordsOfLines (number + 1) rest)
    | .error failure => .error (number, failure)

/-- The phrases of a dictionary, blank lines left out. -/
def phrases (bytes : List UInt8) : Except (Nat × Text.Utf8.Malformed) (List (List String)) :=
  (wordsOfLines 1 (lines bytes)).map (·.filter fun words => !words.isEmpty)

end Dictionary

/-- A detector of the phrases in the dictionary file at `path`. -/
def PhraseDetector.load (files : Files) (path : String) (accepts : String → τ → Bool) :
    Except DictionaryError (PhraseDetector String τ) :=
  match files.read path with
  | .error failure => .error (.unreadable path failure)
  | .ok bytes =>
    match Dictionary.phrases bytes with
    | .ok phrases => .ok (.ofSequences phrases accepts)
    | .error (line, failure) => .error (.malformedLine path line failure)

end TextAnnotation
