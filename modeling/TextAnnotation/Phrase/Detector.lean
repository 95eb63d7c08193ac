import TextAnnotation.Phrase.Trie
import TextAnnotation.Text.Blank
import TextAnnotation.Text.Description

/-!
Finding the phrases of a dictionary in a sequence of tokens. A comparison decides which tokens a word of
the dictionary accepts; at each place the longest phrase is taken, and the search goes on after it.
-/

namespace TextAnnotation

/-- A dictionary of phrases, and what tokens a word accepts. -/
structure PhraseDetector (σ τ : Type) where
  trie : PhraseTrie σ
  accepts : σ → τ → Bool

namespace PhraseDetector

variable {σ τ : Type}

/-- A detector of phrases already cut into words. -/
def ofSequences [DecidableEq σ] (phrases : List (List σ)) (accepts : σ → τ → Bool) :
    PhraseDetector σ τ :=
  { trie := .ofPhrases phrases, accepts }

/-- A detector of phrases whose words stand between blanks. -/
def ofPhrases (phrases : List String) (accepts : String → τ → Bool) : PhraseDetector String τ :=
  ofSequences (phrases.map Text.words) accepts

def phraseCount (detector : PhraseDetector σ τ) : Nat := detector.trie.phraseCount

def isEmpty (detector : PhraseDetector σ τ) : Bool := detector.phraseCount == 0

/-- The nodes that a token leads to from the nodes reached so far. -/
def advance (detector : PhraseDetector σ τ) (active : List (PhraseTrie σ)) (token : τ) :
    List (PhraseTrie σ) :=
  active.flatMap fun node =>
    (node.children.filter fun (word, _) => detector.accepts word token).map (·.2)

/-- The offset of the last token of the longest phrase, from the nodes that the `taken` tokens before
these lead to. Several words may accept one token, so every such way is followed. -/
def longestFrom (detector : PhraseDetector σ τ) (active : List (PhraseTrie σ)) (taken : Nat)
    (longest : Option Nat) : List τ → Option Nat
  | [] => longest
  | token :: rest =>
    let next := detector.advance active token
    if next.isEmpty then longest
    else
      let longest := if next.any (·.isEnd) then some taken else longest
      detector.longestFrom next (taken + 1) longest rest

/-- The offset of the last token of the longest phrase that a list of tokens begins with. -/
def longestMatch? (detector : PhraseDetector σ τ) (tokens : List τ) : Option Nat :=
  detector.longestFrom [detector.trie] 0 none tokens

/-- The position of the last token of the longest phrase that begins at `start`. -/
def longestMatchAt (detector : PhraseDetector σ τ) (tokens : List τ) (start : Nat) : Option Nat :=
  (detector.longestMatch? (tokens.drop start)).map (start + ·)

/-- The matches among tokens of which the first has position `start`, leftmost first, each the longest
at its place. -/
def detectFrom (detector : PhraseDetector σ τ) (start : Nat) : List τ → List (Nat × Nat)
  | [] => []
  | token :: rest =>
    match detector.longestMatch? (token :: rest) with
    | some reach =>
      (start, start + reach) :: detector.detectFrom (start + reach + 1) (rest.drop reach)
    | none => detector.detectFrom (start + 1) rest
termination_by tokens => tokens.length
decreasing_by all_goals simp only [List.length_cons, List.length_drop]; omega

/-- All matches that do not overlap, leftmost and longest first, as the positions of their first and last
tokens. -/
def detectAll (detector : PhraseDetector σ τ) (tokens : List τ) : List (Nat × Nat) :=
  detector.detectFrom 0 tokens

/-- The detector as a record of its sizes. -/
def describe (detector : PhraseDetector σ τ) : String :=
  Text.Description.record "SequenceDetector" [
    ("phrase_count", toString detector.phraseCount),
    ("node_count", toString detector.trie.nodeCount)]

end PhraseDetector

end TextAnnotation
