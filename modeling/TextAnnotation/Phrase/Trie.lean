/-!
Phrases in a tree of their words: phrases that begin alike share the nodes of their common beginning.
-/

namespace TextAnnotation

/-- A node of the tree: whether a phrase ends at it, and the nodes one word further, in the order in which
their words first came. -/
inductive PhraseTrie (σ : Type) where
  | node (isEnd : Bool) (children : List (σ × PhraseTrie σ))

namespace PhraseTrie

variable {σ : Type}

def empty : PhraseTrie σ := .node false []

def isEnd : PhraseTrie σ → Bool
  | .node isEnd _ => isEnd

def children : PhraseTrie σ → List (σ × PhraseTrie σ)
  | .node _ children => children

/-- The children with the one at `word` changed; a word without a child gets an empty one first. -/
def changeChild [DecidableEq σ] (word : σ) (change : PhraseTrie σ → PhraseTrie σ) :
    List (σ × PhraseTrie σ) → List (σ × PhraseTrie σ)
  | [] => [(word, change empty)]
  | (key, child) :: rest =>
    if key = word then (key, change child) :: rest else (key, child) :: changeChild word change rest

/-- The tree with one phrase more. -/
def insert [DecidableEq σ] : List σ → PhraseTrie σ → PhraseTrie σ
  | [], .node _ children => .node true children
  | word :: rest, .node isEnd children => .node isEnd (changeChild word (insert rest) children)

/-- The tree of a list of phrases. Phrases without words are left out. -/
def ofPhrases [DecidableEq σ] (phrases : List (List σ)) : PhraseTrie σ :=
  phrases.foldl (fun trie phrase => if phrase.isEmpty then trie else trie.insert phrase) empty

mutual

/-- The number of nodes, the root included. -/
def nodeCount : PhraseTrie σ → Nat
  | .node _ children => nodeCountOf children + 1

/-- The number of nodes below the given children, those included. -/
def nodeCountOf : List (σ × PhraseTrie σ) → Nat
  | [] => 0
  | (_, child) :: rest => nodeCount child + nodeCountOf rest

end

mutual

/-- The number of phrases in the tree. -/
def phraseCount : PhraseTrie σ → Nat
  | .node isEnd children => phraseCountOf children + if isEnd then 1 else 0

/-- The number of phrases that end at the given children or below them. -/
def phraseCountOf : List (σ × PhraseTrie σ) → Nat
  | [] => 0
  | (_, child) :: rest => phraseCount child + phraseCountOf rest

end

end PhraseTrie

end TextAnnotation
