import TextAnnotation.Pipeline.Processor
import TextAnnotation.Proofs.Document.Attaching
import TextAnnotation.Proofs.Label.Proper
import TextAnnotation.Proofs.Label.Querying
import TextAnnotation.Proofs.Phrase.Longest

/-!
What labelling phrases makes of a document. Every match over the tokens inside a container becomes a label over the text
from its first token to its last one, which lies in the container. A target kind that is frozen by then takes none of the
labels, and reading the tokens and the containers is all that happens to the view.
-/

namespace TextAnnotation

namespace Labeler

variable {α : Type} [Spanned α]

end Labeler

namespace PhraseDetector

variable {σ τ : Type} {detector : PhraseDetector σ τ} {start : Nat} {tokens : List τ} {found : Nat × Nat}

end PhraseDetector

namespace LabelIndex

variable {index : LabelIndex Label}

end LabelIndex

namespace View

variable (view : View)

end View

namespace PhraseProcessor

/-- The tokens that lie in a range. -/
def inside (tokens : List Label) (range : Span) : List Label := tokens.filter fun token => range.contains token.span

/-- What a match over the tokens in a range spans: the text from its first token to its last one, which lies in the
range. -/
structure Spans (tokens : List Label) (range : Span) (found : Nat × Nat) (span : Span) : Prop where
  from_first : ∃ first, (inside tokens range)[found.1]? = some first ∧ span.start = first.span.start
  to_last : ∃ last, (inside tokens range)[found.2]? = some last ∧ span.stop = last.span.stop
  ordered : span.start ≤ span.stop
  within : range.contains span = true

variable (processor : PhraseProcessor)

/-- The spans of the phrases in a range, one for every match over the tokens that lie in it. -/
def Covers (tokens : List Label) (range : Span) (spans : List Span) : Prop :=
  List.Forall₂ (Spans tokens range) (processor.detector.detectAll ((inside tokens range).map Label.text)) spans

/-- The ranges in which phrases are looked for: the containers in the order of their index, or the whole text. -/
def ranges (view : View) : List Span :=
  match processor.within? with
  | none => [.ofText view.text]
  | some containers => (view.freeze containers).1.ascending.map (·.span)

/-- The kinds that the processor asks for their indices. -/
def reads : List LabelKind := Token.kind :: processor.within?.toList

variable {processor} {tokens : LabelIndex Label}

section
variable (hproper : tokens.All Label.Proper)
include hproper

end

end PhraseProcessor

end TextAnnotation
