import TextAnnotation.Proofs.Label.Freezing
import TextAnnotation.Proofs.Label.Insertion
import TextAnnotation.Proofs.Pattern.Session

/-!
Searchers in a form that reduces: their indices and their candidates are sorted by insertion.
-/

namespace TextAnnotation.Pattern.Searcher

theorem indices_searcherIn (view : View) (pattern : Pattern) (range : Span) :
    (view.searcherIn pattern range).1.indices.toList =
      pattern.kinds.map fun kind => ⟨kind, (view.freeze kind).1⟩ := by
  simp only [View.searcherIn, start, View.freezeAll_eq_map]
  induction pattern.kinds with
  | nil => rfl
  | cons kind kinds ih => exact congrArg (_ :: ·) ih

def startsByInsertion (indices : Array FrozenKind) (range : Span) : List Nat :=
  let starts := indices.toList.flatMap fun frozen =>
    (frozen.index.insideSpan range).map (·.span.start)
  (starts.insertionSort (· ≤ ·)).eraseReps

theorem candidateStarts_eq_startsByInsertion (indices : Array FrozenKind) (range : Span) :
    candidateStarts indices range = startsByInsertion indices range := by
  rw [candidateStarts, List.mergeSort_eq_insertionSort]
  rfl

def startByInsertion (pattern : Pattern) (text : String) (indices : Array FrozenKind) (range : Span) : Searcher :=
  { start pattern text indices range with candidates := (startsByInsertion indices range).toArray }

theorem start_eq_startByInsertion (pattern : Pattern) (text : String) (indices : Array FrozenKind) (range : Span) :
    start pattern text indices range = startByInsertion pattern text indices range := by
  rw [startByInsertion, ← candidateStarts_eq_startsByInsertion]
  rfl

def byInsertion (view : View) (pattern : Pattern) (range : Span) : Searcher :=
  let indices := pattern.kinds.map fun kind => FrozenKind.mk kind (view.indexByInsertion kind)
  startByInsertion pattern view.text indices.toArray range

theorem searcherIn_eq_byInsertion (view : View) (pattern : Pattern) (range : Span) :
    (view.searcherIn pattern range).1 = byInsertion view pattern range := by
  have hstart : (view.searcherIn pattern range).1 =
      start pattern view.text (view.searcherIn pattern range).1.indices range := by
    rw [← View.text_freezeAll view pattern.kinds]
    rfl
  have hindices : (view.searcherIn pattern range).1.indices =
      (pattern.kinds.map fun kind => FrozenKind.mk kind (view.indexByInsertion kind)).toArray := by
    apply Array.toList_inj.1
    simp only [indices_searcherIn, View.freeze_eq_indexByInsertion]
  rw [hstart, hindices, start_eq_startByInsertion]
  rfl

end TextAnnotation.Pattern.Searcher
