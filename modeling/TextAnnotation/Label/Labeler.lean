import TextAnnotation.Label.Index

/-!
Collecting labels. A labeler takes labels in any order until it is frozen into an index; from then on it
refuses every label and keeps that index.
-/

namespace TextAnnotation

inductive Labeler (α : Type) [Spanned α] where
  /-- The labels added so far, in order. -/
  | collecting (pending : Array α)
  | frozen (index : LabelIndex α)
deriving Repr

namespace Labeler

variable {α : Type} [Spanned α]

def empty : Labeler α := .collecting #[]

def isFrozen : Labeler α → Bool
  | .collecting _ => false
  | .frozen _ => true

/-- The labels added so far, none once they are frozen. -/
def pending : Labeler α → List α
  | .collecting labels => labels.toList
  | .frozen _ => []

/-- The index, if the labeler is frozen. -/
def index? : Labeler α → Option (LabelIndex α)
  | .collecting _ => none
  | .frozen index => some index

/-- One label more; none if the labeler is frozen. -/
def add? (label : α) : Labeler α → Option (Labeler α)
  | .collecting labels => some (.collecting (labels.push label))
  | .frozen _ => none

/-- Labels one after the other, up to the first refusal. -/
def addAll? (labels : List α) (labeler : Labeler α) : Option (Labeler α) :=
  labels.foldlM (fun labeler label => labeler.add? label) labeler

/-- Labels one after the other, up to the first refusal: whether none was refused, and the labeler as it stands then. -/
def addEach : List α → Labeler α → Bool × Labeler α
  | [], labeler => (true, labeler)
  | label :: rest, labeler =>
    match labeler.add? label with
    | some labeler => addEach rest labeler
    | none => (false, labeler)

/-- The index of all labels added, and the labeler frozen into it. -/
def freeze (distinct : Bool) (labeler : Labeler α) : LabelIndex α × Labeler α :=
  match labeler with
  | .collecting labels =>
    let index := LabelIndex.ofLabels distinct labels.toList
    (index, .frozen index)
  | .frozen index => (index, .frozen index)

end Labeler

end TextAnnotation
