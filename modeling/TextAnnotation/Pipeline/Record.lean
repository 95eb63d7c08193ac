import TextAnnotation.Pipeline.Report
import TextAnnotation.Span

/-!
Spans and reports as data: what is written has named fields; what is read has named fields or, in a list,
all of them in their order.
-/

namespace TextAnnotation

/-- Structured data. -/
inductive Data where
  | null
  | truth (value : Bool)
  | integer (value : Int)
  /-- A number that is no integer. -/
  | fraction
  | text (value : String)
  | list (items : List Data)
  | fields (entries : List (String × Data))
deriving Inhabited

namespace Data

/-- The largest number that can be read. -/
def maxNatural : Nat := 18446744073709551615

def natural? : Data → Option Nat
  | integer value => if 0 ≤ value ∧ value ≤ maxNatural then some value.toNat else none
  | _ => none

def text? : Data → Option String
  | text value => some value
  | _ => none

def truth? : Data → Option Bool
  | truth value => some value
  | _ => none

def list? : Data → Option (List Data)
  | list items => some items
  | _ => none

/-- A value that is read unless it is null. -/
def optional? (read : Data → Option α) : Data → Option (Option α)
  | null => some none
  | data => (read data).map some

/-- The values of a record, given the names of its fields: by name, or all of them in order. Fields of
other names are passed over. -/
def record? (names : List String) : Data → Option (List (Option Data))
  | fields entries => some (names.map fun name => entries.lookup name)
  | list items => if items.length = names.length then some (items.map some) else none
  | _ => none

/-- A natural number or null. -/
def ofNatural? : Option Nat → Data
  | some n => integer n
  | none => null

end Data

def Span.ofData? (data : Data) : Option Span := do
  match ← data.record? ["start", "end"] with
  | [some start, some stop] => return ⟨← start.natural?, ← stop.natural?⟩
  | _ => none

def Span.toData (s : Span) : Data := .fields [("start", .integer s.start), ("end", .integer s.stop)]

namespace ArtifactFailure

def ofData? (data : Data) : Option ArtifactFailure := do
  match ← data.record? ["artifact_id", "message"] with
  | [some id, some message] => return { artifactId := ← id.text?, message := ← message.text? }
  | _ => none

def toData (failure : ArtifactFailure) : Data :=
  .fields [("artifact_id", .text failure.artifactId), ("message", .text failure.message)]

end ArtifactFailure

namespace RunReport

/-- The report that data describe. The estimate may be missing. -/
def ofData? (data : Data) : Option RunReport := do
  match ← data.record? ["estimated_total", "processed", "failures", "cancelled"] with
  | [estimate?, some processed, some failures, some cancelled] =>
    return {
      estimatedTotal? := ← (estimate?.getD .null).optional? Data.natural?
      processed := ← processed.natural?
      failures := ← (← failures.list?).mapM ArtifactFailure.ofData?
      cancelled := ← cancelled.truth? }
  | _ => none

def toData (report : RunReport) : Data :=
  .fields [
    ("estimated_total", .ofNatural? report.estimatedTotal?),
    ("processed", .integer report.processed),
    ("failures", .list (report.failures.map ArtifactFailure.toData)),
    ("cancelled", .truth report.cancelled)]

end RunReport

end TextAnnotation
