import TextAnnotation.Text.Description
import TextAnnotation.Text.Quoted

/-!
The report of a run.
-/

namespace TextAnnotation

/-- An artifact whose processing broke off. -/
structure ArtifactFailure where
  artifactId : String
  message : String
deriving DecidableEq, Repr

/-- What came of a run. -/
structure RunReport where
  /-- How many artifacts there were supposed to be. -/
  estimatedTotal? : Option Nat := none
  /-- How many artifacts were handed out, those that failed among them. -/
  processed : Nat := 0
  failures : List ArtifactFailure := []
  /-- Whether the run was stopped before the supply ended. -/
  cancelled : Bool := false
deriving DecidableEq, Repr

def ArtifactFailure.describe (failure : ArtifactFailure) : String :=
  Text.Description.record "ArtifactFailure" [
    ("artifact_id", Text.quoted failure.artifactId),
    ("message", Text.quoted failure.message)]

namespace RunReport

/-- How many artifacts did not fail; none if the report has more failures than artifacts. -/
def succeeded? (report : RunReport) : Option Nat :=
  if report.failures.length ≤ report.processed then some (report.processed - report.failures.length)
  else none

/-- The report with one artifact more. -/
def record (report : RunReport) (failure? : Option ArtifactFailure) : RunReport :=
  { report with
    processed := report.processed + 1
    failures := report.failures ++ failure?.toList }

def describe (report : RunReport) : String :=
  Text.Description.record "RunReport" [
    ("estimated_total", Text.Description.optional (report.estimatedTotal?.map toString)),
    ("processed", toString report.processed),
    ("failures", Text.Description.list (report.failures.map ArtifactFailure.describe)),
    ("cancelled", Text.Description.truth report.cancelled)]

end RunReport

end TextAnnotation
