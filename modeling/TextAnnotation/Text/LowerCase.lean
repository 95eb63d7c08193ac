import TextAnnotation.Partition
import TextAnnotation.Text.Property.LowerCase

/-!
Lower case and comparison without regard to case.
-/

namespace TextAnnotation.Text

/-- The lower case of a character. One character, the capital I with a dot, has two in lower case. -/
def lowerCase (c : Char) : List Char :=
  let n := c.toNat
  if n == 0x130 then ['i', '\u0307']
  else
    let runs := Property.lowerCaseRuns
    match runs[partitionPoint (fun (run : Property.CaseRun) => decide (run.last < n)) runs]? with
    | some run =>
      if run.first ≤ n && (n - run.first) % run.step == 0 then [Char.ofNat (run.image + (n - run.first))]
      else [c]
    | none => [c]

/-- Whether two texts have the same characters once both are in lower case. -/
def equalIgnoringCase (a b : String) : Bool :=
  a.toList.flatMap lowerCase == b.toList.flatMap lowerCase

/-- Whether two texts are equal but for the case of the letters A to Z. -/
def equalIgnoringAsciiCase (a b : String) : Bool :=
  a.toList.map Char.toLower == b.toList.map Char.toLower

end TextAnnotation.Text
