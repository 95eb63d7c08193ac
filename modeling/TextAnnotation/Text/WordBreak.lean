import TextAnnotation.Text.CodePoints
import TextAnnotation.Text.Property.Pictographic
import TextAnnotation.Text.Property.WordBreak

/-!
Word boundaries of a text, by the rules of Unicode text segmentation. `segments` cuts a text into
consecutive pieces; `flatten_segments` says that nothing is lost.
-/

namespace TextAnnotation.Text

/-- The classes of the property Word_Break. -/
inductive WordClass where
  | carriageReturn | lineFeed | newline | joiner | space
  | letter | hebrewLetter | numeric | katakana | connector | regionalIndicator
  | extend | format
  | singleQuote | doubleQuote | midLetter | midNumber | midBoth
  | other
deriving DecidableEq, Repr

namespace WordClass

def ofChar (c : Char) : WordClass :=
  let n := c.toNat
  if n == 0x0D then .carriageReturn
  else if n == 0x0A then .lineFeed
  else if n == 0x0B || n == 0x0C || n == 0x85 || n == 0x2028 || n == 0x2029 then .newline
  else if n == 0x22 then .doubleQuote
  else if n == 0x27 then .singleQuote
  else if n == 0x200D then .joiner
  else if 0x1F1E6 ≤ n && n ≤ 0x1F1FF then .regionalIndicator
  else if n == 0x2E || n == 0x2018 || n == 0x2019 || n == 0x2024 || n == 0xFE52 || n == 0xFF07 ||
      n == 0xFF0E then .midBoth
  else if n == 0x3A || n == 0xB7 || n == 0x387 || n == 0x55F || n == 0x5F4 || n == 0x2027 ||
      n == 0xFE13 || n == 0xFE55 || n == 0xFF1A then .midLetter
  else if Property.wordSpace.contains c then .space
  else if Property.letter.contains c then .letter
  else if Property.numeric.contains c then .numeric
  else if Property.connector.contains c then .connector
  else if Property.midNumber.contains c then .midNumber
  else if Property.extend.contains c then .extend
  else if Property.format.contains c then .format
  else if Property.hebrewLetter.contains c then .hebrewLetter
  else if Property.katakana.contains c then .katakana
  else .other

/-- The classes that attach to whatever stands before them. -/
def attaches : WordClass → Bool
  | .extend | .format | .joiner => true
  | _ => false

end WordClass

/-- What a segment ends in so far, attached marks aside. -/
inductive SegmentState where
  | letter
  | hebrewLetter
  | numeric
  | katakana
  | connector
  /-- One regional indicator, which may be joined by a second. -/
  | halfFlag
  | flag
  | space
  /-- A character that joins no other. -/
  | single
  /-- A Hebrew letter and a single quote, which belongs to it whatever follows. -/
  | quotedHebrew
  /-- A mark between letters, part of the segment only if a letter follows. -/
  | beforeLetter
  /-- A double quote between Hebrew letters. -/
  | beforeHebrewLetter
  /-- A mark between digits. -/
  | beforeNumeric
deriving DecidableEq, Repr

namespace SegmentState

/-- The states in which the last mark belongs to the segment only if the text goes on as expected. -/
def isTentative : SegmentState → Bool
  | .beforeLetter | .beforeHebrewLetter | .beforeNumeric => true
  | _ => false

/-- The state after the first character of a segment; none if the segment ends with it. -/
def ofFirst : WordClass → Option SegmentState
  | .letter => some .letter
  | .hebrewLetter => some .hebrewLetter
  | .numeric => some .numeric
  | .katakana => some .katakana
  | .connector => some .connector
  | .regionalIndicator => some .halfFlag
  | .space => some .space
  | .carriageReturn | .lineFeed | .newline => none
  | _ => some .single

/-- The state after one more character that is no attached mark, or none if there is a boundary before
it. Spaces join only while no mark, as `marked` tells, is attached to one of them. -/
def next? (marked : Bool) (state : SegmentState) (c : WordClass) : Option SegmentState :=
  match state with
  | .letter =>
    match c with
    | .letter => some .letter
    | .hebrewLetter => some .hebrewLetter
    | .numeric => some .numeric
    | .connector => some .connector
    | .midLetter | .midBoth | .singleQuote => some .beforeLetter
    | _ => none
  | .hebrewLetter =>
    match c with
    | .letter => some .letter
    | .hebrewLetter => some .hebrewLetter
    | .numeric => some .numeric
    | .connector => some .connector
    | .doubleQuote => some .beforeHebrewLetter
    | .singleQuote => some .quotedHebrew
    | .midLetter | .midBoth => some .beforeLetter
    | _ => none
  | .numeric =>
    match c with
    | .numeric => some .numeric
    | .letter => some .letter
    | .hebrewLetter => some .hebrewLetter
    | .connector => some .connector
    | .midNumber | .midBoth | .singleQuote => some .beforeNumeric
    | _ => none
  | .katakana =>
    match c with
    | .katakana => some .katakana
    | .connector => some .connector
    | _ => none
  | .connector =>
    match c with
    | .connector => some .connector
    | .letter => some .letter
    | .hebrewLetter => some .hebrewLetter
    | .numeric => some .numeric
    | .katakana => some .katakana
    | _ => none
  | .halfFlag => if c = .regionalIndicator then some .flag else none
  | .space => if c = .space && !marked then some .space else none
  | .flag | .single => none
  | .quotedHebrew | .beforeLetter =>
    match c with
    | .letter => some .letter
    | .hebrewLetter => some .hebrewLetter
    | _ => none
  | .beforeHebrewLetter => if c = .hebrewLetter then some .hebrewLetter else none
  | .beforeNumeric => if c = .numeric then some .numeric else none

end SegmentState

/-- How many of the characters belong to a segment in `state`. Of those seen, `taken` belong to it and,
should a tentative mark fail, only `kept`. A pictograph after a joiner belongs to the segment with all that
stands before it, and no letter joins it. -/
def segmentRest (state : SegmentState) (afterJoiner marked : Bool) (taken kept : Nat) : List Char → Nat
  | [] => if state.isTentative then kept else taken
  | c :: cs =>
    let cls := WordClass.ofChar c
    if cls.attaches then segmentRest state (cls == .joiner) true (taken + 1) kept cs
    else if afterJoiner && Property.pictographic.contains c then
      segmentRest .single false marked (taken + 1) kept cs
    else
      match state.next? marked cls with
      | some next =>
        segmentRest next false marked (taken + 1) (if next.isTentative then taken else kept) cs
      | none => if state.isTentative then kept else taken

/-- How many characters after `c` belong to the segment that `c` begins. -/
def segmentAfter (c : Char) (cs : List Char) : Nat :=
  let cls := WordClass.ofChar c
  match SegmentState.ofFirst cls with
  | some state => segmentRest state (cls == .joiner) false 0 0 cs
  | none => if cls == .carriageReturn && (cs.head?.map WordClass.ofChar) == some .lineFeed then 1 else 0

/-- The segments of a text between its word boundaries. -/
def segments : List Char → List (List Char)
  | [] => []
  | c :: cs => (c :: cs.take (segmentAfter c cs)) :: segments (cs.drop (segmentAfter c cs))
termination_by cs => cs.length
decreasing_by simp only [List.length_cons, List.length_drop]; omega

theorem flatten_segments (cs : List Char) : (segments cs).flatten = cs := by
  fun_induction segments cs with
  | case1 => rfl
  | case2 c cs ih => simp [ih]

end TextAnnotation.Text
