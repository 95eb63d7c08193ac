import TextAnnotation.Text.CodePoints
import TextAnnotation.Text.Property.ColumnWidth

/-!
The number of columns that a text takes in a display with fixed columns. Most characters take none, one
or two by themselves; emoji sequences, selectors and some ligatures change what their parts take. A text
is read from its end, and each character is measured with what stands to its right in view.
-/

namespace TextAnnotation.Text

/-- What stands to the right of a character, as far as it matters for its width. -/
inductive RightNeighbour where
  | plain
  | lineFeed
  | modifier
  | regional
  | regionals
  | emoji
  /-- A joiner, and an emoji after it. -/
  | joinedEmoji
  /-- A keycap that a joiner connects with an emoji. -/
  | joinedKeycap
  | joinedRegional
  | joinedRegionalsEven
  | joinedRegionalsOdd
  | tagEnd
  /-- The last digits of a tag sequence. -/
  | tagDigits (count : Nat)
  /-- The last letters of a tag sequence. -/
  | tagLetters (count : Nat)
  | arabicAlef
  | hebrewLamed (joined : Bool)
  | bugineseYa (joined : Bool)
  | bugineseVowelYa
  | tifinaghConsonant (joined : Bool)
  | tifinaghJoined
  | lisuTone
  | oldTurkic (joined : Bool)
  | khmerLetter
  | kiratVowelE
  | kiratVowelAi
deriving DecidableEq, Repr

namespace RightNeighbour

/-- The letters of ligatures: selectors between the parts of a ligature do not break it. -/
def isLigature : RightNeighbour → Bool
  | arabicAlef | hebrewLamed _ | bugineseYa _ | bugineseVowelYa | tifinaghConsonant _ | tifinaghJoined
  | lisuTone | oldTurkic _ | khmerLetter => true
  | _ => false

/-- The ligatures that joiners and invisible marks do not break either. -/
def isTransparent (n : RightNeighbour) : Bool := n.isLigature && n != arabicAlef

/-- A ligature letter with a joiner before it. -/
def join : RightNeighbour → RightNeighbour
  | hebrewLamed _ => hebrewLamed true
  | bugineseYa _ => bugineseYa true
  | tifinaghConsonant _ => tifinaghConsonant true
  | oldTurkic _ => oldTurkic true
  | n => n

/-- A joiner before an emoji or a keycap, which an emoji selector may precede. -/
def isJoined : RightNeighbour → Bool
  | joinedEmoji | joinedKeycap => true
  | _ => false

end RightNeighbour

/-- The variation selector directly to the right of a character. -/
inductive Selector where
  | none | text | emoji
deriving DecidableEq, Repr

structure RightContext where
  neighbour : RightNeighbour := .plain
  selector : Selector := .none
deriving DecidableEq, Repr

/-- Whether a code point lies between two others, both included. -/
def between (lo hi : Nat) (c : Char) : Bool := lo ≤ c.toNat && c.toNat ≤ hi

private def isTifinaghConsonant (c : Char) : Bool := between 0x2D31 0x2D65 c || c.toNat == 0x2D6F

def isKhmerLetter (c : Char) : Bool :=
  between 0x1780 0x1782 c || between 0x1784 0x1787 c || between 0x1789 0x178C c ||
    between 0x178E 0x1793 c || between 0x1795 0x1798 c || between 0x179B 0x179D c ||
    c.toNat == 0x17A0 || c.toNat == 0x17A2 || c.toNat == 0x17A7 || between 0x17AB 0x17AC c ||
    c.toNat == 0x17AF

private def isRegional (c : Char) : Bool := between 0x1F1E6 0x1F1FF c

private def isTagLetter (c : Char) : Bool := between 0xE0061 0xE007A c

private def isTagDigit (c : Char) : Bool := between 0xE0030 0xE0039 c

/-- What a character is to the character at its left. -/
def neighbourOf (c : Char) : RightNeighbour :=
  let n := c.toNat
  if n < 0x590 then .plain
  else if n == 0x5DC then .hebrewLamed false
  else if Property.arabicAlef.contains c then .arabicAlef
  else if isKhmerLetter c then .khmerLetter
  else if n == 0x1A10 then .bugineseYa false
  else if isTifinaghConsonant c then .tifinaghConsonant false
  else if between 0xA4FC 0xA4FD c then .lisuTone
  else if n == 0x10C03 then .oldTurkic false
  else if n == 0x16D67 then .kiratVowelE
  else if n == 0x16D68 then .kiratVowelAi
  else if isRegional c then .regional
  else if between 0x1F3FB 0x1F3FF c then .modifier
  else if Property.emojiByDefault.contains c then .emoji
  else .plain

/-- The columns that a character takes by itself. -/
def ownWidth (c : Char) : Int :=
  if c.toNat ≤ 0xA0 then 1
  else if c.toNat == 0x17D8 then 3
  else if Property.zeroWidth.contains c then 0
  else if Property.wide.contains c then 2
  else 1

/-- Whether a character without a column leaves the joining of the Arabic letters around it alone. -/
def isArabicTransparent (c : Char) : Bool :=
  Property.zeroWidth.contains c && !Property.nonTransparent.contains c

/-- The columns that a character adds before a neighbour that forms a sequence with it, and what the two
are to the character at their left; none if they form no sequence. -/
def sequenceWidth? (c : Char) (n : RightNeighbour) : Option (Int × RightNeighbour) :=
  let u := c.toNat
  match n with
  | .arabicAlef =>
    if Property.arabicLam.contains c then some (0, .plain)
    else if isArabicTransparent c then some (0, .arabicAlef)
    else none
  | .hebrewLamed true => if u == 0x5D0 then some (0, .plain) else none
  | .khmerLetter => if u == 0x17D2 then some (-1, .plain) else none
  | .bugineseYa true => if u == 0x1A17 then some (0, .bugineseVowelYa) else none
  | .bugineseVowelYa => if u == 0x1A15 then some (0, .plain) else none
  | .tifinaghConsonant joined =>
    if u == 0x2D7F then some (1, .tifinaghJoined)
    else if joined && isTifinaghConsonant c then some (0, .plain)
    else none
  | .tifinaghJoined => if isTifinaghConsonant c then some (-1, .plain) else none
  | .lisuTone => if between 0xA4F8 0xA4FB c then some (0, .plain) else none
  | .oldTurkic true => if u == 0x10C32 then some (0, .plain) else none
  | .modifier =>
    if Property.modifierBase.contains c then some (0, .emoji)
    else if u == 0x200D then some (0, .joinedEmoji)
    else none
  | .regional => if isRegional c then some (1, .regionals) else none
  | .regionals =>
    if isRegional c then some (1, .regionals)
    else if u == 0x200D then some (0, .joinedEmoji)
    else none
  | .emoji => if u == 0x200D then some (0, .joinedEmoji) else none
  | .joinedEmoji =>
    if u == 0x20E3 then some (0, .joinedKeycap)
    else if isRegional c then some (1, .joinedRegional)
    else if between 0x1F3FB 0x1F3FF c then some (0, .modifier)
    else if u == 0xE007F then some (0, .tagEnd)
    else if neighbourOf c = .emoji then some (0, .emoji)
    else none
  | .joinedRegional => if isRegional c then some (-1, .joinedRegionalsEven) else none
  | .joinedRegionalsOdd =>
    if isRegional c then some (-1, .joinedRegionalsEven)
    else if u == 0x200D then some (0, .joinedEmoji)
    else none
  | .joinedRegionalsEven =>
    if isRegional c then some (3, .joinedRegionalsOdd)
    else if u == 0x200D then some (0, .joinedEmoji)
    else none
  | .tagEnd =>
    if isTagLetter c then some (0, .tagLetters 1)
    else if isTagDigit c then some (0, .tagDigits 1)
    else none
  | .tagLetters count =>
    if isTagLetter c && count < 6 then some (0, .tagLetters (count + 1))
    else if isTagDigit c && count < 5 then some (0, .tagDigits 1)
    else if u == 0x1F3F4 && 3 ≤ count then some (0, .emoji)
    else none
  | .tagDigits count =>
    if isTagDigit c && count < 3 then some (0, .tagDigits (count + 1))
    else if u == 0x1F3F4 && count == 3 then some (0, .emoji)
    else none
  | .kiratVowelE =>
    if u == 0x16D63 then some (0, .plain)
    else if u == 0x16D67 then some (0, .kiratVowelAi)
    else if u == 0x16D68 then some (1, .kiratVowelE)
    else if u == 0x16D69 then some (0, .plain)
    else none
  | .kiratVowelAi => if u == 0x16D63 then some (0, .plain) else none
  | _ => none

/-- The columns that a character adds in its context, once a selector that applies to it is used up. -/
def widthBefore (c : Char) (n : RightNeighbour) : Int × RightContext :=
  if n.isTransparent && c.toNat == 0x200D then (0, ⟨n.join, .none⟩)
  else if n.isTransparent && Property.ligatureTransparent.contains c then (0, ⟨n, .none⟩)
  else
    match sequenceWidth? c n with
    | some (columns, next) => (columns, ⟨next, .none⟩)
    | none => (ownWidth c, ⟨neighbourOf c, .none⟩)

/-- A neighbour as it stands behind a selector that did not apply to the character at its left. -/
def RightNeighbour.behindSelector (n : RightNeighbour) : RightNeighbour :=
  if n.isLigature then n else .plain

/-- The columns that a character adds in its context, and the context it makes for the character at its
left. A line feed takes no column, with a carriage return before it or without; any other control character
takes one. -/
def width (c : Char) (right : RightContext) : Int × RightContext :=
  if right.selector = .emoji && Property.emojiSelectable.contains c then
    (if right.neighbour.isJoined then 0 else 2, ⟨.emoji, .none⟩)
  else
    let n := if right.selector = .emoji then right.neighbour.behindSelector else right.neighbour
    if c.toNat ≤ 0xA0 then
      if c = '\n' then (0, ⟨.lineFeed, .none⟩)
      else if c = '\r' && n = .lineFeed then (0, ⟨.plain, .none⟩)
      else (1, ⟨.plain, .none⟩)
    else if c.toNat == 0xFE0F then
      (0, ⟨if n.isLigature || n.isJoined then n else .plain, .emoji⟩)
    else if c.toNat == 0xFE0E then (0, ⟨n.behindSelector, .text⟩)
    else if right.selector = .text && Property.textSelectable.contains c then (1, ⟨.plain, .none⟩)
    else widthBefore c n

/-- The columns of a text with its context, its last character first. -/
def widthFrom : List Char → Int × RightContext
  | [] => (0, {})
  | c :: cs =>
    let (total, right) := widthFrom cs
    let (columns, context) := width c right
    (total + columns, context)

/-- The number of columns that a text takes. -/
def columnWidth (cs : List Char) : Nat := (widthFrom cs).1.toNat

end TextAnnotation.Text
