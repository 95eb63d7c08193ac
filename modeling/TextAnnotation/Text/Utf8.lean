/-!
Decoding bytes as UTF-8. A malformed sequence is as long as it could still have been the beginning of a
character; what follows it is decoded anew.
-/

namespace TextAnnotation.Text.Utf8

/-- What stands at the front of some bytes. -/
inductive Piece where
  | character (c : Char)
  /-- Bytes that no character can go on from. -/
  | malformed (length : Nat)
  /-- The beginning of a character that the end of the bytes cuts off. -/
  | truncated
deriving DecidableEq, Repr

/-- What a first byte asks for: how many bytes follow it, the bounds of the next one, and the bits that it
gives to the code point. -/
structure Lead where
  tails : Nat
  lo : UInt8
  hi : UInt8
  bits : Nat

/-- The first bytes of characters of more than one byte. The bounds of the second byte leave out spellings
that are too long, surrogates and numbers beyond the last code point. -/
def lead? (b : UInt8) : Option Lead :=
  if 0xC2 ≤ b && b ≤ 0xDF then some ⟨1, 0x80, 0xBF, b.toNat - 0xC0⟩
  else if b == 0xE0 then some ⟨2, 0xA0, 0xBF, 0⟩
  else if b == 0xED then some ⟨2, 0x80, 0x9F, 0xD⟩
  else if 0xE1 ≤ b && b ≤ 0xEF then some ⟨2, 0x80, 0xBF, b.toNat - 0xE0⟩
  else if b == 0xF0 then some ⟨3, 0x90, 0xBF, 0⟩
  else if 0xF1 ≤ b && b ≤ 0xF3 then some ⟨3, 0x80, 0xBF, b.toNat - 0xF0⟩
  else if b == 0xF4 then some ⟨3, 0x80, 0x8F, 4⟩
  else none

/-- The rest of a character that `seen` bytes have begun, with the bytes after it. -/
def tails (lo hi : UInt8) (bits seen : Nat) : Nat → List UInt8 → Piece × List UInt8
  | 0, rest => (.character (Char.ofNat bits), rest)
  | _ + 1, [] => (.truncated, [])
  | count + 1, b :: rest =>
    if lo ≤ b && b ≤ hi then tails 0x80 0xBF (bits * 64 + (b.toNat - 0x80)) (seen + 1) count rest
    else (.malformed seen, b :: rest)

/-- The piece that a byte begins, with the bytes after it. -/
def piece (b : UInt8) (rest : List UInt8) : Piece × List UInt8 :=
  if b < 0x80 then (.character (Char.ofNat b.toNat), rest)
  else
    match lead? b with
    | some lead => tails lead.lo lead.hi lead.bits 1 lead.tails rest
    | none => (.malformed 1, rest)

theorem length_tails_le (lo hi : UInt8) (bits seen count : Nat) (bytes : List UInt8) :
    (tails lo hi bits seen count bytes).2.length ≤ bytes.length := by
  fun_induction tails lo hi bits seen count bytes with
  | case1 => exact Nat.le_refl _
  | case2 => exact Nat.le_refl _
  | case3 lo hi bits seen count b rest h ih => exact Nat.le_succ_of_le ih
  | case4 => exact Nat.le_refl _

theorem length_piece_le (b : UInt8) (rest : List UInt8) : (piece b rest).2.length ≤ rest.length := by
  unfold piece
  split
  · exact Nat.le_refl _
  · split
    · exact length_tails_le ..
    · exact Nat.le_refl _

/-- The pieces that bytes consist of. -/
def pieces : List UInt8 → List Piece
  | [] => []
  | b :: rest => (piece b rest).1 :: pieces (piece b rest).2
termination_by bytes => bytes.length
decreasing_by
  have := length_piece_le b rest
  simp only [List.length_cons]
  omega

/-- Where and how bytes fail to be a text. -/
structure Malformed where
  /-- The bytes before the failure. -/
  validLength : Nat
  /-- The bytes of the malformed sequence; none if the end of the bytes cuts it off. -/
  length? : Option Nat
deriving DecidableEq, Repr

def Malformed.message (m : Malformed) : String :=
  match m.length? with
  | some length =>
    "invalid utf-8 sequence of " ++ toString length ++ " bytes from index " ++ toString m.validLength
  | none => "incomplete utf-8 byte sequence from index " ++ toString m.validLength

/-- The characters of pieces that are all characters; `before` bytes precede them. -/
def charactersOf (before : Nat) : List Piece → Except Malformed (List Char)
  | [] => .ok []
  | .character c :: rest => do return c :: (← charactersOf (before + c.utf8Size) rest)
  | .malformed length :: _ => .error ⟨before, some length⟩
  | .truncated :: _ => .error ⟨before, none⟩

/-- The text that bytes are, or where they first fail to be one. -/
def decode (bytes : List UInt8) : Except Malformed String :=
  (charactersOf 0 (pieces bytes)).map String.ofList

/-- The text of bytes with a replacement character for everything that is not a character. -/
def decodeLossily (bytes : List UInt8) : String :=
  String.ofList <| (pieces bytes).map fun
    | .character c => c
    | .malformed _ | .truncated => '\uFFFD'

/-- The bytes of a text. -/
def encode (text : String) : List UInt8 := text.toUTF8.toList

end TextAnnotation.Text.Utf8
