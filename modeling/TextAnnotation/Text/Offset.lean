import TextAnnotation.Span

/-!
Byte offsets into a text. An offset is a place in the text only where a character ends; a slice exists
only between two such places, in order.
-/

namespace TextAnnotation.Text

/-- The number of bytes that a text takes. -/
def byteLength : List Char → Nat
  | [] => 0
  | c :: cs => c.utf8Size + byteLength cs

/-- The text cut after exactly `n` bytes, if a character ends there. -/
def splitAt? : List Char → Nat → Option (List Char × List Char)
  | cs, 0 => some ([], cs)
  | [], _ + 1 => none
  | c :: cs, n + 1 =>
    if c.utf8Size ≤ n + 1 then
      (splitAt? cs (n + 1 - c.utf8Size)).map fun (before, after) => (c :: before, after)
    else none

/-- The characters that end within the first `n` bytes. -/
def charactersWithin : List Char → Nat → List Char
  | [], _ => []
  | c :: cs, n => if c.utf8Size ≤ n then c :: charactersWithin cs (n - c.utf8Size) else []

/-- The characters that a span covers, if the span is in order, inside the text and on character
boundaries. -/
def slice? (cs : List Char) (s : Span) : Option (List Char) :=
  if s.start ≤ s.stop then do
    let (_, after) ← splitAt? cs s.start
    let (inner, _) ← splitAt? after (s.stop - s.start)
    return inner
  else none

theorem byteLength_append (as bs : List Char) :
    byteLength (as ++ bs) = byteLength as + byteLength bs := by
  induction as with
  | nil => simp [byteLength]
  | cons a as ih => simp [byteLength, ih, Nat.add_assoc]

theorem splitAt?_byteLength (before after : List Char) :
    splitAt? (before ++ after) (byteLength before) = some (before, after) := by
  induction before with
  | nil => simp [byteLength, splitAt?]
  | cons c cs ih =>
    have hpos : 0 < c.utf8Size := c.utf8Size_pos
    obtain ⟨n, hn⟩ : ∃ n, byteLength (c :: cs) = n + 1 := ⟨byteLength (c :: cs) - 1, by
      simp only [byteLength]; omega⟩
    rw [hn, List.cons_append, splitAt?]
    simp only [byteLength] at hn
    rw [if_pos (by omega), show n + 1 - c.utf8Size = byteLength cs by omega, ih]
    rfl

theorem eq_of_splitAt? {cs before after : List Char} {n : Nat}
    (h : splitAt? cs n = some (before, after)) : cs = before ++ after ∧ n = byteLength before := by
  induction cs generalizing n before with
  | nil =>
    cases n with
    | zero => simp_all [splitAt?, byteLength]
    | succ n => simp [splitAt?] at h
  | cons c cs ih =>
    cases n with
    | zero =>
      simp only [splitAt?, Option.some.injEq, Prod.mk.injEq] at h
      obtain ⟨rfl, rfl⟩ := h
      simp [byteLength]
    | succ n =>
      simp only [splitAt?] at h
      split at h
      · obtain ⟨⟨b, a⟩, hsplit, heq⟩ := Option.map_eq_some_iff.1 h
        simp only [Prod.mk.injEq] at heq
        obtain ⟨rfl, rfl⟩ := heq
        obtain ⟨rfl, hlen⟩ := ih hsplit
        refine ⟨rfl, ?_⟩
        simp only [byteLength]
        omega
      · cases h

end TextAnnotation.Text

namespace TextAnnotation.Span

/-- The span of a whole text. -/
def ofText (text : String) : Span := ⟨0, Text.byteLength text.toList⟩

/-- The text that a span covers, if it covers any. -/
def coveredText? (s : Span) (text : String) : Option String :=
  (Text.slice? text.toList s).map String.ofList

end TextAnnotation.Span
