import TextAnnotation.Pattern.Lexeme
import TextAnnotation.Text.Blank

/-!
Cutting the text of a pattern into lexemes. Blanks separate lexemes and are dropped. A text that breaks
off in something that is no lexeme still has the lexemes before that place.
-/

namespace TextAnnotation.Pattern

/-- A lexeme and the byte offset at which it begins. -/
structure Located where
  lexeme : Lexeme
  offset : Nat
deriving DecidableEq, Repr

/-- The lexemes of a pattern, ending in `finish`, or those up to the place where the text is no lexeme,
with the error there. -/
structure Lexed where
  lexemes : List Located
  failure? : Option PatternError
deriving Repr

def isDigit (c : Char) : Bool := '0' ≤ c && c ≤ '9'

def isNameStart (c : Char) : Bool := ('a' ≤ c && c ≤ 'z') || ('A' ≤ c && c ≤ 'Z') || c == '_'

def isNameRest (c : Char) : Bool := isNameStart c || isDigit c

/-- The largest integer that a pattern may name; numbers are read without their sign. -/
def maxInteger : Nat := 9223372036854775807

/-- The number that digits spell. -/
def decimal (digits : List Char) : Nat :=
  digits.foldl (fun value digit => value * 10 + (digit.toNat - '0'.toNat)) 0

/-- A lexeme, how many bytes it takes after its first character, and the text after it. -/
abbrev Scanned := Lexeme × Nat × List Char

/-- A malformed place of the text as an error. -/
def malformedAt (offset : Nat) (fault : Fault) : PatternError := ⟨.malformed fault, offset⟩

/-- An integer from its digits, at the front of `cs`. -/
def readInteger (start : Nat) (negative : Bool) (cs : List Char) : Except PatternError Scanned :=
  let digits := cs.takeWhile isDigit
  let value := decimal digits
  if value ≤ maxInteger then
    .ok (.integer (if negative then -value else value), digits.length, cs.dropWhile isDigit)
  else .error (malformedAt start .integerOutOfRange)

/-- The characters of a text literal after its opening mark, the bytes they take with the closing mark,
and the text after that. Only the mark and the backslash can be escaped. -/
def readText (start offset : Nat) : List Char → Except PatternError (List Char × Nat × List Char)
  | [] => .error (malformedAt start .unterminatedText)
  | '"' :: cs => .ok ([], 1, cs)
  | ['\\'] => .error (malformedAt (offset + 1) .invalidEscape)
  | '\\' :: c :: cs =>
    if c = '"' || c = '\\' then do
      let (value, bytes, rest) ← readText start (offset + 2) cs
      return (c :: value, bytes + 2, rest)
    else .error (malformedAt (offset + 1) .invalidEscape)
  | c :: cs => do
    let (value, bytes, rest) ← readText start (offset + c.utf8Size) cs
    return (c :: value, bytes + c.utf8Size, rest)

/-- The lexeme that begins with `c`, which is not blank. -/
def readLexeme (offset : Nat) (c : Char) (cs : List Char) : Except PatternError Scanned :=
  match Lexeme.punctuation? c with
  | some lexeme => .ok (lexeme, 0, cs)
  | none =>
    if c = '-' then
      match cs with
      | '>' :: rest => .ok (.arrow, 1, rest)
      | d :: rest =>
        if isDigit d then readInteger offset true (d :: rest)
        else .error (malformedAt offset (.unexpectedCharacter c))
      | [] => .error (malformedAt offset (.unexpectedCharacter c))
    else if c = '"' then do
      let (value, bytes, rest) ← readText offset (offset + 1) cs
      return (.text (String.ofList value), bytes, rest)
    else if isDigit c then do
      let (lexeme, bytes, rest) ← readInteger offset false (c :: cs)
      return (lexeme, bytes - 1, rest)
    else if isNameStart c then
      let more := cs.takeWhile isNameRest
      .ok (.name (String.ofList (c :: more)), more.length, cs.dropWhile isNameRest)
    else .error (malformedAt offset (.unexpectedCharacter c))

theorem length_readInteger_le {start : Nat} {negative : Bool} {cs rest : List Char} {lexeme : Lexeme}
    {bytes : Nat} (h : readInteger start negative cs = .ok (lexeme, bytes, rest)) :
    rest = cs.dropWhile isDigit := by
  simp only [readInteger] at h
  split at h
  · simp_all
  · cases h

theorem length_readText_lt {start offset : Nat} {cs value rest : List Char} {bytes : Nat}
    (h : readText start offset cs = .ok (value, bytes, rest)) : rest.length < cs.length := by
  fun_induction readText start offset cs generalizing value bytes rest with
  | case1 => cases h
  | case2 =>
    simp only [Except.ok.injEq, Prod.mk.injEq] at h
    obtain ⟨_, _, rfl⟩ := h
    simp
  | case3 => cases h
  | case4 offset c cs hc ih =>
    cases hread : readText start (offset + 2) cs with
    | error e => simp [hread, bind, Except.bind] at h
    | ok result =>
      obtain ⟨value', bytes', rest'⟩ := result
      simp only [hread, bind, Except.bind, pure, Except.pure, Except.ok.injEq, Prod.mk.injEq] at h
      have := ih hread
      obtain ⟨_, _, rfl⟩ := h
      simp only [List.length_cons]
      omega
  | case5 => cases h
  | case6 offset c cs hquote hlone hescape ih =>
    cases hread : readText start (offset + c.utf8Size) cs with
    | error e => simp [hread, bind, Except.bind] at h
    | ok result =>
      obtain ⟨value', bytes', rest'⟩ := result
      simp only [hread, bind, Except.bind, pure, Except.pure, Except.ok.injEq, Prod.mk.injEq] at h
      have := ih hread
      obtain ⟨_, _, rfl⟩ := h
      simp only [List.length_cons]
      omega

theorem length_readLexeme_le {offset : Nat} {c : Char} {cs rest : List Char} {lexeme : Lexeme}
    {bytes : Nat} (h : readLexeme offset c cs = .ok (lexeme, bytes, rest)) :
    rest.length ≤ cs.length := by
  unfold readLexeme at h
  split at h
  · simp_all
  split at h
  · split at h
    · simp only [Except.ok.injEq, Prod.mk.injEq] at h
      obtain ⟨_, _, rfl⟩ := h
      simp
    · split at h
      · rw [length_readInteger_le h]
        exact (List.dropWhile_suffix _).length_le
      · cases h
    · cases h
  split at h
  · cases hread : readText offset (offset + 1) cs with
    | error e => simp [hread, bind, Except.bind] at h
    | ok result =>
      obtain ⟨value', bytes', rest'⟩ := result
      simp only [hread, bind, Except.bind, pure, Except.pure, Except.ok.injEq, Prod.mk.injEq] at h
      obtain ⟨_, _, rfl⟩ := h
      exact Nat.le_of_lt (length_readText_lt hread)
  split at h
  · rename_i hdigit
    cases hread : readInteger offset false (c :: cs) with
    | error e => simp [hread, bind, Except.bind] at h
    | ok result =>
      obtain ⟨lexeme', bytes', rest'⟩ := result
      simp only [hread, bind, Except.bind, pure, Except.pure, Except.ok.injEq, Prod.mk.injEq] at h
      obtain ⟨_, _, rfl⟩ := h
      rw [length_readInteger_le hread, List.dropWhile_cons_of_pos hdigit]
      exact (List.dropWhile_suffix _).length_le
  split at h
  · simp only [Except.ok.injEq, Prod.mk.injEq] at h
    obtain ⟨_, _, rfl⟩ := h
    exact (List.dropWhile_suffix _).length_le
  · cases h

/-- The lexemes of a text of which the first character has the given offset. -/
def lexFrom (offset : Nat) : List Char → Lexed
  | [] => ⟨[⟨.finish, offset⟩], none⟩
  | c :: cs =>
    if Text.isBlank c then lexFrom (offset + c.utf8Size) cs
    else
      match _h : readLexeme offset c cs with
      | .ok (lexeme, bytes, rest) =>
        let more := lexFrom (offset + c.utf8Size + bytes) rest
        { more with lexemes := ⟨lexeme, offset⟩ :: more.lexemes }
      | .error e => ⟨[], some e⟩
termination_by cs => cs.length
decreasing_by
  · simp
  · have := length_readLexeme_le _h
    simp only [List.length_cons]
    omega

/-- The lexemes of a pattern. -/
def lex (source : String) : Lexed := lexFrom 0 source.toList

end TextAnnotation.Pattern
