import TextAnnotation.Pattern.Lexer
import TextAnnotation.Text.Offset

/-!
Where lexemes stand. The offset of a lexeme is the place in the text of the pattern where the lexeme begins, and the
offset of a fault of the text is a place in it.
-/

namespace TextAnnotation.Pattern

open Text (byteLength)

theorem bind_eq_ok_iff {x : Except ε α} {f : α → Except ε β} {b : β} :
    x >>= f = .ok b ↔ ∃ a, x = .ok a ∧ f a = .ok b := by
  cases x <;> simp [bind, Except.bind]

theorem bind_eq_error_iff {x : Except ε α} {f : α → Except ε β} {e : ε} :
    x >>= f = .error e ↔ x = .error e ∨ ∃ a, x = .ok a ∧ f a = .error e := by
  cases x <;> simp [bind, Except.bind]

/-- A place in a text, and what holds of the text from there on. -/
def Stands (source : List Char) (offset : Nat) (P : List Char → Prop) : Prop :=
  ∃ before after, source = before ++ after ∧ byteLength before = offset ∧ P after

theorem Stands.imp {source : List Char} {offset : Nat} {P Q : List Char → Prop} (h : Stands source offset P)
    (hPQ : ∀ cs, P cs → Q cs) : Stands source offset Q := by
  obtain ⟨before, after, hsource, hoffset, hP⟩ := h
  exact ⟨before, after, hsource, hoffset, hPQ after hP⟩

/-- The spelling of a name. -/
def IsName (cs : List Char) : Prop :=
  ∃ first rest, cs = first :: rest ∧ isNameStart first = true ∧ ∀ c ∈ rest, isNameRest c = true

/-- A text begins with a name, which ends where no character of the text goes on with it. -/
def BeginsWithName (name : String) (cs : List Char) : Prop :=
  IsName name.toList ∧ ∃ rest, cs = name.toList ++ rest ∧ ∀ c ∈ rest.head?, isNameRest c = false

/-- What holds of a lexeme and of the text from the place on where it stands. -/
def Lexeme.FitsAt : Lexeme → List Char → Prop
  | name value, cs => BeginsWithName value cs
  | text _, cs => cs.head? = some '"'
  | integer value, _ => value.natAbs ≤ maxInteger
  | finish, cs => cs = []
  | _, _ => True

/-- A text is malformed at a place in it; the text is that after `offset`. -/
structure Faulty (offset : Nat) (cs : List Char) (e : PatternError) : Prop where
  malformed : ∃ fault, e.problem = .malformed fault
  stands : ∃ taken left, cs = taken ++ left ∧ e.offset = offset + byteLength taken

theorem faulty_malformedAt (offset : Nat) (taken left : List Char) (fault : Fault) :
    Faulty offset (taken ++ left) (malformedAt (offset + byteLength taken) fault) :=
  ⟨⟨fault, rfl⟩, taken, left, rfl, rfl⟩

theorem faulty_malformedAt_start (offset : Nat) (cs : List Char) (fault : Fault) :
    Faulty offset cs (malformedAt offset fault) := ⟨⟨fault, rfl⟩, [], cs, rfl, rfl⟩

theorem toNat_of_isDigit {c : Char} (h : isDigit c = true) : 48 ≤ c.toNat ∧ c.toNat ≤ 57 := by
  simp only [isDigit, Bool.and_eq_true, decide_eq_true_eq] at h
  exact h

theorem toNat_of_isNameStart {c : Char} (h : isNameStart c = true) :
    97 ≤ c.toNat ∧ c.toNat ≤ 122 ∨ 65 ≤ c.toNat ∧ c.toNat ≤ 90 ∨ c.toNat = 95 := by
  simp only [isNameStart, Bool.or_eq_true, Bool.and_eq_true, decide_eq_true_eq, beq_iff_eq] at h
  rcases h with (h | h) | rfl
  · exact .inl h
  · exact .inr (.inl h)
  · exact .inr (.inr rfl)

theorem toNat_of_isNameRest {c : Char} (h : isNameRest c = true) : 48 ≤ c.toNat ∧ c.toNat ≤ 122 := by
  rcases Bool.or_eq_true_iff.1 h with h | h
  · have hrange := toNat_of_isNameStart h
    omega
  · have hrange := toNat_of_isDigit h
    omega

theorem utf8Size_of_isNameRest {c : Char} (h : isNameRest c = true) : c.utf8Size = 1 := by
  have hrange := toNat_of_isNameRest h
  have hle : c.toNat ≤ 127 := by omega
  exact Char.utf8Size_eq_one_iff.2 hle

theorem byteLength_takeWhile {p : Char → Bool} (hp : ∀ c, p c = true → isNameRest c = true) (cs : List Char) :
    byteLength (cs.takeWhile p) = (cs.takeWhile p).length := by
  induction cs with
  | nil => rfl
  | cons c cs ih =>
    rw [List.takeWhile_cons]
    split
    · rename_i hc
      rw [byteLength, utf8Size_of_isNameRest (hp c hc), ih, List.length_cons, Nat.add_comm]
    · rfl

theorem isNameRest_of_isDigit (c : Char) (h : isDigit c = true) : isNameRest c = true := by
  rw [isNameRest, h, Bool.or_true]

theorem utf8Size_of_escaped {c : Char} (h : (decide (c = '"') || decide (c = '\\')) = true) : c.utf8Size = 1 := by
  rcases Bool.or_eq_true_iff.1 h with h | h
  · rw [of_decide_eq_true h]
    rfl
  · rw [of_decide_eq_true h]
    rfl

theorem readText_consumes {start offset bytes : Nat} {cs value rest : List Char}
    (h : readText start offset cs = .ok (value, bytes, rest)) :
    ∃ taken, cs = taken ++ rest ∧ byteLength taken = bytes := by
  fun_induction readText start offset cs generalizing value bytes rest with
  | case1 => cases h
  | case2 offset cs =>
    cases h
    exact ⟨['"'], rfl, rfl⟩
  | case3 => cases h
  | case4 offset c cs hc ih =>
    obtain ⟨⟨value', bytes', rest'⟩, hread, hdone⟩ := bind_eq_ok_iff.1 h
    cases hdone
    obtain ⟨taken, rfl, rfl⟩ := ih hread
    have hmark : '\\'.utf8Size = 1 := rfl
    refine ⟨'\\' :: c :: taken, rfl, ?_⟩
    rw [byteLength, byteLength, hmark, utf8Size_of_escaped hc]
    omega
  | case5 => cases h
  | case6 offset c cs hquote hlone hescape ih =>
    obtain ⟨⟨value', bytes', rest'⟩, hread, hdone⟩ := bind_eq_ok_iff.1 h
    cases hdone
    obtain ⟨taken, rfl, rfl⟩ := ih hread
    exact ⟨c :: taken, rfl, Nat.add_comm _ _⟩

theorem faulty_after_backslash (start : Nat) (opened left : List Char) :
    Faulty start (opened ++ '\\' :: left) (malformedAt (start + byteLength opened + 1) .invalidEscape) := by
  have htaken : byteLength (opened ++ ['\\']) = byteLength opened + 1 := Text.byteLength_append opened ['\\']
  rw [List.append_cons, Nat.add_assoc, ← htaken]
  exact faulty_malformedAt start _ left _

theorem readText_fails {start offset : Nat} {opened cs : List Char} {e : PatternError}
    (h : readText start offset cs = .error e) (hoffset : offset = start + byteLength opened) :
    Faulty start (opened ++ cs) e := by
  fun_induction readText start offset cs generalizing opened with
  | case1 =>
    cases h
    exact faulty_malformedAt_start start _ _
  | case2 => cases h
  | case3 offset =>
    cases h
    rw [hoffset]
    exact faulty_after_backslash start opened []
  | case4 offset c cs hc ih =>
    rcases bind_eq_error_iff.1 h with hread | ⟨_, _, hdone⟩
    · rw [List.append_cons, List.append_cons]
      refine ih hread ?_
      have hmark : '\\'.utf8Size = 1 := rfl
      simp only [hoffset, Text.byteLength_append, byteLength, hmark, utf8Size_of_escaped hc]
      omega
    · cases hdone
  | case5 offset c cs hc =>
    cases h
    rw [hoffset]
    exact faulty_after_backslash start opened (c :: cs)
  | case6 offset c cs hquote hlone hescape ih =>
    rcases bind_eq_error_iff.1 h with hread | ⟨_, _, hdone⟩
    · rw [List.append_cons]
      refine ih hread ?_
      simp only [hoffset, Text.byteLength_append, byteLength]
      omega
    · cases hdone

theorem beginsWithName_takeWhile {c : Char} (cs : List Char) (h : isNameStart c = true) :
    BeginsWithName (String.ofList (c :: cs.takeWhile isNameRest)) (c :: cs) := by
  rw [BeginsWithName, String.toList_ofList]
  have hrest : ∀ d ∈ cs.takeWhile isNameRest, isNameRest d = true := List.all_eq_true.1 List.all_takeWhile
  refine ⟨⟨c, _, rfl, h, hrest⟩, cs.dropWhile isNameRest, ?_, ?_⟩
  · rw [List.cons_append, List.takeWhile_append_dropWhile]
  · have hstop := List.head?_dropWhile_not isNameRest cs
    intro d hd
    rw [hd] at hstop
    exact hstop

theorem readInteger_consumes {start bytes : Nat} {negative : Bool} {cs rest : List Char} {lexeme : Lexeme}
    (h : readInteger start negative cs = .ok (lexeme, bytes, rest)) :
    (∃ n, lexeme = .integer n ∧ n.natAbs ≤ maxInteger) ∧ bytes = (cs.takeWhile isDigit).length ∧
      rest = cs.dropWhile isDigit := by
  unfold readInteger at h
  dsimp only at h
  split at h
  · rename_i hle
    cases h
    refine ⟨⟨_, rfl, ?_⟩, rfl, rfl⟩
    cases negative with
    | false => exact hle
    | true =>
      rw [if_pos rfl, Int.natAbs_neg]
      exact hle
  · cases h

theorem digits_taken (cs : List Char) :
    ∃ taken, cs = taken ++ cs.dropWhile isDigit ∧ byteLength taken = (cs.takeWhile isDigit).length :=
  ⟨_, List.takeWhile_append_dropWhile.symm, byteLength_takeWhile isNameRest_of_isDigit cs⟩

theorem readInteger_fails {start : Nat} {negative : Bool} {cs : List Char} {e : PatternError}
    (h : readInteger start negative cs = .error e) : e = malformedAt start .integerOutOfRange := by
  unfold readInteger at h
  dsimp only at h
  split at h
  · cases h
  · cases h
    rfl

theorem fitsAt_of_punctuation {c : Char} {lexeme : Lexeme} (h : Lexeme.punctuation? c = some lexeme)
    (cs : List Char) : lexeme.FitsAt (c :: cs) := by
  unfold Lexeme.punctuation? at h
  split at h <;> cases h <;> trivial

/-- A lexeme fits the text from its first character on, and takes the characters that it says it takes. -/
theorem readLexeme_consumes {offset bytes : Nat} {c : Char} {cs rest : List Char} {lexeme : Lexeme}
    (h : readLexeme offset c cs = .ok (lexeme, bytes, rest)) :
    lexeme.FitsAt (c :: cs) ∧ ∃ taken, cs = taken ++ rest ∧ byteLength taken = bytes := by
  -- The cases are those of `readLexeme`: a mark, a minus, a text, a digit, a letter.
  unfold readLexeme at h
  split at h
  · rename_i hpunctuation
    cases h
    exact ⟨fitsAt_of_punctuation hpunctuation cs, [], rfl, rfl⟩
  split at h
  · split at h
    · rename_i rest
      cases h
      exact ⟨trivial, ['>'], rfl, rfl⟩
    · split at h
      · obtain ⟨⟨n, rfl, hrange⟩, rfl, rfl⟩ := readInteger_consumes h
        exact ⟨hrange, digits_taken _⟩
      · cases h
    · cases h
  split at h
  · rename_i hmark
    obtain ⟨⟨value, bytes', rest'⟩, hread, hdone⟩ := bind_eq_ok_iff.1 h
    cases hdone
    rw [hmark]
    exact ⟨rfl, readText_consumes hread⟩
  split at h
  · rename_i hdigit
    obtain ⟨⟨found, bytes', rest'⟩, hread, hdone⟩ := bind_eq_ok_iff.1 h
    cases hdone
    obtain ⟨⟨n, rfl, hrange⟩, rfl, rfl⟩ := readInteger_consumes hread
    rw [List.takeWhile_cons_of_pos hdigit, List.dropWhile_cons_of_pos hdigit]
    exact ⟨hrange, digits_taken cs⟩
  split at h
  · rename_i hstart
    cases h
    refine ⟨beginsWithName_takeWhile cs hstart, cs.takeWhile isNameRest, ?_, ?_⟩
    · exact List.takeWhile_append_dropWhile.symm
    · exact byteLength_takeWhile (fun _ => id) cs
  · cases h

theorem ne_finish_of_readLexeme {offset bytes : Nat} {c : Char} {cs rest : List Char} {lexeme : Lexeme}
    (h : readLexeme offset c cs = .ok (lexeme, bytes, rest)) : lexeme ≠ .finish := by
  rintro rfl
  exact absurd (readLexeme_consumes h).1 (List.cons_ne_nil c cs)

theorem readLexeme_fails {offset : Nat} {c : Char} {cs : List Char} {e : PatternError}
    (h : readLexeme offset c cs = .error e) : Faulty offset (c :: cs) e := by
  unfold readLexeme at h
  split at h
  · cases h
  split at h
  · split at h
    · cases h
    · split at h
      · rw [readInteger_fails h]
        exact faulty_malformedAt_start offset _ _
      · cases h
        exact faulty_malformedAt_start offset _ _
    · cases h
      exact faulty_malformedAt_start offset _ _
  split at h
  · rename_i hmark
    rcases bind_eq_error_iff.1 h with hread | ⟨_, _, hdone⟩
    · rw [hmark]
      have hopened : offset + 1 = offset + byteLength ['"'] := rfl
      exact readText_fails hread hopened
    · cases hdone
  split at h
  · rcases bind_eq_error_iff.1 h with hread | ⟨_, _, hdone⟩
    · rw [readInteger_fails hread]
      exact faulty_malformedAt_start offset _ _
    · cases hdone
  split at h
  · cases h
  · cases h
    exact faulty_malformedAt_start offset _ _

theorem lexFrom_located {source before cs : List Char} {offset : Nat} (hsource : source = before ++ cs)
    (hoffset : byteLength before = offset) :
    (∀ located ∈ (lexFrom offset cs).lexemes, Stands source located.offset located.lexeme.FitsAt) ∧
      ∀ e ∈ (lexFrom offset cs).failure?,
        (∃ fault, e.problem = .malformed fault) ∧ Stands source e.offset fun _ => True := by
  -- What has been lexed already goes over to `before`, and its length is the offset all the way.
  fun_induction lexFrom offset cs generalizing before with
  | case1 offset =>
    refine ⟨?_, by simp⟩
    rintro located hmem
    cases List.mem_singleton.1 hmem
    exact ⟨before, [], hsource, hoffset, rfl⟩
  | case2 offset c cs hblank ih =>
    rw [List.append_cons] at hsource
    apply ih hsource
    rw [Text.byteLength_append, hoffset]
    rfl
  | case3 offset c cs hblank lexeme bytes rest hread more =>
    rename_i ih
    obtain ⟨hfits, taken, rfl, rfl⟩ := readLexeme_consumes hread
    have hnext : source = (before ++ c :: taken) ++ rest := by
      rw [hsource, List.append_assoc, List.cons_append]
    have hlength : byteLength (before ++ c :: taken) = offset + c.utf8Size + byteLength taken := by
      rw [Text.byteLength_append, hoffset, byteLength, Nat.add_assoc]
    obtain ⟨hlexemes, hfailure⟩ := ih hnext hlength
    refine ⟨?_, hfailure⟩
    rintro located hmem
    rcases List.mem_cons.1 hmem with rfl | hmem
    · exact ⟨before, _, hsource, hoffset, hfits⟩
    · exact hlexemes located hmem
  | case4 offset c cs hblank e hread =>
    refine ⟨by simp, ?_⟩
    rintro e' he
    cases he
    obtain ⟨hmalformed, taken, left, htaken, hplace⟩ := readLexeme_fails hread
    refine ⟨hmalformed, before ++ taken, left, ?_, ?_, trivial⟩
    · rw [hsource, htaken, List.append_assoc]
    · rw [Text.byteLength_append, hoffset, hplace]

theorem failure?_of_nil {offset : Nat} {cs : List Char} (h : (lexFrom offset cs).lexemes = []) :
    ∃ e, (lexFrom offset cs).failure? = some e := by
  fun_induction lexFrom offset cs with
  | case1 offset => cases h
  | case2 offset c cs hblank ih => exact ih h
  | case3 offset c cs hblank lexeme bytes rest hread more ih => cases h
  | case4 offset c cs hblank e hread => exact ⟨e, rfl⟩

/-- A text with a last lexeme does not break off. -/
theorem failure?_of_finish {offset : Nat} {cs : List Char} {last : Located} (h : last ∈ (lexFrom offset cs).lexemes)
    (hfinish : last.lexeme = .finish) : (lexFrom offset cs).failure? = none := by
  fun_induction lexFrom offset cs with
  | case1 offset => rfl
  | case2 offset c cs hblank ih => exact ih h
  | case3 offset c cs hblank lexeme bytes rest hread more ih =>
    rcases List.mem_cons.1 h with rfl | h
    · exact absurd hfinish (ne_finish_of_readLexeme hread)
    · exact ih h
  | case4 offset c cs hblank e hread => cases h

end TextAnnotation.Pattern
