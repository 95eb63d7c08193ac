import TextAnnotation.Proofs.Pattern.Blaming
import TextAnnotation.Proofs.Pattern.Recognition

/-!
Writing lexemes with a space between any two, and lexing what has been written. Names, texts and marks come back as they
were, and so does every integer of 64 bits but the least one, since the digits of an integer are read without its sign.
-/

namespace TextAnnotation.Pattern

open Text (isBlank)

/-- The least integer of 64 bits. -/
def leastInteger : Int := -9223372036854775808

/-- A character of a text literal. -/
def escaped (c : Char) : List Char := if c = '"' ∨ c = '\\' then ['\\', c] else [c]

def Lexeme.written : Lexeme → List Char
  | name value => value.toList
  | text value => '"' :: (value.toList.flatMap escaped ++ ['"'])
  | integer value => (toString value).toList
  | arrow => ['-', '>']
  | pipe => ['|']
  | question => ['?']
  | bang => ['!']
  | colon => [':']
  | ampersand => ['&']
  | dollar => ['$']
  | dot => ['.']
  | star => ['*']
  | plus => ['+']
  | comma => [',']
  | equals => ['=']
  | leftParen => ['(']
  | rightParen => [')']
  | leftBracket => ['[']
  | rightBracket => [']']
  | leftAngle => ['<']
  | rightAngle => ['>']
  | leftBrace => ['\x7b']
  | rightBrace => ['\x7d']
  | finish => []

/-- A lexeme other than the end, with a name that can be one or an integer of 64 bits. -/
def Lexeme.Writable : Lexeme → Prop
  | name value => IsName value.toList
  | integer value => leastInteger ≤ value ∧ value ≤ maxInteger
  | finish => False
  | _ => True

/-- Lexemes with a space between any two. -/
def writeAll (lexemes : List Lexeme) : List Char := [' '].intercalate (lexemes.map Lexeme.written)

def write (lexemes : List Lexeme) : String := String.ofList (writeAll lexemes)

/-- Nothing, or a space and lexemes after it. -/
def writeMore : List Lexeme → List Char
  | [] => []
  | lexeme :: lexemes => ' ' :: writeAll (lexeme :: lexemes)

/-- A text at the beginning of which a lexeme ends. -/
def AtGap (cs : List Char) : Prop := ∀ c ∈ cs.head?, c = ' '

theorem atGap_writeMore (lexemes : List Lexeme) : AtGap (writeMore lexemes) := by
  cases lexemes with
  | nil => simp [AtGap, writeMore]
  | cons lexeme lexemes => simp [AtGap, writeMore]

theorem writeAll_cons (lexeme : Lexeme) (lexemes : List Lexeme) :
    writeAll (lexeme :: lexemes) = lexeme.written ++ writeMore lexemes := by
  cases lexemes with
  | nil => simp [writeAll, writeMore]
  | cons next lexemes => simp [writeAll, writeMore]

/-- A lexeme is taken from the front of a text, of which the rest is left. -/
def Takes (lexeme : Lexeme) (cs rest : List Char) : Prop :=
  ∀ offset, ∃ next,
    lexFrom offset cs = { lexFrom next rest with lexemes := ⟨lexeme, offset⟩ :: (lexFrom next rest).lexemes }

theorem takes_of_readLexeme {c : Char} {cs rest : List Char} {lexeme : Lexeme} (hblank : isBlank c = false)
    (h : ∀ offset, ∃ bytes, readLexeme offset c cs = .ok (lexeme, bytes, rest)) : Takes lexeme (c :: cs) rest := by
  intro offset
  obtain ⟨bytes, hread⟩ := h offset
  refine ⟨offset + c.utf8Size + bytes, ?_⟩
  rw [lexFrom, hblank, if_neg Bool.false_ne_true]
  split
  · rename_i hread'
    rw [hread] at hread'
    cases hread'
    rfl
  · rename_i hread'
    rw [hread] at hread'
    cases hread'

theorem isBlank_of_punctuation {c : Char} {lexeme : Lexeme} (h : Lexeme.punctuation? c = some lexeme) :
    isBlank c = false := by
  unfold Lexeme.punctuation? at h
  split at h <;> cases h <;> rfl

theorem isNameRest_of_punctuation {c : Char} {lexeme : Lexeme} (h : Lexeme.punctuation? c = some lexeme) :
    isNameRest c = false := by
  unfold Lexeme.punctuation? at h
  split at h <;> cases h <;> rfl

theorem takes_punctuation {c : Char} {lexeme : Lexeme} (h : Lexeme.punctuation? c = some lexeme) (rest : List Char) :
    Takes lexeme (c :: rest) rest := by
  apply takes_of_readLexeme (isBlank_of_punctuation h)
  intro offset
  refine ⟨0, ?_⟩
  unfold readLexeme
  rw [h]

theorem isBlank_of_isNameRest {c : Char} (h : isNameRest c = true) : isBlank c = false := by
  have hrange := toNat_of_isNameRest h
  simp only [isBlank, Bool.or_eq_false_iff, Bool.and_eq_false_iff, decide_eq_false_iff_not, beq_eq_false_iff_ne]
  omega

theorem isDigit_of_isNameStart {c : Char} (h : isNameStart c = true) : isDigit c = false := by
  have hstart := toNat_of_isNameStart h
  apply Bool.eq_false_iff.2
  intro hdigit
  have hrange := toNat_of_isDigit hdigit
  omega

/-- A letter or digit begins a name or an integer, and nothing else. -/
theorem readLexeme_of_isNameRest {c : Char} (h : isNameRest c = true) (offset : Nat) (cs : List Char) :
    readLexeme offset c cs =
      if isDigit c then do
        let (lexeme, bytes, rest) ← readInteger offset false (c :: cs)
        return (lexeme, bytes - 1, rest)
      else .ok (.name (String.ofList (c :: cs.takeWhile isNameRest)), (cs.takeWhile isNameRest).length,
        cs.dropWhile isNameRest) := by
  have hpunctuation : Lexeme.punctuation? c = none := by
    cases hmark : Lexeme.punctuation? c with
    | none => rfl
    | some lexeme =>
      rw [isNameRest_of_punctuation hmark] at h
      cases h
  have hminus : c ≠ '-' := by
    rintro rfl
    exact absurd h (by decide)
  have hmark : c ≠ '"' := by
    rintro rfl
    exact absurd h (by decide)
  unfold readLexeme
  rw [hpunctuation]
  simp only [if_neg hminus, if_neg hmark]
  split
  · rfl
  · rename_i hdigit
    rw [isNameRest, Bool.eq_false_iff.2 hdigit, Bool.or_false] at h
    rw [if_pos h]

/-- Where nothing of a text before the end of a lexeme stops a run, the run ends there. -/
theorem takeWhile_append_of_atGap {p : Char → Bool} {cs rest : List Char} (hcs : ∀ c ∈ cs, p c = true)
    (hspace : p ' ' = false) (hrest : AtGap rest) :
    (cs ++ rest).takeWhile p = cs ∧ (cs ++ rest).dropWhile p = rest := by
  rw [List.takeWhile_append_of_pos hcs, List.dropWhile_append_of_pos hcs]
  cases rest with
  | nil => simp
  | cons c rest =>
    obtain rfl : c = ' ' := hrest c rfl
    rw [List.takeWhile_cons_of_neg (by simp [hspace]), List.dropWhile_cons_of_neg (by simp [hspace])]
    exact ⟨List.append_nil cs, rfl⟩

theorem takes_name {value : String} (hname : IsName value.toList) {rest : List Char} (hrest : AtGap rest) :
    Takes (.name value) (value.toList ++ rest) rest := by
  obtain ⟨c, cs, hvalue, hstart, hcs⟩ := hname
  have hfirst : isNameRest c = true := by rw [isNameRest, hstart, Bool.true_or]
  obtain ⟨htaken, hleft⟩ := takeWhile_append_of_atGap hcs rfl hrest
  rw [hvalue, List.cons_append]
  apply takes_of_readLexeme (isBlank_of_isNameRest hfirst)
  intro offset
  refine ⟨cs.length, ?_⟩
  rw [readLexeme_of_isNameRest hfirst, isDigit_of_isNameStart hstart, if_neg Bool.false_ne_true, htaken, hleft,
    ← hvalue, String.ofList_toList]

theorem readText_escaped (start offset : Nat) (value rest : List Char) :
    ∃ bytes, readText start offset (value.flatMap escaped ++ '"' :: rest) = .ok (value, bytes, rest) := by
  induction value generalizing offset with
  | nil => exact ⟨1, rfl⟩
  | cons c value ih =>
    by_cases hescaped : c = '"' ∨ c = '\\'
    · obtain ⟨bytes, hread⟩ := ih (offset + 2)
      refine ⟨bytes + 2, ?_⟩
      rw [List.flatMap_cons, escaped, if_pos hescaped]
      simp [readText, hescaped, hread, bind, Except.bind, pure, Except.pure]
    · obtain ⟨hmark, hbackslash⟩ := not_or.1 hescaped
      obtain ⟨bytes, hread⟩ := ih (offset + c.utf8Size)
      refine ⟨bytes + c.utf8Size, ?_⟩
      rw [List.flatMap_cons, escaped, if_neg hescaped]
      simp [readText, hbackslash, hread, bind, Except.bind, pure, Except.pure]

theorem takes_text (value : String) (rest : List Char) :
    Takes (.text value) ((Lexeme.text value).written ++ rest) rest := by
  rw [Lexeme.written, List.cons_append, List.append_assoc]
  apply takes_of_readLexeme rfl
  intro offset
  obtain ⟨bytes, hread⟩ := readText_escaped offset (offset + 1) value.toList rest
  refine ⟨bytes, ?_⟩
  unfold readLexeme
  simp [Lexeme.punctuation?, hread, bind, Except.bind, pure, Except.pure]

theorem decimal_toDigits (n : Nat) : decimal (Nat.toDigits 10 n) = n := by
  have hdecimal : decimal (Nat.toDigits 10 n) = Nat.ofDigitChars 10 (Nat.toDigits 10 n) 0 := by
    simp only [decimal, Nat.ofDigitChars, Nat.mul_comm]
  rw [hdecimal, Nat.ofDigitChars_toDigits (by decide) (by decide)]

theorem isDigit_of_mem_toDigits {n : Nat} {c : Char} (h : c ∈ Nat.toDigits 10 n) : isDigit c = true :=
  Nat.isDigit_of_mem_toDigits (by decide) (by decide) h

theorem readInteger_toDigits (start : Nat) (negative : Bool) (n : Nat) {rest : List Char} (hrest : AtGap rest) :
    readInteger start negative (Nat.toDigits 10 n ++ rest) =
      if n ≤ maxInteger then .ok (.integer (if negative then -n else n), (Nat.toDigits 10 n).length, rest)
      else .error (malformedAt start .integerOutOfRange) := by
  obtain ⟨htaken, hleft⟩ := takeWhile_append_of_atGap (fun c hc => isDigit_of_mem_toDigits hc) rfl hrest
  rw [readInteger, htaken, hleft, decimal_toDigits]

theorem readLexeme_toDigits (n : Nat) {rest : List Char} (hrest : AtGap rest) :
    ∃ c cs, Nat.toDigits 10 n ++ rest = c :: cs ∧ isBlank c = false ∧ ∀ offset,
      readLexeme offset c cs =
        if n ≤ maxInteger then .ok (.integer n, (Nat.toDigits 10 n).length - 1, rest)
        else .error (malformedAt offset .integerOutOfRange) := by
  obtain ⟨c, digits, hdigits⟩ := List.exists_cons_of_ne_nil (Nat.toDigits_ne_nil : Nat.toDigits 10 n ≠ [])
  have hdigit : isDigit c = true := isDigit_of_mem_toDigits (hdigits ▸ List.mem_cons_self)
  have hfirst := isNameRest_of_isDigit c hdigit
  refine ⟨c, digits ++ rest, by rw [hdigits, List.cons_append], isBlank_of_isNameRest hfirst, ?_⟩
  intro offset
  have hread := readInteger_toDigits offset false n hrest
  rw [readLexeme_of_isNameRest hfirst, if_pos hdigit, ← List.cons_append, ← hdigits, hread]
  split
  · rfl
  · rfl

theorem readLexeme_minus_toDigits (offset n : Nat) {rest : List Char} (hrest : AtGap rest) :
    readLexeme offset '-' (Nat.toDigits 10 n ++ rest) =
      if n ≤ maxInteger then .ok (.integer (-n), (Nat.toDigits 10 n).length, rest)
      else .error (malformedAt offset .integerOutOfRange) := by
  obtain ⟨c, digits, hdigits⟩ := List.exists_cons_of_ne_nil (Nat.toDigits_ne_nil : Nat.toDigits 10 n ≠ [])
  have hdigit : isDigit c = true := isDigit_of_mem_toDigits (hdigits ▸ List.mem_cons_self)
  have harrow : c ≠ '>' := by
    rintro rfl
    exact absurd hdigit (by decide)
  have hread := readInteger_toDigits offset true n hrest
  rw [hdigits] at hread ⊢
  unfold readLexeme
  have hminus : Lexeme.punctuation? '-' = none := rfl
  rw [hminus]
  simp only [List.cons_append, if_true] at hread ⊢
  rw [if_pos hdigit, hread]

theorem written_of_nonneg {value : Int} (h : 0 ≤ value) :
    (Lexeme.integer value).written = Nat.toDigits 10 value.toNat := by
  change value.repr.toList = _
  rw [Int.repr_eq_if, if_pos h, Nat.toList_repr]

theorem written_of_neg {value : Int} (h : ¬0 ≤ value) :
    (Lexeme.integer value).written = '-' :: Nat.toDigits 10 (-value).toNat := by
  change value.repr.toList = _
  rw [Int.repr_eq_if, if_neg h, String.toList_append, Nat.toList_repr]
  rfl

theorem takes_integer {value : Int} (h : value.natAbs ≤ maxInteger) {rest : List Char} (hrest : AtGap rest) :
    Takes (.integer value) ((Lexeme.integer value).written ++ rest) rest := by
  by_cases hsign : 0 ≤ value
  · have hle : value.toNat ≤ maxInteger := by omega
    have hvalue : (value.toNat : Int) = value := by omega
    rw [written_of_nonneg hsign]
    obtain ⟨c, cs, hcs, hblank, hread⟩ := readLexeme_toDigits value.toNat hrest
    simp only [if_pos hle, hvalue] at hread
    rw [hcs]
    exact takes_of_readLexeme hblank fun offset => ⟨_, hread offset⟩
  · have hle : (-value).toNat ≤ maxInteger := by omega
    have hvalue : -((-value).toNat : Int) = value := by omega
    rw [written_of_neg hsign, List.cons_append]
    apply takes_of_readLexeme rfl
    intro offset
    have hread := readLexeme_minus_toDigits offset (-value).toNat hrest
    rw [if_pos hle, hvalue] at hread
    exact ⟨_, hread⟩

theorem takes_written {lexeme : Lexeme} (h : lexeme.Writable) (hleast : lexeme ≠ .integer leastInteger)
    {rest : List Char} (hrest : AtGap rest) : Takes lexeme (lexeme.written ++ rest) rest := by
  cases lexeme with
  | name value => exact takes_name h hrest
  | text value => exact takes_text value rest
  | integer value =>
    apply takes_integer ?_ hrest
    have hne : value ≠ leastInteger := fun heq => hleast (congrArg Lexeme.integer heq)
    obtain ⟨hlower, hupper⟩ := h
    unfold leastInteger at hne hlower
    unfold maxInteger at hupper ⊢
    omega
  | arrow => exact takes_of_readLexeme rfl fun offset => ⟨1, rfl⟩
  | finish => exact h.elim
  | _ => exact takes_punctuation rfl rest

theorem lexFrom_least (offset : Nat) {rest : List Char} (hrest : AtGap rest) :
    lexFrom offset ((Lexeme.integer leastInteger).written ++ rest) =
      ⟨[], some (malformedAt offset .integerOutOfRange)⟩ := by
  -- Without its sign the least integer is one more than the largest.
  have hread := readLexeme_minus_toDigits offset (-leastInteger).toNat hrest
  rw [if_neg (by decide)] at hread
  rw [written_of_neg (by decide), List.cons_append, lexFrom, if_neg (by decide)]
  split
  · rename_i hread'
    rw [hread] at hread'
    cases hread'
  · rename_i hread'
    rw [hread] at hread'
    cases hread'
    rfl

theorem lexFrom_writeMore (lexemes : List Lexeme) (offset : Nat) :
    ∃ next, lexFrom offset (writeMore lexemes) = lexFrom next (writeAll lexemes) := by
  cases lexemes with
  | nil => exact ⟨offset, rfl⟩
  | cons lexeme lexemes =>
    refine ⟨offset + ' '.utf8Size, ?_⟩
    have hblank : isBlank ' ' = true := rfl
    rw [writeMore, lexFrom, if_pos hblank]

theorem lexFrom_writeAll {lexemes : List Lexeme} (h : ∀ lexeme ∈ lexemes, lexeme.Writable)
    (hleast : .integer leastInteger ∉ lexemes) (offset : Nat) :
    (lexFrom offset (writeAll lexemes)).lexemes.map (·.lexeme) = lexemes ++ [.finish] ∧
      (lexFrom offset (writeAll lexemes)).failure? = none := by
  induction lexemes generalizing offset with
  | nil => simp [writeAll, lexFrom]
  | cons lexeme lexemes ih =>
    obtain ⟨hfirst, hrest⟩ := List.forall_mem_cons.1 h
    have hne : lexeme ≠ .integer leastInteger := fun heq => hleast (heq ▸ List.mem_cons_self)
    obtain ⟨middle, htaken⟩ := takes_written hfirst hne (atGap_writeMore lexemes) offset
    obtain ⟨next, hmore⟩ := lexFrom_writeMore lexemes middle
    obtain ⟨hlexemes, hfailure⟩ := ih hrest (fun hmem => hleast (List.mem_cons_of_mem _ hmem)) next
    rw [writeAll_cons, htaken, hmore]
    exact ⟨congrArg (lexeme :: ·) hlexemes, hfailure⟩

theorem lexFrom_writeAll_of_mem {lexemes : List Lexeme} (h : ∀ lexeme ∈ lexemes, lexeme.Writable)
    (hleast : .integer leastInteger ∈ lexemes) (offset : Nat) :
    ∃ e, (lexFrom offset (writeAll lexemes)).failure? = some e := by
  induction lexemes generalizing offset with
  | nil => cases hleast
  | cons lexeme lexemes ih =>
    obtain ⟨hfirst, hrest⟩ := List.forall_mem_cons.1 h
    rw [writeAll_cons]
    by_cases heq : lexeme = .integer leastInteger
    · rw [heq, lexFrom_least offset (atGap_writeMore lexemes)]
      exact ⟨_, rfl⟩
    · obtain ⟨middle, htaken⟩ := takes_written hfirst heq (atGap_writeMore lexemes) offset
      obtain ⟨next, hmore⟩ := lexFrom_writeMore lexemes middle
      have hmem := (List.mem_cons.1 hleast).resolve_left fun hsame => heq hsame.symm
      rw [htaken, hmore]
      exact ih hrest hmem next

/-- No text has a lexeme for the least integer. -/
theorem ne_least_of_mem_lex (source : String) :
    ∀ located ∈ (lex source).lexemes, located.lexeme ≠ .integer leastInteger := by
  intro located hmem heq
  have hsource : source.toList = [] ++ source.toList := rfl
  obtain ⟨_, _, _, _, hfits⟩ := (lexFrom_located hsource rfl).1 located hmem
  rw [heq] at hfits
  have hrange : leastInteger.natAbs ≤ maxInteger := hfits
  exact absurd hrange (by decide)

/-- The literal that a pattern has for a value, if it has one. -/
def literalOf? : AttributeValue → Option Lexeme
  | .text value => some (.text value)
  | .integer value => some (.integer value)
  | .truth true => some (.name "true")
  | .truth false => some (.name "false")
  | .span _ => none

/-- A label with one predicate. -/
def labelWith (kindAlias accessor : String) (literal : Lexeme) : List Lexeme :=
  [.name kindAlias, .leftAngle, .name accessor, .equals, literal, .rightAngle]

theorem exists_operand {value : AttributeValue} {literal : Lexeme} (h : literalOf? value = some literal) :
    ∃ operand : Grammar.Operand, operand.spell = [literal] ∧ operand.mentions = [] ∧
      ∀ table before, operand.resolve? table before = some (.value value) := by
  cases value with
  | text value =>
    cases h
    exact ⟨.text value, rfl, rfl, fun _ _ => rfl⟩
  | integer value =>
    cases h
    exact ⟨.integer value, rfl, rfl, fun _ _ => rfl⟩
  | truth value =>
    cases value with
    | true =>
      cases h
      exact ⟨.bare "true", rfl, rfl, fun _ _ => rfl⟩
    | false =>
      cases h
      exact ⟨.bare "false", rfl, rfl, fun _ _ => rfl⟩
  | span value => cases h

theorem eq_of_literalOf? {value : AttributeValue} {n : Int} (h : literalOf? value = some (.integer n)) :
    value = .integer n := by
  cases value with
  | text value => cases h
  | integer value =>
    cases h
    rfl
  | truth value =>
    cases value with
    | true => cases h
    | false => cases h
  | span value => cases h

theorem writable_literal {value : AttributeValue} {literal : Lexeme} (h : literalOf? value = some literal)
    (hrange : ∀ n, value = .integer n → leastInteger ≤ n ∧ n ≤ maxInteger) : literal.Writable := by
  cases value with
  | text value =>
    cases h
    trivial
  | integer value =>
    cases h
    exact hrange value rfl
  | truth value =>
    cases value with
    | true =>
      cases h
      exact ⟨'t', ['r', 'u', 'e'], rfl, rfl, by simp [isNameRest, isNameStart]⟩
    | false =>
      cases h
      exact ⟨'f', ['a', 'l', 's', 'e'], rfl, rfl, by simp [isNameRest, isNameStart]⟩
  | span value => cases h

/-- Lexing what has been written gives the lexemes, and nothing is left then. -/
def ReadsBack (lexemes : List Lexeme) : Prop :=
  let lexed := lex (write lexemes)
  lexed.lexemes.map (·.lexeme) = lexemes ++ [.finish] ∧ lexed.failure? = none

theorem readsBack_iff {lexemes : List Lexeme} (h : ∀ lexeme ∈ lexemes, lexeme.Writable) :
    ReadsBack lexemes ↔ .integer leastInteger ∉ lexemes := by
  unfold ReadsBack lex
  rw [write, String.toList_ofList]
  constructor
  · rintro ⟨_, hfailure⟩ hleast
    obtain ⟨e, he⟩ := lexFrom_writeAll_of_mem h hleast 0
    rw [hfailure] at he
    cases he
  · intro hleast
    exact lexFrom_writeAll h hleast 0

section
open Grammar

variable {table : AliasTable} {kindAlias accessor : String} {registered : RegisteredKind} {read : Accessor}
  {value : AttributeValue} {literal : Lexeme}

theorem writable_labelWith (hkindAlias : IsName kindAlias.toList) (haccessor : IsName accessor.toList)
    (hliteral : literal.Writable) : ∀ lexeme ∈ labelWith kindAlias accessor literal, lexeme.Writable := by
  intro lexeme hmem
  simp only [labelWith, List.mem_cons, List.not_mem_nil, or_false] at hmem
  rcases hmem with rfl | rfl | rfl | rfl | rfl | rfl
  · exact hkindAlias
  · trivial
  · exact haccessor
  · trivial
  · exact hliteral
  · trivial

/-- The derivation of a label with one predicate. -/
def labelTree (kindAlias accessor : String) (operand : Operand) : Alternation :=
  .last (.last (.item none (.label ⟨kindAlias, some (.last ⟨accessor, operand⟩)⟩) none))

theorem spell_labelTree {operand : Operand} (h : operand.spell = [literal]) :
    spellAlternation (labelTree kindAlias accessor operand) = labelWith kindAlias accessor literal := by
  simp [labelTree, labelWith, spellAlternation, spellSequence, Element.spell, Primary.spell, Label.spell,
    Series.spell, Predicate.spell, spellCapture, spellQuantifier, h]

theorem mentions_labelTree {operand : Operand} (h : operand.mentions = []) :
    mentionsAlternation (labelTree kindAlias accessor operand) = [.label kindAlias, .asks kindAlias accessor] := by
  simp [labelTree, mentionsAlternation, mentionsSequence, Element.mentions, Primary.mentions, Label.mentions,
    Series.mentions, Predicate.mentions, opening, closing, mentionsQuantifier, h]

theorem alternatives_labelTree (hfind : table.find? kindAlias = some registered)
    (haccessor : table.accessor? kindAlias accessor = some read) {operand : Operand}
    (hresolve : ∀ before, operand.resolve? table before = some (.value value)) :
    alternatives? table [] (labelTree kindAlias accessor operand) =
      some [.label ⟨kindAlias, 0, [⟨accessor, .value value, read⟩]⟩] := by
  have hslot : kindSlot table [] registered.kind = 0 := by
    simp [kindSlot, Grammar.kinds]
  simp [labelTree, alternatives?, elements?, Element.node?, Primary.node?, Label.resolve?, Series.resolve?,
    Predicate.resolve?, opening, hfind, haccessor, hresolve, hslot, quantify, enclose, joinSequence]

theorem parse_labelWith (hfind : table.find? kindAlias = some registered)
    (hread : registered.accessors.find? accessor = some read) (hliteral : literalOf? value = some literal)
    (hback : ReadsBack (labelWith kindAlias accessor literal)) :
    parse table (write (labelWith kindAlias accessor literal)) = .ok {
      source := write (labelWith kindAlias accessor literal)
      root := .label ⟨kindAlias, 0, [⟨accessor, .value value, read⟩]⟩
      kinds := [registered.kind]
      captureNames := [] } := by
  obtain ⟨hlexemes, _⟩ := hback
  obtain ⟨operand, hspell, hmentions, hresolve⟩ := exists_operand hliteral
  have haccessor : table.accessor? kindAlias accessor = some read := by
    rw [AliasTable.accessor?, hfind]
    exact hread
  have htree : Derivation table (write (labelWith kindAlias accessor literal))
      (labelTree kindAlias accessor operand) := by
    constructor
    · rw [hlexemes, spell_labelTree hspell]
    · rw [mentions_labelTree hmentions]
      exact ⟨Option.isSome_of_eq_some hfind, Option.isSome_of_eq_some haccessor, trivial⟩
  have hkinds : Grammar.kinds table [.label kindAlias, .asks kindAlias accessor] = [registered.kind] := by
    simp [Grammar.kinds, Mention.kind?, hfind, List.eraseDups_cons]
  apply parse_of_meaning _ htree
  rw [meaning?, alternatives_labelTree hfind haccessor (hresolve table), mentions_labelTree hmentions, hkinds]
  rfl

theorem parse_labelWith_iff (hfind : table.find? kindAlias = some registered)
    (hread : registered.accessors.find? accessor = some read) (hliteral : literalOf? value = some literal)
    (hkindAlias : IsName kindAlias.toList) (haccessor : IsName accessor.toList)
    (hrange : ∀ n, value = .integer n → leastInteger ≤ n ∧ n ≤ maxInteger) :
    parse table (write (labelWith kindAlias accessor literal)) = .ok {
        source := write (labelWith kindAlias accessor literal)
        root := .label ⟨kindAlias, 0, [⟨accessor, .value value, read⟩]⟩
        kinds := [registered.kind]
        captureNames := [] } ↔
      value ≠ .integer leastInteger := by
  have hwritable := writable_labelWith hkindAlias haccessor (writable_literal hliteral hrange)
  have hback := readsBack_iff hwritable
  constructor
  · rintro hparse rfl
    cases hliteral
    have hmem : .integer leastInteger ∈ labelWith kindAlias accessor (.integer leastInteger) := by simp [labelWith]
    obtain ⟨e, he⟩ := lexFrom_writeAll_of_mem hwritable hmem 0
    have hfailure := parse_answers table (write (labelWith kindAlias accessor (.integer leastInteger)))
    rw [hparse] at hfailure
    simp only [lex, write, String.toList_ofList, he] at hfailure
    cases hfailure
  · intro hne
    apply parse_labelWith hfind hread hliteral
    apply hback.2
    intro hmem
    simp only [labelWith, List.mem_cons, List.not_mem_nil, or_false, reduceCtorEq, false_or] at hmem
    subst hmem
    exact hne (eq_of_literalOf? hliteral)

end

/-- Lexing undoes writing except for the least integer, which no text has a lexeme for. A value other than that can be
written as a literal that reads back as the value. -/
theorem write_reads_back_iff {lexemes : List Lexeme} (hwritable : ∀ lexeme ∈ lexemes, lexeme.Writable)
    {table : AliasTable} {kindAlias accessor : String} {registered : RegisteredKind} {read : Accessor}
    (hfind : table.find? kindAlias = some registered) (hread : registered.accessors.find? accessor = some read)
    (hkindAlias : IsName kindAlias.toList) (haccessor : IsName accessor.toList)
    {value : AttributeValue} {literal : Lexeme} (hliteral : literalOf? value = some literal)
    (hrange : ∀ n, value = .integer n → leastInteger ≤ n ∧ n ≤ maxInteger) :
    (ReadsBack lexemes ↔ .integer leastInteger ∉ lexemes) ∧
      (∀ source, ∀ located ∈ (lex source).lexemes, located.lexeme ≠ .integer leastInteger) ∧
      (parse table (write (labelWith kindAlias accessor literal)) = .ok {
          source := write (labelWith kindAlias accessor literal)
          root := .label ⟨kindAlias, 0, [⟨accessor, .value value, read⟩]⟩
          kinds := [registered.kind]
          captureNames := [] } ↔
        value ≠ .integer leastInteger) := by
  refine ⟨readsBack_iff hwritable, ne_least_of_mem_lex, ?_⟩
  exact parse_labelWith_iff hfind hread hliteral hkindAlias haccessor hrange

theorem isName_word : IsName "Word".toList := ⟨'W', ['o', 'r', 'd'], rfl, rfl, by simp [isNameRest, isNameStart]⟩

theorem isName_text : IsName "text".toList := ⟨'t', ['e', 'x', 't'], rfl, rfl, by simp [isNameRest, isNameStart]⟩

theorem write_reads_back_iff_quotes :
    ReadsBack [.arrow, .integer (-1), .text "\\\"é\""] ∧
      ∃ pattern, parse Searcher.echoAliases (write (labelWith "Word" "text" (.text "\\\"é\""))) = .ok pattern := by
  have hwritable : ∀ lexeme ∈ [Lexeme.arrow, .integer (-1), .text "\\\"é\""], lexeme.Writable := by
    intro lexeme hmem
    simp only [List.mem_cons, List.not_mem_nil, or_false] at hmem
    rcases hmem with rfl | rfl | rfl
    · trivial
    · exact ⟨by decide, by decide⟩
    · trivial
  have hread : (TextMap.ofList [("text", Accessor.text Searcher.echoKind)]).find? "text" =
      some (.text Searcher.echoKind) := rfl
  have hfind : Searcher.echoAliases.find? "Word" = some {
      kind := Searcher.echoKind
      accessors := .ofList [("text", Accessor.text Searcher.echoKind)]
      text? := some ⟨Searcher.echoKind, Label.text⟩ } := rfl
  have hliteral : literalOf? (.text "\\\"é\"") = some (.text "\\\"é\"") := rfl
  have hrange : ∀ n, AttributeValue.text "\\\"é\"" = .integer n → leastInteger ≤ n ∧ n ≤ maxInteger := by
    intro n heq
    cases heq
  have hvalue : AttributeValue.text "\\\"é\"" ≠ .integer leastInteger := by
    intro heq
    cases heq
  obtain ⟨hlexemes, _, hparse⟩ := write_reads_back_iff hwritable hfind hread isName_word isName_text hliteral hrange
  exact ⟨hlexemes.2 (by simp [leastInteger]), _, hparse.2 hvalue⟩

theorem not_always_reads_back :
    ¬ ∀ lexemes : List Lexeme, (∀ lexeme ∈ lexemes, lexeme.Writable) → ReadsBack lexemes := by
  intro halways
  have hwritable : ∀ lexeme ∈ [Lexeme.integer leastInteger], lexeme.Writable :=
    List.forall_mem_singleton.2 ⟨by decide, by decide⟩
  exact (readsBack_iff hwritable).1 (halways _ hwritable) List.mem_cons_self

end TextAnnotation.Pattern
