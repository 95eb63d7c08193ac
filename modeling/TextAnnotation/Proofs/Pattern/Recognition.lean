import TextAnnotation.Proofs.Pattern.Accepting
import TextAnnotation.Proofs.Pattern.Locating

/-!
Which texts are patterns, and which pattern a text is: the one that the grammar assigns to its lexemes.
-/

namespace TextAnnotation.Pattern

/-- The end of a text that lexes is its last lexeme and no other one. -/
theorem exists_lexemes {offset : Nat} {cs : List Char} (h : (lexFrom offset cs).failure? = none) :
    ∃ inner, (lexFrom offset cs).lexemes.map (·.lexeme) = inner ++ [.finish] ∧ .finish ∉ inner := by
  fun_induction lexFrom offset cs with
  | case1 offset => exact ⟨[], rfl, List.not_mem_nil⟩
  | case2 offset c cs hblank ih => exact ih h
  | case3 offset c cs hblank lexeme bytes rest hread more ih =>
    obtain ⟨inner, hinner, hfinish⟩ := ih h
    refine ⟨lexeme :: inner, congrArg (lexeme :: ·) hinner, fun hmem => ?_⟩
    rcases List.mem_cons.1 hmem with heq | hmem
    · exact ne_finish_of_readLexeme hread heq.symm
    · exact hfinish hmem
  | case4 offset c cs hblank e hread => cases h

open Grammar

/-- A derivation of a text from the grammar, with everything permitted that it mentions. -/
structure Derivation (table : AliasTable) (source : String) (tree : Alternation) : Prop where
  spelled : (lex source).lexemes.map (·.lexeme) = spellAlternation tree ++ [.finish]
  permitted : Permitted table [] (mentionsAlternation tree)

instance (table : AliasTable) (source : String) (tree : Alternation) : Decidable (Derivation table source tree) :=
  decidable_of_iff (_ ∧ _) ⟨fun h => ⟨h.1, h.2⟩, fun h => ⟨h.spelled, h.permitted⟩⟩

/-- A text with a derivation ends, so that nothing breaks it off. -/
theorem Derivation.lexes {table : AliasTable} {source : String} {tree : Alternation}
    (h : Derivation table source tree) : (lex source).failure? = none := by
  have hend : .finish ∈ (lex source).lexemes.map (·.lexeme) := by
    rw [h.spelled]
    exact List.mem_concat_self
  obtain ⟨last, hlast, hfinish⟩ := List.mem_map.1 hend
  exact failure?_of_finish hlast hfinish

/-- The pattern that the grammar assigns to a derivation of a text. -/
def meaning? (table : AliasTable) (source : String) (tree : Alternation) : Option Pattern :=
  (alternatives? table [] tree).map fun nodes => {
    source, root := joinAlternation nodes
    kinds := Grammar.kinds table (mentionsAlternation tree)
    captureNames := (declared (mentionsAlternation tree)).map (·.name) }

section
variable {table : AliasTable} {source : String}

theorem at_start (table : AliasTable) (hlexes : (lex source).failure? = none) :
    ∃ first ahead, lex source = ⟨first :: ahead, none⟩ ∧
      Progress.At table ((lex source).lexemes.map (·.lexeme)) [] { current := first, ahead, failure? := none } := by
  obtain ⟨inner, hinner, hfinish⟩ := exists_lexemes hlexes
  change (lex source).lexemes.map (·.lexeme) = _ at hinner
  rcases hlex : lex source with ⟨_ | ⟨first, ahead⟩, failure?⟩
  · simp [hlex] at hinner
  rw [hlex] at hlexes hinner
  obtain rfl : failure? = none := hlexes
  exact ⟨first, ahead, rfl, rfl, ⟨inner, hinner, hfinish⟩, rfl, rfl, List.nodup_nil⟩

theorem derivation_of_parse (hlexes : (lex source).failure? = none) {pattern : Pattern}
    (h : parse table source = .ok pattern) : ∃ tree, Derivation table source tree := by
  obtain ⟨first, ahead, hlex, hat⟩ := at_start table hlexes
  rw [parse, hlex] at h
  rcases hrun : Parse.alternation table (ahead.length + 2) { current := first, ahead, failure? := none } with
    e | ⟨root, progress⟩
  · simp only [StateT.run, hrun] at h
    cases h
  simp only [StateT.run, hrun, bind, Except.bind] at h
  split at h
  · rename_i hfinish
    obtain ⟨tree, rest, hspell, hpermitted, -, hprogress⟩ := Parse.sound_alternation table _ hat root progress hrun
    rw [spell_alternation] at hspell
    rw [mentions_alternation] at hpermitted
    rw [hprogress.eq_finish hfinish] at hspell
    exact ⟨tree, hspell, hpermitted⟩
  · cases h

theorem parse_of_derivation (hlexes : (lex source).failure? = none) {tree : Alternation}
    (h : Derivation table source tree) :
    ∃ pattern, meaning? table source tree = some pattern ∧ parse table source = .ok pattern ∧
      pattern.kinds.Nodup ∧ pattern.captureNames.Nodup := by
  obtain ⟨first, ahead, hlex, hat⟩ := at_start table hlexes
  have hlength := hat.length_ahead
  rw [h.spelled, ← spell_alternation table] at hlength hat
  have hshort : ((alternationRule table).spell tree).length < ahead.length + 2 := by
    simp at hlength
    omega
  obtain ⟨root, progress, hrun, hresolve, hprogress⟩ := Parse.accepts_alternation table _ tree hshort hat
    ⟨rfl, Lexeme.noConfusion⟩ ((mentions_alternation table tree).symm ▸ h.permitted)
  rw [resolve_alternation] at hresolve
  rw [mentions_alternation, List.nil_append] at hprogress
  obtain ⟨nodes, hnodes, rfl⟩ := Option.map_eq_some_iff.1 hresolve
  refine ⟨_, congrArg (Option.map _) hnodes, ?_, nodup_eraseDups _, hprogress.nodup⟩
  rw [parse, hlex]
  simp only [StateT.run, hrun, bind, Except.bind]
  rw [if_pos hprogress.current, hprogress.kinds, hprogress.captures]
  rfl

/-- What a derivation of a text means is the pattern that the text is parsed to. -/
theorem parse_of_meaning (tree : Alternation) (h : Derivation table source tree) {pattern : Pattern}
    (hmeaning : meaning? table source tree = some pattern) : parse table source = .ok pattern := by
  obtain ⟨_, hassigned, hparse, _⟩ := parse_of_derivation h.lexes h
  cases hassigned.symm.trans hmeaning
  exact hparse

/-- A text that lexes is a pattern if and only if the grammar derives it with everything permitted that it mentions.
Then it is the pattern that the grammar assigns to any such derivation, with one slot for each kind and each name. -/
theorem parse_recognizes_grammar (table : AliasTable) (source : String) (hlexes : (lex source).failure? = none) :
    ((∃ pattern, parse table source = .ok pattern) ↔ ∃ tree, Derivation table source tree) ∧
      ∀ tree, Derivation table source tree →
        ∃ pattern, meaning? table source tree = some pattern ∧ parse table source = .ok pattern ∧
          pattern.kinds.Nodup ∧ pattern.captureNames.Nodup := by
  refine ⟨⟨?_, ?_⟩, fun tree htree => parse_of_derivation hlexes htree⟩
  · rintro ⟨pattern, hpattern⟩
    exact derivation_of_parse hlexes hpattern
  · rintro ⟨tree, htree⟩
    obtain ⟨pattern, _, hpattern, _⟩ := parse_of_derivation hlexes htree
    exact ⟨pattern, hpattern⟩

end

namespace Searcher

def echoKind : LabelKind := { name := "Word" }

def echoAliases : AliasTable := AliasTable.registerToken ⟨.empty, none⟩ "Word" echoKind []

/-- A word and the same word after it. -/
def echoPattern : Pattern where
  source := "a:Word -> Word<text=$a.text>"
  root := .sequence [
    .capture 0 (.label ⟨"Word", 0, []⟩), .adjacent,
    .label ⟨"Word", 0, [⟨"text", .readingOf "a" 0 "text" (.text echoKind), .text echoKind⟩]⟩]
  kinds := [echoKind]
  captureNames := ["a"]

end Searcher

def echoTree : Alternation :=
  .last (.next (.item (some "a") (.label ⟨"Word", none⟩) none) (.next .arrow
    (.last (.item none (.label ⟨"Word", some (.last ⟨"text", .reading "a" "text"⟩)⟩) none))))

theorem derivation_echoes : Derivation Searcher.echoAliases "a:Word -> Word<text=$a.text>" echoTree := by
  decide +kernel

theorem Searcher.parse_echoes : parse echoAliases "a:Word -> Word<text=$a.text>" = .ok echoPattern :=
  parse_of_meaning echoTree derivation_echoes rfl

theorem parse_recognizes_grammar_echoes :
    (lex "a:Word -> Word<text=$a.text>").failure? = none ∧
      meaning? Searcher.echoAliases "a:Word -> Word<text=$a.text>" echoTree = some Searcher.echoPattern := by
  have hlexes : (lex "a:Word -> Word<text=$a.text>").failure? = none := derivation_echoes.lexes
  obtain ⟨_, hassigned⟩ := parse_recognizes_grammar Searcher.echoAliases _ hlexes
  obtain ⟨pattern, hmeaning, hparse, _⟩ := hassigned echoTree derivation_echoes
  cases hparse.symm.trans Searcher.parse_echoes
  exact ⟨hlexes, hmeaning⟩

end TextAnnotation.Pattern
