import TextAnnotation.Proofs.Pattern.Safety
import TextAnnotation.Proofs.Pattern.Window
import TextAnnotation.Proofs.Phrase.Longest

/-!
Where a literal is found. A scan that asks a dictionary of one phrase at every label comes to what a plain
comparison of texts and words comes to.
-/

namespace TextAnnotation.Pattern

/-- A look for the words of a literal among the frozen labels of its kind. -/
structure Spelling where
  literal : Literal
  frozen : FrozenKind
  limit : Nat
  state : MatchState
  captures : Captures

namespace Spelling

def words (s : Spelling) : List String := Text.words s.literal.text

/-- The state that the words found lead to. -/
def outcome (s : Spelling) (picked : Except MatchFault (Option (Span × Nat))) : Outcome :=
  picked.map fun picked? =>
    (picked?.map fun (span, position) => s.state.consume span ⟨s.literal.slot, position⟩, s.captures)

/-- The state after the labels from `first` at a position to `last`, unless these are out of order. -/
def consume (s : Spelling) (position : Nat) (first last : Label) : Outcome :=
  match Span.between first.span.start last.span.stop with
  | .ok span =>
    .ok (some (s.state.consume span ⟨s.literal.slot, position + (s.words.length - 1)⟩), s.captures)
  | .error bounds => .error (.inverted bounds)

end Spelling

namespace Matcher

section
variable (m : Matcher) (s : Spelling)

/-- The labels from `first` at a position to `last` spell the words, and lie where they may. -/
structure StandsAt (position : Nat) (first last : Label) : Prop where
  first_eq : s.frozen.index.get? position = some first
  last_eq : s.frozen.index.get? (position + (s.words.length - 1)) = some last
  follows : s.state.position ≤ first.span.start
  start_le : first.span.start ≤ s.limit
  inWindow : m.InWindow s.state s.limit first.span.start
  stop_le : last.span.stop ≤ s.limit
  texts : (s.frozen.index.slice position (position + s.words.length)).map
    (s.literal.read.valueFor? s.frozen.kind) = s.words.map some

/-- What the match comes to if the words stand at no earlier position. -/
def SpelledAt (position : Nat) (outcome : Outcome) : Prop :=
  ∃ first last, m.StandsAt s position first last ∧ outcome = s.consume position first last

end

theorem texts?_eq_some_iff {read : Reading String} {kind : LabelKind} {labels : List Label} {texts : List String} :
    texts? read kind labels = some texts ↔ labels.map (read.valueFor? kind) = texts.map some := by
  unfold texts?
  induction labels generalizing texts with
  | nil => cases texts <;> simp
  | cons label rest ih =>
    rw [List.mapM_cons, List.map_cons]
    cases texts with
    | nil => simp [Option.bind_eq_some_iff]
    | cons text texts =>
      rw [List.map_cons, List.cons.injEq, ← ih]
      simp [Option.bind_eq_some_iff]

section
variable {literal : Literal} {more : Nat} (hliteral : literal = .ofText literal.text literal.slot literal.read)
  (hmore : (Text.words literal.text).length = more + 1)
include hliteral hmore

/-- Of as many texts as there are words, the dictionary of a literal finds all if and only if they are the words. -/
theorem longestMatchAt_words_iff {texts : List String} (htexts : texts.length = more + 1) :
    literal.words.longestMatchAt texts 0 = some more ↔ texts = Text.words literal.text := by
  rw [hliteral]
  simp only [Literal.ofText, PhraseDetector.longestMatchAt, PhraseDetector.ofPhrases, List.map_cons, List.map_nil,
    List.drop_zero, Nat.zero_add, Option.map_id']
  rw [PhraseDetector.longestMatch?_singleton_iff hmore htexts]
  simp only [beq_iff_eq, List.forall₂_eq_eq_eq]
  exact eq_comm

theorem any_texts?_iff {labels : List Label} (hlength : labels.length = more + 1) (kind : LabelKind) :
    ((texts? literal.read kind labels).any fun texts => literal.words.longestMatchAt texts 0 == some more) = true ↔
      labels.map (literal.read.valueFor? kind) = (Text.words literal.text).map some := by
  rw [Option.any_eq_true]
  constructor
  · rintro ⟨texts, htexts, hfound⟩
    have heq := texts?_eq_some_iff.1 htexts
    have hsame := congrArg List.length heq
    simp only [List.length_map] at hsame
    have htexts : texts.length = more + 1 := hsame.symm.trans hlength
    rw [heq, (longestMatchAt_words_iff hliteral hmore htexts).1 (beq_iff_eq.1 hfound)]
  · intro h
    have hfound := (longestMatchAt_words_iff hliteral hmore hmore).2 rfl
    exact ⟨_, texts?_eq_some_iff.2 h, beq_iff_eq.2 hfound⟩

end

section
variable {m : Matcher} {s : Spelling} {position more : Nat}

theorem spelledAt_unique {outcome other : Outcome} (h : m.SpelledAt s position outcome)
    (hother : m.SpelledAt s position other) : outcome = other := by
  obtain ⟨first, last, hstands, rfl⟩ := h
  obtain ⟨first', last', hstands', rfl⟩ := hother
  cases hstands.first_eq.symm.trans hstands'.first_eq
  cases hstands.last_eq.symm.trans hstands'.last_eq
  rfl

theorem standsAt_iff (hliteral : s.literal = .ofText s.literal.text s.literal.slot s.literal.read)
    (hmore : s.words.length = more + 1) {first last : Label} (hfirst : s.frozen.index.get? position = some first)
    (hlast : s.frozen.index.get? (position + more) = some last) (hfollows : s.state.position ≤ first.span.start)
    (hlimit : first.span.start ≤ s.limit) (hwindow : m.InWindow s.state s.limit first.span.start) :
    m.StandsAt s position first last ↔
      (decide (last.span.stop ≤ s.limit) &&
        (texts? s.literal.read s.frozen.kind ((s.frozen.index.ascending.drop position).take (more + 1))).any
          fun texts => s.literal.words.longestMatchAt texts 0 == some more) = true := by
  have hlength : ((s.frozen.index.ascending.drop position).take (more + 1)).length = more + 1 := by
    rw [LabelIndex.get?_eq_ascending] at hlast
    have hlt := (List.getElem?_eq_some_iff.1 hlast).1
    rw [List.length_take, List.length_drop]
    omega
  rw [Bool.and_eq_true, decide_eq_true_eq, any_texts?_iff hliteral hmore hlength]
  rw [← LabelIndex.slice_eq_take_drop, ← hmore]
  constructor
  · intro h
    exact ⟨h.stop_le, h.texts⟩
  · rintro ⟨hstop, htexts⟩
    rw [← Nat.add_sub_cancel more 1, ← hmore] at hlast
    exact ⟨hfirst, hlast, hfollows, hlimit, hwindow, hstop, htexts⟩

theorem not_spelledAt (hmore : s.words.length = more + 1) {first last : Label}
    (hfirst : s.frozen.index.get? position = some first) (hlast : s.frozen.index.get? (position + more) = some last)
    (h : ¬ m.StandsAt s position first last) (outcome : Outcome) : ¬ m.SpelledAt s position outcome := by
  rintro ⟨other, final, hstands, _⟩
  have hfinal := hstands.last_eq
  rw [hmore] at hfinal
  cases hfirst.symm.trans hstands.first_eq
  cases hlast.symm.trans hfinal
  exact h hstands

/-- From where the scan has come to, it settles what the first position settles at which the words stand. -/
theorem firstFrom_pickWords (hliteral : s.literal = .ofText s.literal.text s.literal.slot s.literal.read)
    (hmore : s.words.length = more + 1) {labels : List Label}
    (hlabels : labels = s.frozen.index.ascending.drop position)
    (hfollows : ∀ label ∈ labels, s.state.position ≤ label.span.start) :
    FirstFrom (m.SpelledAt s) (.ok (none, s.captures)) position
      (s.outcome (pickWords s.literal (m.windowEnd? s.state s.limit) s.limit more s.frozen.kind position labels)) := by
  -- By induction on the labels that are left. Where the scan breaks off, all later positions are out of the question.
  induction labels generalizing position with
  | nil =>
    apply FirstFrom.nowhere
    rintro later _ hle ⟨first, last, hstands, _⟩
    have hnone := LabelIndex.get?_eq_none_of_le (LabelIndex.get?_eq_none_of_drop_eq_nil hlabels) hle
    cases hstands.first_eq.symm.trans hnone
  | cons first rest ih =>
    obtain ⟨hget, hrest⟩ := LabelIndex.of_cons_eq_drop hlabels
    obtain ⟨hfollows, hlater⟩ := List.forall_mem_cons.1 hfollows
    rw [pickWords]
    split
    · rename_i hcloses
      apply FirstFrom.nowhere
      rintro later _ hle ⟨other, last, hstands, _⟩
      have hstart : first.span.start ≤ other.span.start := LabelIndex.start_le_start hget hstands.first_eq hle
      rw [within_of_le hstart hstands.follows hstands.start_le hstands.inWindow] at hcloses
      cases hcloses
    rename_i hopen
    simp only [Bool.or_eq_true, decide_eq_true_eq, not_or, Nat.not_lt, Bool.not_eq_true] at hopen
    rw [hlabels, List.getElem?_drop, ← LabelIndex.get?_eq_ascending]
    split
    -- The labels that are left are too few for the words, and so are those after any later one.
    · rename_i hnone
      apply FirstFrom.nowhere
      rintro later _ hle ⟨other, last, hstands, _⟩
      have hlast := hstands.last_eq
      rw [hmore] at hlast
      cases hlast.symm.trans (LabelIndex.get?_eq_none_of_le hnone (Nat.add_le_add_right hle more))
    rename_i last hlast
    have hiff := standsAt_iff hliteral hmore hget hlast hfollows hopen.1 ((inWindow_iff hfollows).2 hopen.2)
    dsimp only
    split
    · rename_i hfound
      apply FirstFrom.here
      refine ⟨first, last, hiff.2 hfound, ?_⟩
      rw [Spelling.consume, hmore]
      cases Span.between first.span.start last.span.stop <;> rfl
    · rename_i hfound
      apply (ih hrest hlater).next
      apply not_spelledAt hmore hget hlast
      rwa [hiff]

theorem firstFrom_following (m : Matcher) (hliteral : s.literal = .ofText s.literal.text s.literal.slot s.literal.read)
    (hmore : s.words.length = more + 1) :
    FirstFrom (m.SpelledAt s) (.ok (none, s.captures)) 0
      (s.outcome (pickWords s.literal (m.windowEnd? s.state s.limit) s.limit more s.frozen.kind
        (s.frozen.index.lowerBound s.state.position) (s.frozen.index.following s.state.position))) := by
  have hscan := firstFrom_pickWords (m := m) hliteral hmore (s.frozen.index.following_eq_drop s.state.position)
    fun label hmem => LabelIndex.le_start_of_mem_following hmem
  apply hscan.widen (Nat.zero_le _)
  rintro earlier _ _ hlt ⟨first, last, hstands, _⟩
  have hbefore := LabelIndex.start_lt_of_lt_lowerBound hstands.first_eq hlt
  exact absurd hstands.follows (Nat.not_le.2 hbefore)

theorem matchNode_eq_pickWords (hfrozen : m.indices[s.literal.slot]? = some s.frozen)
    (hcount : s.literal.wordCount = more + 1) :
    m.matchNode s.limit (.literal s.literal) s.state s.captures =
      s.outcome (pickWords s.literal (m.windowEnd? s.state s.limit) s.limit more s.frozen.kind
        (s.frozen.index.lowerBound s.state.position) (s.frozen.index.following s.state.position)) := by
  have hindex : m.index s.literal.slot = .ok s.frozen := by rw [index, hfrozen]
  simp only [matchNode, matchLiteral, hindex, hcount, bind, Except.bind]
  generalize pickWords _ _ _ _ _ _ _ = picked
  cases picked <;> rfl

theorem StandsAt.ordered {first last : Label} (h : m.StandsAt s position first last)
    (hproper : s.frozen.index.All Label.Proper) : first.span.start ≤ last.span.stop := by
  have hstarts : first.span.start ≤ last.span.start :=
    LabelIndex.start_le_start h.first_eq h.last_eq (Nat.le_add_right _ _)
  exact Nat.le_trans hstarts (hproper last (LabelIndex.mem_of_get? h.last_eq))

/-- A literal of a parsed pattern takes the first consecutive labels whose texts are its words, and fails if there are
none. Among proper labels nothing keeps it from an answer. -/
theorem matchNode_eq_iff_spelled {table : AliasTable} {source : String} {pattern : Pattern}
    (hparse : parse table source = .ok pattern) (hpart : pattern.root.Part (.literal s.literal))
    (hfrozen : m.indices[s.literal.slot]? = some s.frozen) :
    s.words ≠ [] ∧
      (∀ outcome, m.matchNode s.limit (.literal s.literal) s.state s.captures = outcome ↔
        FirstFrom (m.SpelledAt s) (.ok (none, s.captures)) 0 outcome) ∧
      (s.frozen.index.All Label.Proper →
        ∀ fault, m.matchNode s.limit (.literal s.literal) s.state s.captures ≠ .error fault) := by
  obtain ⟨scope, _, _, _, hroot⟩ := resolved_of_parse hparse
  have hresolved : s.literal.Resolved table scope := hroot _ hpart
  have hwords : s.literal.wordCount = s.words.length := by
    rw [hresolved.eq_ofText]
    rfl
  obtain ⟨more, hmore⟩ := Nat.exists_eq_succ_of_ne_zero hresolved.nonempty
  have hscan := firstFrom_following m hresolved.eq_ofText (hwords.symm.trans hmore)
  rw [← matchNode_eq_pickWords hfrozen hmore] at hscan
  refine ⟨List.ne_nil_of_length_eq_add_one (hwords.symm.trans hmore), fun outcome => ⟨?_, ?_⟩, ?_⟩
  · rintro rfl
    exact hscan
  · exact hscan.unique fun position a b => spelledAt_unique
  · intro hproper fault hfault
    rw [hfault] at hscan
    cases hscan with
    | found _ hspelled _ =>
      obtain ⟨first, last, hstands, heq⟩ := hspelled
      rw [Spelling.consume, Span.between_eq_ok_iff.2 ⟨hstands.ordered hproper, rfl⟩] at heq
      cases heq

end

end Matcher

namespace Searcher

def toastAliases : AliasTable := AliasTable.registerToken ⟨.empty, none⟩ "Word" { name := "Word" } []

def toastLiteral : Literal := .ofText "to you" 0 ⟨{ name := "Word" }, Label.text⟩

def toastPattern : Pattern where
  source := "\"to you\""
  root := .literal toastLiteral
  kinds := [{ name := "Word" }]
  captureNames := []

/-- Four words, of which the first and the third are the same. -/
def toastView : View where
  name := "toast"
  text := "to be to you"
  labelers := [({ name := "Word" }, .collecting #[
    ⟨⟨0, 2⟩, .ofList [("text", .text "to")]⟩, ⟨⟨3, 5⟩, .ofList [("text", .text "be")]⟩,
    ⟨⟨6, 8⟩, .ofList [("text", .text "to")]⟩, ⟨⟨9, 12⟩, .ofList [("text", .text "you")]⟩])]

def toastSearcher : Searcher := (toastView.searcherIn toastPattern ⟨0, 12⟩).1

def toastSpelling : Spelling where
  literal := toastLiteral
  frozen := ⟨{ name := "Word" }, (toastView.freeze { name := "Word" }).1⟩
  limit := 12
  state := { position := 0, anchor := .free }
  captures := #[]

theorem toastView_proper : toastView.Proper := by
  simp [View.Proper, View.All, toastView, Labeler.All, Label.Proper]

theorem matchNode_eq_iff_spelled_toast :
    parse toastAliases "\"to you\"" = .ok toastPattern ∧ toastPattern.root.Part (.literal toastSpelling.literal) ∧
      toastSearcher.matcher.indices[toastSpelling.literal.slot]? = some toastSpelling.frozen ∧
      Matcher.FirstFrom (toastSearcher.matcher.SpelledAt toastSpelling) (.ok (none, #[])) 0
        (.ok (some ⟨12, .free, some 6, some ⟨0, 3⟩⟩, #[])) ∧
      toastSpelling.frozen.index.All Label.Proper ∧
      ∀ fault, toastSearcher.matcher.matchNode 12 (.literal toastLiteral) toastSpelling.state #[] ≠ .error fault := by
  have hparse : parse toastAliases "\"to you\"" = .ok toastPattern :=
    parse_of_meaning (.last (.last (.item none (.literal "to you") none))) (by decide +kernel) rfl
  have hfrozen : toastSearcher.matcher.indices[toastSpelling.literal.slot]? = some toastSpelling.frozen := rfl
  have hmatch : toastSearcher.matcher.matchNode 12 (.literal toastLiteral) toastSpelling.state #[] =
      .ok (some ⟨12, .free, some 6, some ⟨0, 3⟩⟩, #[]) := by
    rw [toastSearcher, searcherIn_eq_byInsertion]
    decide +kernel
  have hproper : toastSpelling.frozen.index.All Label.Proper := (toastView_proper.freeze { name := "Word" }).1
  obtain ⟨_, hspelled, hanswers⟩ :=
    @Matcher.matchNode_eq_iff_spelled toastSearcher.matcher toastSpelling _ _ _ hparse .refl hfrozen
  exact ⟨hparse, .refl, hfrozen, (hspelled _).1 hmatch, hproper, hanswers hproper⟩

end Searcher

end TextAnnotation.Pattern
