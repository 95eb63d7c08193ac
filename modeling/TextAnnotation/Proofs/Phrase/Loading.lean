import TextAnnotation.Phrase.Dictionary
import TextAnnotation.Proofs.Text.Decoding
import TextAnnotation.Text.LowerCase

/-!
Loading a dictionary file. The lines are decoded one by one, and all of them are texts if and only if the whole file is
one, since no character goes on over the end of a line.
-/

namespace TextAnnotation

open Text.Utf8

namespace Dictionary

theorem lines_eq_splitOn (bytes : List UInt8) : lines bytes = bytes.splitOn 0x0A := by
  induction bytes with
  | nil => rfl
  | cons b rest ih =>
    rw [lines, ih, List.splitOn_cons_eq_if_modifyHead]
    by_cases hfeed : b = 0x0A
    · simp [hfeed]
    · obtain ⟨first, others, hlines⟩ := List.exists_cons_of_ne_nil (List.splitOn_ne_nil 0x0A rest)
      simp [hfeed, hlines]

/-- No character goes on over the end of a line. -/
theorem stuck_append_lineFeed {stuck : List UInt8} (h : Stuck stuck) (hline : 0x0A ∉ stuck) (rest : List UInt8) :
    Stuck (stuck ++ 0x0A :: rest) := by
  refine ⟨List.append_ne_nil_of_left_ne_nil h.1 _, fun c hc => ?_⟩
  rcases List.prefix_or_prefix_of_prefix hc (List.prefix_append stuck _) with hwithin | ⟨more, hmore⟩
  · exact h.2 c hwithin
  cases more with
  | nil =>
    rw [List.append_nil] at hmore
    exact h.2 c (hmore ▸ List.prefix_refl _)
  | cons b more =>
    rw [← hmore, List.prefix_append_right_inj, List.cons_prefix_cons] at hc
    obtain ⟨rfl, _⟩ := hc
    have hfeed : 0x0A ∈ String.utf8EncodeChar c := hmore ▸ List.mem_append_cons_self
    obtain ⟨hbytes, _⟩ := (Spells.utf8EncodeChar c).of_lineFeed_mem hfeed
    rw [hbytes, List.append_eq_singleton_iff] at hmore
    rcases hmore with ⟨hnil, _⟩ | ⟨hself, _⟩
    · exact h.1 hnil
    · exact hline (hself ▸ List.mem_singleton_self _)

/-- The lines of a text. -/
def textLines (cs : List Char) : List String := (cs.splitOn '\n').map String.ofList

theorem textLines_of_not_mem {cs : List Char} (h : '\n' ∉ cs) : textLines cs = [String.ofList cs] := by
  rw [textLines, List.splitOn_eq_singleton h]
  rfl

theorem textLines_append_cons {cs : List Char} (h : '\n' ∉ cs) (ds : List Char) :
    textLines (cs ++ '\n' :: ds) = String.ofList cs :: textLines ds := by
  rw [textLines, List.splitOn_append_cons_self_of_not_mem h]
  rfl

theorem bytesOf_lineFeed (cs : List Char) : bytesOf ('\n' :: cs) = 0x0A :: bytesOf cs := bytesOf_cons '\n' cs

/-- A line is read or stops the reading, whatever lines follow it. -/
theorem wordsOfLines_cons {line : List UInt8} (hline : 0x0A ∉ line) (number : Nat) (others : List (List UInt8)) :
    (∃ cs, line = bytesOf cs ∧ '\n' ∉ cs ∧
        wordsOfLines number (line :: others) =
          (wordsOfLines (number + 1) others).map (Text.words (String.ofList cs) :: ·)) ∨
      ∃ cs stuck failure, line = bytesOf cs ++ stuck ∧ Stuck stuck ∧ 0x0A ∉ stuck ∧
        wordsOfLines number (line :: others) = .error (number + (bytesOf cs).count 0x0A, failure) ∧
        ((bytesOf cs).splitOn 0x0A).getLast?.map List.length = some failure.validLength := by
  rw [wordsOfLines]
  rcases decode_cases line with ⟨cs, rfl, hok⟩ | ⟨cs, stuck, failure, rfl, hstuck, herror, hvalid⟩
  · refine .inl ⟨cs, rfl, mt lineFeed_mem_bytesOf_iff.2 hline, ?_⟩
    rw [hok]
    cases wordsOfLines (number + 1) others <;> rfl
  · obtain ⟨hcs, hrest⟩ := not_or.1 (mt List.mem_append.2 hline)
    refine .inr ⟨cs, stuck, failure, rfl, hstuck, hrest, ?_, ?_⟩
    · rw [herror, List.count_eq_zero_of_not_mem hcs]
      rfl
    · rw [List.splitOn_eq_singleton hcs, List.getLast?_singleton, Option.map_some, hvalid]

/-- Either the whole is a text and its lines are read, or the first line that is no text is the one in which the
longest text ends. -/
theorem wordsOfLines_splitOn (number : Nat) (bytes : List UInt8) :
    (∃ cs, bytes = bytesOf cs ∧
        wordsOfLines number (bytes.splitOn 0x0A) = .ok ((textLines cs).map Text.words)) ∨
      ∃ cs stuck failure, bytes = bytesOf cs ++ stuck ∧ Stuck stuck ∧
        wordsOfLines number (bytes.splitOn 0x0A) = .error (number + (bytesOf cs).count 0x0A, failure) ∧
        ((bytesOf cs).splitOn 0x0A).getLast?.map List.length = some failure.validLength := by
  -- By induction on the number of bytes: the first line, then the bytes after its line feed.
  induction hlength : bytes.length using Nat.strongRecOn generalizing number bytes with
  | ind length ih =>
  by_cases hfeed : 0x0A ∈ bytes
  · obtain ⟨line, rest, rfl, hline⟩ := List.eq_append_cons_of_mem hfeed
    rw [List.splitOn_append_cons_self_of_not_mem hline]
    rcases wordsOfLines_cons hline number (rest.splitOn 0x0A) with
      ⟨cs, rfl, hcs, hfirst⟩ | ⟨cs, stuck, failure, rfl, hstuck, hclean, hfirst, hlast⟩
    · have hshorter : rest.length < length := by
        rw [← hlength, List.length_append, List.length_cons]
        omega
      rw [hfirst]
      rcases ih rest.length hshorter (number + 1) rest rfl with
        ⟨ds, rfl, hwords⟩ | ⟨ds, stuck, failure, rfl, hstuck, hwords, hlast⟩
      · refine .inl ⟨cs ++ '\n' :: ds, ?_, ?_⟩
        · rw [bytesOf_append, bytesOf_lineFeed]
        · rw [hwords, textLines_append_cons hcs]
          rfl
      · refine .inr ⟨cs ++ '\n' :: ds, stuck, failure, ?_, hstuck, ?_, ?_⟩
        · rw [bytesOf_append, bytesOf_lineFeed, List.append_assoc, List.cons_append]
        · rw [hwords, bytesOf_append, bytesOf_lineFeed, List.count_append, List.count_eq_zero_of_not_mem hline,
            List.count_cons_self, Nat.zero_add, Nat.add_assoc, Nat.add_comm 1]
          rfl
        · rw [bytesOf_append, bytesOf_lineFeed, List.splitOn_append_cons_self_of_not_mem hline,
            List.getLast?_cons_of_ne_nil (List.splitOn_ne_nil _ _), hlast]
    · exact .inr ⟨cs, _, failure, List.append_assoc _ _ _, stuck_append_lineFeed hstuck hclean rest, hfirst, hlast⟩
  · rw [List.splitOn_eq_singleton hfeed]
    rcases wordsOfLines_cons hfeed number [] with
      ⟨cs, rfl, hcs, hfirst⟩ | ⟨cs, stuck, failure, rfl, hstuck, _, hfirst, hlast⟩
    · refine .inl ⟨cs, rfl, ?_⟩
      rw [hfirst, textLines_of_not_mem hcs]
      rfl
    · exact .inr ⟨cs, stuck, failure, rfl, hstuck, hfirst, hlast⟩

end Dictionary

namespace PhraseTrie

variable {σ : Type} [DecidableEq σ]

theorem ofPhrases_filter (phrases : List (List σ)) :
    ofPhrases (phrases.filter fun phrase => !phrase.isEmpty) = ofPhrases phrases := by
  rw [ofPhrases, ofPhrases, List.foldl_filter]
  congr 1
  funext trie phrase
  cases phrase <;> rfl

end PhraseTrie

namespace PhraseDetector

variable {τ : Type} {files : Files} {path : String} {bytes : List UInt8}

theorem load_bytesOf {cs : List Char} (hread : files.read path = .ok (bytesOf cs))
    (hwords : Dictionary.wordsOfLines 1 ((bytesOf cs).splitOn 0x0A) = .ok ((Dictionary.textLines cs).map Text.words))
    (accepts : String → τ → Bool) :
    load files path accepts = .ok (.ofPhrases (Dictionary.textLines cs) accepts) := by
  have hphrases : Dictionary.phrases (bytesOf cs) =
      .ok (((Dictionary.textLines cs).map Text.words).filter fun words => !words.isEmpty) := by
    rw [Dictionary.phrases, Dictionary.lines_eq_splitOn, hwords]
    rfl
  rw [load, hread]
  dsimp only
  rw [hphrases]
  dsimp only
  rw [ofSequences, PhraseTrie.ofPhrases_filter]
  rfl

theorem load_stuck {line : Nat} {failure : Malformed} (hread : files.read path = .ok bytes)
    (hwords : Dictionary.wordsOfLines 1 (bytes.splitOn 0x0A) = .error (line, failure)) (accepts : String → τ → Bool) :
    load files path accepts = .error (.malformedLine path line failure) := by
  have hphrases : Dictionary.phrases bytes = .error (line, failure) := by
    rw [Dictionary.phrases, Dictionary.lines_eq_splitOn, hwords]
    rfl
  rw [load, hread]
  dsimp only
  rw [hphrases]

/-- A dictionary loads if and only if the whole file is a text, and then holds the phrases of the lines of that text.
Otherwise the failure names the line in which the longest text that the file begins with ends, and how far into it. -/
theorem loads_texts_only (accepts : String → τ → Bool) (hread : files.read path = .ok bytes) :
    ((∃ detector, load files path accepts = .ok detector) ↔ IsText bytes) ∧
      (∀ text, encode text = bytes →
        load files path accepts = .ok (.ofPhrases (Dictionary.textLines text.toList) accepts)) ∧
      (¬ IsText bytes → ∃ valid failure, LongestText bytes valid ∧
        load files path accepts = .error (.malformedLine path (1 + valid.count 0x0A) failure) ∧
        (valid.splitOn 0x0A).getLast?.map List.length = some failure.validLength) := by
  rcases Dictionary.wordsOfLines_splitOn 1 bytes with ⟨cs, rfl, hwords⟩ | ⟨cs, stuck, failure, rfl, hstuck, hwords, hlast⟩
  · have hload := load_bytesOf hread hwords accepts
    have htext : IsText (bytesOf cs) := isText_iff.2 ⟨cs, rfl⟩
    refine ⟨iff_of_true ⟨_, hload⟩ htext, fun text henc => ?_, absurd htext⟩
    rw [encode_eq_bytesOf] at henc
    rw [bytesOf_injective henc, hload]
  · have hload := load_stuck hread hwords accepts
    have hnot := not_isText_of_stuck cs hstuck
    refine ⟨iff_of_false ?_ hnot, fun text henc => absurd ⟨text, henc⟩ hnot, fun _ => ?_⟩
    · rintro ⟨detector, hok⟩
      cases hload.symm.trans hok
    · exact ⟨bytesOf cs, failure, longestText_of_stuck cs hstuck, hload, hlast⟩

/-- A file whose second line ends in the first byte of a character. -/
def cutShort : Files := ⟨"d", [(["w"], [0x61, 0x0A, 0x62, 0xC3, 0x0A, 0x63])]⟩

theorem loads_texts_only_cutShort :
    let bytes := [0x61, 0x0A, 0x62, 0xC3, 0x0A, 0x63]
    cutShort.read "d/w" = .ok bytes ∧ ¬ IsText bytes ∧ ∃ valid failure, LongestText bytes valid ∧
      load cutShort "d/w" Text.equalIgnoringCase = .error (.malformedLine "d/w" (1 + valid.count 0x0A) failure) ∧
      (valid.splitOn 0x0A).getLast?.map List.length = some failure.validLength := by
  intro bytes
  have hnames : "d/w".splitOn "/" = ["d", "w"] := by simp +decide [String.splitOn, String.splitOnAux]
  have hread : cutShort.read "d/w" = .ok bytes := by
    rw [Files.read, Files.resolve?, hnames]
    rfl
  have hdecode : decode bytes = .error ⟨3, some 1⟩ := by decide +kernel
  have hnot : ¬ IsText bytes := by
    rintro ⟨text, henc⟩
    cases hdecode.symm.trans (decode_eq_ok_iff.2 henc)
  exact ⟨hread, hnot, (loads_texts_only Text.equalIgnoringCase hread).2.2 hnot⟩

end PhraseDetector

end TextAnnotation
