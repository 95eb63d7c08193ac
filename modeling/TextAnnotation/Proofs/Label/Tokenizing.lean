import TextAnnotation.Label.Index
import TextAnnotation.Token

/-!
Cutting a text into tokens loses nothing but blanks. Tokens cover a text: they stand one after the other in it, each
over its own text, with nothing but blanks before, between and after them. All else follows from that, for any cut of
the text into segments.
-/

namespace TextAnnotation

namespace Text

theorem byteLength_pos {cs : List Char} (h : cs ≠ []) : 0 < byteLength cs := by
  cases cs with
  | nil => exact absurd rfl h
  | cons c cs =>
    have hpos := c.utf8Size_pos
    simp only [byteLength]
    omega

theorem stands_in_append {left right before after : List Char} {c : Char} (h : left ++ c :: right = before ++ after) :
    (∃ rest, before = left ++ c :: rest ∧ right = rest ++ after) ∨
      ∃ inner, left = before ++ inner ∧ inner ++ c :: right = after := by
  rcases List.append_eq_append_iff.1 h with ⟨middle, hbefore, hafter⟩ | ⟨middle, hleft, hafter⟩
  · cases middle with
    | nil => exact .inr ⟨[], by simpa using hbefore.symm, hafter⟩
    | cons first middle =>
      obtain ⟨rfl, hright⟩ := List.cons.inj hafter
      exact .inl ⟨middle, hbefore, hright⟩
  · exact .inr ⟨middle, hleft, hafter.symm⟩

end Text

open Text (byteLength isBlank)

/-- Tokens with blank gaps around them, put together to the text whose first character has the given offset. -/
inductive Token.Cover : Nat → List Char → List Token → Prop where
  | gap {offset : Nat} {gap : List Char} (blank : ∀ c ∈ gap, isBlank c = true) : Cover offset gap []
  | token {offset : Nat} {gap rest : List Char} {token : Token} {tokens : List Token}
      (blank : ∀ c ∈ gap, isBlank c = true) (start : token.span.start = offset + byteLength gap)
      (stop : token.span.stop = token.span.start + byteLength token.text.toList)
      (visible : ∃ c ∈ token.text.toList, isBlank c = false) (after : Cover token.span.stop rest tokens) :
      Cover offset (gap ++ (token.text.toList ++ rest)) (token :: tokens)

namespace Token

namespace Cover

variable {offset : Nat} {cs : List Char} {tokens : List Token}

theorem blank_append {blanks : List Char} (hblanks : ∀ c ∈ blanks, isBlank c = true)
    (h : Cover (offset + byteLength blanks) cs tokens) : Cover offset (blanks ++ cs) tokens := by
  have hall {gap : List Char} (hgap : ∀ c ∈ gap, isBlank c = true) : ∀ c ∈ blanks ++ gap, isBlank c = true := by
    intro c hc
    rcases List.mem_append.1 hc with hc | hc
    · exact hblanks c hc
    · exact hgap c hc
  cases h with
  | gap hgap => exact .gap (hall hgap)
  | token hgap hstart hstop hvisible hafter =>
    rw [← List.append_assoc]
    refine .token (hall hgap) ?_ hstop hvisible hafter
    rw [hstart, Text.byteLength_append, Nat.add_assoc]

theorem first {token : Token} {segment : List Char} (htext : token.text.toList = segment)
    (hspan : token.span = ⟨offset, offset + byteLength segment⟩) (hvisible : ∃ c ∈ segment, isBlank c = false)
    (hafter : Cover (offset + byteLength segment) cs tokens) : Cover offset (segment ++ cs) (token :: tokens) := by
  subst htext
  have hstart : token.span.start = offset := by rw [hspan]
  have hstop : token.span.stop = offset + byteLength token.text.toList := by rw [hspan]
  rw [← List.nil_append (token.text.toList ++ cs)]
  exact .token (by simp) hstart (by rw [hstop, hstart]) hvisible (hstop ▸ hafter)

theorem start_lt_stop (h : Cover offset cs tokens) : ∀ token ∈ tokens, token.span.start < token.span.stop := by
  induction h with
  | gap => simp
  | token _ _ hstop hvisible _ ih =>
    intro token hmem
    rcases List.mem_cons.1 hmem with rfl | hmem
    · obtain ⟨c, hc, _⟩ := hvisible
      have hpos := Text.byteLength_pos (List.ne_nil_of_mem hc)
      omega
    · exact ih token hmem

theorem le_start (h : Cover offset cs tokens) : ∀ token ∈ tokens, offset ≤ token.span.start := by
  induction h with
  | gap => simp
  | token _ hstart hstop _ _ ih =>
    intro token hmem
    rcases List.mem_cons.1 hmem with rfl | hmem
    · omega
    · have hle := ih token hmem
      omega

theorem ascending (h : Cover offset cs tokens) :
    tokens.Pairwise fun earlier later => earlier.span.stop ≤ later.span.start := by
  induction h with
  | gap => exact .nil
  | token _ _ _ _ hafter ih => exact List.pairwise_cons.2 ⟨hafter.le_start, ih⟩

theorem stop_le (h : Cover offset cs tokens) : ∀ token ∈ tokens, token.span.stop ≤ offset + byteLength cs := by
  induction h with
  | gap => simp
  | token _ hstart hstop _ _ ih =>
    intro token hmem
    rw [Text.byteLength_append, Text.byteLength_append]
    rcases List.mem_cons.1 hmem with rfl | hmem
    · omega
    · have hle := ih token hmem
      omega

theorem visible (h : Cover offset cs tokens) : ∀ token ∈ tokens, ∃ c ∈ token.text.toList, isBlank c = false := by
  induction h with
  | gap => simp
  | token _ _ _ hvisible _ ih => exact List.forall_mem_cons.2 ⟨hvisible, ih⟩

/-- The tokens of a text that something stands before. -/
theorem slice {before : List Char} (h : Cover offset cs tokens) (hbefore : byteLength before = offset) :
    ∀ token ∈ tokens, Text.slice? (before ++ cs) token.span = some token.text.toList := by
  induction h generalizing before with
  | gap => simp
  | @token offset gap rest token tokens _ hstart hstop _ _ ih =>
    have hlead : byteLength (before ++ gap) = token.span.start := by
      rw [Text.byteLength_append, hbefore, hstart]
    refine List.forall_mem_cons.2 ⟨?_, fun later hmem => ?_⟩
    · have hle : token.span.start ≤ token.span.stop := by omega
      have hlength : token.span.stop - token.span.start = byteLength token.text.toList := by omega
      rw [Text.slice?, if_pos hle, ← List.append_assoc, ← hlead, Text.splitAt?_byteLength, hlead, hlength]
      simp only [Option.bind_eq_bind, Option.bind_some, Text.splitAt?_byteLength, Option.pure_def]
    · have hnext : byteLength (before ++ gap ++ token.text.toList) = token.span.stop := by
        rw [Text.byteLength_append, hlead, hstop]
      simpa only [List.append_assoc] using ih hnext later hmem

/-- A character at an offset that no token contains stands in a gap. -/
theorem blank_of_outside {left right : List Char} {c : Char} (h : Cover offset cs tokens)
    (hcs : left ++ c :: right = cs)
    (houtside : ∀ token ∈ tokens, token.span.containsOffset (offset + byteLength left) = false) :
    isBlank c = true := by
  -- The character stands in the first gap, in the first token, which would contain it, or after that token.
  induction h generalizing left with
  | gap hgap => exact hgap c (hcs ▸ List.mem_append_cons_self)
  | @token offset gap rest token tokens hgap hstart hstop _ _ ih =>
    rcases Text.stands_in_append hcs with ⟨later, rfl, _⟩ | ⟨inner, rfl, hinner⟩
    · exact hgap c List.mem_append_cons_self
    rw [Text.byteLength_append, ← Nat.add_assoc, ← hstart] at houtside
    rcases Text.stands_in_append hinner with ⟨later, htext, _⟩ | ⟨inner, rfl, hrest⟩
    · have hfirst := houtside token List.mem_cons_self
      have hpos := c.utf8Size_pos
      rw [htext, Text.byteLength_append, byteLength] at hstop
      simp only [Span.containsOffset, Bool.and_eq_false_iff, decide_eq_false_iff_not] at hfirst
      omega
    · rw [Text.byteLength_append, ← Nat.add_assoc, ← hstop] at houtside
      exact ih hrest fun other hmem => houtside other (List.mem_cons_of_mem _ hmem)

end Cover

/-- However a text is cut into segments, its tokens cover it. -/
theorem cover_ofSegments (offset : Nat) (segments : List (List Char)) :
    Cover offset segments.flatten (ofSegments offset segments) := by
  induction segments generalizing offset with
  | nil => exact .gap (by simp)
  | cons segment rest ih =>
    rw [List.flatten_cons, ofSegments]
    split
    · rename_i hblank
      exact (ih _).blank_append (List.all_eq_true.1 hblank)
    · rename_i hsegment
      have hvisible : ∃ c ∈ segment, isBlank c = false := by simpa using hsegment
      exact .first String.toList_ofList rfl hvisible (ih _)

theorem ofLabel_toLabel (token : Token) : ofLabel token.toLabel = token := by
  obtain ⟨span, text, spaceAfter⟩ := token
  cases spaceAfter <;> rfl

end Token

namespace LabelIndex

open Spanned (span)

variable {α : Type} [Spanned α]

theorem collapseAfter_eq_self {previous : Span} {labels : List α}
    (h : (previous :: labels.map span).Pairwise fun a b => b ≠ a) :
    collapse.collapseAfter previous labels = labels := by
  induction labels generalizing previous with
  | nil => rfl
  | cons label rest ih =>
    obtain ⟨hprevious, hrest⟩ := List.pairwise_cons.1 h
    rw [collapse.collapseAfter, if_neg (hprevious _ List.mem_cons_self), ih hrest]

/-- Labels that stand one after the other are kept as they are, whatever their kind. -/
theorem ascending_ofLabels_of_disjoint {labels : List α} (distinct : Bool)
    (hlabels : ∀ label ∈ labels, (span label).start < (span label).stop)
    (h : labels.Pairwise fun a b => (span a).stop ≤ (span b).start) :
    (ofLabels distinct labels).ascending = labels := by
  have hsorted : labels.mergeSort (fun a b => (span a).le (span b)) = labels := by
    apply List.mergeSort_of_pairwise
    refine h.imp_of_mem fun {a b} ha _ hab => Span.le_iff.2 (.inl ?_)
    exact Nat.lt_of_lt_of_le (hlabels a ha) hab
  have hspans : (labels.map span).Pairwise fun a b => b ≠ a := by
    rw [List.pairwise_map]
    refine h.imp_of_mem fun {a b} ha _ hab heq => ?_
    have hlt := hlabels a ha
    rw [heq] at hab
    omega
  have hcollapsed : collapse labels = labels := by
    cases labels with
    | nil => rfl
    | cons label rest => rw [collapse, collapseAfter_eq_self hspans]
  change (arrange distinct labels).toArray.toList = labels
  rw [arrange, hsorted, hcollapsed]
  split <;> rfl

end LabelIndex

/-- Tokens in which nothing of a text is lost. -/
structure Token.Lossless (text : String) (tokens : List Token) : Prop where
  cover : Cover 0 text.toList tokens
  nonempty : ∀ token ∈ tokens, token.span.start < token.span.stop
  ascending : tokens.Pairwise fun earlier later => earlier.span.stop ≤ later.span.start
  covered : ∀ token ∈ tokens, token.span.coveredText? text = some token.text
  within : ∀ token ∈ tokens, token.span.stop ≤ byteLength text.toList
  blank_outside : ∀ left c right, text.toList = left ++ c :: right →
    (∀ token ∈ tokens, token.span.containsOffset (byteLength left) = false) → isBlank c = true
  visible : ∀ token ∈ tokens, ∃ c ∈ token.text.toList, isBlank c = false
  frozen : (LabelIndex.ofLabels Token.kind.distinct (tokens.map Token.toLabel)).ascending.map Token.ofLabel = tokens

namespace Token

theorem map_ofLabel_toLabel (tokens : List Token) : (tokens.map toLabel).map ofLabel = tokens := by
  rw [List.map_map]
  exact List.map_id'' ofLabel_toLabel tokens

theorem Cover.lossless {text : String} {tokens : List Token} (h : Cover 0 text.toList tokens) :
    Lossless text tokens where
  cover := h
  nonempty := h.start_lt_stop
  ascending := h.ascending
  covered token hmem := by
    have hslice : Text.slice? ([] ++ text.toList) token.span = some token.text.toList := h.slice rfl token hmem
    rw [List.nil_append] at hslice
    rw [Span.coveredText?, hslice, Option.map_some, String.ofList_toList]
  within token hmem := Nat.zero_add (byteLength text.toList) ▸ h.stop_le token hmem
  blank_outside left c right htext houtside := by
    apply h.blank_of_outside htext.symm
    simpa using houtside
  visible := h.visible
  frozen := by
    have hfrozen : (LabelIndex.ofLabels kind.distinct (tokens.map toLabel)).ascending = tokens.map toLabel := by
      apply LabelIndex.ascending_ofLabels_of_disjoint
      · exact List.forall_mem_map.2 h.start_lt_stop
      · exact List.pairwise_map.2 h.ascending
    rw [hfrozen, map_ofLabel_toLabel]

end Token

/-- The tokens of a text lose nothing of it, and so do those of any other cut of the text into segments. -/
theorem tokenize_loses_nothing (text : String) :
    Token.Lossless text (tokenize text) ∧
      ∀ segments : List (List Char), segments.flatten = text.toList →
        Token.Lossless text (Token.ofSegments 0 segments) := by
  have hlossless {segments : List (List Char)} (hcut : segments.flatten = text.toList) :
      Token.Lossless text (Token.ofSegments 0 segments) := by
    apply Token.Cover.lossless
    rw [← hcut]
    exact Token.cover_ofSegments 0 segments
  exact ⟨hlossless (Text.flatten_segments text.toList), fun segments => hlossless⟩

theorem tokenize_loses_nothing_greeting :
    [['h', 'i'], [' '], ['\n'], ['y', 'ö']].flatten = "hi \nyö".toList ∧
      Token.Lossless "hi \nyö" (Token.ofSegments 0 [['h', 'i'], [' '], ['\n'], ['y', 'ö']]) := by
  have hcut : [['h', 'i'], [' '], ['\n'], ['y', 'ö']].flatten = "hi \nyö".toList := by decide
  exact ⟨hcut, (tokenize_loses_nothing "hi \nyö").2 _ hcut⟩

end TextAnnotation
