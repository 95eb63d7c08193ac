import TextAnnotation.Proofs.Document.Slicing
import TextAnnotation.Proofs.Pattern.Calls
import TextAnnotation.Proofs.Pattern.Safety

/-!
Where an anchor lets a label start. After an adjacency these are the places that only blanks part from the
position, unless the limit lies inside a character: then blanks are not skipped at all.
-/

namespace TextAnnotation

namespace Text

/-- Two places in a text with nothing but blanks between them. -/
def BlankBetween (cs : List Char) (start stop : Nat) : Prop :=
  ∃ part, slice? cs ⟨start, stop⟩ = some part ∧ ∀ c ∈ part, isBlank c = true

theorem byteLength_le_takeWhile_iff (p : Char → Bool) (part after : List Char) :
    byteLength part ≤ byteLength ((part ++ after).takeWhile p) ↔ ∀ c ∈ part, p c = true := by
  induction part with
  | nil => simp [byteLength]
  | cons c part ih =>
    rw [List.cons_append, List.takeWhile_cons, List.forall_mem_cons, ← ih]
    have hpos := c.utf8Size_pos
    cases hc : p c with
    | false => simp only [byteLength, Bool.false_eq_true, if_false, false_and, iff_false]; omega
    | true => simp only [byteLength, if_true, true_and]; omega

section
variable {cs : List Char} {start stop limit : Nat}

theorem IsPlace.le_byteLength (h : IsPlace cs stop) : stop ≤ byteLength cs := by
  obtain ⟨before, after, rfl, rfl⟩ := h
  rw [byteLength_append]
  exact Nat.le_add_right _ _

theorem exists_slice (hstart : IsPlace cs start) (hstop : IsPlace cs stop) (hle : start ≤ stop) :
    ∃ part, slice? cs ⟨start, stop⟩ = some part ∧ stop = start + byteLength part := by
  obtain ⟨part, hpart⟩ :=
    Option.isSome_iff_exists.1 ((@slice?_isSome_iff cs ⟨start, stop⟩).2 ⟨hle, hstart, hstop⟩)
  obtain ⟨_, _, _, _, hlength⟩ := eq_append_of_slice? hpart
  exact ⟨part, hpart, hlength⟩

/-- An offset between the bytes of one character. -/
def CutsCharacter (cs : List Char) (offset : Nat) : Prop := offset < byteLength cs ∧ ¬ IsPlace cs offset

theorem cutsCharacter_iff : CutsCharacter cs limit ↔ ¬ IsPlace cs (min limit (byteLength cs)) := by
  rcases Nat.lt_or_ge limit (byteLength cs) with hlt | hle
  · rw [Nat.min_eq_left (Nat.le_of_lt hlt), CutsCharacter, and_iff_right hlt]
  · have hend : IsPlace cs (byteLength cs) := ⟨cs, [], (List.append_nil cs).symm, rfl⟩
    rw [Nat.min_eq_right hle, CutsCharacter]
    exact iff_of_false (fun h => absurd h.1 (Nat.not_lt.2 hle)) (fun h => h hend)

theorem blankBetween_self (h : IsPlace cs start) : BlankBetween cs start start := by
  obtain ⟨part, hpart, hlength⟩ := exists_slice h h (Nat.le_refl start)
  have hnil : part = [] := by
    apply @eq_nil_of_byteLength_append_le [] part
    simp only [List.nil_append, byteLength]
    omega
  exact ⟨part, hpart, by simp [hnil]⟩

theorem eq_of_append_eq_append {a b c d : List Char} (h : a ++ b = c ++ d)
    (hlength : byteLength a = byteLength c) : a = c ∧ b = d := by
  have hsplit := splitAt?_byteLength a b
  rw [h, hlength, splitAt?_byteLength] at hsplit
  cases hsplit
  exact ⟨rfl, rfl⟩

/-- A slice goes on as any longer one from the same place does. -/
theorem exists_append_of_slice? {part longer : List Char} (hpart : slice? cs ⟨start, stop⟩ = some part)
    (hlonger : slice? cs ⟨start, limit⟩ = some longer) (hle : stop ≤ limit) : ∃ more, longer = part ++ more := by
  obtain ⟨before, after, hcs, hbefore, hlength⟩ := eq_append_of_slice? hpart
  obtain ⟨before', after', hcs', hbefore', hlength'⟩ := eq_append_of_slice? hlonger
  obtain ⟨_, hrest⟩ := eq_of_append_eq_append (hcs.symm.trans hcs') (hbefore.symm.trans hbefore')
  rcases List.append_eq_append_iff.1 hrest with ⟨more, hmore, _⟩ | ⟨more, hmore, _⟩
  · exact ⟨more, hmore⟩
  · have hnil : more = [] := by
      apply @eq_nil_of_byteLength_append_le longer more
      dsimp only at hlength hlength'
      rw [← hmore]
      omega
    exact ⟨[], by rw [hmore, hnil, List.append_nil, List.append_nil]⟩

end

end Text

namespace Pattern.Matcher

open Text

variable {m : Matcher} {position limit start : Nat}

theorem skipBlanks_of_cut (h : ¬ IsPlace m.text (min limit (byteLength m.text))) :
    m.skipBlanks position limit = position := by
  have hnone : slice? m.text ⟨position, min limit (byteLength m.text)⟩ = none := by
    rw [← Option.not_isSome_iff_eq_none, slice?_isSome_iff]
    intro hplaces
    exact h hplaces.2.2
  simp [skipBlanks, hnone, byteLength]

/-- Up to a limit that is a place in the text, or beyond it, exactly the blanks are skipped. -/
theorem le_skipBlanks_iff (hposition : IsPlace m.text position) (hstart : IsPlace m.text start)
    (hlimit : IsPlace m.text (min limit (byteLength m.text))) (hle : position ≤ start) (hwithin : start ≤ limit) :
    start ≤ m.skipBlanks position limit ↔ BlankBetween m.text position start := by
  have hend : start ≤ min limit (byteLength m.text) := Nat.le_min.2 ⟨hwithin, hstart.le_byteLength⟩
  obtain ⟨part, hpart, rfl⟩ := exists_slice hposition hstart hle
  obtain ⟨longer, hlonger, _⟩ := exists_slice hposition hlimit (Nat.le_trans hle hend)
  obtain ⟨more, rfl⟩ := exists_append_of_slice? hpart hlonger hend
  simp [skipBlanks, BlankBetween, hlonger, hpart, byteLength_le_takeWhile_iff]

/-- After an adjacency a label may start where only blanks part it from the position. A limit inside a character
leaves it the position alone. -/
theorem starts_adjacent_iff {state : MatchState} (hanchor : state.anchor = .adjacent)
    (hposition : IsPlace m.text state.position) (hstart : IsPlace m.text start) (hle : state.position ≤ start)
    (hlimit : start ≤ limit) :
    (m.windowEnd? state limit).any (· < start) = false ↔
      BlankBetween m.text state.position start ∧ (CutsCharacter m.text limit → start = state.position) := by
  simp only [windowEnd?, hanchor, Option.any_some, decide_eq_false_iff_not, Nat.not_lt]
  by_cases hcut : CutsCharacter m.text limit
  · rw [skipBlanks_of_cut (cutsCharacter_iff.1 hcut)]
    constructor
    · intro h
      have heq := Nat.le_antisymm h hle
      rw [heq]
      exact ⟨blankBetween_self hposition, fun _ => rfl⟩
    · intro h
      exact Nat.le_of_eq (h.2 hcut)
  · have hplace : IsPlace m.text (min limit (byteLength m.text)) := by
      rw [cutsCharacter_iff] at hcut
      exact Classical.not_not.1 hcut
    rw [le_skipBlanks_iff hposition hstart hplace hle hlimit, and_iff_left (fun h => absurd h hcut)]

end Pattern.Matcher

namespace Pattern.Searcher

def sizeAliases : AliasTable :=
  (AliasTable.register ⟨.empty, none⟩ "Number" { name := "Number" } []).register "Unit" { name := "Unit" } []

def sizePattern : Pattern where
  source := "Number -> Unit"
  root := .sequence [.label ⟨"Number", 0, []⟩, .adjacent, .label ⟨"Unit", 1, []⟩]
  kinds := [{ name := "Number" }, { name := "Unit" }]
  captureNames := []

/-- A number and a unit, before a character of two bytes. -/
def sizeView : View where
  name := "sizes"
  text := "5 mé"
  labelers := [
    ({ name := "Number" }, .collecting #[⟨⟨0, 1⟩, .empty⟩]),
    ({ name := "Unit" }, .collecting #[⟨⟨2, 3⟩, .empty⟩])]

/-- A search of a range that ends inside the last character. -/
def sizeSearcher : Searcher := (sizeView.searcherIn sizePattern ⟨0, 4⟩).1

def sizeState : MatchState := ⟨1, .adjacent, some 0, some ⟨0, 0⟩⟩

theorem sizeView_proper : sizeView.Proper := by
  simp [View.Proper, View.All, sizeView, Labeler.All, Label.Proper]

theorem isPlace_sizes : Text.IsPlace sizeSearcher.matcher.text 1 ∧ Text.IsPlace sizeSearcher.matcher.text 2 :=
  ⟨Text.isPlace_iff_splitAt?.2 (by decide +kernel), Text.isPlace_iff_splitAt?.2 (by decide +kernel)⟩

theorem blankBetween_sizes : Text.BlankBetween sizeSearcher.matcher.text 1 2 :=
  ⟨[' '], by decide +kernel, List.forall_mem_singleton.2 (by decide +kernel)⟩

theorem starts_adjacent_iff_sizes :
    sizeState.anchor = .adjacent ∧ Text.IsPlace sizeSearcher.matcher.text sizeState.position ∧
      Text.IsPlace sizeSearcher.matcher.text 2 ∧ sizeState.position ≤ 2 ∧
      (sizeSearcher.matcher.windowEnd? sizeState 5).any (· < 2) = false := by
  have hend : ¬ Text.CutsCharacter sizeSearcher.matcher.text 5 := by
    intro h
    exact absurd h.1 (by decide +kernel)
  refine ⟨rfl, isPlace_sizes.1, isPlace_sizes.2, by decide, ?_⟩
  apply (Matcher.starts_adjacent_iff rfl isPlace_sizes.1 isPlace_sizes.2 (by decide) (by decide)).2
  exact ⟨blankBetween_sizes, fun h => absurd h hend⟩

theorem reaches_unit : sizeSearcher.matcher.Reaches (sizeSearcher.task 0)
    ⟨4, .label ⟨"Unit", 1, []⟩, sizeState, #[]⟩ := by
  have hnumber : sizeSearcher.matcher.matchNode 4 (.label ⟨"Number", 0, []⟩) { position := 0, anchor := .start } #[] =
      .ok (some ⟨1, .free, some 0, some ⟨0, 0⟩⟩, #[]) := by decide +kernel
  have hadjacent : sizeSearcher.matcher.matchNode 4 .adjacent ⟨1, .free, some 0, some ⟨0, 0⟩⟩ #[] =
      .ok (some sizeState, #[]) := by decide +kernel
  exact .tail (.tail (.single (.goOn (.rest hnumber))) (.goOn (.rest hadjacent))) (.goOn (.first ..))

/-- A blank is not skipped if the searched range ends inside a character. -/
theorem not_always_skips_blanks :
    ¬ ∀ (table : AliasTable) (source : String) (pattern : Pattern) (view : View) (range : Span)
      (candidate limit start : Nat) (term : LabelTerm) (state : MatchState) (captures : Captures),
      parse table source = .ok pattern → view.Proper →
      (view.searcherIn pattern range).1.matcher.Reaches ((view.searcherIn pattern range).1.task candidate)
        ⟨limit, .label term, state, captures⟩ →
      state.anchor = .adjacent → Text.IsPlace view.text.toList state.position → Text.IsPlace view.text.toList start →
      state.position ≤ start → start ≤ limit →
      (((view.searcherIn pattern range).1.matcher.windowEnd? state limit).any (· < start) = false ↔
        Text.BlankBetween view.text.toList state.position start) := by
  intro h
  have hparse : parse sizeAliases "Number -> Unit" = .ok sizePattern :=
    parse_of_meaning (.last (.next (.ofAlias "Number") (.next .arrow (.last (.ofAlias "Unit"))))) (by decide +kernel) rfl
  have hsame := h _ _ _ _ _ _ _ 2 _ _ _ hparse sizeView_proper reaches_unit rfl isPlace_sizes.1 isPlace_sizes.2
    (by decide) (by decide)
  have hclosed : (sizeSearcher.matcher.windowEnd? sizeState 4).any (· < 2) = true := by decide +kernel
  have hopen := hsame.2 blankBetween_sizes
  cases hclosed.symm.trans hopen

end Pattern.Searcher

end TextAnnotation
