import Mathlib.Data.List.Forall2
import TextAnnotation.Proofs.Label.Inside
import TextAnnotation.Proofs.Pattern.Opening

/-!
What terms and literals see of an index, of which the first place that settles a match is all they look for.
Labels that end after the limit stand between the others, and make no difference but to the positions at which
those are found.
-/

namespace TextAnnotation

/-- Where stops ascend, no label that ends within a limit comes after one that does not. -/
theorem LabelIndex.StopsAscend.following_eq {index : LabelIndex Label} (h : index.StopsAscend)
    (position limit : Nat) :
    ∃ hidden, index.following position =
        (index.following position).filter (fun label => label.span.stop ≤ limit) ++ hidden ∧
      ∀ label ∈ hidden, limit < label.span.stop := by
  have hsorted : (index.following position).Pairwise fun a b => a.span.stop ≤ b.span.stop := by
    rw [following_eq_drop]
    exact List.Pairwise.drop h
  generalize index.following position = labels at hsorted
  induction labels with
  | nil => exact ⟨[], rfl, by simp⟩
  | cons label rest ih =>
    obtain ⟨hlabel, hrest⟩ := List.pairwise_cons.1 hsorted
    by_cases hstop : label.span.stop ≤ limit
    · obtain ⟨hidden, heq, hhidden⟩ := ih hrest
      refine ⟨hidden, ?_, hhidden⟩
      rw [List.filter_cons, if_pos (decide_eq_true hstop), List.cons_append, ← heq]
    · have hlater : ∀ later ∈ label :: rest, limit < later.span.stop := by
        refine List.forall_mem_cons.2 ⟨Nat.lt_of_not_le hstop, fun later hmem => ?_⟩
        exact Nat.lt_of_lt_of_le (Nat.lt_of_not_le hstop) (hlabel later hmem)
      have hnone : (label :: rest).filter (fun label => label.span.stop ≤ limit) = [] := by
        rw [List.filter_eq_nil_iff]
        intro later hmem
        have := hlater later hmem
        simpa using this
      exact ⟨label :: rest, by rw [hnone, List.nil_append], hlater⟩

namespace Pattern.Matcher

/-- What the first place from `start` on settles, or `nothing` where no place settles anything. -/
inductive FirstFrom (settles : Nat → α → Prop) (nothing : α) (start : Nat) : α → Prop where
  | nowhere (h : ∀ place result, start ≤ place → ¬ settles place result) :
    FirstFrom settles nothing start nothing
  | found {place : Nat} {result : α} (hle : start ≤ place) (hsettles : settles place result)
    (hfirst : ∀ earlier other, start ≤ earlier → earlier < place → ¬ settles earlier other) :
    FirstFrom settles nothing start result

namespace FirstFrom

variable {settles : Nat → α → Prop} {nothing result other : α} {start later : Nat}

theorem here (h : settles start result) : FirstFrom settles nothing start result :=
  .found (Nat.le_refl start) h fun _ _ hle hlt => absurd hlt (Nat.not_lt.2 hle)

theorem widen (h : FirstFrom settles nothing later result) (hle : start ≤ later)
    (hskipped : ∀ earlier other, start ≤ earlier → earlier < later → ¬ settles earlier other) :
    FirstFrom settles nothing start result := by
  cases h with
  | nowhere h =>
    apply nowhere
    intro place result hstart
    rcases Nat.lt_or_ge place later with hlt | hge
    · exact hskipped place result hstart hlt
    · exact h place result hge
  | found hlater hsettles hfirst =>
    apply found (Nat.le_trans hle hlater) hsettles
    intro earlier other hstart hearlier
    rcases Nat.lt_or_ge earlier later with hlt | hge
    · exact hskipped earlier other hstart hlt
    · exact hfirst earlier other hge hearlier

theorem next (h : FirstFrom settles nothing (start + 1) result) (hstart : ∀ other, ¬ settles start other) :
    FirstFrom settles nothing start result := by
  apply h.widen (Nat.le_succ start)
  intro earlier other hle hlt
  cases Nat.le_antisymm hle (Nat.le_of_lt_succ hlt)
  exact hstart other

theorem unique (hsettles : ∀ place a b, settles place a → settles place b → a = b)
    (h : FirstFrom settles nothing start result) (hother : FirstFrom settles nothing start other) :
    result = other := by
  cases h with
  | nowhere h =>
    cases hother with
    | nowhere => rfl
    | found hle hplace _ => exact absurd hplace (h _ _ hle)
  | @found here _ hle hplace hfirst =>
    cases hother with
    | nowhere h => exact absurd hplace (h _ _ hle)
    | @found there _ hle' hplace' hfirst' =>
      rcases Nat.lt_trichotomy here there with hlt | rfl | hlt
      · exact absurd hplace (hfirst' _ _ hle hlt)
      · exact hsettles _ _ _ hplace hplace'
      · exact absurd hplace' (hfirst _ _ hle' hlt)

end FirstFrom

/-- Where an anchor lets a label start: at the position, after the blanks that follow it, or anywhere. -/
def InWindow (m : Matcher) (state : MatchState) (limit start : Nat) : Prop :=
  match state.anchor with
  | .start => start = state.position
  | .adjacent => start ≤ m.skipBlanks state.position limit
  | .free => True

theorem inWindow_iff {m : Matcher} {state : MatchState} {limit start : Nat} (h : state.position ≤ start) :
    m.InWindow state limit start ↔ (m.windowEnd? state limit).any (· < start) = false := by
  unfold InWindow windowEnd?
  cases state.anchor with
  | start =>
    simp only [Option.any_some, decide_eq_false_iff_not]
    omega
  | adjacent => simp
  | free => simp

theorem closes_of_le {limit start later : Nat} {windowEnd? nearest? : Option Nat} (hle : start ≤ later)
    (h : (decide (limit < start) || windowEnd?.any (· < start) || nearest?.any (· < start)) = true) :
    (decide (limit < later) || windowEnd?.any (· < later) || nearest?.any (· < later)) = true := by
  have hany {bound? : Option Nat} (hbound : bound?.any (· < start) = true) :
      bound?.any (· < later) = true := by
    obtain ⟨bound, rfl, hlt⟩ := (Option.any_eq_true _ _).1 hbound
    have := of_decide_eq_true hlt
    exact decide_eq_true (Nat.lt_of_lt_of_le this hle)
  simp only [Bool.or_eq_true, decide_eq_true_eq] at h ⊢
  rcases h with (hlimit | hwindow) | hnearest
  · exact .inl (.inl (Nat.lt_of_lt_of_le hlimit hle))
  · exact .inl (.inr (hany hwindow))
  · exact .inr (hany hnearest)

/-- A scan does not break off before a label that it may reach. -/
theorem within_of_le {m : Matcher} {state : MatchState} {limit start later : Nat} (hle : start ≤ later)
    (hfollows : state.position ≤ later) (hlimit : later ≤ limit) (hwindow : m.InWindow state limit later) :
    (decide (limit < start) || (m.windowEnd? state limit).any (· < start)) = false := by
  rw [Bool.eq_false_iff]
  intro hcloses
  have hlater := @closes_of_le limit start later _ none hle ((Bool.or_false _).trans hcloses)
  rw [(inWindow_iff hfollows).1 hwindow, decide_eq_false (Nat.not_lt.2 hlimit)] at hlater
  cases hlater

section
variable (m : Matcher) {search : Search} (kind : LabelKind) (captures : Captures)

theorem candidates_eq_nil {labels : List Label} (h : ∀ label ∈ labels, search.limit < label.span.stop)
    (nearest? : Option Nat) (position : Nat) :
    m.candidates search kind captures nearest? position labels = [] := by
  induction labels generalizing position with
  | nil => rfl
  | cons label rest ih =>
    obtain ⟨hlabel, hrest⟩ := List.forall_mem_cons.1 h
    rw [candidates, if_pos hlabel]
    split
    · rfl
    · exact ih hrest _

/-- Labels that end after the limit are passed over. If one of them closes the window, so does any label after
it. -/
theorem candidates_append {skipped rest : List Label} {label : Label}
    (hskipped : ∀ other ∈ skipped, search.limit < other.span.stop)
    (hstarts : ∀ other ∈ skipped, other.span.start ≤ label.span.start) (nearest? : Option Nat)
    (position : Nat) :
    m.candidates search kind captures nearest? position (skipped ++ label :: rest) =
      m.candidates search kind captures nearest? (position + skipped.length) (label :: rest) := by
  induction skipped generalizing position with
  | nil => rfl
  | cons other skipped ih =>
    obtain ⟨hother, hskipped⟩ := List.forall_mem_cons.1 hskipped
    obtain ⟨hstart, hstarts⟩ := List.forall_mem_cons.1 hstarts
    rw [List.cons_append, candidates, if_pos hother]
    split
    · rename_i hcloses
      rw [candidates, if_pos (closes_of_le hstart hcloses)]
    · rw [ih hskipped hstarts, List.length_cons, Nat.add_assoc, Nat.add_comm 1]

/-- The candidates are sought from the next label on that ends within the limit. -/
theorem candidates_of_filter_eq_cons {index : LabelIndex Label} {labels visible : List Label} {label : Label}
    {position : Nat} (hlabels : labels = index.ascending.drop position)
    (h : labels.filter (fun label => label.span.stop ≤ search.limit) = label :: visible)
    (nearest? : Option Nat) :
    ∃ next rest, m.candidates search kind captures nearest? position labels =
        m.candidates search kind captures nearest? next (label :: rest) ∧
      label :: rest = index.ascending.drop next ∧ label :: rest ⊆ labels ∧ label.span.stop ≤ search.limit ∧
      rest.filter (fun label => label.span.stop ≤ search.limit) = visible := by
  obtain ⟨skipped, rest, rfl, hskipped, hstop, hrest⟩ := List.filter_eq_cons_iff.1 h
  have hsorted := index.sorted.sublist (List.drop_sublist position _)
  change (index.ascending.drop position).Pairwise _ at hsorted
  rw [← hlabels, List.pairwise_append] at hsorted
  refine ⟨position + skipped.length, rest, ?_, ?_, List.subset_append_right _ _, of_decide_eq_true hstop, hrest⟩
  · apply candidates_append
    · simpa using hskipped
    · intro other hother
      have := Span.le_iff.1 (hsorted.2.2 other hother label List.mem_cons_self)
      change other.span.start < label.span.start ∨ other.span.start = label.span.start ∧ _ at this
      omega
  · rw [← List.drop_drop, ← hlabels, List.drop_left]

end

section
variable (literal : Literal) (windowEnd? : Option Nat) {limit more : Nat} (kind : LabelKind)

theorem pickWords_eq_none {labels : List Label} (h : labels.length ≤ more) (position : Nat) :
    pickWords literal windowEnd? limit more kind position labels = .ok none := by
  cases labels with
  | nil => rfl
  | cons first rest =>
    rw [pickWords, List.getElem?_eq_none h]
    split <;> rfl

/-- Labels that end after the limit, with none after them that does not, are no words of a literal. -/
theorem pickWords_append {visible hidden : List Label} (h : ∀ label ∈ hidden, limit < label.span.stop)
    (position : Nat) :
    pickWords literal windowEnd? limit more kind position (visible ++ hidden) =
      pickWords literal windowEnd? limit more kind position visible := by
  induction visible generalizing position with
  | nil =>
    rw [List.nil_append, pickWords]
    induction hidden generalizing position with
    | nil => rfl
    | cons first rest ih =>
      rw [pickWords]
      split
      · rfl
      split
      · rfl
      rename_i last hlast
      have hstop := h last (List.mem_of_getElem? hlast)
      rw [decide_eq_false (Nat.not_le_of_lt hstop), Bool.false_and, if_neg Bool.false_ne_true]
      exact ih (List.forall_mem_cons.1 h).2 _
  | cons first visible ih =>
    rw [List.cons_append, pickWords, pickWords, ← List.cons_append]
    split
    · rfl
    -- Words that reach into the hidden labels end with one of these, which is too late.
    by_cases hlt : more < (first :: visible).length
    · rw [List.getElem?_append_left hlt, List.take_append_of_le_length hlt, ih]
    · rw [List.getElem?_eq_none (Nat.le_of_not_lt hlt)]
      split
      · rfl
      rename_i last hlast
      rw [List.getElem?_append_right (Nat.le_of_not_lt hlt)] at hlast
      have hstop := h last (List.mem_of_getElem? hlast)
      rw [decide_eq_false (Nat.not_le_of_lt hstop), Bool.false_and, if_neg Bool.false_ne_true, ih]
      apply pickWords_eq_none
      exact Nat.le_of_succ_le_succ (Nat.le_succ_of_le (Nat.le_of_not_lt hlt))

end

end Pattern.Matcher

end TextAnnotation
