import Mathlib.Tactic.SplitIfs
import TextAnnotation.Drawing

/-!
How the columns of a text compare with those of the line that it is drawn as, on which line feeds, tabs and carriage
returns are spaces. A line feed takes no column in a text, with or without a carriage return before it, but a space takes
one: the line is wider by one column for each of these characters.
-/

namespace TextAnnotation

namespace Text

namespace RightNeighbour

/-- The columns that a character can take back from what stands to its right: a few sequences are narrower than their
last parts. -/
def owed : RightNeighbour → Int
  | khmerLetter | tifinaghJoined | joinedRegional | joinedRegionalsOdd => 1
  | _ => 0

theorem owed_nonneg (n : RightNeighbour) : 0 ≤ n.owed := by
  unfold owed
  split <;> decide

theorem ne_of_isLigature {n : RightNeighbour} (h : n.isLigature = true) : n ≠ .lineFeed := by
  intro heq
  subst heq
  cases h

theorem ne_of_isJoined {n : RightNeighbour} (h : n.isJoined = true) : n ≠ .lineFeed := by
  intro heq
  subst heq
  cases h

theorem isLigature_of_isTransparent {n : RightNeighbour} (h : n.isTransparent = true) : n.isLigature = true :=
  (Bool.and_eq_true_iff.1 h).1

theorem isLigature_join (n : RightNeighbour) : n.join.isLigature = n.isLigature := by
  cases n <;> rfl

theorem owed_join (n : RightNeighbour) : n.join.owed = n.owed := by
  cases n <;> rfl

theorem behindSelector_ne (n : RightNeighbour) : n.behindSelector ≠ .lineFeed := by
  unfold behindSelector
  split
  next h => exact ne_of_isLigature h
  next => nofun

theorem owed_behindSelector_le (n : RightNeighbour) : n.behindSelector.owed ≤ n.owed := by
  unfold behindSelector
  split
  · exact Int.le_refl _
  · exact n.owed_nonneg

/-- What a character next to `n` can add, and what it can be to the character at its left. -/
structure Admits (n : RightNeighbour) (columns : Int) (next : RightNeighbour) : Prop where
  next_ne : next ≠ .lineFeed
  owed_le : next.owed ≤ columns + n.owed

theorem Admits.of_owed_eq_zero {n next : RightNeighbour} {columns : Int} (hnext : next ≠ .lineFeed)
    (howed : next.owed = 0) (h : 0 ≤ columns) : n.Admits columns next := by
  have hn := n.owed_nonneg
  exact ⟨hnext, by omega⟩

/-- A character without columns can leave its right neighbour in view. -/
theorem Admits.same {n : RightNeighbour} (hn : n ≠ .lineFeed) : n.Admits 0 n := ⟨hn, by omega⟩

theorem Admits.mono {n other next : RightNeighbour} {columns : Int} (h : n.Admits columns next)
    (hle : n.owed ≤ other.owed) : other.Admits columns next := by
  have howed := h.owed_le
  exact ⟨h.next_ne, by omega⟩

theorem Admits.ite {n next other : RightNeighbour} {columns : Int} {p : Prop} [Decidable p]
    (h : p → n.Admits columns next) (hnot : n.Admits columns other) : n.Admits columns (if p then next else other) := by
  by_cases hp : p
  · rw [if_pos hp]
    exact h hp
  · rw [if_neg hp]
    exact hnot

end RightNeighbour

open RightNeighbour

theorem ownWidth_nonneg (c : Char) : 0 ≤ ownWidth c := by
  unfold ownWidth
  split_ifs <;> decide

theorem one_le_ownWidth_of_isKhmerLetter {c : Char} (h : isKhmerLetter c = true) : 1 ≤ ownWidth c := by
  have hletters : ∀ n ∈ List.range' 0x1780 0x30, 1 ≤ ownWidth (Char.ofNat n) := by decide +kernel
  have hmem : c.toNat ∈ List.range' 0x1780 0x30 := by
    simp only [isKhmerLetter, between, Bool.or_eq_true, Bool.and_eq_true, decide_eq_true_eq, beq_iff_eq] at h
    rw [List.mem_range'_1]
    omega
  have hwidth := hletters _ hmem
  rwa [Char.ofNat_toNat] at hwidth

theorem admits_khmerLetter {c : Char} (h : isKhmerLetter c = true) (n : RightNeighbour) :
    n.Admits (ownWidth c) .khmerLetter := by
  have hown := one_le_ownWidth_of_isKhmerLetter h
  have hn := n.owed_nonneg
  have howed : khmerLetter.owed = 1 := rfl
  exact ⟨nofun, by omega⟩

theorem admits_neighbourOf (c : Char) (n : RightNeighbour) : n.Admits (ownWidth c) (neighbourOf c) := by
  have hown := ownWidth_nonneg c
  unfold neighbourOf
  dsimp only
  repeat' apply Admits.ite
  -- Only a Khmer letter owes a column, and it takes one by itself.
  all_goals first
    | exact .of_owed_eq_zero nofun rfl hown
    | exact fun _ => .of_owed_eq_zero nofun rfl hown
    | exact fun hletter => admits_khmerLetter hletter n

theorem admits_sequenceWidth? {c : Char} {n next : RightNeighbour} {columns : Int}
    (h : sequenceWidth? c n = some (columns, next)) : n.Admits columns next := by
  unfold sequenceWidth? at h
  dsimp only at h
  split at h
  all_goals
    repeat' split at h
    all_goals cases h
    all_goals exact ⟨nofun, by simp [owed]⟩

theorem admits_widthBefore (c : Char) (n : RightNeighbour) :
    n.Admits (widthBefore c n).1 (widthBefore c n).2.neighbour := by
  unfold widthBefore
  split
  next h =>
    have hligature := isLigature_of_isTransparent (Bool.and_eq_true_iff.1 h).1
    have hjoin := Admits.same (ne_of_isLigature (n.isLigature_join.trans hligature))
    exact hjoin.mono (Int.le_of_eq n.owed_join)
  next =>
    split
    next h => exact .same (ne_of_isLigature (isLigature_of_isTransparent (Bool.and_eq_true_iff.1 h).1))
    next =>
      split
      next columns next hsequence => exact admits_sequenceWidth? hsequence
      next => exact admits_neighbourOf c n

/-- Only a line feed is one to the character at its left, and what is owed stays covered. -/
theorem admits_width {c : Char} (hc : c ≠ '\n') (right : RightContext) :
    right.neighbour.Admits (width c right).1 (width c right).2.neighbour := by
  unfold width
  split
  · split <;> exact .of_owed_eq_zero nofun rfl (by decide)
  · dsimp only
    generalize hm : (if right.selector = .emoji then right.neighbour.behindSelector else right.neighbour) = m
    have hle : m.owed ≤ right.neighbour.owed := by
      subst hm
      split
      · exact right.neighbour.owed_behindSelector_le
      · exact Int.le_refl _
    -- From here on `m` is all that counts of what stands to the right.
    apply Admits.mono _ hle
    split
    · split <;> exact .of_owed_eq_zero nofun rfl (by decide)
    · split
      · split
        next h =>
          rcases Bool.or_eq_true_iff.1 h with h | h
          · exact .same (ne_of_isLigature h)
          · exact .same (ne_of_isJoined h)
        next => exact .of_owed_eq_zero nofun rfl (by decide)
      · split
        · exact (Admits.same m.behindSelector_ne).mono m.owed_behindSelector_le
        · split
          · exact .of_owed_eq_zero nofun rfl (by decide)
          · exact admits_widthBefore c m

theorem widthFrom_cons (c : Char) (cs : List Char) :
    widthFrom (c :: cs) =
      ((widthFrom cs).1 + (width c (widthFrom cs).2).1, (width c (widthFrom cs).2).2) :=
  rfl

theorem emojiSelectable_eq_false {c : Char} (h : c.toNat ∈ [9, 10, 13, 32]) :
    Property.emojiSelectable.contains c = false := by
  have hall : ∀ n ∈ [9, 10, 13, 32], Property.emojiSelectable.contains (Char.ofNat n) = false := by decide +kernel
  have hc := hall _ h
  rwa [Char.ofNat_toNat] at hc

theorem width_lineFeed (right : RightContext) : width '\n' right = (0, ⟨.lineFeed, .none⟩) := by
  simp [width, emojiSelectable_eq_false]

theorem width_space (right : RightContext) : width ' ' right = (1, {}) := by
  simp [width, emojiSelectable_eq_false]

theorem width_tab (right : RightContext) : width '\t' right = (1, {}) := by
  simp [width, emojiSelectable_eq_false]

theorem width_carriageReturn {right : RightContext} (h : right.neighbour ≠ .lineFeed) :
    width '\r' right = (1, {}) := by
  have hbehind := right.neighbour.behindSelector_ne
  by_cases hselector : right.selector = .emoji
  · simp [width, emojiSelectable_eq_false, hselector, hbehind]
  · simp [width, emojiSelectable_eq_false, hselector, h]

theorem width_carriageReturn_lineFeed : width '\r' ⟨.lineFeed, .none⟩ = (0, {}) := by
  simp [width]

/-- A text has at least the columns that a character at its left can take back. -/
theorem owed_le_widthFrom (cs : List Char) : (widthFrom cs).2.neighbour.owed ≤ (widthFrom cs).1 := by
  induction cs with
  | nil => decide
  | cons c cs ih =>
    rw [widthFrom_cons]
    by_cases hc : c = '\n'
    · have hn := (widthFrom cs).2.neighbour.owed_nonneg
      have howed : lineFeed.owed = 0 := rfl
      rw [hc, width_lineFeed]
      dsimp only
      omega
    · have hadds := (admits_width hc (widthFrom cs).2).owed_le
      dsimp only
      omega

theorem widthFrom_nonneg (cs : List Char) : 0 ≤ (widthFrom cs).1 := by
  have howed := (widthFrom cs).2.neighbour.owed_nonneg
  have hle := owed_le_widthFrom cs
  omega

theorem widthFrom_lineFeed (cs : List Char) : widthFrom ('\n' :: cs) = ((widthFrom cs).1, ⟨.lineFeed, .none⟩) := by
  rw [widthFrom_cons, width_lineFeed, Int.add_zero]

theorem neighbour_ne_lineFeed {cs : List Char} (h : cs.head? ≠ some '\n') :
    (widthFrom cs).2.neighbour ≠ .lineFeed := by
  cases cs with
  | nil => nofun
  | cons c cs =>
    have hc : c ≠ '\n' := fun heq => h (by rw [heq, List.head?_cons])
    rw [widthFrom_cons]
    exact (admits_width hc _).next_ne

namespace RightContext

/-- What stands in the place of a context on the line that a text is drawn as. -/
def onLine (right : RightContext) : RightContext :=
  if right.neighbour = .lineFeed then { right with neighbour := .plain } else right

theorem onLine_of_ne {right : RightContext} (h : right.neighbour ≠ .lineFeed) : right.onLine = right := if_neg h

end RightContext

theorem widthBefore_lineFeed (c : Char) : widthBefore c .lineFeed = widthBefore c .plain := rfl

/-- Only a carriage return tells a line feed from what takes its place. -/
theorem width_onLine {c : Char} (hc : c ≠ '\r') (right : RightContext) : width c right.onLine = width c right := by
  by_cases h : right.neighbour = .lineFeed
  · obtain ⟨n, selector⟩ := right
    subst h
    cases selector <;>
      simp [width, RightContext.onLine, hc, behindSelector, isLigature, isJoined, widthBefore_lineFeed]
  · rw [RightContext.onLine_of_ne h]

/-- The width of a text adds up before a character that forms no sequence with one at its left. -/
theorem columnWidth_append {inner : List Char} (h : (widthFrom inner).2 = {}) (before : List Char) :
    columnWidth (before ++ inner) = columnWidth before + columnWidth inner := by
  have hwidth : widthFrom (before ++ inner) = ((widthFrom before).1 + (widthFrom inner).1, (widthFrom before).2) := by
    induction before with
    | nil =>
      rw [List.nil_append, show widthFrom [] = (0, {}) from rfl, Int.zero_add, ← h]
    | cons c before ih =>
      rw [List.cons_append, widthFrom_cons, ih, widthFrom_cons, Int.add_right_comm]
  have hbefore := widthFrom_nonneg before
  have hinner := widthFrom_nonneg inner
  rw [columnWidth, columnWidth, columnWidth, hwidth]
  dsimp only
  omega

theorem charactersWithin_byteLength (before after : List Char) :
    charactersWithin (before ++ after) (byteLength before) = before := by
  induction before with
  | nil =>
    cases after with
    | nil => rfl
    | cons c after =>
      have hpos := c.utf8Size_pos
      exact if_neg (by simp only [byteLength]; omega)
  | cons c before ih =>
    rw [List.cons_append, charactersWithin, byteLength, if_pos (Nat.le_add_right _ _), Nat.add_sub_cancel_left, ih]

end Text

namespace Drawing

open Text

/-- The number of characters of a text that take no column in it but one on its line: line feeds, and carriage returns
right before them. -/
def breakLength : List Char → Nat
  | [] => 0
  | c :: cs => breakLength cs + if c = '\n' ∨ c = '\r' ∧ cs.head? = some '\n' then 1 else 0

theorem breakLength_cons_of_ne {c : Char} (hfeed : c ≠ '\n') (hreturn : c ≠ '\r') (cs : List Char) :
    breakLength (c :: cs) = breakLength cs := by
  simp [breakLength, hfeed, hreturn]

theorem oneLine_cons_of_ne {c : Char} (hfeed : c ≠ '\n') (htab : c ≠ '\t') (hreturn : c ≠ '\r') (cs : List Char) :
    oneLine (c :: cs) = c :: oneLine cs := by
  simp [oneLine, hfeed, htab, hreturn]

/-- A text is drawn on one line as wide as it is itself, with a column more for each line break. -/
theorem widthFrom_oneLine (cs : List Char) :
    widthFrom (oneLine cs) = ((widthFrom cs).1 + breakLength cs, (widthFrom cs).2.onLine) := by
  induction cs with
  | nil => rfl
  | cons c cs ih =>
    have hspace : widthFrom (' ' :: oneLine cs) = ((widthFrom cs).1 + breakLength cs + 1, {}) := by
      rw [widthFrom_cons, width_space, ih]
    have hcases : c = '\n' ∨ c = '\t' ∨ c = '\r' ∨ c ≠ '\n' ∧ c ≠ '\t' ∧ c ≠ '\r' := by grind
    rcases hcases with rfl | rfl | rfl | ⟨hfeed, htab, hreturn⟩
    · rw [show oneLine ('\n' :: cs) = ' ' :: oneLine cs from rfl, hspace, widthFrom_lineFeed]
      simp [breakLength, RightContext.onLine, Int.add_assoc]
    · rw [show oneLine ('\t' :: cs) = ' ' :: oneLine cs from rfl, hspace, widthFrom_cons, width_tab,
        breakLength_cons_of_ne (by decide) (by decide), Int.add_right_comm]
      rfl
    · rw [show oneLine ('\r' :: cs) = ' ' :: oneLine cs from rfl, hspace]
      by_cases hnext : cs.head? = some '\n'
      · obtain ⟨rest, rfl⟩ := List.head?_eq_some_iff.1 hnext
        rw [widthFrom_cons '\r', widthFrom_lineFeed, width_carriageReturn_lineFeed]
        simp [breakLength, RightContext.onLine, Int.add_assoc]
      · rw [widthFrom_cons, width_carriageReturn (neighbour_ne_lineFeed hnext), breakLength, if_neg (by simp [hnext]),
          Nat.add_zero, Int.add_right_comm]
        rfl
    · have hne := (admits_width hfeed (widthFrom cs).2).next_ne
      rw [oneLine_cons_of_ne hfeed htab hreturn, widthFrom_cons, ih, width_onLine hreturn, widthFrom_cons,
        RightContext.onLine_of_ne hne, breakLength_cons_of_ne hfeed hreturn, Int.add_right_comm]

theorem columnWidth_oneLine (cs : List Char) : columnWidth (oneLine cs) = columnWidth cs + breakLength cs := by
  have hnonneg := widthFrom_nonneg cs
  rw [columnWidth, columnWidth, widthFrom_oneLine]
  dsimp only
  omega

theorem breakLength_eq_zero_iff {cs : List Char} : breakLength cs = 0 ↔ '\n' ∉ cs := by
  induction cs with
  | nil => exact ⟨fun _ => List.not_mem_nil, fun _ => rfl⟩
  | cons c cs ih =>
    have hhead : cs.head? = some '\n' → '\n' ∈ cs := List.mem_of_head?
    rw [breakLength, Nat.add_eq_zero_iff, ih, List.mem_cons, not_or, and_comm]
    apply and_congr_left
    intro hcs
    simp [eq_comm, mt hhead hcs]

theorem breakLength_add_le (before inner : List Char) :
    breakLength before + breakLength inner ≤ breakLength (before ++ inner) := by
  induction before with
  | nil => exact Nat.le_of_eq (Nat.zero_add _)
  | cons c before ih =>
    have hhead : before.head? = some '\n' → (before ++ inner).head? = some '\n' := by
      intro heq
      rw [List.head?_append, heq, Option.some_or]
    rw [List.cons_append, breakLength, breakLength]
    by_cases hbreak : c = '\n' ∨ c = '\r' ∧ before.head? = some '\n'
    · rw [if_pos hbreak, if_pos (hbreak.imp_right (And.imp_right hhead))]
      omega
    · rw [if_neg hbreak]
      omega

theorem breakLength_append_of_not_mem (before : List Char) {inner : List Char} (h : '\n' ∉ inner) :
    breakLength (before ++ inner) = breakLength before := by
  induction before with
  | nil => exact breakLength_eq_zero_iff.2 h
  | cons c before ih =>
    have hhead : (before ++ inner).head? = some '\n' ↔ before.head? = some '\n' := by
      cases before with
      | nil => exact ⟨fun heq => absurd (List.mem_of_head? heq) h, nofun⟩
      | cons first rest => rfl
    rw [List.cons_append, breakLength, breakLength, ih]
    simp only [hhead]

/-- Only line feeds make the line of a text grow faster than the text. -/
theorem breakLength_append_eq_iff (before : List Char) {inner : List Char} :
    breakLength (before ++ inner) = breakLength before ↔ '\n' ∉ inner := by
  constructor
  · intro h
    have hle := breakLength_add_le before inner
    exact breakLength_eq_zero_iff.1 (by omega)
  · exact breakLength_append_of_not_mem before

end Drawing

end TextAnnotation
