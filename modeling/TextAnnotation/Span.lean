/-!
Half-open ranges of byte offsets into a text. A span that is built from its bounds never ends before
it starts; a query may name any two offsets.
-/

namespace TextAnnotation

/-- The half-open range `[start, stop)` of byte offsets. -/
structure Span where
  start : Nat
  stop : Nat
deriving DecidableEq, Repr, Inhabited

/-- Bounds that would make a span end before it starts. -/
structure InvertedBounds where
  start : Nat
  stop : Nat
deriving DecidableEq, Repr

def InvertedBounds.message (bounds : InvertedBounds) : String :=
  "text range start " ++ toString bounds.start ++ " is after its end " ++ toString bounds.stop

/-- Whatever occupies a span of a text. -/
class Spanned (α : Type) where
  span : α → Span

instance : Spanned Span := ⟨id⟩

namespace Span

/-- The span between two offsets, refused when they are out of order. -/
def between (start stop : Nat) : Except InvertedBounds Span :=
  if start ≤ stop then .ok ⟨start, stop⟩ else .error ⟨start, stop⟩

def length (s : Span) : Nat := s.stop - s.start

def isEmpty (s : Span) : Bool := s.start == s.stop

/-- Whether `other` lies entirely within `s`. -/
def contains (s other : Span) : Bool := s.start ≤ other.start && other.stop ≤ s.stop

def containsOffset (s : Span) (offset : Nat) : Bool := s.start ≤ offset && offset < s.stop

/-- Whether the two spans share an offset. -/
def overlaps (s other : Span) : Bool := s.start < other.stop && other.start < s.stop

/-- Spans are ordered by start, and by stop among equal starts. -/
def order (s other : Span) : Ordering :=
  (compare s.start other.start).then (compare s.stop other.stop)

/-- The order of spans as a test, for sorting. -/
def le (s other : Span) : Bool := s.start < other.start || (s.start == other.start && s.stop ≤ other.stop)

def lt (s other : Span) : Bool := s.start < other.start || (s.start == other.start && s.stop < other.stop)

/-- The span as an interval, `[1, 4)`. -/
def render (s : Span) : String := "[" ++ toString s.start ++ ", " ++ toString s.stop ++ ")"

theorem between_eq_ok_iff {start stop : Nat} {s : Span} :
    between start stop = .ok s ↔ start ≤ stop ∧ s = ⟨start, stop⟩ := by
  unfold between
  split
  · simp_all [eq_comm]
  · rename_i h
    simp [h]

theorem contains_iff {s other : Span} :
    s.contains other = true ↔ s.start ≤ other.start ∧ other.stop ≤ s.stop := by
  simp [contains]

theorem contains_trans {a b c : Span} (hab : a.contains b = true) (hbc : b.contains c = true) :
    a.contains c = true := by
  rw [contains_iff] at *
  omega

theorem le_iff {s other : Span} :
    s.le other = true ↔ s.start < other.start ∨ (s.start = other.start ∧ s.stop ≤ other.stop) := by
  simp [le]

theorem le_trans {a b c : Span} (hab : a.le b = true) (hbc : b.le c = true) : a.le c = true := by
  rw [le_iff] at *
  omega

theorem le_total (a b : Span) : (a.le b || b.le a) = true := by
  simp only [Bool.or_eq_true, le_iff]
  omega

theorem le_refl (a : Span) : a.le a = true := le_iff.2 (.inr ⟨rfl, Nat.le_refl _⟩)

theorem le_antisymm {a b : Span} (hab : a.le b = true) (hba : b.le a = true) : a = b := by
  cases a
  cases b
  simp only [le_iff, Span.mk.injEq] at *
  omega

theorem start_le_of_le {a b : Span} (h : a.le b = true) : a.start ≤ b.start := by
  rw [le_iff] at h
  omega

theorem lt_iff {s other : Span} :
    s.lt other = true ↔ s.start < other.start ∨ (s.start = other.start ∧ s.stop < other.stop) := by
  simp [lt]

theorem lt_irrefl (a : Span) : ¬ a.lt a = true := by
  rw [lt_iff]
  omega

theorem le_of_lt {a b : Span} (h : a.lt b = true) : a.le b = true := by
  rw [lt_iff] at h
  rw [le_iff]
  omega

theorem lt_of_le_of_lt {a b c : Span} (hab : a.le b = true) (hbc : b.lt c = true) : a.lt c = true := by
  rw [le_iff] at hab
  rw [lt_iff] at hbc ⊢
  omega

theorem eq_of_le_of_not_lt {a b : Span} (hle : a.le b = true) (hlt : ¬ a.lt b = true) : a = b := by
  cases a
  cases b
  simp only [le_iff, lt_iff, Span.mk.injEq] at *
  omega

end Span

end TextAnnotation
