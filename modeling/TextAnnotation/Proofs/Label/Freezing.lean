import TextAnnotation.View

/-!
Freezing the labels of one kind tells nothing about those of another kind, and freezing them again changes
nothing.
-/

namespace TextAnnotation.View

theorem lookup_setLabeler_self (kind : LabelKind) (labeler : Labeler Label)
    (labelers : List (LabelKind × Labeler Label)) :
    (setLabeler kind labeler labelers).lookup kind = some labeler := by
  induction labelers with
  | nil => simp [setLabeler]
  | cons entry rest ih =>
    obtain ⟨found, other⟩ := entry
    simp only [setLabeler]
    split
    · simp
    · rename_i hne
      rw [List.lookup_cons, beq_eq_false_iff_ne.2 hne]
      exact ih

theorem lookup_setLabeler_of_ne {kind other : LabelKind} (hne : other ≠ kind) (labeler : Labeler Label)
    (labelers : List (LabelKind × Labeler Label)) :
    (setLabeler kind labeler labelers).lookup other = labelers.lookup other := by
  have hfalse : (other == kind) = false := beq_eq_false_iff_ne.2 hne
  induction labelers with
  | nil => simp [setLabeler, List.lookup_cons, hfalse]
  | cons entry rest ih =>
    obtain ⟨found, kept⟩ := entry
    simp only [setLabeler]
    split
    · rename_i heq
      subst heq
      simp [List.lookup_cons, hfalse]
    · simp [List.lookup_cons, ih]

theorem freeze_freeze (view : View) (kind other : LabelKind) :
    ((view.freeze kind).2.freeze other).1 = (view.freeze other).1 := by
  have hlabeler : (view.freeze kind).2.labeler other =
      if other = kind then ((view.labeler kind).freeze kind.distinct).2 else view.labeler other := by
    simp only [freeze, withLabeler, labeler, labeler?]
    split
    · rename_i heq
      rw [heq, lookup_setLabeler_self]
      rfl
    · rename_i hne
      rw [lookup_setLabeler_of_ne hne]
  simp only [freeze] at hlabeler ⊢
  rw [hlabeler]
  split
  · rename_i heq
    rw [heq]
    cases view.labeler kind <;> rfl
  · rfl

theorem freezeAll_eq_map (view : View) (kinds : List LabelKind) :
    (view.freezeAll kinds).1 = kinds.map fun kind => (view.freeze kind).1 := by
  induction kinds generalizing view with
  | nil => rfl
  | cons kind kinds ih =>
    change (view.freeze kind).1 :: ((view.freeze kind).2.freezeAll kinds).1 = _
    rw [ih, List.map_cons]
    congr 1
    exact List.map_congr_left fun other _ => view.freeze_freeze kind other

theorem text_freezeAll (view : View) (kinds : List LabelKind) :
    (view.freezeAll kinds).2.text = view.text := by
  induction kinds generalizing view with
  | nil => rfl
  | cons kind kinds ih => exact ih (view.freeze kind).2

end TextAnnotation.View
