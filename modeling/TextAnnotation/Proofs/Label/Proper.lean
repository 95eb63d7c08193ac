import TextAnnotation.Label.Index
import TextAnnotation.View

/-!
Properties of all labels of a view, which freezing keeps. The one that every view has is that its labels are
proper: they do not end before they start.
-/

namespace TextAnnotation

def Label.Proper (label : Label) : Prop := label.span.start ≤ label.span.stop

def Label.Nonempty (label : Label) : Prop := label.span.start < label.span.stop

def LabelIndex.All (P : Label → Prop) (index : LabelIndex Label) : Prop := ∀ label ∈ index.ascending, P label

def Labeler.All (P : Label → Prop) : Labeler Label → Prop
  | .collecting labels => ∀ label ∈ labels, P label
  | .frozen index => index.All P

/-- All labels of a view, frozen or not, have a property. -/
def View.All (P : Label → Prop) (view : View) : Prop := ∀ entry ∈ view.labelers, entry.2.All P

def View.Proper (view : View) : Prop := view.All Label.Proper

variable {P : Label → Prop}

theorem LabelIndex.arrange_subset [Spanned α] (distinct : Bool) (labels : List α) :
    arrange distinct labels ⊆ labels := by
  intro label hmem
  simp only [arrange] at hmem
  split at hmem
  · exact List.mem_mergeSort.1 ((collapse_sublist _).subset hmem)
  · exact List.mem_mergeSort.1 hmem

theorem Labeler.All.freeze {labeler : Labeler Label} (h : labeler.All P) (distinct : Bool) :
    (labeler.freeze distinct).1.All P ∧ (labeler.freeze distinct).2.All P := by
  cases labeler with
  | collecting labels =>
    have hindex : (LabelIndex.ofLabels distinct labels.toList).All P := by
      intro label hmem
      exact h label (Array.mem_def.2 (LabelIndex.arrange_subset distinct labels.toList hmem))
    exact ⟨hindex, hindex⟩
  | frozen index => exact ⟨h, h⟩

namespace View

theorem proper_of_nonempty {view : View} (h : view.All Label.Nonempty) : view.Proper := by
  rintro ⟨kind, labeler⟩ hmem
  have hlabeler := h _ hmem
  cases labeler with
  | collecting labels => exact fun label hlabel => Nat.le_of_lt (hlabeler label hlabel)
  | frozen index => exact fun label hlabel => Nat.le_of_lt (hlabeler label hlabel)

theorem mem_of_lookup {kind : LabelKind} {labeler : Labeler Label}
    {labelers : List (LabelKind × Labeler Label)} (h : labelers.lookup kind = some labeler) :
    (kind, labeler) ∈ labelers := by
  induction labelers with
  | nil => cases h
  | cons entry rest ih =>
    obtain ⟨found, other⟩ := entry
    rw [List.lookup_cons] at h
    split at h
    · rename_i heq
      cases h
      rw [beq_iff_eq.1 heq]
      exact List.mem_cons_self
    · exact List.mem_cons_of_mem _ (ih h)

theorem All.labeler {view : View} (h : view.All P) (kind : LabelKind) : (view.labeler kind).All P := by
  simp only [View.labeler, labeler?]
  rcases hlookup : view.labelers.lookup kind with _ | found
  · intro label hmem
    simp at hmem
  · exact h _ (mem_of_lookup hlookup)

theorem mem_setLabeler {kind : LabelKind} {labeler : Labeler Label}
    {labelers : List (LabelKind × Labeler Label)} {entry : LabelKind × Labeler Label}
    (h : entry ∈ setLabeler kind labeler labelers) : entry = (kind, labeler) ∨ entry ∈ labelers := by
  induction labelers with
  | nil => exact .inl (List.mem_singleton.1 h)
  | cons other rest ih =>
    simp only [setLabeler] at h
    split at h
    · rcases List.mem_cons.1 h with heq | hmem
      · exact .inl heq
      · exact .inr (List.mem_cons_of_mem _ hmem)
    · rcases List.mem_cons.1 h with heq | hmem
      · exact .inr (heq ▸ List.mem_cons_self)
      · rcases ih hmem with heq | hmem
        · exact .inl heq
        · exact .inr (List.mem_cons_of_mem _ hmem)

theorem All.freeze {view : View} (h : view.All P) (kind : LabelKind) :
    (view.freeze kind).1.All P ∧ (view.freeze kind).2.All P := by
  obtain ⟨hindex, hlabeler⟩ := (h.labeler kind).freeze kind.distinct
  refine ⟨hindex, fun entry hmem => ?_⟩
  rcases mem_setLabeler hmem with heq | hmem
  · rw [heq]
    exact hlabeler
  · exact h entry hmem

theorem All.freezeAll {view : View} (h : view.All P) (kinds : List LabelKind) :
    ∀ index ∈ (view.freezeAll kinds).1, index.All P := by
  induction kinds generalizing view with
  | nil => simp [View.freezeAll]
  | cons kind kinds ih =>
    obtain ⟨hindex, hview⟩ := h.freeze kind
    simp only [View.freezeAll, List.forall_mem_cons]
    exact ⟨hindex, ih hview⟩

end View

end TextAnnotation
