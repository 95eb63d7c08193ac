import TextAnnotation.Document
import TextAnnotation.Proofs.Document.Slicing
import TextAnnotation.Proofs.Label.History

/-!
What becomes of the views of a document. A view that is attached stays, and changes only by what it is itself asked for;
a call that is refused changes nothing; and a view of a part of the text tells the same places by other offsets.
-/

namespace TextAnnotation

namespace Span

/-- Whether a span marks a part of a text: it is in order, and both its ends are places in the text. -/
def Marks (s : Span) (text : String) : Prop :=
  s.start ≤ s.stop ∧ Text.IsPlace text.toList s.start ∧ Text.IsPlace text.toList s.stop

def moved (s : Span) (distance : Nat) : Span := ⟨s.start + distance, s.stop + distance⟩

theorem marks_iff_coveredText? {s : Span} {text : String} : s.Marks text ↔ (s.coveredText? text).isSome := by
  rw [coveredText?, Option.isSome_map, Text.slice?_isSome_iff, Marks]

/-- What is covered in a part of a text is covered in the text as well, from where the part begins on. -/
theorem coveredText?_of_part {range : Span} {text part : String} (h : range.coveredText? text = some part) {s : Span}
    (hle : s.start ≤ s.stop) (hwithin : s.stop ≤ Text.byteLength part.toList) :
    s.coveredText? part = (s.moved range.start).coveredText? text := by
  obtain ⟨cs, hslice, rfl⟩ := Option.map_eq_some_iff.1 h
  obtain ⟨before, after, htext, hstart, _⟩ := Text.eq_append_of_slice? hslice
  rw [String.toList_ofList] at hwithin
  rw [coveredText?, coveredText?, moved, htext, hstart, Nat.add_comm s.start, Nat.add_comm s.stop,
    Text.slice?_part before cs after hle hwithin, String.toList_ofList]

end Span

namespace View

theorem freezeAll_frame (view : View) (kinds : List LabelKind) :
    ∃ labelers, (view.freezeAll kinds).2 = { view with labelers } := by
  induction kinds generalizing view with
  | nil => exact ⟨view.labelers, rfl⟩
  | cons kind kinds ih => exact ih (view.freeze kind).2

/-- No call on a view changes anything but its labelers. -/
theorem perform_frame (view : View) (call : Call) : ∃ labelers, (view.perform call).2 = { view with labelers } := by
  have hadd (kind : LabelKind) (labels : List Label) :
      ∃ labelers, (view.answerAdd (view.addAll kind labels)).2 = { view with labelers } := by
    rw [answerAdd_addAll]
    cases (view.labeler kind).addAll? labels with
    | none => exact ⟨view.labelers, rfl⟩
    | some labeler => exact ⟨_, rfl⟩
  cases call with
  | add kind label => exact hadd kind [label]
  | addAll kind labels => exact hadd kind labels
  | labeler kind => exact ⟨_, rfl⟩
  | index kind => exact ⟨_, rfl⟩
  | builtIndex kind => exact ⟨view.labelers, rfl⟩
  | search pattern range? =>
    cases range? with
    | none => exact view.freezeAll_frame pattern.kinds
    | some range => exact view.freezeAll_frame pattern.kinds

theorem after_frame (view : View) (calls : List Call) : ∃ labelers, view.after calls = { view with labelers } := by
  induction calls generalizing view with
  | nil => exact ⟨view.labelers, rfl⟩
  | cons call calls ih =>
    obtain ⟨_, hcall⟩ := view.perform_frame call
    obtain ⟨labelers, hcalls⟩ := ih (view.perform call).2
    refine ⟨labelers, hcalls.trans ?_⟩
    rw [hcall]

end View

namespace Document

/-- A call on a document, or on one of its views. -/
inductive Call where
  | attachText (name text : String)
  | attachFullText (name : String)
  | attachRange (name : String) (range : Span)
  /-- Asks for the system view, which is attached if it is not there yet. -/
  | systemView
  /-- Asks a view, which must be there, for something. -/
  | onView (name : String) (call : View.Call)

/-- The answer to a call that may be refused, and the document after it. -/
def answer (document : Document) : Except DocumentError Document → Except DocumentError Unit × Document
  | .ok document => (.ok (), document)
  | .error e => (.error e, document)

def perform (document : Document) : Call → Except DocumentError Unit × Document
  | .attachText name text => document.answer (document.attachText name text)
  | .attachFullText name => document.answer (document.attachFullText name)
  | .attachRange name range => document.answer (document.attachRange name range)
  | .systemView => (.ok (), document.putView document.systemView)
  | .onView name call =>
    document.answer ((document.requireView name).map fun view => document.putView (view.perform call).2)

/-- The document after calls one after the other. -/
def after (document : Document) (calls : List Call) : Document :=
  calls.foldl (fun document call => (document.perform call).2) document

namespace Call

/-- What a call asks the view of a name for. -/
def on (name : String) : Call → List View.Call
  | onView found call => if found = name then [call] else []
  | _ => []

/-- Whether a call attaches a view, if anything. -/
def Attaches : Call → Prop
  | onView _ _ => False
  | _ => True

end Call

/-- What a document refuses, and how. -/
def Refuses (document : Document) : Call → DocumentError → Prop
  | .attachText name _, e | .attachFullText name, e =>
    (document.view? name).isSome ∧ e = .viewExists document.id name
  | .attachRange name range, e =>
    (¬ range.Marks document.text ∧ e = .invalidRange document.id range) ∨
      (range.Marks document.text ∧ (document.view? name).isSome ∧ e = .viewExists document.id name)
  | .systemView, _ => False
  | .onView name _, e => document.view? name = none ∧ e = .unknownView document.id name

/-- The view that a call attaches, if it attaches one and is not refused. -/
def new? (document : Document) : Call → Option View
  | .attachText name text => some { name, text }
  | .attachFullText name => some { name, text := document.text }
  | .attachRange name range =>
    (range.coveredText? document.text).map fun text => { name, text, origin := range.start }
  | .systemView =>
    if (document.view? systemViewName).isSome then none
    else some { name := systemViewName, text := document.text }
  | .onView _ _ => none

/-- Whether every view is found under its own name. -/
def Filed (document : Document) : Prop := ∀ name view, document.view? name = some view → view.name = name

section
variable {document : Document} {name : String} {view : View}

theorem view?_putView (document : Document) (view : View) (name : String) :
    (document.putView view).view? name = if name = view.name then some view else document.view? name := by
  change (document.views.insert view.name view).find? name = _
  split
  · rename_i heq
    rw [heq, TextMap.find?_insert_self]
  · rename_i hne
    exact TextMap.find?_insert_of_ne _ hne view

theorem answer_attach (document : Document) (view : View) :
    document.answer (document.attach view) =
      if (document.view? view.name).isSome then (.error (.viewExists document.id view.name), document)
      else (.ok (), document.putView view) := by
  change document.answer (if (document.view? view.name).isSome then _ else _) = _
  split <;> rfl

theorem attachRange_eq (document : Document) (name : String) (range : Span) :
    document.attachRange name range =
      match range.coveredText? document.text with
      | some text => document.attach { name, text, origin := range.start }
      | none => .error (.invalidRange document.id range) := rfl

theorem answer_requireView (document : Document) (name : String) (change : View → Document) :
    document.answer ((document.requireView name).map change) =
      match document.view? name with
      | some view => (.ok (), change view)
      | none => (.error (.unknownView document.id name), document) := by
  rw [requireView]
  cases document.view? name <;> rfl

theorem Filed.name_systemView (h : document.Filed) : document.systemView.name = systemViewName := by
  rw [systemView]
  cases hview : document.view? systemViewName with
  | none => rfl
  | some view => exact h _ _ hview

theorem Filed.putView (h : document.Filed) (view : View) : (document.putView view).Filed := by
  intro name found hfound
  rw [view?_putView] at hfound
  split at hfound
  · rename_i heq
    obtain rfl := Option.some.inj hfound
    exact heq.symm
  · exact h name found hfound

theorem Filed.answer_attach (h : document.Filed) (view : View) :
    (document.answer (document.attach view)).2.Filed := by
  rw [Document.answer_attach]
  split
  · exact h
  · exact h.putView view

theorem Filed.perform (h : document.Filed) (call : Call) : (document.perform call).2.Filed := by
  cases call with
  | attachText name text => exact h.answer_attach _
  | attachFullText name => exact h.answer_attach _
  | attachRange name range =>
    rw [Document.perform, attachRange_eq]
    split
    · exact h.answer_attach _
    · exact h
  | systemView => exact h.putView _
  | onView name call =>
    rw [Document.perform, answer_requireView]
    split
    · exact h.putView _
    · exact h

theorem Filed.after (h : document.Filed) (calls : List Call) : (document.after calls).Filed := by
  induction calls generalizing document with
  | nil => exact h
  | cons call calls ih => exact ih (h.perform call)

theorem view?_answer_attach (h : document.view? name = some view) (new : View) :
    (document.answer (document.attach new)).2.view? name = some view := by
  rw [answer_attach]
  split
  · exact h
  · rename_i hfree
    rw [view?_putView, if_neg]
    · exact h
    · rintro rfl
      rw [h] at hfree
      exact hfree rfl

/-- A view that is attached changes by nothing but what it is asked for. -/
theorem Filed.view?_perform (hfiled : document.Filed) (h : document.view? name = some view) (call : Call) :
    (document.perform call).2.view? name = some (view.after (call.on name)) := by
  cases call with
  | attachText other text => exact view?_answer_attach h _
  | attachFullText other => exact view?_answer_attach h _
  | attachRange other range =>
    rw [Document.perform, attachRange_eq]
    split
    · exact view?_answer_attach h _
    · exact h
  | systemView =>
    change (document.putView document.systemView).view? name = some view
    rw [view?_putView]
    split
    · rename_i heq
      rw [hfiled.name_systemView] at heq
      rw [systemView, ← heq, h, Option.getD_some]
    · exact h
  | onView other call =>
    rw [Document.perform, answer_requireView, Call.on]
    cases hother : document.view? other with
    | none =>
      have hne : other ≠ name := by
        rintro rfl
        rw [hother] at h
        cases h
      rw [if_neg hne]
      exact h
    | some found =>
      obtain ⟨labelers, hframe⟩ := found.perform_frame call
      have hname : (found.perform call).2.name = other := by rw [hframe, ← hfiled _ _ hother]
      change (document.putView (found.perform call).2).view? name = _
      rw [view?_putView, hname]
      by_cases heq : other = name
      · subst heq
        obtain rfl := Option.some.inj (hother.symm.trans h)
        rw [if_pos rfl, if_pos rfl]
        rfl
      · rw [if_neg (Ne.symm heq), if_neg heq]
        exact h

theorem Filed.view?_after (hfiled : document.Filed) (h : document.view? name = some view) (calls : List Call) :
    (document.after calls).view? name = some (view.after (calls.flatMap (·.on name))) := by
  induction calls generalizing document view with
  | nil => exact h
  | cons call calls ih =>
    have hlater := ih (hfiled.perform call) (hfiled.view?_perform h call)
    rw [List.flatMap_cons, View.after, List.foldl_append]
    exact hlater

theorem perform_of_error {call : Call} {e : DocumentError} (h : (document.perform call).1 = .error e) :
    (document.perform call).2 = document := by
  have hanswer {result : Except DocumentError Document} (h : (document.answer result).1 = .error e) :
      (document.answer result).2 = document := by
    cases result with
    | ok => cases h
    | error => rfl
  cases call with
  | systemView => cases h
  | _ => exact hanswer h

theorem answer_attach_eq_error_iff {e : DocumentError} :
    (document.answer (document.attach view)).1 = .error e ↔
      (document.view? view.name).isSome ∧ e = .viewExists document.id view.name := by
  rw [answer_attach]
  split
  · rename_i htaken
    simp [htaken, eq_comm]
  · rename_i hfree
    simp [hfree]

theorem perform_eq_error_iff {call : Call} {e : DocumentError} :
    (document.perform call).1 = .error e ↔ document.Refuses call e := by
  cases call with
  | attachText name text => exact answer_attach_eq_error_iff
  | attachFullText name => exact answer_attach_eq_error_iff
  | attachRange name range =>
    rw [perform, attachRange_eq, Refuses, Span.marks_iff_coveredText?]
    cases range.coveredText? document.text with
    | some text =>
      refine answer_attach_eq_error_iff.trans ?_
      simp only [Option.isSome_some, not_true_eq_false, false_and, true_and, false_or]
    | none =>
      change Except.error (DocumentError.invalidRange document.id range) = .error e ↔ _
      simp only [Except.error.injEq, Option.isSome_none, Bool.false_eq_true, not_false_eq_true, true_and, false_and,
        or_false, eq_comm]
  | systemView => exact ⟨nofun, False.elim⟩
  | onView name call =>
    rw [perform, answer_requireView, Refuses]
    cases document.view? name <;> simp [eq_comm]

theorem text_perform (document : Document) (call : Call) : (document.perform call).2.text = document.text := by
  have hattach (view : View) : (document.answer (document.attach view)).2.text = document.text := by
    rw [answer_attach]
    split <;> rfl
  cases call with
  | attachText name text => exact hattach _
  | attachFullText name => exact hattach _
  | attachRange name range =>
    rw [perform, attachRange_eq]
    split
    · exact hattach _
    · rfl
  | systemView => rfl
  | onView name call =>
    rw [perform, answer_requireView]
    split <;> rfl

theorem text_after (document : Document) (calls : List Call) : (document.after calls).text = document.text := by
  induction calls generalizing document with
  | nil => rfl
  | cons call calls ih => exact (ih _).trans (document.text_perform call)

theorem view?_of_answer_attach (h : (document.answer (document.attach view)).1 = .ok ()) :
    document.view? view.name = none ∧
      (document.answer (document.attach view)).2.view? view.name = some view := by
  rw [answer_attach] at h ⊢
  split at h
  · cases h
  · rename_i hfree
    rw [if_neg hfree, view?_putView, if_pos rfl]
    exact ⟨Option.not_isSome_iff_eq_none.1 hfree, rfl⟩

/-- A call that attaches a view leaves it under a name that was free. -/
theorem view?_of_new? {call : Call} (h : (document.perform call).1 = .ok ()) (hnew : document.new? call = some view) :
    document.view? view.name = none ∧ (document.perform call).2.view? view.name = some view := by
  cases call with
  | attachText name text =>
    obtain rfl := Option.some.inj hnew
    exact view?_of_answer_attach h
  | attachFullText name =>
    obtain rfl := Option.some.inj hnew
    exact view?_of_answer_attach h
  | attachRange name range =>
    obtain ⟨text, hcovered, rfl⟩ := Option.map_eq_some_iff.1 hnew
    rw [perform, attachRange_eq, hcovered] at h ⊢
    exact view?_of_answer_attach h
  | systemView =>
    rw [new?] at hnew
    split at hnew
    · cases hnew
    · rename_i hfree
      obtain rfl := Option.some.inj hnew
      have hnone := Option.not_isSome_iff_eq_none.1 hfree
      have hview : document.systemView = { name := systemViewName, text := document.text } := by
        rw [systemView, hnone, Option.getD_none]
      refine ⟨hnone, ?_⟩
      rw [perform, hview, view?_putView, if_pos rfl]
  | onView name call => cases hnew

theorem view?_of_attachRange {range : Span} (h : (document.perform (.attachRange name range)).1 = .ok ()) :
    ∃ text, range.coveredText? document.text = some text ∧
      (document.perform (.attachRange name range)).2.view? name = some { name, text, origin := range.start } := by
  cases hcovered : range.coveredText? document.text with
  | none =>
    rw [perform, attachRange_eq, hcovered] at h
    cases h
  | some text =>
    have hnew : document.new? (.attachRange name range) = some { name, text, origin := range.start } := by
      rw [new?, hcovered, Option.map_some]
    exact ⟨text, rfl, (view?_of_new? h hnew).2⟩

end

/-- Whether a view tells the places of a part of a text: what any span covers in it covers the same span in the text,
once it is moved to the origin of the view. -/
def Translates (text : String) (view : View) : Prop :=
  ∀ part : Span, part.start ≤ part.stop → part.stop ≤ Text.byteLength view.text.toList →
    part.coveredText? view.text = (part.moved view.origin).coveredText? text

/-- In a document that any calls have led to: calls that attach views leave the views that are there as they are, and
other calls change at most the labels of the views that they are made on. A call is refused for a name that is taken, or
for a range that is out of order or does not end at places in the text, and changes nothing then. Any other call that is
to attach a view leaves it, over its text and without labels, under a name that was free. A view attached over a range
tells the places of the text, whatever is called later. -/
theorem attached_views_stay (id text : String) (calls : List Call) {document : Document}
    (hdocument : document = ({ id, text } : Document).after calls) :
    (∀ name view, document.view? name = some view → ∀ later,
      ((∀ call ∈ later, call.Attaches) → (document.after later).view? name = some view) ∧
      (document.after later).view? name = some (view.after (later.flatMap (·.on name))) ∧
      ∃ labelers, view.after (later.flatMap (·.on name)) = { view with labelers }) ∧
    (∀ call e, ((document.perform call).1 = .error e ↔ document.Refuses call e) ∧
      ((document.perform call).1 = .error e → (document.perform call).2 = document)) ∧
    (∀ call view, (document.perform call).1 = .ok () → document.new? call = some view →
      document.view? view.name = none ∧ (document.perform call).2.view? view.name = some view) ∧
    ∀ name range, (document.perform (.attachRange name range)).1 = .ok () → ∀ later,
      let document := (document.perform (.attachRange name range)).2.after later
      document.text = text ∧ ∃ view, document.view? name = some view ∧
        range.coveredText? text = some view.text ∧ view.origin = range.start ∧ Translates text view := by
  have hfiled : document.Filed := by
    rw [hdocument]
    apply Filed.after
    intro name view hview
    cases hview
  have htext : document.text = text := by rw [hdocument, text_after]
  refine ⟨fun name view hview later => ?_, fun call e => ⟨perform_eq_error_iff, perform_of_error⟩,
    fun call view => view?_of_new?, fun name range hattached later => ?_⟩
  · have hlater := hfiled.view?_after hview later
    refine ⟨fun hattaches => ?_, hlater, view.after_frame _⟩
    have hnothing : later.flatMap (·.on name) = [] := by
      rw [List.flatMap_eq_nil_iff]
      intro call hcall
      have hattach := hattaches call hcall
      cases call with
      | onView => exact hattach.elim
      | _ => rfl
    rw [hlater, hnothing]
    rfl
  · obtain ⟨part, hcovered, hview⟩ := view?_of_attachRange hattached
    have hlater := (hfiled.perform _).view?_after hview later
    obtain ⟨labelers, hframe⟩ := View.after_frame { name, text := part, origin := range.start }
      (later.flatMap (·.on name))
    rw [hframe] at hlater
    rw [htext] at hcovered
    refine ⟨?_, _, hlater, hcovered, rfl, fun span => Span.coveredText?_of_part hcovered⟩
    rw [text_after, text_perform, htext]

/-- The second range begins inside a character. -/
theorem attached_views_stay_letter :
    let document := ({ id := "letter", text := "né à Lyon" } : Document).after [.systemView]
    let label : Label := ⟨⟨1, 3⟩, .empty⟩
    let later : List Call := [.attachRange "rest" ⟨1, 3⟩, .onView "place" (.add { name := "Vowel" } label)]
    (∃ view, document.view? systemViewName = some view ∧
      (document.after [.attachFullText "whole", .systemView]).view? systemViewName = some view) ∧
    (document.perform (.attachFullText "whole")).2.view? "whole" = some { name := "whole", text := "né à Lyon" } ∧
    (document.perform (.attachRange "rest" ⟨2, 6⟩)).2 = document ∧
    (document.perform (.attachRange "place" ⟨4, 11⟩)).1 = .ok () ∧
    ∃ view, ((document.perform (.attachRange "place" ⟨4, 11⟩)).2.after later).view? "place" = some view ∧
      (⟨3, 7⟩ : Span).coveredText? view.text = some "Lyon" ∧
      (⟨1, 3⟩ : Span).coveredText? view.text = (⟨5, 7⟩ : Span).coveredText? "né à Lyon" := by
  intro document label later
  obtain ⟨hkept, hrefused, hattaches, htold⟩ :=
    attached_views_stay "letter" "né à Lyon" [.systemView] (rfl : document = _)
  have hrefuses : (document.perform (.attachRange "rest" ⟨2, 6⟩)).1 = .error (.invalidRange "letter" ⟨2, 6⟩) := by decide +kernel
  have hattached : (document.perform (.attachRange "place" ⟨4, 11⟩)).1 = .ok () := by decide +kernel
  have hcovered : (⟨4, 11⟩ : Span).coveredText? "né à Lyon" = some "à Lyon" := by decide +kernel
  obtain ⟨_, view, hview, hpart, horigin, htranslates⟩ := htold "place" ⟨4, 11⟩ hattached later
  obtain htext : view.text = "à Lyon" := (Option.some.inj (hcovered.symm.trans hpart)).symm
  refine ⟨⟨_, rfl, (hkept systemViewName _ rfl [.attachFullText "whole", .systemView]).1 ?_⟩,
    (hattaches (.attachFullText "whole") _ (by decide +kernel) rfl).2, (hrefused _ _).2 hrefuses, hattached, view, hview, ?_, ?_⟩
  · intro call hcall
    rcases List.mem_cons.1 hcall with rfl | hcall
    · trivial
    · obtain rfl := List.mem_singleton.1 hcall
      trivial
  · rw [htext]
    decide +kernel
  · rw [htranslates ⟨1, 3⟩ (by decide) (by rw [htext]; decide), horigin]
    rfl

end Document

end TextAnnotation
