import TextAnnotation.Proofs.Pattern.Calls

/-!
How a match opens. The first label that it consumes starts exactly where the match does, unless it has been
made adjacent to that place before.
-/

namespace TextAnnotation

/-- Labels that come later do not end earlier. -/
def LabelIndex.StopsAscend (index : LabelIndex Label) : Prop :=
  index.ascending.Pairwise fun a b => a.span.stop ≤ b.span.stop

theorem LabelIndex.stopsAscend_iff {index : LabelIndex Label} :
    index.StopsAscend ↔ (index.ascending.map (·.span.stop)).Pairwise (· ≤ ·) := List.pairwise_map.symm

theorem LabelIndex.StopsAscend.stop_le {index : LabelIndex Label} (h : index.StopsAscend) {i j : Nat}
    {a b : Label} (ha : index.get? i = some a) (hb : index.get? j = some b) (hij : i ≤ j) :
    a.span.stop ≤ b.span.stop := by
  rw [get?_eq_ascending] at ha hb
  obtain ⟨hi, rfl⟩ := List.getElem?_eq_some_iff.1 ha
  obtain ⟨hj, rfl⟩ := List.getElem?_eq_some_iff.1 hb
  rcases Nat.eq_or_lt_of_le hij with heq | hlt
  · subst heq
    exact Nat.le_refl _
  · exact List.pairwise_iff_getElem.1 h i j hi hj hlt

namespace Pattern

/-- The labels that a literal is matched with are among those that do not end earlier than the ones before. -/
def Node.LiteralAscends (m : Matcher) : Node → Prop
  | .literal words => ∀ frozen, m.index words.slot = .ok frozen → frozen.index.StopsAscend
  | _ => True

namespace Matcher

open Attempt

/-- Whatever may become part of a match, no label is made adjacent before one has been consumed. -/
def Anchored (m : Matcher) (task : Task) : Prop :=
  ∀ next, Relation.ReflTransGen m.Continues task next → next.node = .adjacent → next.state.anchor ≠ .start

/-- After an attempt from the start of a match, nothing has been consumed and the next label must still start
there, or the first label that was consumed does and ends within the limit. -/
inductive Opens (m : Matcher) (limit position : Nat) (found : Accepted) : Prop where
  | nothing (hconsumed : found.consumed = []) (hanchor : found.state.anchor = .start)
    (hposition : found.state.position = position)
  | label {piece : Piece} {frozen : FrozenKind} {label : Label}
    (hconsumed : found.consumed.head? = some piece) (hfrozen : m.indices[piece.slot]? = some frozen)
    (hlabel : frozen.index.get? piece.first = some label) (hstart : label.span.start = position)
    (hstop : label.span.stop ≤ limit)

variable {m : Matcher} {limit : Nat} {state : MatchState} {captures : Captures} {found : Accepted}

theorem Anchored.next {task next : Task} (h : m.Anchored task) (hnext : m.Continues task next) :
    m.Anchored next :=
  fun last hlast => h last (.head hnext hlast)

theorem Opens.followedBy {position : Nat} {earlier later : Accepted} (h : m.Opens limit position earlier)
    (hlater : earlier.state.anchor = .start → earlier.state.position = position →
      m.Opens limit position later) :
    m.Opens limit position (earlier.followedBy later) := by
  cases h with
  | nothing hconsumed hanchor hposition =>
    have heq : (earlier.followedBy later).consumed = later.consumed := by
      rw [Accepted.followedBy, hconsumed, List.nil_append]
    cases hlater hanchor hposition with
    | nothing hconsumed' hanchor' hposition' => exact .nothing (heq.trans hconsumed') hanchor' hposition'
    | label hconsumed' hfrozen hlabel hstart hstop =>
      exact .label (heq ▸ hconsumed') hfrozen hlabel hstart hstop
  | label hconsumed hfrozen hlabel hstart hstop =>
    refine .label ?_ hfrozen hlabel hstart hstop
    rw [Accepted.followedBy, List.head?_append, hconsumed]
    rfl

theorem Opens.of_eq {position : Nat} {other : Accepted} (h : m.Opens limit position found)
    (hconsumed : other.consumed = found.consumed) (hanchor : other.state.anchor = found.state.anchor)
    (hposition : other.state.position = found.state.position) : m.Opens limit position other := by
  cases h with
  | nothing hconsumed' hanchor' hposition' =>
    exact .nothing (hconsumed.trans hconsumed') (hanchor.trans hanchor') (hposition.trans hposition')
  | label hconsumed' hfrozen hlabel hstart hstop =>
    exact .label (hconsumed ▸ hconsumed') hfrozen hlabel hstart hstop

theorem le_windowEnd_of_mem_candidates {search : Search} {kind : LabelKind} {nearest? : Option Nat}
    {start position windowEnd : Nat} {labels : List Label} {span : Span}
    (hwindow : search.windowEnd? = some windowEnd)
    (h : .ok (span, position) ∈ m.candidates search kind captures nearest? start labels) :
    span.start ≤ windowEnd := by
  induction labels generalizing nearest? start with
  | nil => cases h
  | cons label rest ih =>
    simp only [candidates] at h
    split at h
    · cases h
    rename_i hwithin
    split at h
    · exact ih h
    split at h
    · simp at h
    · rcases List.mem_cons.1 h with heq | hmem
      · cases heq
        simp [hwindow] at hwithin
        omega
      · exact ih hmem
    · exact ih h

theorem first_le_windowEnd_of_pickWords {literal : Literal} {more windowEnd : Nat} {kind : LabelKind}
    {index : LabelIndex Label} {start last : Nat} {labels : List Label} {span : Span}
    (hlabels : labels = index.ascending.drop start)
    (h : pickWords literal (some windowEnd) limit more kind start labels = .ok (some (span, last))) :
    span.start ≤ windowEnd := by
  induction labels generalizing start with
  | nil => cases h
  | cons label rest ih =>
    simp only [pickWords] at h
    split at h
    · cases h
    rename_i hwithin
    split at h
    · cases h
    split at h
    · split at h
      · rename_i hspan
        cases h
        obtain ⟨_, rfl⟩ := Span.between_eq_ok_iff.1 hspan
        simp at hwithin
        exact hwithin.2
      · cases h
    · exact ih (LabelIndex.of_cons_eq_drop hlabels).2 h

theorem opens_evaluateLabel {term : LabelTerm} {seek : Bool} {accepts : Span → Attempt Captures}
    (hstate : state.anchor = .start)
    (h : m.evaluateLabel term seek accepts limit state captures = .ok (some found)) :
    m.Opens limit state.position found := by
  obtain ⟨frozen, span, position, written, hfrozen, hmem, _, rfl⟩ := evaluateLabel_eq_some h
  have hwindow : (m.searchFor term seek limit state).windowEnd? = some state.position := by
    simp only [searchFor, windowEnd?, hstate]
  have hle := le_windowEnd_of_mem_candidates hwindow hmem
  obtain ⟨label, hlabel, hget, rfl, hstop⟩ := mem_candidates (LabelIndex.following_eq_drop _) hmem
  have hge := LabelIndex.le_start_of_mem_following hlabel
  exact .label rfl (index_eq_ok_iff.1 hfrozen) hget (Nat.le_antisymm hle hge) hstop

theorem opens_evaluateLiteral {literal : Literal} (hstate : state.anchor = .start)
    (hascends : (Node.literal literal).LiteralAscends m)
    (h : m.evaluateLiteral literal limit state captures = .ok (some found)) :
    m.Opens limit state.position found := by
  obtain ⟨next, hnext, heq⟩ := andThen_eq_some_iff.1 h
  cases heq
  obtain ⟨frozen, more, span, last, hfrozen, hmore, hpicked, rfl⟩ := matchLiteral_eq_some hnext
  have hwindow : m.windowEnd? state limit = some state.position := by simp only [windowEnd?, hstate]
  rw [hwindow] at hpicked
  have hle := first_le_windowEnd_of_pickWords (LabelIndex.following_eq_drop _) hpicked
  obtain ⟨first, a, b, rfl, hmem, hfirst, hlast, rfl, hstop⟩ :=
    pickWords_eq_some (LabelIndex.following_eq_drop _) hpicked
  have hge := LabelIndex.le_start_of_mem_following hmem
  have hab := (hascends frozen hfrozen).stop_le hfirst hlast (Nat.le_add_right _ _)
  have hget : frozen.index.get? (first + more + 1 - literal.wordCount) = some a := by
    rw [hmore, Nat.add_sub_add_right, Nat.add_sub_cancel]
    exact hfirst
  exact .label rfl (index_eq_ok_iff.1 hfrozen) hget (Nat.le_antisymm hle hge) (Nat.le_trans hab hstop)

theorem opens_evaluateAll {nodes : List Node}
    (hnodes : ∀ node ∈ nodes, ∀ state captures found, m.Anchored ⟨limit, node, state, captures⟩ →
      state.anchor = .start → m.evaluate limit node state captures = .ok (some found) →
      m.Opens limit state.position found)
    (hanchored : m.Anchored ⟨limit, .sequence nodes, state, captures⟩) (hstate : state.anchor = .start)
    (h : m.evaluateAll limit nodes state captures = .ok (some found)) :
    m.Opens limit state.position found := by
  induction nodes generalizing state captures found with
  | nil =>
    cases h
    exact .nothing rfl hstate rfl
  | cons node rest ih =>
    simp only [evaluateAll] at h
    obtain ⟨next, hnext, h⟩ := andThen_eq_some_iff.1 h
    obtain ⟨last, hlast, heq⟩ := andThen_eq_some_iff.1 h
    cases heq
    obtain ⟨hnode, hrest⟩ := List.forall_mem_cons.1 hnodes
    have hopens := hnode state captures next (hanchored.next (.first _ _ _ _ _)) hstate hnext
    apply hopens.followedBy
    intro hanchor hposition
    rw [← hposition]
    exact ih hrest (hanchored.next (.rest (matchNode_eq_some hnext))) hanchor hlast

theorem opens_evaluateFirst {nodes : List Node}
    (hnodes : ∀ node ∈ nodes, m.Anchored ⟨limit, node, state, captures⟩ →
      m.evaluate limit node state captures = .ok (some found) → m.Opens limit state.position found)
    (hanchored : m.Anchored ⟨limit, .alternation nodes, state, captures⟩)
    (h : m.evaluateFirst limit nodes state captures = .ok (some found)) :
    m.Opens limit state.position found := by
  induction nodes with
  | nil => cases h
  | cons node rest ih =>
    obtain ⟨hnode, hrest⟩ := List.forall_mem_cons.1 hnodes
    simp only [evaluateFirst] at h
    rcases orElse_eq_some_iff.1 h with hfound | ⟨hfails, hlater⟩
    · exact hnode (hanchored.next (.alternative _ _ _ _ _)) hfound
    · obtain ⟨left, hleft⟩ := matchNode_eq_none hfails
      exact ih hrest (hanchored.next (.otherwise hleft)) hlater

theorem opens_of_repeats {body : Node} {minimum more count : Nat} {maximum? : Option Nat} {last : Accepted}
    (hbody : ∀ state captures found, m.Anchored ⟨limit, body, state, captures⟩ →
      state.anchor = .start → m.evaluate limit body state captures = .ok (some found) →
      m.Opens limit state.position found)
    (h : Repeats (m.evaluate limit body) more state captures count last)
    (hmaximum : ∀ maximum, maximum? = some maximum → maximum = more)
    (hanchored : m.Anchored ⟨limit, .repetition body minimum maximum?, state, captures⟩)
    (hstate : state.anchor = .start) : m.Opens limit state.position last := by
  induction h generalizing maximum? with
  | enough => exact .nothing rfl hstate rfl
  | stalls hnext =>
    have hpositive : maximum? ≠ some 0 := fun heq => Nat.succ_ne_zero _ (hmaximum 0 heq).symm
    exact hbody _ _ _ (hanchored.next (.body _ _ _ hpositive _ _)) hstate hnext
  | @again more further state captures next last hnext hmoved _ ih =>
    have hpositive : maximum? ≠ some 0 := fun heq => Nat.succ_ne_zero more (hmaximum 0 heq).symm
    have hopens := hbody _ _ _ (hanchored.next (.body _ _ _ hpositive _ _)) hstate hnext
    apply hopens.followedBy
    intro hanchor hposition
    rw [← hposition]
    -- What is left after an iteration is a repetition too, of one less if it is bounded.
    have hagain : m.Continues ⟨limit, .repetition body minimum maximum?, state, captures⟩
        ⟨limit, .repetition body minimum (maximum?.map (· - 1)), next.state, next.captures⟩ :=
      .again hpositive (matchNode_eq_some hnext) hmoved
    refine ih (fun maximum heq => ?_) (hanchored.next hagain) hanchor
    obtain ⟨before, hbefore, rfl⟩ := Option.map_eq_some_iff.1 heq
    rw [hmaximum before hbefore, Nat.add_sub_cancel]

/-- The first label that a match consumes starts where the match does. -/
theorem opens_evaluate {node : Node} (hnode : node.All (Node.LiteralAscends m))
    (hanchored : m.Anchored ⟨limit, node, state, captures⟩) (hstate : state.anchor = .start)
    (h : m.evaluate limit node state captures = .ok (some found)) : m.Opens limit state.position found := by
  induction node generalizing state captures found with
  | sequence elements ih =>
    have helements := (Node.all_iff.1 hnode).2
    simp only [evaluate] at h
    refine opens_evaluateAll (fun node hmem _ _ _ hanchored hstate hfound => ?_) hanchored hstate h
    exact ih node hmem (helements node hmem) hanchored hstate hfound
  | alternation alternatives ih =>
    have halternatives := (Node.all_iff.1 hnode).2
    simp only [evaluate] at h
    refine opens_evaluateFirst (fun node hmem hanchored hfound => ?_) hanchored h
    exact ih node hmem (halternatives node hmem) hanchored hstate hfound
  | adjacent => exact absurd hstate (hanchored _ .refl rfl)
  | repetition body minimum maximum? ih =>
    have hbody := (Node.all_iff.1 hnode).2 body List.mem_cons_self
    obtain ⟨count, _, hrepeats⟩ := repeats_of_evaluate h
    apply opens_of_repeats (fun _ _ _ hanchored hstate hfound => ih hbody hanchored hstate hfound) hrepeats _
      hanchored hstate
    intro maximum hmaximum
    rw [hmaximum, Option.getD_some]
  | capture slot body ih =>
    have hbody := (Node.all_iff.1 hnode).2 body List.mem_cons_self
    simp only [evaluate] at h
    obtain ⟨inner, hinner, h⟩ := andThen_eq_some_iff.1 h
    have hopens := ih hbody (hanchored.next (.capture _ _ _ _ _)) hstate hinner
    rcases writeCapture_eq_some h with ⟨_, rfl⟩ | ⟨start, _, _, _, rfl⟩
    · exact hopens.of_eq rfl rfl rfl
    · exact hopens.of_eq rfl rfl rfl
  | lookahead body negated ih =>
    simp only [evaluate] at h
    rcases lookAround_eq_some h with ⟨_, rfl⟩ | ⟨inner, _, rfl⟩
    · exact .nothing rfl hstate rfl
    · exact .nothing rfl hstate rfl
  | label term =>
    simp only [evaluate] at h
    exact opens_evaluateLabel hstate h
  | pinned term seek exact conditions =>
    simp only [evaluate] at h
    exact opens_evaluateLabel hstate h
  | literal literal =>
    simp only [evaluate] at h
    exact opens_evaluateLiteral hstate (hnode _ .refl) h

end Matcher

namespace Node

mutual

/-- Whether a node may match and leave the match where it starts. -/
def mayStay : Node → Bool
  | .sequence elements => mayStayAll elements
  | .alternation alternatives => mayStayAny alternatives
  | .adjacent => false
  | .repetition body minimum _ => minimum == 0 || body.mayStay
  | .capture _ body => body.mayStay
  | .lookahead _ _ => true
  | .label _ => false
  | .pinned _ _ _ _ => false
  | .literal _ => false

def mayStayAll : List Node → Bool
  | [] => true
  | node :: rest => node.mayStay && mayStayAll rest

def mayStayAny : List Node → Bool
  | [] => false
  | node :: rest => node.mayStay || mayStayAny rest

end

mutual

/-- Whether a node may make the first label of a match adjacent. -/
def mayAdjoin : Node → Bool
  | .sequence elements => mayAdjoinAll elements
  | .alternation alternatives => mayAdjoinAny alternatives
  | .adjacent => true
  | .repetition body _ _ => body.mayAdjoin
  | .capture _ body => body.mayAdjoin
  | .lookahead _ _ => false
  | .label _ => false
  | .pinned _ _ _ _ => false
  | .literal _ => false

def mayAdjoinAll : List Node → Bool
  | [] => false
  | node :: rest => node.mayAdjoin || (node.mayStay && mayAdjoinAll rest)

def mayAdjoinAny : List Node → Bool
  | [] => false
  | node :: rest => node.mayAdjoin || mayAdjoinAny rest

end

end Node

namespace Matcher

open Attempt

variable {m : Matcher} {limit : Nat} {state : MatchState} {captures : Captures} {found : Accepted}

theorem Path.anchor_eq_start {next : MatchState} {written : Captures} {pieces : List Piece}
    (h : m.Path limit state captures next written pieces) (hnext : next.anchor = .start) :
    state.anchor = .start := by
  induction h with
  | still => exact hnext
  | append _ _ ih ih' => exact ih (ih' hnext)
  | adjacent => cases hnext
  | piece => cases hnext
  | condition => cases hnext
  | unbound _ _ ih => exact ih hnext
  | bound _ _ _ _ ih => exact ih hnext
  | lookahead => exact hnext

theorem mayStay_of_repeats {body : Node} {more count : Nat} {last : Accepted}
    (hbody : ∀ state captures found, m.evaluate limit body state captures = .ok (some found) →
      found.state.anchor = .start → body.mayStay = true)
    (h : Repeats (m.evaluate limit body) more state captures count last)
    (hlast : last.state.anchor = .start) (hcount : count ≠ 0) : body.mayStay = true := by
  cases h with
  | enough => exact absurd rfl hcount
  | stalls hnext => exact hbody _ _ _ hnext hlast
  | again hnext _ hfinal =>
    have hpath := path_of_repeats (fun _ _ _ hfound => path_of_evaluate hfound) hfinal
    exact hbody _ _ _ hnext (hpath.anchor_eq_start hlast)

theorem mayStay_of_evaluateAll {nodes : List Node}
    (hnodes : ∀ node ∈ nodes, ∀ state captures found, m.evaluate limit node state captures = .ok (some found) →
      found.state.anchor = .start → node.mayStay = true)
    (h : m.evaluateAll limit nodes state captures = .ok (some found)) (hfound : found.state.anchor = .start) :
    Node.mayStayAll nodes = true := by
  induction nodes generalizing state captures found with
  | nil => rfl
  | cons node rest ih =>
    obtain ⟨hnode, hrest⟩ := List.forall_mem_cons.1 hnodes
    simp only [evaluateAll] at h
    obtain ⟨next, hnext, h⟩ := andThen_eq_some_iff.1 h
    obtain ⟨last, hlast, heq⟩ := andThen_eq_some_iff.1 h
    cases heq
    have hpath := path_of_evaluateAll (fun _ _ _ _ _ hfound => path_of_evaluate hfound) hlast
    rw [Node.mayStayAll, hnode _ _ _ hnext (hpath.anchor_eq_start hfound), ih hrest hlast hfound]
    rfl

theorem mayStay_of_evaluateFirst {nodes : List Node}
    (hnodes : ∀ node ∈ nodes, m.evaluate limit node state captures = .ok (some found) → node.mayStay = true)
    (h : m.evaluateFirst limit nodes state captures = .ok (some found)) : Node.mayStayAny nodes = true := by
  induction nodes with
  | nil => cases h
  | cons node rest ih =>
    obtain ⟨hnode, hrest⟩ := List.forall_mem_cons.1 hnodes
    simp only [evaluateFirst] at h
    rw [Node.mayStayAny, Bool.or_eq_true]
    rcases orElse_eq_some_iff.1 h with hfound | ⟨_, hlater⟩
    · exact .inl (hnode hfound)
    · exact .inr (ih hrest hlater)

theorem anchor_of_evaluateLabel {term : LabelTerm} {seek : Bool} {accepts : Span → Attempt Captures}
    (h : m.evaluateLabel term seek accepts limit state captures = .ok (some found)) :
    found.state.anchor = .free := by
  obtain ⟨frozen, span, position, written, _, _, _, rfl⟩ := evaluateLabel_eq_some h
  rfl

theorem anchor_of_evaluateLiteral {literal : Literal}
    (h : m.evaluateLiteral literal limit state captures = .ok (some found)) : found.state.anchor = .free := by
  obtain ⟨next, hnext, heq⟩ := andThen_eq_some_iff.1 h
  cases heq
  obtain ⟨frozen, more, span, last, _, _, _, rfl⟩ := matchLiteral_eq_some hnext
  rfl

/-- A match that has not been moved from its start has come through nodes that may stay there only. -/
theorem mayStay_of_evaluate {node : Node} (h : m.evaluate limit node state captures = .ok (some found))
    (hfound : found.state.anchor = .start) : node.mayStay = true := by
  induction node generalizing state captures found with
  | sequence elements ih =>
    simp only [evaluate] at h
    exact mayStay_of_evaluateAll (fun node hmem _ _ _ hnode hanchor => ih node hmem hnode hanchor) h hfound
  | alternation alternatives ih =>
    simp only [evaluate] at h
    exact mayStay_of_evaluateFirst (fun node hmem hnode => ih node hmem hnode hfound) h
  | adjacent =>
    cases h
    cases hfound
  | repetition body minimum maximum? ih =>
    obtain ⟨count, hminimum, hrepeats⟩ := repeats_of_evaluate h
    rw [Node.mayStay, Bool.or_eq_true, beq_iff_eq]
    by_cases hzero : minimum = 0
    · exact .inl hzero
    · have hcount : count ≠ 0 := by omega
      exact .inr (mayStay_of_repeats (fun _ _ _ hbody hanchor => ih hbody hanchor) hrepeats hfound hcount)
  | capture slot body ih =>
    simp only [evaluate] at h
    obtain ⟨inner, hinner, h⟩ := andThen_eq_some_iff.1 h
    rcases writeCapture_eq_some h with ⟨_, rfl⟩ | ⟨start, _, _, _, rfl⟩
    · exact ih hinner hfound
    · exact ih hinner hfound
  | lookahead => rfl
  | label term =>
    simp only [evaluate] at h
    rw [anchor_of_evaluateLabel h] at hfound
    cases hfound
  | pinned term seek exact conditions =>
    simp only [evaluate] at h
    rw [anchor_of_evaluateLabel h] at hfound
    cases hfound
  | literal literal =>
    simp only [evaluate] at h
    rw [anchor_of_evaluateLiteral h] at hfound
    cases hfound

theorem Continues.mayAdjoin {task next : Task} (h : m.Continues task next)
    (htask : task.state.anchor = .start → task.node.mayAdjoin = false)
    (hnext : next.state.anchor = .start) : next.node.mayAdjoin = false := by
  cases h with
  | first => exact (Bool.or_eq_false_iff.1 (htask hnext)).1
  | rest h =>
    obtain ⟨found, hfound, rfl, _⟩ := evaluate_eq_some h
    have hstart := (path_of_evaluate hfound).anchor_eq_start hnext
    have hrest := (Bool.or_eq_false_iff.1 (htask hstart)).2
    rw [mayStay_of_evaluate hfound hnext] at hrest
    exact hrest
  | alternative => exact (Bool.or_eq_false_iff.1 (htask hnext)).1
  | otherwise => exact (Bool.or_eq_false_iff.1 (htask hnext)).2
  | body => exact htask hnext
  | again _ h =>
    obtain ⟨found, hfound, rfl, _⟩ := evaluate_eq_some h
    exact htask ((path_of_evaluate hfound).anchor_eq_start hnext)
  | capture => exact htask hnext

/-- In a pattern of which no node may do so, no label is made adjacent before the first one. -/
theorem anchored_of_not_mayAdjoin {task : Task} (h : task.node.mayAdjoin = false) : m.Anchored task := by
  intro next hreach hadjacent hanchor
  have hnext : next.state.anchor = .start → next.node.mayAdjoin = false := by
    clear hadjacent hanchor
    induction hreach with
    | refl => exact fun _ => h
    | tail _ hlast ih => exact hlast.mayAdjoin ih
  have hfalse := hnext hanchor
  rw [hadjacent] at hfalse
  cases hfalse

end Matcher

end Pattern

end TextAnnotation
