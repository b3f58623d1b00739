import BetaStepper.Display
import BetaStepper.Proofs.Labelling
import Mathlib.Data.List.Forall2

/-! # Labels stand under their redexes

The columns of labels are summed up from the widths of what is printed before them, apart from the text itself. So it
has to be shown that the widths are those of the text and that the sums follow its parentheses. `Label.PointsAt` says
what a column means: whatever stands in the place of the application, the text before it has that many characters. It is
carried from the two sides of an application, and from the body of an abstraction, to the whole by moving the column and
the depth. -/

namespace BetaStepper

namespace Term

/-! ## Printing around a place -/

theorem isAbstraction_replaceAt {term old node : Term} {path : Path} (found : term.at? path = some old)
    (same : node.isAbstraction = old.isAbstraction) :
    (term.replaceAt path node).isAbstraction = term.isAbstraction := by
  cases leads_of_at? found with
  | here => rw [replaceAt_nil, same]
  | body | func | arg => rfl

theorem replaceAt_of_at? {term node : Term} {path : Path} (found : term.at? path = some node) :
    term.replaceAt path node = term := by
  induction leads_of_at? found with
  | here => rw [replaceAt_nil]
  | body _ bodyHypothesis => rw [replaceAt, bodyHypothesis found]
  | func _ funcHypothesis => rw [replaceAt, funcHypothesis found]
  | arg _ argHypothesis => rw [replaceAt, argHypothesis found]

/-- What is put around a side of an application depends only on whether it is an abstraction. -/
theorem wrap_around (term : Term) : ∃ left right : String,
    left.length = Display.inset term ∧ right.length = Display.inset term ∧
      ∀ other : Term, other.isAbstraction = term.isAbstraction → ∀ text, other.wrap text = left ++ text ++ right := by
  rw [Display.inset]
  split
  next isAbstraction =>
    refine ⟨"(", ")", rfl, rfl, ?_⟩
    intro other same text
    rw [wrap, if_pos (same.trans isAbstraction)]
  next notAbstraction =>
    refine ⟨"", "", rfl, rfl, ?_⟩
    intro other same text
    rw [wrap, if_neg (same ▸ notAbstraction), String.empty_append, String.append_empty]

theorem length_wrap (term : Term) (text : String) :
    (term.wrap text).length = text.length + 2 * Display.inset term := by
  obtain ⟨left, right, lengthLeft, lengthRight, wrapped⟩ := term.wrap_around
  rw [wrapped term rfl, String.length_append, String.length_append]
  omega

theorem length_print (lambda : String) (term : Term) : (term.print lambda).length = Display.width lambda term := by
  induction term with
  | var | hole => rfl
  | lam _ _ _ bodyHypothesis => rw [print, String.length_append, bodyHypothesis, Display.width]
  | app _ _ _ _ funcHypothesis argHypothesis =>
    have single : "(".length = 1 ∧ " ".length = 1 ∧ ")".length = 1 := by decide
    simp only [print, String.length_append, length_wrap, funcHypothesis, argHypothesis, Display.width, single]
    omega

/-! ## Applications that carry a label -/

/-- The label of the application at the end of a path. -/
def labelAt? (term : Term) (path : Path) : Option Int :=
  match term.at? path with
  | some (app _ _ label _) => label
  | _ => none

/-- The paths to the applications that carry a label, in pre-order. -/
def labelledPaths (term : Term) : List Path := term.preorder.filter fun path => (term.labelAt? path).isSome

theorem nodup_labelledPaths (term : Term) : term.labelledPaths.Nodup := (nodup_preorder term).filter _

theorem mem_labelledPaths_iff {term : Term} {path : Path} :
    path ∈ term.labelledPaths ↔ ∃ func arg id origin, term.at? path = some (app func arg (some id) origin) := by
  rw [labelledPaths, List.mem_filter, mem_preorder_iff, labelAt?]
  constructor
  · rintro ⟨_, labelled⟩
    split at labelled
    next func arg label origin found =>
      obtain ⟨id, rfl⟩ := Option.isSome_iff_exists.1 labelled
      exact ⟨func, arg, id, origin, found⟩
    · cases labelled
  · rintro ⟨func, arg, id, origin, found⟩
    rw [found]
    exact ⟨rfl, rfl⟩

theorem filter_labelAt? {term inner : Term} {turn : Turn}
    (enters : ∀ path, term.at? (turn :: path) = inner.at? path) :
    (inner.preorder.map (turn :: ·)).filter (fun path => (term.labelAt? path).isSome) =
      inner.labelledPaths.map (turn :: ·) := by
  rw [List.filter_map, labelledPaths]
  congr 2
  funext path
  rw [Function.comp_apply, labelAt?, enters]
  rfl

theorem labelledPaths_lam (param : String) (body : Term) (origin : Provenance) :
    (lam param body origin).labelledPaths = body.labelledPaths.map (.body :: ·) := by
  rw [labelledPaths, preorder, List.filter_cons_of_neg (by simp [labelAt?]), filter_labelAt? fun _ => rfl]

theorem labelledPaths_app (func arg : Term) (label : Option Int) (origin : Provenance) :
    (app func arg label origin).labelledPaths =
      label.toList.map (fun _ => []) ++
        (func.labelledPaths.map (.func :: ·) ++ arg.labelledPaths.map (.arg :: ·)) := by
  rw [labelledPaths, preorder, List.filter_cons, List.filter_append, filter_labelAt? fun _ => rfl,
    filter_labelAt? fun _ => rfl]
  cases label <;> rfl

/-- The number of applications that a path goes through on its way. -/
def applicationsAbove : Term → Path → Nat
  | lam _ body _, .body :: path => body.applicationsAbove path
  | app func _ _ _, .func :: path => func.applicationsAbove path + 1
  | app _ arg _ _, .arg :: path => arg.applicationsAbove path + 1
  | _, _ => 0

end Term

namespace Display

open Term

/-! ## Texts -/

theorem render_false_cons (span : Span) (rest : Styled) :
    Styled.render false (span :: rest) = span.text ++ Styled.render false rest := by
  rw [Styled.render, List.map_cons, String.join_cons]
  rfl

theorem render_false_enclose (term : Term) {inner : Styled → Styled} {text : String}
    (printed : ∀ rest, Styled.render false (inner rest) = text ++ Styled.render false rest) (rest : Styled) :
    Styled.render false (enclose term inner rest) = term.wrap text ++ Styled.render false rest := by
  rw [enclose, wrap]
  split
  · simp only [render_false_cons, printed, String.append_assoc]
  · exact printed rest

/-- Without colour the spans of a term are its text. -/
theorem render_false_spans (lambda : String) (depth : Nat) (term : Term) (rest : Styled) :
    Styled.render false (spans lambda depth term rest) = term.print lambda ++ Styled.render false rest := by
  induction term generalizing depth rest with
  | var name _ => exact render_false_cons _ rest
  | lam _ _ _ bodyHypothesis =>
    rw [spans, render_false_cons, bodyHypothesis, print]
    exact String.append_assoc.symm
  | app func arg _ _ funcHypothesis argHypothesis =>
    rw [spans, render_false_cons, render_false_enclose func (funcHypothesis (depth + 1)), render_false_cons,
      render_false_enclose arg (argHypothesis (depth + 1)), render_false_cons, print]
    simp only [String.append_assoc]
    rfl
  | hole => exact String.empty_append.symm

theorem render_false_render (options : Options) (term : Term) :
    (render options term).render false = term.print options.lambda ++
      if options.showLabels && !(labels options.lambda 0 0 term).isEmpty then
        "\n" ++ (labelLine (labels options.lambda 0 0 term)).render false
      else "" := by
  rw [render]
  split
  · rw [render_false_spans, render_false_cons]
  · rw [render_false_spans]
    rfl

/-! ## Columns -/

/-- The label tells of the application at the end of the path, in a term that stands inside `depth` applications and
starts at `column`. -/
structure Label.PointsAt (lambda : String) (depth column : Nat) (term : Term) (path : Path) (label : Label) : Prop where
  application : ∃ func arg origin, term.at? path = some (.app func arg label.id origin)
  /-- The text before the application ends at the label's position, whatever stands in its place. -/
  opening : ∃ before after : String, label.position = (column + before.length : Nat) ∧
    ∀ node : Term, node.isAbstraction = false →
      (term.replaceAt path node).print lambda = before ++ node.print lambda ++ after
  color : label.color = depthColors[(depth + term.applicationsAbove path) % 6]?

theorem some_depthColor (depth : Nat) : some (depthColor depth) = depthColors[depth % 6]? := by
  have inside : depth % depthColors.length < depthColors.length := Nat.mod_lt depth (by decide)
  rw [depthColor, List.getD_eq_getElem?_getD, List.getElem?_eq_getElem inside, Option.getD_some]
  exact (List.getElem?_eq_getElem inside).symm

variable {lambda : String} {depth column : Nat} {path : Path} {label : Label}

theorem Label.pointsAt_root (func arg : Term) (id : Int) (origin : Provenance) :
    Label.PointsAt lambda depth column (.app func arg (some id) origin) []
      { id := some id, position := column, color := some (depthColor depth) } where
  application := ⟨func, arg, origin, at?_nil _⟩
  opening := by
    refine ⟨"", "", rfl, ?_⟩
    intro node _
    rw [replaceAt_nil, String.empty_append, String.append_empty]
  color := some_depthColor depth

/-- The way from a part of the term to the whole: `left` and `right` are printed around the part, and it starts after
`left`. -/
theorem Label.PointsAt.below {term inner : Term} {turn : Turn} {start deeper : Nat}
    (points : label.PointsAt lambda deeper start inner path) (left right : String)
    (enters : term.at? (turn :: path) = inner.at? path)
    (around : ∀ node, (inner.replaceAt path node).isAbstraction = inner.isAbstraction →
      (term.replaceAt (turn :: path) node).print lambda = left ++ (inner.replaceAt path node).print lambda ++ right)
    (starts : start = column + left.length)
    (deepens : deeper + inner.applicationsAbove path = depth + term.applicationsAbove (turn :: path)) :
    label.PointsAt lambda depth column term (turn :: path) := by
  obtain ⟨⟨func, arg, origin, found⟩, ⟨before, after, position, aroundInner⟩, color⟩ := points
  refine ⟨⟨func, arg, origin, enters.trans found⟩, ⟨left ++ before, after ++ right, ?_, ?_⟩, ?_⟩
  · rw [position, starts, String.length_append, Nat.add_assoc]
  · intro node notAbstraction
    -- an application makes way for something that is no abstraction either, so no parentheses come or go
    have same := isAbstraction_replaceAt found notAbstraction
    simp only [around node same, aroundInner node notAbstraction, String.append_assoc]
  · rw [color, deepens]

theorem Label.PointsAt.body {param : String} {body : Term} {origin : Provenance}
    (points : label.PointsAt lambda depth (column + (lambda ++ param ++ ".").length) body path) :
    label.PointsAt lambda depth column (.lam param body origin) (.body :: path) := by
  refine points.below (lambda ++ param ++ ".") "" rfl ?_ rfl rfl
  intro node _
  rw [replaceAt, print, String.append_empty]

theorem Label.PointsAt.func {func arg : Term} {own : Option Int} {origin : Provenance}
    (points : label.PointsAt lambda (depth + 1) (column + 1 + inset func) func path) :
    label.PointsAt lambda depth column (.app func arg own origin) (.func :: path) := by
  obtain ⟨left, right, lengthLeft, _, wrapped⟩ := func.wrap_around
  have single : "(".length = 1 := rfl
  refine points.below ("(" ++ left) (right ++ " " ++ arg.wrap (arg.print lambda) ++ ")") rfl ?_ ?_ ?_
  · intro node same
    simp only [replaceAt, print, wrapped _ same, String.append_assoc]
  · rw [String.length_append, lengthLeft, single, Nat.add_assoc]
  · rw [applicationsAbove]
    omega

theorem Label.PointsAt.arg {func arg : Term} {own : Option Int} {origin : Provenance}
    (points : label.PointsAt lambda (depth + 1)
      (column + 1 + (width lambda func + 2 * inset func) + 1 + inset arg) arg path) :
    label.PointsAt lambda depth column (.app func arg own origin) (.arg :: path) := by
  obtain ⟨left, right, lengthLeft, _, wrapped⟩ := arg.wrap_around
  have single : "(".length = 1 ∧ " ".length = 1 := ⟨rfl, rfl⟩
  refine points.below ("(" ++ func.wrap (func.print lambda) ++ " " ++ left) (right ++ ")") rfl ?_ ?_ ?_
  · intro node same
    simp only [replaceAt, print, wrapped _ same, String.append_assoc]
  · simp only [String.length_append, length_wrap, length_print, lengthLeft, single]
    omega
  · rw [applicationsAbove]
    omega

/-- There is one label for each application that carries one, in the same order. -/
theorem forall₂_pointsAt_labels (lambda : String) (depth column : Nat) (term : Term) :
    List.Forall₂ (fun path label => label.PointsAt lambda depth column term path) term.labelledPaths
      (labels lambda depth column term) := by
  induction term generalizing depth column with
  | var | hole => exact .nil
  | lam _ _ _ bodyHypothesis =>
    rw [labelledPaths_lam, labels, List.forall₂_map_left_iff]
    exact (bodyHypothesis _ _).imp fun _ _ points => points.body
  | app func arg own origin funcHypothesis argHypothesis =>
    -- the application's own label comes first, as it stands furthest to the left
    rw [labelledPaths_app, labels]
    refine List.rel_append ?_ (List.rel_append ?_ ?_)
    · cases own with
      | none => exact .nil
      | some id => exact .cons (Label.pointsAt_root func arg id origin) .nil
    · rw [List.forall₂_map_left_iff]
      exact (funcHypothesis _ _).imp fun _ _ points => points.func
    · rw [List.forall₂_map_left_iff]
      exact (argHypothesis _ _).imp fun _ _ points => points.arg

/-! ## Order -/

theorem bound_of_mem_labels {term : Term} (member : label ∈ labels lambda depth column term) :
    (column : Int) ≤ label.position ∧ label.position < column + width lambda term := by
  induction term generalizing depth column with
  | var | hole => cases member
  | lam _ _ _ bodyHypothesis =>
    have bound := bodyHypothesis member
    rw [width]
    omega
  | app func arg own _ funcHypothesis argHypothesis =>
    rw [width]
    rcases List.mem_append.1 member with here | inside
    · obtain ⟨id, _, rfl⟩ := List.mem_map.1 here
      dsimp only
      omega
    · rcases List.mem_append.1 inside with inFunc | inArg
      · have bound := funcHypothesis inFunc
        omega
      · have bound := argHypothesis inArg
        omega

theorem pairwise_labels (lambda : String) (depth column : Nat) (term : Term) :
    (labels lambda depth column term).Pairwise fun left right => left.position < right.position := by
  induction term generalizing depth column with
  | var | hole => exact .nil
  | lam _ _ _ bodyHypothesis => exact bodyHypothesis _ _
  | app func arg own _ funcHypothesis argHypothesis =>
    rw [labels, List.pairwise_append, List.pairwise_append]
    refine ⟨?_, ⟨funcHypothesis _ _, argHypothesis _ _, ?_⟩, ?_⟩
    · cases own with
      | none => exact .nil
      | some id => exact List.pairwise_singleton _ _
    · -- the function ends before the blank, and the argument starts after it
      intro left inFunc right inArg
      have boundLeft := bound_of_mem_labels inFunc
      have boundRight := bound_of_mem_labels inArg
      omega
    · intro left here right inside
      obtain ⟨id, _, rfl⟩ := List.mem_map.1 here
      dsimp only
      rcases List.mem_append.1 inside with inFunc | inArg
      · have bound := bound_of_mem_labels inFunc
        omega
      · have bound := bound_of_mem_labels inArg
        omega

/-- The labels of a numbered term count its redexes. -/
theorem map_id_labels_numberFrom (lambda : String) (depth column next : Nat) (term : Term) :
    (labels lambda depth column (term.numberFrom next).1).map Label.id = labelsFrom next term.redexCount := by
  induction term generalizing depth column next with
  | var | hole => rfl
  | lam _ _ _ bodyHypothesis => exact bodyHypothesis _ _ _
  | app func arg _ _ funcHypothesis argHypothesis =>
    simp only [numberFrom, labels, List.map_append, funcHypothesis, argHypothesis, numberFrom_snd, labelsFrom_append,
      redexCount_app]
    split
    · rw [Nat.add_comm 1, labelsFrom_succ]
      rfl
    · rw [Nat.zero_add]
      rfl

/-- At the position of a label the text of the term has the parenthesis that opens the application. -/
theorem Label.PointsAt.opens {term : Term} (points : label.PointsAt lambda depth 0 term path) :
    (term.print lambda).toList[label.position.toNat]? = some '(' := by
  obtain ⟨⟨func, arg, origin, found⟩, ⟨before, after, position, around⟩, _⟩ := points
  have text := around _ (show (Term.app func arg label.id origin).isAbstraction = false from rfl)
  rw [replaceAt_of_at? found] at text
  rw [text, position, print]
  simp only [String.toList_append, List.append_assoc, Nat.zero_add, Int.toNat_natCast]
  rw [List.getElem?_append_right (Nat.le_of_eq String.length_toList), String.length_toList, Nat.sub_self]
  rfl

/-- A displayed term is its text, and its labels are those of its applications in pre-order. Each stands under the
parenthesis that opens its application and has the colour of its depth. They stand in order from left to right, so the
labels of a numbered term read 1, 2, … Only the nesting limit can keep a term from being displayed. -/
theorem labels_stand_under_redexes (options : Options) (term : Term) :
    let text := term.print options.lambda
    let shown := labels options.lambda 0 0 term
    (spans options.lambda 0 term []).render false = text ∧
    (render options term).render false =
      text ++ (if options.showLabels && !shown.isEmpty then "\n" ++ (labelLine shown).render false else "") ∧
    term.labelledPaths.Nodup ∧
    (∀ path, path ∈ term.labelledPaths ↔ ∃ func arg id origin, term.at? path = some (.app func arg (some id) origin)) ∧
    List.Forall₂ (fun path label => label.PointsAt options.lambda 0 0 term path ∧
      text.toList[label.position.toNat]? = some '(') term.labelledPaths shown ∧
    shown.Pairwise (fun left right => left.position < right.position) ∧
    (labels options.lambda 0 0 term.number).map Label.id = labelsFrom 1 term.redexCount ∧
    (term.complete = true → term.nesting ≤ nestingLimit →
      Guarded.display options term = .ok (render options term)) := by
  intro text shown
  refine ⟨?_, render_false_render options term, nodup_labelledPaths term, fun _ => mem_labelledPaths_iff, ?_,
    pairwise_labels options.lambda 0 0 term, map_id_labels_numberFrom options.lambda 0 0 1 term, ?_⟩
  · rw [render_false_spans]
    exact String.append_empty
  · exact (forall₂_pointsAt_labels options.lambda 0 0 term).imp fun _ _ points => ⟨points, points.opens⟩
  · intro complete shallow
    exact Guarded.all_then_eq_ok.2 ⟨⟨complete, shallow⟩, rfl⟩

end Display

end BetaStepper
