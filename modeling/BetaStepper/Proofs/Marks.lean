import BetaStepper.Proofs.Labelling
import BetaStepper.Proofs.Tracing

/-! # The outermost marks of a term

Copies are reported by the outermost marked nodes of a term, in groups by the redex that they came from. `rootMarks`
gives these nodes with the paths to them: they are the marked nodes that no other marked node encloses, in pre-order.
What groups are is said for lists in general by `IsGrouping`; the list is followed from its first element, which opens
a group and takes along all elements with the same key. -/

namespace BetaStepper

/-! ## Groups -/

section

variable {α β γ : Type} [BEq γ] [DecidableEq γ]

/-- The elements grouped by their keys, in the order in which the keys are first met. -/
def groupsBy (key : α → γ) (elements : List α) : List (γ × List α) :=
  (elements.map key).eraseDups.map fun own => (own, elements.filter (key · = own))

theorem groupsBy_map (key : β → γ) (image : α → β) (elements : List α) :
    groupsBy key (elements.map image) =
      (groupsBy (key ∘ image) elements).map fun group => (group.1, group.2.map image) := by
  rw [groupsBy, groupsBy, List.map_map, List.map_map]
  congr 1
  funext own
  rw [List.filter_map]
  rfl

theorem map_fst_groupsBy (key : α → γ) (elements : List α) :
    (groupsBy key elements).map Prod.fst = (elements.map key).eraseDups := by
  rw [groupsBy, List.map_map]
  exact List.map_id _

variable [LawfulBEq γ]

/-- The first element opens a group and takes along all that have the same key. -/
theorem groupsBy_cons (key : α → γ) (first : α) (rest : List α) :
    groupsBy key (first :: rest) =
      (key first, first :: rest.filter (key · = key first)) :: groupsBy key (rest.filter (key · ≠ key first)) := by
  have otherKeys : ((rest.map key).filter fun other => !other == key first) =
      (rest.filter (key · ≠ key first)).map key := by
    rw [List.filter_map]
    congr 2
    funext element
    simp [Bool.beq_eq_decide_eq]
  rw [groupsBy, List.map_cons, List.eraseDups_cons, List.map_cons, otherKeys, List.filter_cons_of_pos (by simp),
    groupsBy]
  congr 1
  -- in the later groups nothing changes, since none of them has the key of the first element
  apply List.map_congr_left
  intro own member
  obtain ⟨element, inRest, rfl⟩ := List.mem_map.1 (List.mem_eraseDups.1 member)
  have apart : key element ≠ key first := by simpa using (List.mem_filter.1 inRest).2
  rw [List.filter_cons_of_neg (by simpa using apart.symm), List.filter_filter]
  congr 2
  funext other
  by_cases same : key other = key element <;> simp [same, apart]

/-- The elements are sorted into groups by their keys, each once, and in each group they are in their old order. The
groups are in the order of their first elements, so of the first elements with their keys. -/
structure IsGrouping (key : α → γ) (elements : List α) (groups : List (γ × List α)) : Prop where
  perm : (groups.flatMap Prod.snd).Perm elements
  own_key : ∀ group ∈ groups, ∀ element ∈ group.2, key element = group.1
  distinct : (groups.map Prod.fst).Nodup
  in_order : ∀ group ∈ groups, group.2.Sublist elements
  firsts_in_order : (groups.map (·.2.head?)).Sublist (elements.map some)

theorem isGrouping_groupsBy (key : α → γ) (elements : List α) : IsGrouping key elements (groupsBy key elements) := by
  match elements with
  | [] => constructor <;> simp [groupsBy]
  | first :: rest =>
    rw [groupsBy_cons]
    have others := isGrouping_groupsBy key (rest.filter (key · ≠ key first))
    have shorter := List.filter_sublist (p := (key · ≠ key first)) (l := rest)
    constructor
    case perm =>
      rw [List.flatMap_cons, List.cons_append]
      refine .cons first ((others.perm.append_left _).trans ?_)
      simpa using List.filter_append_perm (key · = key first) rest
    case own_key =>
      intro group member element inGroup
      rcases List.mem_cons.1 member with rfl | inOthers
      · rcases List.mem_cons.1 inGroup with rfl | inRest
        · rfl
        · simpa using (List.mem_filter.1 inRest).2
      · exact others.own_key group inOthers element inGroup
    case distinct =>
      refine List.nodup_cons.2 ⟨?_, others.distinct⟩
      intro member
      rw [map_fst_groupsBy, List.mem_eraseDups] at member
      obtain ⟨element, inRest, same⟩ := List.mem_map.1 member
      exact absurd same (by simpa using (List.mem_filter.1 inRest).2)
    case in_order =>
      intro group member
      rcases List.mem_cons.1 member with rfl | inOthers
      · exact List.filter_sublist.cons_cons first
      · exact ((others.in_order group inOthers).trans shorter).cons first
    case firsts_in_order =>
      exact (others.firsts_in_order.trans (shorter.map some)).cons_cons (some first)
termination_by elements.length
decreasing_by exact Nat.lt_succ_of_le (List.length_filter_le _ _)

end

namespace Term

/-! ## Marked nodes -/

/-- A node of a term and the path that leads to it. -/
structure Mark where
  path : Path
  node : Term

/-- The same node seen from the node above, which leads to it by `turn`. -/
def Mark.below (turn : Turn) (mark : Mark) : Mark := { mark with path := turn :: mark.path }

def Mark.source (mark : Mark) : Option Int := mark.node.origin.source

/-- A marked node of the term with no marked node above it. -/
structure Outermost (term : Term) (mark : Mark) : Prop where
  found : term.at? mark.path = some mark.node
  marked : mark.node.origin.marked = true
  uncovered : ∀ above node, term.at? above = some node → node.origin.marked = true → above <+: mark.path →
    above = mark.path

theorem Outermost.eq_of_marked {term : Term} {mark : Mark} (outermost : term.Outermost mark)
    (marked : term.origin.marked = true) : mark = ⟨[], term⟩ := by
  obtain ⟨path, node⟩ := mark
  obtain rfl : [] = path := outermost.uncovered [] term (at?_nil term) marked List.nil_prefix
  obtain rfl : term = node := Option.some.inj ((at?_nil term).symm.trans outermost.found)
  rfl

theorem outermost_root {term : Term} (marked : term.origin.marked = true) : term.Outermost ⟨[], term⟩ where
  found := at?_nil term
  marked := marked
  uncovered := fun _ _ _ _ above => List.prefix_nil.1 above

/-- Below a node without a mark the outermost marks are those of its parts. -/
theorem outermost_below {term inner : Term} {turn : Turn} (enters : ∀ path, term.at? (turn :: path) = inner.at? path)
    (unmarked : term.origin.marked = false) {mark : Mark} :
    term.Outermost (mark.below turn) ↔ inner.Outermost mark := by
  constructor
  · rintro ⟨found, marked, uncovered⟩
    refine ⟨(enters _).symm.trans found, marked, ?_⟩
    intro above node foundAbove markedAbove isAbove
    have same := uncovered (turn :: above) node ((enters above).trans foundAbove) markedAbove
      (List.cons_prefix_cons.2 ⟨rfl, isAbove⟩)
    exact List.tail_eq_of_cons_eq same
  · rintro ⟨found, marked, uncovered⟩
    refine ⟨(enters _).trans found, marked, ?_⟩
    intro above node foundAbove markedAbove isAbove
    cases above with
    | nil =>
      rw [at?_nil] at foundAbove
      cases foundAbove
      rw [unmarked] at markedAbove
      cases markedAbove
    | cons first rest =>
      obtain ⟨rfl, restAbove⟩ := List.cons_prefix_cons.1 isAbove
      exact congrArg _ (uncovered rest node ((enters rest).symm.trans foundAbove) markedAbove restAbove)

/-- Induction on terms down to the outermost marks: a marked node is not entered. -/
@[elab_as_elim] theorem rootInduction {motive : Term → Prop}
    (root : ∀ term, term.origin.marked = true → motive term)
    (var : ∀ name source, motive (var name { source }))
    (lam : ∀ param body source, motive body → motive (lam param body { source }))
    (app : ∀ func arg label source, motive func → motive arg → motive (app func arg label { source }))
    (hole : motive hole) (term : Term) : motive term := by
  induction term with
  | var name origin =>
    obtain ⟨_ | _, source⟩ := origin
    · exact var name source
    · exact root _ rfl
  | lam param body origin bodyHypothesis =>
    obtain ⟨_ | _, source⟩ := origin
    · exact lam param body source bodyHypothesis
    · exact root _ rfl
  | app func arg label origin funcHypothesis argHypothesis =>
    obtain ⟨_ | _, source⟩ := origin
    · exact app func arg label source funcHypothesis argHypothesis
    · exact root _ rfl
  | hole => exact hole

/-! ## The marks that are reported -/

/-- The outermost marked nodes with the paths to them. -/
def rootMarks : Term → List Mark
  | var name origin => if origin.marked then [⟨[], var name origin⟩] else []
  | lam param body origin =>
    if origin.marked then [⟨[], lam param body origin⟩] else body.rootMarks.map (.below .body)
  | app func arg label origin =>
    if origin.marked then [⟨[], app func arg label origin⟩]
    else func.rootMarks.map (.below .func) ++ arg.rootMarks.map (.below .arg)
  | hole => []

theorem rootMarks_of_marked {term : Term} (marked : term.origin.marked = true) : term.rootMarks = [⟨[], term⟩] := by
  cases term with
  | var | lam | app =>
    rw [origin] at marked
    rw [rootMarks, if_pos marked]
  | hole => cases marked

theorem rootMarks_lam (param : String) (body : Term) (source : Option Int) :
    (lam param body { source }).rootMarks = body.rootMarks.map (.below .body) := rfl

theorem rootMarks_app (func arg : Term) (label source : Option Int) :
    (app func arg label { source }).rootMarks =
      func.rootMarks.map (.below .func) ++ arg.rootMarks.map (.below .arg) := rfl

theorem map_node_rootMarks (term : Term) : term.rootMarks.map Mark.node = term.markedRoots := by
  have below (turn : Turn) (marks : List Mark) : (marks.map (.below turn)).map Mark.node = marks.map Mark.node :=
    List.map_map
  induction term using rootInduction with
  | root term marked =>
    rw [rootMarks_of_marked marked, markedRoots_of_marked marked]
    rfl
  | var | hole => rfl
  | lam param body source bodyHypothesis =>
    rw [rootMarks_lam, below]
    exact bodyHypothesis
  | app func arg label source funcHypothesis argHypothesis =>
    rw [rootMarks_app, List.map_append, below, below, funcHypothesis, argHypothesis]
    rfl

/-- The outermost marks are listed in pre-order. -/
theorem map_path_rootMarks_sublist (term : Term) : (term.rootMarks.map Mark.path).Sublist term.preorder := by
  have below (turn : Turn) {marks : List Mark} {paths : List Path} (inOrder : (marks.map Mark.path).Sublist paths) :
      ((marks.map (.below turn)).map Mark.path).Sublist (paths.map (turn :: ·)) := by
    have longer := inOrder.map (turn :: ·)
    rw [List.map_map] at longer ⊢
    exact longer
  induction term using rootInduction with
  | root term marked =>
    rw [rootMarks_of_marked marked]
    cases term <;> exact (List.nil_sublist _).cons_cons _
  | var | hole => exact List.nil_sublist _
  | lam param body source bodyHypothesis =>
    rw [rootMarks_lam]
    exact (below .body bodyHypothesis).cons []
  | app func arg label source funcHypothesis argHypothesis =>
    rw [rootMarks_app, List.map_append]
    exact ((below .func funcHypothesis).append (below .arg argHypothesis)).cons []

theorem mem_rootMarks_iff {term : Term} {mark : Mark} : mark ∈ term.rootMarks ↔ term.Outermost mark := by
  induction term using rootInduction generalizing mark with
  | root term marked =>
    rw [rootMarks_of_marked marked, List.mem_singleton]
    exact ⟨fun same => same ▸ outermost_root marked, fun outermost => outermost.eq_of_marked marked⟩
  | var | hole =>
    refine ⟨nofun, fun ⟨found, marked, _⟩ => ?_⟩
    obtain ⟨path, node⟩ := mark
    cases leads_of_at? found
    cases marked
  | lam param body source bodyHypothesis =>
    rw [rootMarks_lam, List.mem_map]
    constructor
    · rintro ⟨inner, member, rfl⟩
      exact (outermost_below (fun _ => rfl) rfl).2 (bodyHypothesis.1 member)
    · intro outermost
      obtain ⟨path, node⟩ := mark
      cases leads_of_at? outermost.found with
      | here => cases outermost.marked
      | body => exact ⟨⟨_, node⟩, bodyHypothesis.2 ((outermost_below (fun _ => rfl) rfl).1 outermost), rfl⟩
  | app func arg label source funcHypothesis argHypothesis =>
    rw [rootMarks_app, List.mem_append, List.mem_map, List.mem_map]
    constructor
    · rintro (⟨inner, member, rfl⟩ | ⟨inner, member, rfl⟩)
      · exact (outermost_below (fun _ => rfl) rfl).2 (funcHypothesis.1 member)
      · exact (outermost_below (fun _ => rfl) rfl).2 (argHypothesis.1 member)
    · intro outermost
      obtain ⟨path, node⟩ := mark
      cases leads_of_at? outermost.found with
      | here => cases outermost.marked
      | func =>
        exact .inl ⟨⟨_, node⟩, funcHypothesis.2 ((outermost_below (fun _ => rfl) rfl).1 outermost), rfl⟩
      | arg =>
        exact .inr ⟨⟨_, node⟩, argHypothesis.2 ((outermost_below (fun _ => rfl) rfl).1 outermost), rfl⟩

/-! ## The mark around a marked node -/

theorem exists_outermost {term node : Term} {path : Path} (found : term.at? path = some node)
    (marked : node.origin.marked = true) : ∃ mark, term.Outermost mark ∧ mark.path <+: path := by
  have root {term : Term} (marked : term.origin.marked = true) (path : Path) :
      ∃ mark, term.Outermost mark ∧ mark.path <+: path :=
    ⟨⟨[], term⟩, outermost_root marked, List.nil_prefix⟩
  have below {term inner : Term} {turn : Turn} {path : Path}
      (enters : ∀ path, term.at? (turn :: path) = inner.at? path)
      (inside : ∃ mark, inner.Outermost mark ∧ mark.path <+: path) :
      ∃ mark, term.Outermost mark ∧ mark.path <+: turn :: path := by
    by_cases marked : term.origin.marked = true
    · exact root marked _
    · obtain ⟨mark, outermost, above⟩ := inside
      exact ⟨mark.below turn, (outermost_below enters (by simpa using marked)).2 outermost,
        List.cons_prefix_cons.2 ⟨rfl, above⟩⟩
  induction leads_of_at? found with
  | here => exact root marked []
  | body _ bodyHypothesis => exact below (fun _ => rfl) (bodyHypothesis found)
  | func _ funcHypothesis => exact below (fun _ => rfl) (funcHypothesis found)
  | arg _ argHypothesis => exact below (fun _ => rfl) (argHypothesis found)

theorem Outermost.eq_of_path_prefix {term : Term} {mark other : Mark} (outermost : term.Outermost mark)
    (otherOutermost : term.Outermost other) (above : mark.path <+: other.path) : mark = other := by
  have samePath := otherOutermost.uncovered mark.path mark.node outermost.found outermost.marked above
  have sameNode := outermost.found
  rw [samePath, otherOutermost.found, Option.some.injEq] at sameNode
  obtain ⟨path, node⟩ := mark
  cases samePath
  cases sameNode
  rfl

theorem Outermost.unique {term : Term} {mark other : Mark} {path : Path} (outermost : term.Outermost mark)
    (otherOutermost : term.Outermost other) (above : mark.path <+: path) (otherAbove : other.path <+: path) :
    mark = other := by
  rcases List.prefix_or_prefix_of_prefix above otherAbove with first | second
  · exact outermost.eq_of_path_prefix otherOutermost first
  · exact (otherOutermost.eq_of_path_prefix outermost second).symm

/-- The nodes reported as copies are the outermost marked nodes, each once. Each stands in the group of its own source,
the groups have different sources, each lists its nodes in pre-order, and the groups are in the order of their first
nodes, which is the order in which their sources are first met. So every marked node lies inside exactly one of the
nodes that are reported. Only the nesting limit can keep them from being reported. -/
theorem substitutions_are_outermost_marks (term : Term) :
    ∃ groups : List (Option Int × List Mark),
      let reported := groups.flatMap Prod.snd
      term.substitutions = groups.map (fun group => (group.1, group.2.map Mark.node)) ∧
      (∀ mark, mark ∈ reported ↔ term.Outermost mark) ∧
      (reported.map Mark.path).Nodup ∧
      (∀ group ∈ groups, ∀ mark ∈ group.2, mark.source = group.1) ∧
      (groups.map Prod.fst).Nodup ∧
      (∀ group ∈ groups, (group.2.map Mark.path).Sublist term.preorder) ∧
      (groups.map fun group => group.2.head?.map Mark.path).Sublist (term.preorder.map some) ∧
      (∀ path node, term.at? path = some node → node.origin.marked = true →
        ∃! mark, mark ∈ reported ∧ mark.path <+: path) ∧
      (term.complete = true → term.nesting ≤ nestingLimit →
        Guarded.substitutions term = .ok term.substitutions) := by
  have grouping := isGrouping_groupsBy Mark.source term.rootMarks
  have members (mark : Mark) :
      mark ∈ (groupsBy Mark.source term.rootMarks).flatMap Prod.snd ↔ term.Outermost mark :=
    grouping.perm.mem_iff.trans mem_rootMarks_iff
  have inPreorder := map_path_rootMarks_sublist term
  refine ⟨groupsBy Mark.source term.rootMarks, ?_, members, ?_, grouping.own_key, grouping.distinct, ?_, ?_, ?_, ?_⟩
  · have regrouped : term.substitutions = groupsBy (fun node => node.origin.source) term.markedRoots := rfl
    rw [regrouped, ← map_node_rootMarks, groupsBy_map]
    rfl
  · exact (grouping.perm.map Mark.path).nodup_iff.2 (inPreorder.nodup (nodup_preorder term))
  · intro group member
    exact ((grouping.in_order group member).map Mark.path).trans inPreorder
  · have firsts := grouping.firsts_in_order.map (Option.map Mark.path)
    rw [List.map_map, List.map_map] at firsts
    have inOrder := inPreorder.map some
    rw [List.map_map] at inOrder
    exact firsts.trans inOrder
  · intro path node found marked
    obtain ⟨mark, outermost, above⟩ := exists_outermost found marked
    refine ⟨mark, ⟨(members mark).2 outermost, above⟩, ?_⟩
    rintro other ⟨member, otherAbove⟩
    exact ((members other).1 member).unique outermost otherAbove above
  · intro complete shallow
    rw [Guarded.substitutions, (Visit.everywhere_eq_ok _ _ _).2 ⟨complete, shallow⟩]
    rfl

end Term

end BetaStepper
