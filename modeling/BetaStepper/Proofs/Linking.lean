import BetaStepper.Proofs.Limits
import BetaStepper.Proofs.Tracing

/-! # The links of a step

Linking looks at a step from outside: it finds the redex again by its label in the term before, the uses of the
parameter in its body, and the copies of the argument by the marks in the term after. `Links.Exact` says that these
three searches agree with what the step did. They do so because substitution marks its copies where the uses were and
marks nothing else, which `traced_step` carries over to the whole term. -/

namespace BetaStepper

/-- The paths inside the body at which contraction puts copies of the argument. -/
def Redex.usePaths (redex : Redex) : List Path := redex.body.usePaths redex.param

/-- The links of a step from `before` to `after` that contracts the redex at `place`, which has the given label. -/
structure Links.Exact (before after : Term) (label : Int) (place : Place) (links : Links) : Prop where
  redex_found : links.redex = some place.redex
  redex_at : before.at? place.path = some place.redex.term
  /-- Up to labels and marks the step has replaced this redex by its contractum and nothing else. -/
  contracted : after.bare = (before.replaceAt place.path (place.redex.contractum (some label))).bare
  same_length : links.copies.length = links.parameterUses.length
  uses_at : links.parameterUses.map some = place.redex.usePaths.map place.redex.body.at?
  /-- Each copy stands in the place of its use. -/
  copies_at : links.copies.map some = place.redex.usePaths.map fun use => after.at? (place.path ++ use)
  copies_alike : ∀ copy ∈ links.copies, ∃ arg, links.argument = some arg ∧ copy.sameShape arg = true
  argument_used : links.argumentUsed = !links.parameterUses.isEmpty
  has_copies : links.hasCopies = !links.parameterUses.isEmpty
  /-- The marked nodes are those inside the copies. -/
  marked_iff : ∀ path node, after.at? path = some node →
    (node.origin.marked = true ↔ ∃ use ∈ place.redex.usePaths, place.path ++ use <+: path)
  marked_source : ∀ path node, after.at? path = some node → node.origin.marked = true →
    node.origin.source = some label
  only_source : ∀ group ∈ after.substitutions, group.1 = some label

/-- Links are exact whenever the marks in the term after trace the argument of the redex found in the term before. -/
theorem Links.exact_of_traced {before after : Term} {label : Int} {place : Place} (complete : before.complete = true)
    (labelled : before.labelledPlace? (some label) = some place)
    (contracted : after.bare = (before.replaceAt place.path (place.redex.contractum (some label))).bare)
    (traced : Term.Traced (some label) place.redex.arg.bare after (place.redex.usePaths.map (place.path ++ ·))) :
    (Links.between before after (some label)).Exact before after label place := by
  have redexAt := Term.at?_of_mem_redexPlaces (List.mem_of_find?_eq_some labelled)
  have found : (Links.between before after (some label)).redex = some place.redex := by
    rw [Links.between, Term.redexLabelled?_eq, labelled, Option.map_some]
  have uses : (Links.between before after (some label)).parameterUses = place.redex.parameterUses := by
    rw [Links.parameterUses, found]
  have usesAt : place.redex.parameterUses.map some = place.redex.usePaths.map place.redex.body.at? :=
    Term.map_uses place.redex.param place.redex.body
  have copiesAt : (Links.between before after (some label)).copies.map some =
      place.redex.usePaths.map fun use => after.at? (place.path ++ use) := by
    rw [Links.between, traced.copiesFrom_eq, traced.map_markedRoots, List.map_map]
    rfl
  -- the uses and the copies stand at the same paths, the ones in the body and the others in the term after
  have sameLength : (Links.between before after (some label)).copies.length = place.redex.parameterUses.length := by
    have copiesLength := congrArg List.length copiesAt
    have usesLength := congrArg List.length usesAt
    simp only [List.length_map] at copiesLength usesLength
    rw [copiesLength, usesLength]
  constructor
  case redex_found => exact found
  case redex_at => exact redexAt
  case contracted => exact contracted
  case same_length => rw [uses, sameLength]
  case uses_at => rw [uses, usesAt]
  case copies_at => exact copiesAt
  case copies_alike =>
    intro copy member
    rw [Links.between, traced.copiesFrom_eq] at member
    have alike := (traced.of_mem_markedRoots member).2
    have completeCopy : copy.complete = true := by
      rw [← Term.complete_bare, alike, Term.complete_bare]
      exact Term.complete_arg_of_at? complete redexAt
    refine ⟨place.redex.arg, ?_, Term.sameShape_of_bare_eq completeCopy alike⟩
    rw [Links.argument, found, Option.map_some]
  case argument_used =>
    rw [uses, Links.argumentUsed, found]
    exact Term.occursFree_eq place.redex.param place.redex.body
  case has_copies =>
    rw [uses, Links.hasCopies, Bool.eq_iff_iff]
    simp [← List.length_eq_zero_iff, sameLength]
  case marked_iff =>
    intro path node foundNode
    rw [traced.marked_iff foundNode]
    simp
  case marked_source =>
    intro path node foundNode
    exact traced.source_eq foundNode
  case only_source =>
    intro group
    exact traced.source_of_mem_substitutions

namespace Term

/-- Redexes at the same position of terms that are alike. -/
theorem place_bare_eq {term other : Term} (same : term.bare = other.bare) {position : Nat} {place otherPlace : Place}
    (found : term.redexPlaces[position]? = some place) (otherFound : other.redexPlaces[position]? = some otherPlace) :
    place.bare = otherPlace.bare := by
  have places : (term.redexPlaces.map Place.bare)[position]? = (other.redexPlaces.map Place.bare)[position]? := by
    rw [← redexPlaces_bare, same, redexPlaces_bare]
  rw [List.getElem?_map, List.getElem?_map, found, otherFound] at places
  exact Option.some.inj places

/-- After a step the marked nodes are the copies of the argument, each in the place of a use. -/
theorem traced_step {term : Term} {label : Int} {place : Place} (complete : term.complete = true) (low : 1 ≤ label)
    (high : label ≤ term.redexCount) (position : term.redexPlaces[(label - 1).toNat]? = some place) :
    Traced (some label) place.redex.arg.bare (term.step (some label)) (place.redex.usePaths.map (place.path ++ ·)) ∧
      (term.step (some label)).bare = (term.replaceAt place.path (place.redex.contractum (some label))).bare := by
  obtain ⟨⟨path, redex⟩, preparedPosition, _, stepped⟩ := step_of_inRange low high
  -- the step looks for the redex in a cleared and renumbered copy, where it stands at the same path
  have alike := place_bare_eq (bare_prepared term).symm position preparedPosition
  simp only [Place.bare, Place.mk.injEq, Redex.mk.injEq, and_true, true_and] at alike
  obtain ⟨rfl, sameParam, sameBody, sameArg⟩ := alike
  have clean := uniform_prepared term
  have redexAt := at?_of_mem_redexPlaces (List.mem_of_getElem? preparedPosition)
  have cleanRedex : redex.term.Uniform {} := clean.at? redexAt
  have completePrepared : term.prepared.complete = true := by
    rw [← complete_bare, bare_prepared, complete_bare, complete]
  constructor
  · rw [stepped, sameArg, Redex.usePaths, sameParam, usePaths_eq_of_bare_eq sameBody]
    have contracted := traced_substitute cleanRedex.2.1.2 cleanRedex.2.2
      (complete_arg_of_at? completePrepared redexAt) redex.param (some label)
    exact (contracted.replaceAt clean redexAt).numberFrom 1
  · rw [stepped, bare_number, bare_replaceAt, bare_replaceAt, bare_prepared, Redex.contractum, Redex.contractum,
      sameParam, bare_substitute_congr sameBody sameArg]

/-- Every step of a numbered term is linked exactly, and looking the links up fails only if the step itself does. -/
theorem links_of_step_exact {term : Term} {label : Int} (complete : term.complete = true)
    (numbered : term.number = term) (low : 1 ≤ label) (high : label ≤ term.redexCount) :
    ∃ place, term.redexPlaces[(label - 1).toNat]? = some place ∧
      (Links.between term (term.step (some label)) (some label)).Exact term (term.step (some label)) label place ∧
      ∀ result, Guarded.step term (some label) = .ok result →
        Guarded.fullLinks term result (some label) =
          .ok (Links.between term (term.step (some label)) (some label)) := by
  obtain ⟨place, position, labelled⟩ := labelledPlace?_of_inRange numbered low high
  obtain ⟨traced, contracted⟩ := traced_step complete low high position
  refine ⟨place, position, Links.exact_of_traced complete labelled contracted traced, ?_⟩
  intro result stepped
  exact Guarded.fullLinks_of_step stepped

/-- The term `(λx.λy.x (x y)) y`, whose step copies the argument twice and renames a binder. -/
def capturing : Term :=
  app (lam "x" (lam "y" (app (var "x" {}) (app (var "x" {}) (var "y" {}) none {}) none {}) {}) {})
    (var "y" {}) (some 1) {}

theorem links_of_capturing_step :
    ∃ place, capturing.redexPlaces[((1 : Int) - 1).toNat]? = some place ∧
      (Links.between capturing (capturing.step (some 1)) (some 1)).Exact capturing (capturing.step (some 1)) 1 place ∧
      ∀ result, Guarded.step capturing (some 1) = .ok result →
        Guarded.fullLinks capturing result (some 1) =
          .ok (Links.between capturing (capturing.step (some 1)) (some 1)) :=
  links_of_step_exact (by decide) (by decide) (by decide) (by decide)

end Term

end BetaStepper
