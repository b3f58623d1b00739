import BetaStepper.Proofs.Alpha
import BetaStepper.Proofs.BetaStep
import BetaStepper.Proofs.Confluence
import BetaStepper.Proofs.Runs

/-! # The choice of redexes does not matter

Whichever redexes are contracted, and in whatever order, the results can be reduced further until they differ only in
bound names. The reading of a term turns steps into β-steps, and every β-step of a reading is a step with some label in
range, so confluence comes back from nameless terms. A session is such a row of steps from the term that its source
denotes, whatever was undone in between. -/

namespace BetaStepper

open Relation (ReflTransGen)

namespace Term

/-! ## Steps and β-steps -/

theorem beta_of_steps? {term result : Term} {labels : List Int} (stepped : term.steps? labels = some result) :
    ReflTransGen Nameless.Beta term.nameless result.nameless := by
  induction labels generalizing term with
  | nil =>
    cases stepped
    exact .refl
  | cons label labels labelsHypothesis =>
    rw [steps?] at stepped
    split at stepped
    next inRange =>
      have step : term.nameless.Beta (term.step (some label)).nameless :=
        (beta_nameless_iff_step term _).2 ⟨label, inRange.1, inRange.2, rfl⟩
      exact .head step (labelsHypothesis stepped)
    next => cases stepped

theorem steps?_of_beta {term : Term} {goal : Nameless} (reduces : ReflTransGen Nameless.Beta term.nameless goal) :
    ∃ labels result, term.steps? labels = some result ∧ result.nameless = goal := by
  generalize start : term.nameless = reading at reduces
  induction reduces using ReflTransGen.head_induction_on generalizing term with
  | refl => exact ⟨[], term, rfl, start⟩
  | head step _ restHypothesis =>
    rw [← start] at step
    -- the labels count all redexes, so the one that the β-step contracts has a label in range
    obtain ⟨label, low, high, stepped⟩ := (beta_nameless_iff_step term _).1 step
    obtain ⟨labels, result, steppedRest, same⟩ := restHypothesis stepped
    exact ⟨label :: labels, result, by rw [steps?, if_pos ⟨low, high⟩, steppedRest], same⟩

theorem nameless_eq_of_normal {term : Term} {goal : Nameless} (normal : term.isNormal = true)
    (reduces : ReflTransGen Nameless.Beta term.nameless goal) : goal = term.nameless := by
  rcases reduces.cases_head with same | ⟨next, step, _⟩
  · exact same.symm
  · exact absurd step ((isNormal_iff_no_beta term).1 normal next)

/-! ## Bringing steps together -/

variable {term first second : Term} {labels others : List Int}

theorem steps?_join (complete : term.complete = true) (firstSteps : term.steps? labels = some first)
    (secondSteps : term.steps? others = some second) :
    ∃ more otherMore last otherLast, first.steps? more = some last ∧ second.steps? otherMore = some otherLast ∧
      last.alphaEq otherLast = true := by
  obtain ⟨goal, firstGoal, secondGoal⟩ :=
    Nameless.beta_confluent (beta_of_steps? firstSteps) (beta_of_steps? secondSteps)
  obtain ⟨more, last, steppedLast, lastReads⟩ := steps?_of_beta firstGoal
  obtain ⟨otherMore, otherLast, steppedOther, otherReads⟩ := steps?_of_beta secondGoal
  have completeLast := complete_steps? (complete_steps? complete firstSteps) steppedLast
  refine ⟨more, otherMore, last, otherLast, steppedLast, steppedOther, ?_⟩
  rw [alphaEq_iff_nameless_eq completeLast, lastReads, otherReads]

/-- A term has at most one normal form up to bound names. -/
theorem alphaEq_of_normal (complete : term.complete = true) (firstSteps : term.steps? labels = some first)
    (secondSteps : term.steps? others = some second) (firstNormal : first.isNormal = true)
    (secondNormal : second.isNormal = true) : first.alphaEq second = true := by
  obtain ⟨goal, firstGoal, secondGoal⟩ :=
    Nameless.beta_confluent (beta_of_steps? firstSteps) (beta_of_steps? secondSteps)
  rw [alphaEq_iff_nameless_eq (complete_steps? complete firstSteps), ← nameless_eq_of_normal firstNormal firstGoal,
    ← nameless_eq_of_normal secondNormal secondGoal]

end Term

namespace Session

theorem current_of_isNormal {session : Session} (normal : session.isNormal = true) :
    ∃ term, session.current = some term ∧ term.isNormal = true := by
  rw [isNormal, Bool.and_eq_true, redexCount] at normal
  cases isCurrent : session.current with
  | none =>
    rw [current, Option.map_eq_none_iff, List.getLast?_eq_none_iff] at isCurrent
    simp [loaded, isCurrent] at normal
  | some term =>
    rw [isCurrent] at normal
    exact ⟨term, rfl, normal.2⟩

/-- Two rows of steps from the same term can be continued until they differ only in bound names, and normal forms that
they lead to differ in nothing else. So two sessions with the same source that have both reached a normal form show the
same term up to bound names, whichever redexes were chosen. -/
theorem choice_of_redexes_does_not_matter :
    (∀ (term first second : Term) (labels others : List Int), term.complete = true →
      term.steps? labels = some first → term.steps? others = some second →
      (∃ more otherMore last otherLast, first.steps? more = some last ∧ second.steps? otherMore = some otherLast ∧
        last.alphaEq otherLast = true) ∧
      (first.isNormal = true → second.isNormal = true → first.alphaEq second = true)) ∧
    ∀ operations otherOperations : List Operation,
      (performAll operations).source = (performAll otherOperations).source →
      (performAll operations).isNormal = true → (performAll otherOperations).isNormal = true →
      ∃ term other, (performAll operations).current = some term ∧ (performAll otherOperations).current = some other ∧
        term.alphaEq other = true := by
  constructor
  · intro term first second labels others complete firstSteps secondSteps
    exact ⟨Term.steps?_join complete firstSteps secondSteps, Term.alphaEq_of_normal complete firstSteps secondSteps⟩
  · intro operations otherOperations sameSource normal otherNormal
    obtain ⟨first, isCurrent, firstNormal⟩ := current_of_isNormal normal
    obtain ⟨second, otherCurrent, secondNormal⟩ := current_of_isNormal otherNormal
    obtain ⟨source, term, labels, hasSource, parsed, firstSteps, _⟩ := reachable_current isCurrent
    obtain ⟨otherSource, otherTerm, others, otherHasSource, otherParsed, secondSteps, _⟩ :=
      reachable_current otherCurrent
    -- both sessions start from the same term, because parsing is a function of the source
    rw [hasSource, otherHasSource, Option.some.injEq] at sameSource
    subst sameSource
    rw [parsed] at otherParsed
    cases otherParsed
    have complete : term.number.complete = true := by
      rw [← Term.complete_bare, Term.bare_number, Term.complete_bare]
      exact Term.complete_of_namedBy (Term.namedBy_of_parse parsed)
    exact ⟨first, second, isCurrent, otherCurrent,
      Term.alphaEq_of_normal complete firstSteps secondSteps firstNormal secondNormal⟩

end Session

end BetaStepper
