import BetaStepper.Proofs.Names
import BetaStepper.Proofs.Replay

/-! # Rows of steps

`Term.steps?` takes one step after another, each with a label that is in range when its turn comes. What a single step
keeps, a row of steps keeps, and the current term of any session is such a row away from the term that its source
denotes: `Session.reachable_current`. So whatever is true of parsed terms and kept by steps is true of every term that
a session shows. -/

namespace BetaStepper

namespace Term

/-- The term after steps with the given labels, if each is in range when its turn comes. -/
def steps? (term : Term) : List Int → Option Term
  | [] => some term
  | label :: labels =>
    if 1 ≤ label ∧ label ≤ term.redexCount then (term.step (some label)).steps? labels else none

theorem steps?_append (term : Term) (labels more : List Int) :
    term.steps? (labels ++ more) = (term.steps? labels).bind (·.steps? more) := by
  induction labels generalizing term with
  | nil => rfl
  | cons label labels labelsHypothesis =>
    rw [List.cons_append, steps?, steps?]
    split
    · exact labelsHypothesis _
    · rfl

theorem steps?_induction {motive : Term → Prop} (kept : ∀ term label, motive term → motive (term.step (some label)))
    {term result : Term} {labels : List Int} (start : motive term) (stepped : term.steps? labels = some result) :
    motive result := by
  induction labels generalizing term with
  | nil =>
    cases stepped
    exact start
  | cons label labels labelsHypothesis =>
    rw [steps?] at stepped
    split at stepped
    · exact labelsHypothesis (kept term label start) stepped
    · cases stepped

theorem complete_steps? {term result : Term} {labels : List Int} (complete : term.complete = true)
    (stepped : term.steps? labels = some result) : result.complete = true := by
  apply steps?_induction (motive := fun term => term.complete = true) _ complete stepped
  intro term label complete
  exact complete_step complete (some label)

theorem namedBy_steps? {allowed : String → Bool} (primable : Primable allowed) {term result : Term} {labels : List Int}
    (named : term.namedBy allowed = true) (stepped : term.steps? labels = some result) :
    result.namedBy allowed = true := by
  apply steps?_induction (motive := fun term => term.namedBy allowed = true) _ named stepped
  intro term label named
  exact namedBy_step primable named (some label)

theorem number_steps? {term result : Term} {labels : List Int} (numbered : term.number = term)
    (stepped : term.steps? labels = some result) : result.number = result := by
  apply steps?_induction (motive := fun term => term.number = term) _ numbered stepped
  intro term label _
  exact number_step term (some label)

end Term

namespace Session

/-- The current term of a session is where the recorded labels lead from the term that its source denotes. -/
theorem steps?_of_replay {text : String} {labels : List Int} {session : Session}
    (replayed : replay text labels = .ok session) :
    ∃ term last, Term.parse text = .ok term ∧ session.current = some last ∧
      term.number.steps? labels = some last ∧ last.Fits nestingLimit := by
  induction labels using List.reverseRecOn generalizing session with
  | nil =>
    rw [replay_nil] at replayed
    obtain ⟨term, numbered, parsed, numbers, rfl⟩ := load_eq_ok.1 replayed
    obtain ⟨fits, rfl⟩ := Guarded.number_eq_ok.1 numbers
    exact ⟨term, term.number, parsed, rfl, rfl, fits.of_bare_eq (Term.bare_number term).symm⟩
  | append_singleton labels label labelsHypothesis =>
    obtain ⟨before, replayedBefore, accepted⟩ := replay_concat.1 replayed
    obtain ⟨term, last, parsed, isCurrent, stepped, _⟩ := labelsHypothesis replayedBefore
    obtain ⟨step, next, found, low, high, steppedNext, rfl⟩ := reduce_eq_ok accepted
    obtain ⟨rfl, -, fits⟩ := Guarded.step_eq_ok steppedNext
    -- the step was taken from the term that was current before it
    rw [current, found, Option.map_some, Option.some.injEq] at isCurrent
    subst isCurrent
    refine ⟨term, step.term.step (some label), parsed, by simp [current], ?_, fits⟩
    rw [Term.steps?_append, stepped, Option.bind_some, Term.steps?, if_pos ⟨low, high⟩, Term.steps?]

/-- A session with a current term has a source, and steps lead from what the source denotes to the current term. -/
theorem reachable_current {operations : List Operation} {last : Term}
    (isCurrent : (performAll operations).current = some last) :
    ∃ source term labels, (performAll operations).source = some source ∧ Term.parse source = .ok term ∧
      term.number.steps? labels = some last ∧ last.Fits nestingLimit := by
  rcases replayable_performAll operations with new | ⟨source, labels, stripped, replayed⟩
  · rw [new] at isCurrent
    cases isCurrent
  · obtain ⟨term, reached, parsed, alsoCurrent, stepped, fits⟩ := steps?_of_replay replayed
    rw [isCurrent, Option.some.injEq] at alsoCurrent
    subst alsoCurrent
    obtain ⟨sameSource, _⟩ := history_of_replay replayed
    rw [stripped] at sameSource
    exact ⟨source, term, labels, sameSource, parsed, stepped, fits⟩

end Session

end BetaStepper
