import BetaStepper.Proofs.Limits

/-! # Labels and provenance do not influence a step

A step looks for its redex by label and copies the marks of what it moves, so labels and marks do pass through it. But
it looks only in the prepared term, and `Term.prepared_eq` says that this is the numbering of the bare term: whatever
labels and marks there were are gone before anything depends on them. The guards do not see them either. -/

namespace BetaStepper

namespace Term

/-- Comparing shapes never overlooks a difference. -/
theorem bare_eq_of_sameShape {term other : Term} (alike : term.sameShape other = true) : term.bare = other.bare := by
  induction term generalizing other with
  | var name origin =>
    cases other with
    | var => simpa [sameShape, bare] using alike
    | lam | app | hole => cases alike
  | lam param body origin bodyHypothesis =>
    cases other with
    | lam otherParam otherBody otherOrigin =>
      simp only [sameShape, Bool.and_eq_true, beq_iff_eq] at alike
      simp only [bare, alike.1, bodyHypothesis alike.2]
    | var | app | hole => cases alike
  | app func arg label origin funcHypothesis argHypothesis =>
    cases other with
    | app otherFunc otherArg otherLabel otherOrigin =>
      simp only [sameShape, Bool.and_eq_true] at alike
      simp only [bare, funcHypothesis alike.1, argHypothesis alike.2]
    | var | lam | hole => cases alike
  | hole => cases alike

theorem isAbstraction_clearMarks (term : Term) : term.clearMarks.isAbstraction = term.isAbstraction := by
  cases term <;> rfl

theorem numberFrom_clearMarks (next : Nat) (term : Term) :
    term.clearMarks.numberFrom next = term.bare.numberFrom next := by
  induction term generalizing next with
  | var | hole => rfl
  | lam _ _ _ bodyHypothesis => simp only [clearMarks, bare, numberFrom, bodyHypothesis]
  | app _ _ _ _ funcHypothesis argHypothesis =>
    -- the old label is not looked at: numbering asks only whether the function is an abstraction
    simp only [clearMarks, bare, numberFrom, isAbstraction_clearMarks, isAbstraction_bare, funcHypothesis,
      argHypothesis]

/-- Clearing the marks and numbering leave nothing of what the term carried besides its shape and names. -/
theorem prepared_eq (term : Term) : term.prepared = term.bare.number := by
  rw [prepared, number, numberFrom_clearMarks, ← number]

theorem step_eq_of_bare_eq {term other : Term} (same : term.bare = other.bare) (label : Option Int) :
    term.step label = other.step label := by
  rw [step, step, prepared_eq, prepared_eq, same]

end Term

/-! ## With guards -/

theorem Visit.everywhere_bare (atHole : Outcome) (room : Nat) (term : Term) :
    everywhere atHole room term.bare = everywhere atHole room term := by
  induction term generalizing room with
  | var | hole => rfl
  | lam _ _ _ bodyHypothesis => simp only [Term.bare, everywhere, bodyHypothesis]
  | app _ _ _ _ funcHypothesis argHypothesis => simp only [Term.bare, everywhere, funcHypothesis, argHypothesis]

theorem Visit.all_eq_of_bare_eq {term other : Term} (same : term.bare = other.bare) (room : Nat) :
    all room term = all room other := by
  rw [all, all, ← everywhere_bare, same, everywhere_bare]

namespace Guarded

/-- The guards of a step and all that it computes depend on the bare term alone. -/
theorem step_eq (term : Term) (label : Option Int) :
    step term label =
      (Visit.all nestingLimit term.bare >>= fun _ => reduceAt term.bare.number label >>= number) := by
  have sameVisit : Visit.all nestingLimit term.bare = Visit.all nestingLimit term :=
    Visit.all_eq_of_bare_eq (Term.bare_bare term) nestingLimit
  have sameCleared : Visit.all nestingLimit term.clearMarks = Visit.all nestingLimit term :=
    Visit.all_eq_of_bare_eq (Term.bare_clearMarks term) nestingLimit
  rw [step, clearMarks, sameVisit, ← Term.prepared_eq]
  cases visited : Visit.all nestingLimit term with
  | error fault => rfl
  | ok _ =>
    -- the marks are cleared, and numbering visits the same nodes once more
    have numbered : number term.clearMarks = .ok term.prepared := by
      rw [number, sameCleared, visited]
      rfl
    simp only [bind, Except.bind, pure, Except.pure] at numbered ⊢
    rw [numbered]

theorem step_eq_of_bare_eq {term other : Term} (same : term.bare = other.bare) (label : Option Int) :
    step term label = step other label := by
  rw [step_eq, step_eq, same]

end Guarded

namespace Term

/-- Terms of the same shape and names step alike, whatever labels and marks they carry and whichever redex is asked
for: to the same term, with the same labels and marks in it, or to the same failure. -/
theorem alike_terms_step_alike {term other : Term} (alike : term.sameShape other = true) (label : Option Int) :
    term.step label = other.step label ∧ Guarded.step term label = Guarded.step other label := by
  have same := bare_eq_of_sameShape alike
  exact ⟨step_eq_of_bare_eq same label, Guarded.step_eq_of_bare_eq same label⟩

/-- The term `(λx.λy.x (x y)) y` after a step that left marks, with one label on two applications and none on the
redex. -/
def misleading : Term :=
  app (lam "x" (lam "y" (app (var "x" ⟨true, some 4⟩) (app (var "x" {}) (var "y" {}) (some 1) {}) (some 1) {}) {}) {})
    (var "y" ⟨true, none⟩) none ⟨false, some 9⟩

theorem misleading_steps_like_numbered :
    misleading.sameShape misleading.prepared = true ∧ misleading ≠ misleading.prepared ∧
      misleading.step (some 1) = misleading.prepared.step (some 1) ∧
      Guarded.step misleading (some 1) = Guarded.step misleading.prepared (some 1) := by
  have alike : misleading.sameShape misleading.prepared = true := by decide
  obtain ⟨sameStep, sameGuarded⟩ := alike_terms_step_alike alike (some 1)
  exact ⟨alike, by decide, sameStep, sameGuarded⟩

end Term

end BetaStepper
