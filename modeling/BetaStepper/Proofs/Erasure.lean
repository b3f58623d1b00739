import BetaStepper.Proofs.Reading
import BetaStepper.Term.Redex

/-! # Terms without labels and provenance

`Term.bare` keeps the shape and the names of a term and forgets what numbering and substitution record in it.
Terms with the same bare term have the same reading, the same free names and as many redexes, and substituting into
them gives terms that are alike in turn. -/

namespace BetaStepper.Term

/-- The shape and the names of the term alone. -/
def bare : Term → Term
  | var name _ => var name {}
  | lam param body _ => lam param body.bare {}
  | app func arg _ _ => app func.bare arg.bare none {}
  | hole => hole

/-! ## What a bare term still tells -/

@[simp] theorem isAbstraction_bare (term : Term) : term.bare.isAbstraction = term.isAbstraction := by
  cases term <;> rfl

theorem freeNames_bare (term : Term) : term.bare.freeNames = term.freeNames := by
  induction term with
  | var | hole => rfl
  | lam _ _ _ bodyHypothesis => simp only [bare, freeNames, bodyHypothesis]
  | app _ _ _ _ funcHypothesis argHypothesis => simp only [bare, freeNames, funcHypothesis, argHypothesis]

theorem readUnder_bare (scope : List String) (term : Term) : term.bare.readUnder scope = term.readUnder scope := by
  induction term generalizing scope with
  | var | hole => rfl
  | lam _ _ _ bodyHypothesis => simp only [bare, readUnder, bodyHypothesis]
  | app _ _ _ _ funcHypothesis argHypothesis => simp only [bare, readUnder, funcHypothesis, argHypothesis]

theorem nameless_eq_of_bare_eq {term other : Term} (same : term.bare = other.bare) :
    term.nameless = other.nameless := by
  rw [nameless, nameless, ← readUnder_bare [] term, same, readUnder_bare]

/-- Comparing shapes is comparing bare terms, as long as there are no holes. -/
theorem sameShape_of_bare_eq {term other : Term} (complete : term.complete = true) (same : term.bare = other.bare) :
    term.sameShape other = true := by
  induction term generalizing other with
  | var name origin =>
    cases other <;> simp_all [bare, sameShape]
  | lam param body origin bodyHypothesis =>
    cases other with
    | lam otherParam otherBody otherOrigin =>
      simp only [bare, lam.injEq, and_true] at same
      simp [sameShape, same.1, bodyHypothesis complete same.2]
    | var | app | hole => simp [bare] at same
  | app func arg label origin funcHypothesis argHypothesis =>
    cases other with
    | app otherFunc otherArg otherLabel otherOrigin =>
      simp only [bare, app.injEq, and_true] at same
      simp only [Term.complete, Bool.and_eq_true] at complete
      simp [sameShape, funcHypothesis complete.1 same.1, argHypothesis complete.2 same.2]
    | var | lam | hole => simp [bare] at same
  | hole => simp [Term.complete] at complete

/-! ## What leaves the bare term alone -/

@[simp] theorem bare_bare (term : Term) : term.bare.bare = term.bare := by
  induction term with
  | var | hole => rfl
  | lam _ _ _ bodyHypothesis => simp only [bare, bodyHypothesis]
  | app _ _ _ _ funcHypothesis argHypothesis => simp only [bare, funcHypothesis, argHypothesis]

@[simp] theorem bare_stamp (mark : Bool) (source : Option Int) (term : Term) :
    (term.stamp mark source).bare = term.bare := by
  induction term with
  | var | hole => rfl
  | lam _ _ _ bodyHypothesis => simp only [stamp, bare, bodyHypothesis]
  | app _ _ _ _ funcHypothesis argHypothesis => simp only [stamp, bare, funcHypothesis, argHypothesis]

@[simp] theorem bare_clearMarks (term : Term) : term.clearMarks.bare = term.bare := by
  induction term with
  | var | hole => rfl
  | lam _ _ _ bodyHypothesis => simp only [clearMarks, bare, bodyHypothesis]
  | app _ _ _ _ funcHypothesis argHypothesis => simp only [clearMarks, bare, funcHypothesis, argHypothesis]

theorem bare_numberFrom (next : Nat) (term : Term) : (term.numberFrom next).1.bare = term.bare := by
  induction term generalizing next with
  | var | hole => rfl
  | lam _ _ _ bodyHypothesis => simp only [numberFrom, bare, bodyHypothesis]
  | app _ _ _ _ funcHypothesis argHypothesis => simp only [numberFrom, bare, funcHypothesis, argHypothesis]

@[simp] theorem bare_number (term : Term) : term.number.bare = term.bare := bare_numberFrom 1 term

@[simp] theorem bare_prepared (term : Term) : term.prepared.bare = term.bare := by
  rw [prepared, bare_number, bare_clearMarks]

/-! ## Substitution into terms that are alike -/

theorem freeNames_eq_of_bare_eq {term other : Term} (same : term.bare = other.bare) :
    term.freeNames = other.freeNames := by
  rw [← freeNames_bare term, same, freeNames_bare]

theorem renamed_eq_of_bare_eq {body otherBody replacement other : Term} (sameBody : body.bare = otherBody.bare)
    (same : replacement.bare = other.bare) (param name : String) :
    renamed param body name replacement = renamed param otherBody name other := by
  rw [renamed, renamed, freeNames_eq_of_bare_eq sameBody, freeNames_eq_of_bare_eq same]

/-- Which names substitution meets, and so which binders it renames, does not depend on labels or provenance. -/
theorem bare_substitute_congr {term otherTerm replacement other : Term} (sameTerm : term.bare = otherTerm.bare)
    (same : replacement.bare = other.bare) (name : String) (mark otherMark : Bool)
    (source otherSource : Option Int) :
    (term.substitute name replacement mark source).bare =
      (otherTerm.substitute name other otherMark otherSource).bare := by
  induction term using renamingInduction
    generalizing otherTerm replacement other name mark otherMark source otherSource with
  | var own _ =>
    cases otherTerm with
    | var =>
      simp only [bare, var.injEq, and_true] at sameTerm
      subst sameTerm
      rw [substitute_var, substitute_var]
      split
      · simpa using same
      · rfl
    | lam | app | hole => simp [bare] at sameTerm
  | lam param body _ bodyHypothesis renamedHypothesis =>
    cases otherTerm with
    | lam otherParam otherBody _ =>
      simp only [bare, lam.injEq, and_true] at sameTerm
      obtain ⟨rfl, sameBody⟩ := sameTerm
      -- both sides take the same branch and choose the same new name
      rw [substitute_lam, substitute_lam, freeNames_eq_of_bare_eq same, renamed_eq_of_bare_eq sameBody same]
      split
      · simp only [bare, sameBody]
      · split
        · have sameRenamed (fresh : String) : (body.rename param fresh).bare = (otherBody.rename param fresh).bare :=
            bodyHypothesis sameBody rfl param false false none none
          simp only [bare, renamedHypothesis _ _ (sameRenamed _) same name mark otherMark source otherSource]
        · simp only [bare, bodyHypothesis sameBody same name mark otherMark source otherSource]
    | var | app | hole => simp [bare] at sameTerm
  | app func arg _ _ funcHypothesis argHypothesis =>
    cases otherTerm with
    | app otherFunc otherArg _ _ =>
      simp only [bare, app.injEq, and_true] at sameTerm
      simp only [substitute_app, bare, funcHypothesis sameTerm.1 same name mark otherMark source otherSource,
        argHypothesis sameTerm.2 same name mark otherMark source otherSource]
    | var | lam | hole => simp [bare] at sameTerm
  | hole =>
    cases otherTerm with
    | hole => rw [substitute_hole, substitute_hole]
    | var | lam | app => simp [bare] at sameTerm

end BetaStepper.Term
