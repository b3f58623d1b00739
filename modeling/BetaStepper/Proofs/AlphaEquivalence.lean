import BetaStepper.Proofs.Alpha
import BetaStepper.Proofs.Metadata

/-! # Equality up to bound names is an equivalence

Comparing two terms up to bound names never fails below the nesting limit, and its answer is whether the nameless
readings are equal. Equality of readings is an equivalence, and it does not see labels, provenance or the names of
binders, so the same holds of the comparison. -/

namespace BetaStepper

/-- The terms in which no place is empty. -/
abbrev CompleteTerm := { term : Term // term.complete = true }

/-- Only the first of two terms is visited throughout. -/
theorem Visit.alphaUnder_of_fits {room : Nat} {term : Term} (fits : term.Fits room) (binders : Term.Binders)
    (other : Term) : alphaUnder binders room term other = .ok () := by
  induction term generalizing room binders other with
  | var => cases other <;> rfl
  | lam param body _ bodyHypothesis =>
    obtain ⟨rest, rfl, fitsBody⟩ := Term.fits_lam.1 fits
    cases other with
    | lam otherParam otherBody _ => exact bodyHypothesis fitsBody ((param, otherParam) :: binders) otherBody
    | var | app | hole => rfl
  | app func arg _ _ funcHypothesis argHypothesis =>
    obtain ⟨fitsFunc, rest, rfl, fitsArg⟩ := Term.fits_app.1 fits
    cases other with
    | app otherFunc otherArg _ _ =>
      rw [alphaUnder, funcHypothesis fitsFunc]
      split
      · simp only [bind, Except.bind]
        split
        · exact argHypothesis fitsArg binders otherArg
        · rfl
      · rfl
    | var | lam | hole => rfl
  | hole => exact absurd fits Term.not_fits_hole

theorem Guarded.alphaEq_of_fits {term : Term} (fits : term.Fits nestingLimit) (other : Term) :
    alphaEq term other = .ok (term.alphaEq other) := by
  rw [alphaEq, Visit.alphaUnder_of_fits fits]
  rfl

namespace Term

theorem alphaEq_of_sameShape {term other : Term} (complete : term.complete = true)
    (alike : term.sameShape other = true) : term.alphaEq other = true :=
  (alphaEq_iff_nameless_eq complete other).2 (nameless_eq_of_bare_eq (bare_eq_of_sameShape alike))

/-- Complete terms are equal up to bound names exactly if their nameless readings are equal, and only the nesting limit
can keep the comparison from giving that answer. So it is an equivalence of complete terms, and terms of the same shape
and names are equal in this sense. -/
theorem alphaEq_decides_equal_readings :
    (∀ term other : Term, term.complete = true → other.complete = true →
      (term.alphaEq other = true ↔ term.nameless = other.nameless) ∧
      (term.sameShape other = true → term.alphaEq other = true) ∧
      (term.nesting ≤ nestingLimit →
        Guarded.alphaEq term other = .ok (decide (term.nameless = other.nameless)))) ∧
    Equivalence fun term other : CompleteTerm => term.val.alphaEq other.val = true := by
  constructor
  · intro term other complete _
    have decides := alphaEq_iff_nameless_eq complete other
    refine ⟨decides, alphaEq_of_sameShape complete, ?_⟩
    intro shallow
    have answer : term.alphaEq other = decide (term.nameless = other.nameless) := by
      rw [Bool.eq_iff_iff, decides, decide_eq_true_iff]
    rw [Guarded.alphaEq_of_fits ⟨complete, shallow⟩, answer]
  · have decides (term other : CompleteTerm) :
        term.val.alphaEq other.val = true ↔ term.val.nameless = other.val.nameless :=
      alphaEq_iff_nameless_eq term.property other.val
    simp only [decides]
    exact InvImage.equivalence Eq (fun term : CompleteTerm => term.val.nameless) eq_equivalence

-- The inner binder hides the outer one, so the name of the outer one does not matter unless it is used inside.
example :
    let shadowing : Term := lam "x" (lam "x" (app (var "x" {}) (var "y" {}) none {}) {}) {}
    let apart : Term := lam "y'" (lam "z" (app (var "z" {}) (var "y" {}) none {}) {}) {}
    let captured : Term := lam "y" (lam "z" (app (var "z" {}) (var "y" {}) none {}) {}) {}
    shadowing.alphaEq apart = true ∧ shadowing.alphaEq captured = false := by
  decide

end Term

end BetaStepper
