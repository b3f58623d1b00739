import BetaStepper.Proofs.Reading

/-! # Equality up to bound names

Comparing two terms under pairs of binders is comparing their readings, each under its own side of the pairs. The
comparison of two variables is where this is decided: `Binders.agree` looks for the nearest binder on both sides and
asks that they be counterparts, and readings are equal if both binders are equally far away. -/

namespace BetaStepper

namespace Nameless

theorem shift_injective (cutoff : Nat) {term other : Nameless} (same : term.shift cutoff = other.shift cutoff) :
    term = other := by
  rw [← instantiate_shift cutoff hole term, same, instantiate_shift]

/-- Nothing that was raised over a binder refers to it. -/
theorem shift_ne_bound_zero (term : Nameless) : term.shift 0 ≠ bound 0 := by
  cases term <;> simp [shift]

end Nameless

namespace Term

open Nameless (ofName)

theorem Binders.agree_iff (binders : Binders) (name other : String) :
    binders.agree name other = true ↔
      ofName (binders.map Prod.fst) name = ofName (binders.map Prod.snd) other := by
  induction binders with
  | nil => simp [agree, ofName]
  | cons binder binders bindersHypothesis =>
    obtain ⟨param, otherParam⟩ := binder
    rw [List.map_cons, List.map_cons, ofName_cons, ofName_cons]
    -- the innermost pair binds both variables, one of them or none
    by_cases here : name = param
    · by_cases otherHere : other = otherParam
      · simp [agree, enter, here, otherHere]
      · have apart : Nameless.bound 0 ≠ (ofName (binders.map Prod.snd) other).shift 0 :=
          Ne.symm (Nameless.shift_ne_bound_zero _)
        cases found : List.find? (·.2 == other) binders <;>
          simp [agree, enter, here, otherHere, Ne.symm otherHere, apart, found]
    · by_cases otherHere : other = otherParam
      · have apart := Nameless.shift_ne_bound_zero (ofName (binders.map Prod.fst) name)
        cases found : List.find? (·.1 == name) binders <;>
          simp [agree, enter, here, otherHere, Ne.symm here, apart, found]
      · have skipped : Binders.agree ((param, otherParam) :: binders) name other =
            Binders.agree binders name other := by
          simp [agree, Ne.symm here, Ne.symm otherHere]
        rw [skipped, bindersHypothesis]
        simp only [enter, here, otherHere, if_false]
        exact ⟨fun same => by rw [same], Nameless.shift_injective 0⟩

/-- A variable reads as a variable. -/
theorem ofName_ne (scope : List String) (name : String) :
    (∀ body, ofName scope name ≠ .lam body) ∧ (∀ func arg, ofName scope name ≠ .app func arg) ∧
      ofName scope name ≠ .hole := by
  rw [ofName]
  cases scope.idxOf? name <;> simp

theorem alphaUnder_iff (binders : Binders) {term : Term} (complete : term.complete = true) (other : Term) :
    term.alphaUnder binders other = true ↔
      term.readUnder (binders.map Prod.fst) = other.readUnder (binders.map Prod.snd) := by
  induction term generalizing binders other with
  | var name origin =>
    obtain ⟨notLam, notApp, notHole⟩ := ofName_ne (binders.map Prod.fst) name
    cases other with
    | var otherName _ => exact Binders.agree_iff binders name otherName
    | lam => simp [alphaUnder, readUnder, notLam]
    | app => simp [alphaUnder, readUnder, notApp]
    | hole => simp [alphaUnder, readUnder, notHole]
  | lam param body origin bodyHypothesis =>
    cases other with
    | lam otherParam otherBody _ =>
      simpa [alphaUnder, readUnder] using bodyHypothesis ((param, otherParam) :: binders) complete otherBody
    | var otherName _ =>
      have notLam := (ofName_ne (binders.map Prod.snd) otherName).1
      simp [alphaUnder, readUnder, Ne.symm (notLam _)]
    | app | hole => simp [alphaUnder, readUnder]
  | app func arg label origin funcHypothesis argHypothesis =>
    simp only [Term.complete, Bool.and_eq_true] at complete
    cases other with
    | app otherFunc otherArg _ _ =>
      simp [alphaUnder, readUnder, funcHypothesis binders complete.1, argHypothesis binders complete.2]
    | var otherName _ =>
      have notApp := (ofName_ne (binders.map Prod.snd) otherName).2.1
      simp [alphaUnder, readUnder, Ne.symm (notApp _ _)]
    | lam | hole => simp [alphaUnder, readUnder]
  | hole => cases complete

/-- Terms without holes are equal up to bound names exactly if their readings are equal. -/
theorem alphaEq_iff_nameless_eq {term : Term} (complete : term.complete = true) (other : Term) :
    term.alphaEq other = true ↔ term.nameless = other.nameless :=
  alphaUnder_iff [] complete other

end Term

end BetaStepper
