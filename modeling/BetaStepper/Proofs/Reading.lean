import BetaStepper.Proofs.Nameless
import BetaStepper.Proofs.Renaming
import Mathlib.Logic.Function.Basic

/-! # The nameless reading of a term

`Term.nameless` forgets labels and provenance and replaces each bound occurrence by the distance to the nearest
enclosing binder of its name. To reason about it, the scope is traded for a valuation, which gives every name that
is free in the term a nameless term. Substitution is then an update of the valuation, `readWith_substitute`: the one
place where renaming has to be looked at, and the law from which contraction follows. -/

namespace BetaStepper

/-- What a name denotes below the binders in `scope`, innermost first. -/
def Nameless.ofName (scope : List String) (name : String) : Nameless :=
  match scope.idxOf? name with
  | some distance => .bound distance
  | none => .free name

namespace Term

def readUnder (scope : List String) : Term → Nameless
  | var name _ => .ofName scope name
  | lam param body _ => .lam (body.readUnder (param :: scope))
  | app func arg _ _ => .app (func.readUnder scope) (arg.readUnder scope)
  | hole => .hole

/-- The nameless reading of a term that stands by itself. -/
def nameless (term : Term) : Nameless := term.readUnder []

/-! ## Reading with a valuation -/

/-- What the names denote one binder further inside. -/
def enter (param : String) (valuation : String → Nameless) : String → Nameless := fun name =>
  if name = param then .bound 0 else (valuation name).shift 0

def readWith (valuation : String → Nameless) : Term → Nameless
  | var name _ => valuation name
  | lam param body _ => .lam (body.readWith (enter param valuation))
  | app func arg _ _ => .app (func.readWith valuation) (arg.readWith valuation)
  | hole => .hole

theorem ofName_cons (param : String) (scope : List String) :
    Nameless.ofName (param :: scope) = enter param (Nameless.ofName scope) := by
  funext name
  by_cases same : name = param
  · simp [Nameless.ofName, enter, List.idxOf?_cons, same]
  · have apart : (param == name) = false := by simpa using Ne.symm same
    cases found : scope.idxOf? name <;>
      simp [Nameless.ofName, enter, List.idxOf?_cons, same, apart, found, Nameless.shift]

theorem readUnder_eq_readWith (scope : List String) (term : Term) :
    term.readUnder scope = term.readWith (Nameless.ofName scope) := by
  induction term generalizing scope with
  | var | hole => rfl
  | lam param body _ bodyHypothesis => simp only [readUnder, readWith, bodyHypothesis, ofName_cons]
  | app func arg _ _ funcHypothesis argHypothesis =>
    simp only [readUnder, readWith, funcHypothesis, argHypothesis]

/-- Only the free names of a term matter for its reading. -/
theorem readWith_congr {valuation other : String → Nameless} (term : Term)
    (agree : ∀ name ∈ term.freeNames, valuation name = other name) :
    term.readWith valuation = term.readWith other := by
  induction term generalizing valuation other with
  | var name _ => exact agree name (by simp)
  | lam param body _ bodyHypothesis =>
    simp only [readWith]
    rw [bodyHypothesis]
    intro name member
    by_cases same : name = param
    · simp [enter, same]
    · simp [enter, same, agree name (by simp [member, same])]
  | app func arg _ _ funcHypothesis argHypothesis =>
    simp only [readWith]
    rw [funcHypothesis (fun name member => agree name (by simp [member])),
      argHypothesis (fun name member => agree name (by simp [member]))]
  | hole => rfl

theorem readWith_shift (cutoff : Nat) (valuation : String → Nameless) (term : Term) :
    term.readWith (fun name => (valuation name).shift cutoff) = (term.readWith valuation).shift cutoff := by
  induction term generalizing cutoff valuation with
  | var | hole => rfl
  | lam param body _ bodyHypothesis =>
    have entered : enter param (fun name => (valuation name).shift cutoff) =
        fun name => (enter param valuation name).shift (cutoff + 1) := by
      funext name
      by_cases same : name = param
      · simp [enter, same, Nameless.shift]
      · simp [enter, same, Nameless.shift_shift (Nat.zero_le cutoff)]
    simp only [readWith, entered, bodyHypothesis, Nameless.shift]
  | app func arg _ _ funcHypothesis argHypothesis =>
    simp only [readWith, funcHypothesis, argHypothesis, Nameless.shift]

theorem readWith_instantiate (depth : Nat) (arg : Nameless) (valuation : String → Nameless) (term : Term) :
    term.readWith (fun name => (valuation name).instantiate depth arg) =
      (term.readWith valuation).instantiate depth arg := by
  induction term generalizing depth arg valuation with
  | var | hole => rfl
  | lam param body _ bodyHypothesis =>
    have entered : enter param (fun name => (valuation name).instantiate depth arg) =
        fun name => (enter param valuation name).instantiate (depth + 1) (arg.shift 0) := by
      funext name
      by_cases same : name = param
      · simp [enter, same, Nameless.instantiate]
      · simp [enter, same, Nameless.shift_instantiate (Nat.zero_le depth)]
    simp only [readWith, entered, bodyHypothesis, Nameless.instantiate]
  | app func operand _ _ funcHypothesis operandHypothesis =>
    simp only [readWith, funcHypothesis, operandHypothesis, Nameless.instantiate]

/-- A binder that binds nothing in a term only raises the indices that point beyond it. -/
theorem readWith_enter_of_not_mem {param : String} {term : Term} (absent : param ∉ term.freeNames)
    (valuation : String → Nameless) :
    term.readWith (enter param valuation) = (term.readWith valuation).shift 0 := by
  rw [← readWith_shift]
  apply readWith_congr
  intro name member
  have apart : name ≠ param := fun same => absent (same ▸ member)
  simp [enter, apart]

/-! ## Substitution -/

theorem readWith_stamp (valuation : String → Nameless) (mark : Bool) (source : Option Int) (term : Term) :
    (term.stamp mark source).readWith valuation = term.readWith valuation := by
  induction term generalizing valuation with
  | var | hole => rfl
  | lam _ _ _ bodyHypothesis => simp only [stamp, readWith, bodyHypothesis]
  | app _ _ _ _ funcHypothesis argHypothesis => simp only [stamp, readWith, funcHypothesis, argHypothesis]

open Function (update)

/-- Below a binder that neither is the replaced name nor captures anything, the replacement is the same. -/
theorem enter_update {param name : String} {replacement : Term} (apart : param ≠ name)
    (uncaptured : param ∉ replacement.freeNames) (valuation : String → Nameless) :
    enter param (update valuation name (replacement.readWith valuation)) =
      update (enter param valuation) name (replacement.readWith (enter param valuation)) := by
  funext other
  rw [readWith_enter_of_not_mem uncaptured]
  by_cases here : other = name
  · subst here
    simp [enter, Ne.symm apart]
  · simp [enter, here]

/-- Substitution reads as an update of the valuation, whatever binders it has to rename. -/
theorem readWith_substitute (term : Term) (name : String) (replacement : Term) (mark : Bool) (source : Option Int)
    (valuation : String → Nameless) :
    (term.substitute name replacement mark source).readWith valuation =
      term.readWith (update valuation name (replacement.readWith valuation)) := by
  induction term using renamingInduction generalizing name replacement mark source valuation with
  | var other origin =>
    rw [substitute_var]
    split
    next same => simp [same, readWith, readWith_stamp]
    next apart => simp [readWith, apart]
  | lam param body origin bodyHypothesis renamedHypothesis =>
    rw [substitute_lam]
    split
    next same =>
      -- the binder hides the name, so the update is not seen in the body
      have hidden : enter param (update valuation name (replacement.readWith valuation)) =
          enter param valuation := by
        funext other
        by_cases here : other = param
        · simp [enter, here]
        · simp [enter, here, ← same]
      simp only [readWith, hidden]
    next apart =>
      split
      next captured =>
        obtain ⟨uncaptured, unused, ne⟩ := renamed_apart param body name replacement
        simp only [readWith, Nameless.lam.injEq]
        rw [renamedHypothesis, ← enter_update ne uncaptured, rename, bodyHypothesis]
        -- the two valuations differ only at the new name, which is not free in the body
        apply readWith_congr
        intro other member
        have foreign : other ≠ renamed param body name replacement := fun same => unused (same ▸ member)
        by_cases here : other = param
        · simp [here, readWith, enter]
        · simp [here, foreign, enter]
      next uncaptured => simp only [readWith, bodyHypothesis, enter_update apart uncaptured]
  | app func arg label origin funcHypothesis argHypothesis =>
    simp only [substitute_app, readWith, funcHypothesis, argHypothesis]
  | hole => rw [substitute_hole]; rfl

/-- Contraction reads as instantiation. -/
theorem readUnder_substitute (scope : List String) (body : Term) (param : String) (arg : Term) (mark : Bool)
    (source : Option Int) :
    (body.substitute param arg mark source).readUnder scope =
      (body.readUnder (param :: scope)).instantiate 0 (arg.readUnder scope) := by
  simp only [readUnder_eq_readWith, ofName_cons, readWith_substitute, ← readWith_instantiate]
  congr 1
  funext name
  by_cases same : name = param
  · simp [enter, same, Nameless.instantiate]
  · simp [enter, same, Nameless.instantiate_shift]

end Term

end BetaStepper
