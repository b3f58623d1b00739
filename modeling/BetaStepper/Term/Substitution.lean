import BetaStepper.Term.Basic

/-! # Capture-avoiding substitution

`Term.substitute` replaces the free occurrences of a name by stamped copies of a term. A binder that would capture
a free name of the replacement is renamed first, and that renaming is a substitution of its own into the body.

The renamed body is no subterm, so the recursion is on the number of nodes. The step that carries the argument is
that replacing a name by a single node keeps that number, which has to be known while substitution is being
defined: `substituteSized` gives the result together with this fact. -/

namespace BetaStepper

/-- The names without `name`. -/
def without (names : List String) (name : String) : List String := names.filter (· ≠ name)

theorem length_without_lt {names : List String} {name : String} (member : name ∈ names) :
    (without names name).length < names.length :=
  List.length_filter_lt_length_iff_exists.2 ⟨name, member, by simp⟩

/-- The name `base` with as many primes as it takes not to be in `avoid`. A name that is taken is shorter than all
that are tried after it, so it can be crossed off. -/
def freshName (base : String) (avoid : List String) : String :=
  if base ∈ avoid then freshName (base ++ "'") (without avoid base) else base
termination_by avoid.length
decreasing_by exact length_without_lt (by assumption)

/-- The provenance of a copy. A mark of an earlier substitution that names its redex is kept. -/
def Provenance.stamp (mark : Bool) (source : Option Int) (origin : Provenance) : Provenance :=
  if origin.marked && origin.source.isSome then origin
  else { marked := mark || origin.marked, source := source.or origin.source }

namespace Term

/-- A copy of the term with every node stamped. Labels are copied as they are. -/
def stamp (mark : Bool) (source : Option Int) : Term → Term
  | var name origin => var name (origin.stamp mark source)
  | lam param body origin => lam param (body.stamp mark source) (origin.stamp mark source)
  | app func arg label origin =>
    app (func.stamp mark source) (arg.stamp mark source) label (origin.stamp mark source)
  | hole => hole

@[simp] theorem size_stamp (mark : Bool) (source : Option Int) (term : Term) :
    (term.stamp mark source).size = term.size := by
  induction term with
  | var => rfl
  | lam _ _ _ bodyHypothesis => simp [stamp, size, bodyHypothesis]
  | app _ _ _ _ funcHypothesis argHypothesis => simp [stamp, size, funcHypothesis, argHypothesis]
  | hole => rfl

/-- The new name of a binder `param` that must not capture a free name of `replacement` when `name` is replaced
inside `body`. -/
def renamed (param : String) (body : Term) (name : String) (replacement : Term) : String :=
  freshName param (replacement.freeNames ++ body.freeNames ++ [name])

/-- Substitution together with the size of its result when the replacement is a single node. -/
def substituteSized (term : Term) (name : String) (replacement : Term) (mark : Bool) (source : Option Int) :
    { result : Term // replacement.size = 1 → result.size = term.size } :=
  match term with
  | var other origin =>
    if other = name then ⟨replacement.stamp mark source, fun single => by simp [single, size]⟩
    else ⟨var other origin, fun _ => rfl⟩
  | lam param body origin =>
    if param = name then ⟨lam param body origin, fun _ => rfl⟩
    else if param ∈ replacement.freeNames then
      let fresh := renamed param body name replacement
      let ⟨renamedBody, keepsSize⟩ := substituteSized body param (var fresh {}) false none
      have sameSize : renamedBody.size = body.size := keepsSize rfl
      let newBody := substituteSized renamedBody name replacement mark source
      ⟨lam fresh newBody.val origin, fun single => by simp [size, newBody.property single, sameSize]⟩
    else
      let newBody := substituteSized body name replacement mark source
      ⟨lam param newBody.val origin, fun single => by simp [size, newBody.property single]⟩
  | app func arg label origin =>
    let newFunc := substituteSized func name replacement mark source
    let newArg := substituteSized arg name replacement mark source
    ⟨app newFunc.val newArg.val label origin,
      fun single => by simp [size, newFunc.property single, newArg.property single]⟩
  | hole => ⟨hole, fun _ => rfl⟩
termination_by term.size
decreasing_by all_goals simp only [size]; omega

/-- The term with every free occurrence of `name` replaced by a stamped copy of `replacement`. -/
def substitute (term : Term) (name : String) (replacement : Term) (mark : Bool) (source : Option Int) : Term :=
  (term.substituteSized name replacement mark source).val

/-- Renaming the free occurrences of one name to another. -/
def rename (term : Term) (name fresh : String) : Term :=
  term.substitute name (var fresh {}) false none

@[simp] theorem size_rename (term : Term) (name fresh : String) : (term.rename name fresh).size = term.size :=
  (term.substituteSized name (var fresh {}) false none).property rfl

section Equations

variable (name : String) (replacement : Term) (mark : Bool) (source : Option Int)

theorem substitute_var (other : String) (origin : Provenance) :
    (var other origin).substitute name replacement mark source =
      if other = name then replacement.stamp mark source else var other origin := by
  rw [substitute, substituteSized]
  split <;> rfl

theorem substitute_lam (param : String) (body : Term) (origin : Provenance) :
    (lam param body origin).substitute name replacement mark source =
      if param = name then lam param body origin
      else if param ∈ replacement.freeNames then
        let fresh := renamed param body name replacement
        lam fresh ((body.rename param fresh).substitute name replacement mark source) origin
      else lam param (body.substitute name replacement mark source) origin := by
  rw [substitute, substituteSized]
  split
  · rfl
  · split <;> rfl

theorem substitute_app (func arg : Term) (label : Option Int) (origin : Provenance) :
    (app func arg label origin).substitute name replacement mark source =
      app (func.substitute name replacement mark source) (arg.substitute name replacement mark source)
        label origin := by
  rw [substitute, substituteSized]
  rfl

theorem substitute_hole : hole.substitute name replacement mark source = hole := by
  rw [substitute, substituteSized]

end Equations

/-- Whether substituting for `name` a term with the free names `captured` alters the term: an occurrence is
replaced, even by an equal node, or a binder is renamed. -/
def altered (name : String) (captured : List String) : Term → Bool
  | var other _ => other == name
  | lam param body _ => param != name && (decide (param ∈ captured) || body.altered name captured)
  | app func arg _ _ => func.altered name captured || arg.altered name captured
  | hole => false

/-- The binders that substitution renames, with their new names, in the order of renaming. -/
def renamings (term : Term) (name : String) (replacement : Term) : List (String × String) :=
  match term with
  | lam param body _ =>
    if param = name then []
    else if param ∈ replacement.freeNames then
      let fresh := renamed param body name replacement
      (param, fresh) :: (renamings body param (var fresh {}) ++ renamings (body.rename param fresh) name replacement)
    else renamings body name replacement
  | app func arg _ _ => renamings func name replacement ++ renamings arg name replacement
  | _ => []
termination_by term.size
decreasing_by all_goals simp only [size, size_rename]; omega

end Term

end BetaStepper
