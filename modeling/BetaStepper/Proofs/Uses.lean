import BetaStepper.Proofs.Places

/-! # Where a name is used

The free occurrences of a name as places, in the order of `uses`. Substituting for another name leaves them where they
are, even if binders on the way are renamed: that is `usePaths_substitute`. -/

namespace BetaStepper.Term

/-- The paths to the free occurrences of `name`, from left to right. -/
def usePaths (name : String) : Term → List Path
  | var other _ => if other = name then [[]] else []
  | lam param body _ => if param = name then [] else (body.usePaths name).map (.body :: ·)
  | app func arg _ _ => (func.usePaths name).map (.func :: ·) ++ (arg.usePaths name).map (.arg :: ·)
  | hole => []

theorem map_uses (name : String) (term : Term) : (term.uses name).map some = (term.usePaths name).map term.at? := by
  induction term with
  | var other origin =>
    rw [uses, usePaths]
    split <;> simp
  | lam param body _ bodyHypothesis =>
    rw [uses, usePaths]
    split
    · rfl
    · rw [bodyHypothesis, List.map_map]
      rfl
  | app func arg _ _ funcHypothesis argHypothesis =>
    rw [uses, usePaths, List.map_append, List.map_append, funcHypothesis, argHypothesis, List.map_map, List.map_map]
    rfl
  | hole => rfl

theorem occursFree_eq (name : String) (term : Term) : term.occursFree name = !(term.uses name).isEmpty := by
  induction term with
  | var other _ =>
    by_cases same : other = name <;> simp [occursFree, uses, same]
  | lam param body _ bodyHypothesis =>
    by_cases same : param = name <;> simp [occursFree, uses, same, bodyHypothesis]
  | app func arg _ _ funcHypothesis argHypothesis =>
    rw [occursFree, uses, funcHypothesis, argHypothesis]
    cases func.uses name <;> simp
  | hole => rfl

theorem usePaths_of_not_mem {name : String} {term : Term} (absent : name ∉ term.freeNames) :
    term.usePaths name = [] := by
  induction term with
  | var other _ =>
    have apart : other ≠ name := fun same => absent (by simp [same])
    simp [usePaths, apart]
  | lam param body _ bodyHypothesis =>
    rw [usePaths]
    split
    · rfl
    next apart =>
      have absentBody : name ∉ body.freeNames := fun member => absent (by simp [member, Ne.symm apart])
      rw [bodyHypothesis absentBody, List.map_nil]
  | app _ _ _ _ funcHypothesis argHypothesis =>
    simp only [mem_freeNames_app, not_or] at absent
    rw [usePaths, funcHypothesis absent.1, argHypothesis absent.2]
    rfl
  | hole => rfl

theorem usePaths_bare (name : String) (term : Term) : term.bare.usePaths name = term.usePaths name := by
  induction term with
  | var | hole => rfl
  | lam _ _ _ bodyHypothesis => simp only [bare, usePaths, bodyHypothesis]
  | app _ _ _ _ funcHypothesis argHypothesis => simp only [bare, usePaths, funcHypothesis, argHypothesis]

theorem usePaths_eq_of_bare_eq {term other : Term} (same : term.bare = other.bare) (name : String) :
    term.usePaths name = other.usePaths name := by
  rw [← usePaths_bare name term, same, usePaths_bare]

theorem usePaths_substitute {name replaced : String} {replacement : Term} (apart : name ≠ replaced)
    (foreign : name ∉ replacement.freeNames) (term : Term) (mark : Bool) (source : Option Int) :
    (term.substitute replaced replacement mark source).usePaths name = term.usePaths name := by
  induction term using renamingInduction generalizing replaced replacement mark source with
  | var other origin =>
    rw [substitute_var]
    split
    next same =>
      have absent : name ∉ (replacement.stamp mark source).freeNames := by rwa [freeNames_stamp]
      rw [usePaths_of_not_mem absent, usePaths, if_neg (same ▸ Ne.symm apart)]
    · rfl
  | lam param body origin bodyHypothesis renamedHypothesis =>
    rw [substitute_lam]
    split
    · rfl
    · split
      next captured =>
        have paramApart : param ≠ name := fun same => foreign (same ▸ captured)
        obtain ⟨_, unused, _⟩ := renamed_apart param body replaced replacement
        by_cases reused : renamed param body replaced replacement = name
        · -- the new name hides `name`, but then `name` was not free in the body
          rw [reused] at unused
          simp [usePaths, reused, usePaths_of_not_mem unused]
        · have kept : (body.rename param (renamed param body replaced replacement)).usePaths name =
              body.usePaths name :=
            bodyHypothesis (Ne.symm paramApart) (by simpa using Ne.symm reused) false none
          simp only [usePaths, reused, paramApart, if_false, renamedHypothesis _ _ apart foreign, kept]
      · simp only [usePaths, bodyHypothesis apart foreign]
  | app func arg label origin funcHypothesis argHypothesis =>
    simp only [substitute_app, usePaths, funcHypothesis apart foreign, argHypothesis apart foreign]
  | hole => rw [substitute_hole]

theorem usePaths_rename {name param fresh : String} (apart : name ≠ param) (foreign : name ≠ fresh) (body : Term) :
    (body.rename param fresh).usePaths name = body.usePaths name :=
  usePaths_substitute apart (by simpa using foreign) body false none

end BetaStepper.Term
