import BetaStepper.Proofs.Footprint

/-! # Substitution for a name that is not free

Such a substitution has nothing to replace, but it may still rename: a binder is renamed whenever its parameter is free
in the replacement, before it is known whether the name occurs below it. So the term comes back as it was exactly if no
binder that substitution enters has such a parameter, and otherwise with other bound names. -/

namespace BetaStepper.Term

/-- The parameters of the abstractions that substitution for `name` enters. Below a binder of the name there is nothing
to replace, and it goes no further. -/
def enteredBinders (name : String) : Term → List String
  | var _ _ => []
  | lam param body _ => if param = name then [] else param :: body.enteredBinders name
  | app func arg _ _ => func.enteredBinders name ++ arg.enteredBinders name
  | hole => []

theorem occursFree_iff (name : String) (term : Term) : term.occursFree name = true ↔ name ∈ term.freeNames := by
  induction term with
  | var other _ =>
    rw [occursFree, beq_iff_eq, mem_freeNames_var]
    exact eq_comm
  | lam param body _ bodyHypothesis =>
    rw [occursFree, Bool.and_eq_true, bne_iff_ne, bodyHypothesis, mem_freeNames_lam, and_comm]
    exact and_congr_right fun _ => ne_comm
  | app func arg _ _ funcHypothesis argHypothesis => simp [occursFree, funcHypothesis, argHypothesis]
  | hole => simp [occursFree]

/-- Substitution alters a term for two reasons: the name is free in it, or a binder on the way is renamed. -/
theorem altered_iff (name : String) (captured : List String) (term : Term) :
    term.altered name captured = true ↔
      name ∈ term.freeNames ∨ ∃ param ∈ term.enteredBinders name, param ∈ captured := by
  induction term with
  | var other _ =>
    rw [altered, beq_iff_eq, mem_freeNames_var]
    simp [enteredBinders, eq_comm]
  | lam param body _ bodyHypothesis =>
    by_cases same : param = name
    · simp [altered, enteredBinders, same]
    · simp only [altered, enteredBinders, same, bodyHypothesis, Bool.and_eq_true, Bool.or_eq_true, bne_iff_ne, ne_eq,
        not_false_iff, true_and, decide_eq_true_eq, if_false, mem_freeNames_lam, List.mem_cons, exists_eq_or_imp]
      rw [and_iff_left (Ne.symm same), or_left_comm]
  | app func arg _ _ funcHypothesis argHypothesis =>
    simp only [altered, enteredBinders, funcHypothesis, argHypothesis, Bool.or_eq_true, mem_freeNames_app,
      List.mem_append, or_and_right, exists_or]
    rw [or_or_or_comm]
  | hole => simp [altered, enteredBinders]

/-- What is not altered comes back as it was. -/
theorem substitute_of_not_altered {name : String} {term replacement : Term}
    (unaltered : term.altered name replacement.freeNames = false) (mark : Bool) (source : Option Int) :
    term.substitute name replacement mark source = term := by
  induction term with
  | var other _ =>
    rw [substitute_var, if_neg (by simpa [altered] using unaltered)]
  | lam param body _ bodyHypothesis =>
    rw [substitute_lam]
    split
    · rfl
    next apart =>
      simp only [altered, bne_iff_ne.2 apart, Bool.true_and, Bool.or_eq_false_iff, decide_eq_false_iff_not] at unaltered
      rw [if_neg unaltered.1, bodyHypothesis unaltered.2]
  | app func arg _ _ funcHypothesis argHypothesis =>
    rw [altered, Bool.or_eq_false_iff] at unaltered
    rw [substitute_app, funcHypothesis unaltered.1, argHypothesis unaltered.2]
  | hole => rw [substitute_hole]

/-- A binder whose parameter is free in the replacement never keeps it. -/
theorem substitute_ne_of_captured {name : String} {term replacement : Term} {param : String}
    (entered : param ∈ term.enteredBinders name) (captured : param ∈ replacement.freeNames) (mark : Bool)
    (source : Option Int) : term.substitute name replacement mark source ≠ term := by
  induction term with
  | var | hole => cases entered
  | lam own body _ bodyHypothesis =>
    rw [enteredBinders] at entered
    split at entered
    · cases entered
    next apart =>
      rw [substitute_lam, if_neg apart]
      split
      next ownCaptured =>
        -- this binder is renamed itself, whatever happens further in
        obtain ⟨foreign, _, _⟩ := renamed_apart own body name replacement
        intro same
        rw [lam.injEq] at same
        rw [same.1] at foreign
        exact foreign ownCaptured
      next spared =>
        have inBody : param ∈ body.enteredBinders name := by
          rcases List.mem_cons.1 entered with rfl | inBody
          · exact absurd captured spared
          · exact inBody
        intro same
        rw [lam.injEq] at same
        exact bodyHypothesis inBody same.2.1
  | app func arg _ _ funcHypothesis argHypothesis =>
    rw [substitute_app]
    intro same
    rw [app.injEq] at same
    rcases List.mem_append.1 entered with inFunc | inArg
    · exact funcHypothesis inFunc same.1
    · exact argHypothesis inArg same.2.1

theorem nameless_substitute_of_not_mem {name : String} {term : Term} (absent : name ∉ term.freeNames)
    (replacement : Term) (mark : Bool) (source : Option Int) :
    (term.substitute name replacement mark source).nameless = term.nameless := by
  rw [nameless, nameless, readUnder_eq_readWith, readUnder_eq_readWith, readWith_substitute]
  apply readWith_congr
  intro other member
  have apart : other ≠ name := fun same => absent (same ▸ member)
  rw [Function.update_of_ne apart]

/-- Where a name is not free, substituting for it at most renames binders: the result has the same reading, and it is
the term itself, unaltered, exactly if no binder that substitution enters has a parameter that is free in the
replacement. The same holds of contracting a redex whose parameter is not used. Only the nesting limit can keep
substitution from giving its result. -/
theorem idle_substitution_only_renames {term : Term} {name : String} (absent : name ∉ term.freeNames)
    (replacement : Term) (mark : Bool) (source : Option Int) :
    let result := term.substitute name replacement mark source
    let clash := ∃ param ∈ term.enteredBinders name, param ∈ replacement.freeNames
    result.nameless = term.nameless ∧
    (term.altered name replacement.freeNames = false ↔ ¬ clash) ∧
    (result = term ↔ ¬ clash) ∧
    (∀ redex : Redex, redex.param = name → redex.body = term → redex.arg = replacement →
      redex.usesArgument = false ∧ (redex.contractum source = redex.body ↔ ¬ clash)) ∧
    (term.complete = true → replacement.complete = true → term.nesting + replacement.nesting ≤ nestingLimit →
      Guarded.substitute term name replacement mark source = .ok result) := by
  intro result clash
  have unaltered : term.altered name replacement.freeNames = false ↔ ¬ clash := by
    rw [← Bool.not_eq_true, altered_iff, or_iff_right absent]
  have kept (mark : Bool) : term.substitute name replacement mark source = term ↔ ¬ clash := by
    constructor
    · rintro same ⟨param, entered, captured⟩
      exact substitute_ne_of_captured entered captured mark source same
    · intro spared
      exact substitute_of_not_altered (unaltered.2 spared) mark source
  refine ⟨nameless_substitute_of_not_mem absent replacement mark source, unaltered, kept mark, ?_, ?_⟩
  · rintro redex rfl rfl rfl
    refine ⟨?_, kept true⟩
    rw [Redex.usesArgument, ← Bool.not_eq_true, occursFree_iff]
    exact absent
  · intro complete completeReplacement shallow
    exact Guarded.substitute_of_shallow complete completeReplacement shallow name mark source

/-- The term `λy.y z`. -/
def wrapper : Term := lam "y" (app (var "y" {}) (var "z" {}) none {}) {}

theorem wrapper_is_kept_or_renamed :
    "x" ∉ wrapper.freeNames ∧ wrapper.substitute "x" (var "w" {}) true (some 1) = wrapper ∧
      wrapper.substitute "x" (var "y" {}) true (some 1) ≠ wrapper := by
  have absent : "x" ∉ wrapper.freeNames := by decide
  obtain ⟨_, _, kept, _⟩ := idle_substitution_only_renames absent (var "w" {}) true (some 1)
  obtain ⟨_, _, renamed, _⟩ := idle_substitution_only_renames absent (var "y" {}) true (some 1)
  exact ⟨absent, kept.2 (by decide), fun same => renamed.1 same (by decide)⟩

/-- The redex `(λx.λy.y) y`. -/
def discarding : Redex where
  param := "x"
  body := lam "y" (var "y" {}) {}
  binder := {}
  arg := var "y" {}
  label := some 1
  origin := {}

/-- A body can be renamed although the parameter is not used in it: `(λx.λy.y) y` contracts to `λy'.y'`. -/
theorem discarding_renames_body :
    "x" ∉ discarding.body.freeNames ∧ discarding.usesArgument = false ∧
      discarding.body.altered "x" discarding.arg.freeNames = true ∧
      discarding.body.substitute "x" discarding.arg true (some 1) = lam "y'" (var "y'" {}) {} ∧
      discarding.contractum (some 1) ≠ discarding.body := by
  decide +kernel

end BetaStepper.Term
