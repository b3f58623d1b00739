import BetaStepper.Term.Substitution

/-! # Renaming binders

What the new name of a renamed binder is apart from, and the induction that substitution calls for. A renamed body is
no subterm, so a fact about substitution is proved for a body together with all its renamings:
`renamingInduction` says so once, and no later proof has to count nodes. -/

namespace BetaStepper

/-! ## Fresh names -/

/-- Priming only makes a name longer. -/
theorem length_le_freshName (base : String) (avoid : List String) :
    base.length ≤ (freshName base avoid).length := by
  fun_induction freshName base avoid with
  | case1 base avoid taken primedHypothesis =>
    have longer : base.length ≤ (base ++ "'").length := by simp
    exact Nat.le_trans longer primedHypothesis
  | case2 base avoid free => exact Nat.le_refl _

theorem freshName_not_mem (base : String) (avoid : List String) : freshName base avoid ∉ avoid := by
  fun_induction freshName base avoid with
  | case1 base avoid taken primedHypothesis =>
    intro member
    -- the only name crossed off is `base`, and every later candidate is longer than it
    have longer := length_le_freshName (base ++ "'") (without avoid base)
    have apart : freshName (base ++ "'") (without avoid base) ≠ base := by
      intro same
      rw [same, String.length_append] at longer
      have single : "'".length = 1 := rfl
      omega
    exact primedHypothesis (List.mem_filter.2 ⟨member, by simpa using apart⟩)
  | case2 base avoid free => exact free

/-- The name with `count` primes added. -/
def primed (name : String) (count : Nat) : String := name ++ String.ofList (List.replicate count '\x27')

@[simp] theorem primed_zero (name : String) : primed name 0 = name := String.append_empty

theorem primed_primed (name : String) (count more : Nat) :
    primed (primed name count) more = primed name (count + more) := by
  rw [primed, primed, primed, String.append_assoc, ← String.ofList_append, List.replicate_append_replicate]

theorem length_primed (name : String) (count : Nat) : (primed name count).length = name.length + count := by
  rw [primed, String.length_append, String.length_ofList, List.length_replicate]

theorem primed_append_prime (name : String) (count : Nat) : primed (name ++ "'") count = primed name (count + 1) := by
  have once : name ++ "'" = primed name 1 := rfl
  rw [once, primed_primed, Nat.add_comm]

/-- The names tried from `base` on are `base` and the names tried from its primed form on. -/
theorem tried_succ_iff {base : String} {avoid : List String} {count : Nat} :
    (∀ fewer < count + 1, primed base fewer ∈ avoid) ↔
      base ∈ avoid ∧ ∀ fewer < count, primed (base ++ "'") fewer ∈ avoid := by
  simp only [Nat.forall_lt_succ_left, primed_zero, primed_append_prime]

theorem freshName_eq_primed (base : String) (avoid : List String) :
    ∃ count, freshName base avoid = primed base count ∧ ∀ fewer < count, primed base fewer ∈ avoid := by
  fun_induction freshName base avoid with
  | case1 base avoid taken primedHypothesis =>
    obtain ⟨count, same, tried⟩ := primedHypothesis
    refine ⟨count + 1, by rw [same, primed_append_prime], tried_succ_iff.2 ⟨taken, ?_⟩⟩
    intro fewer less
    exact (List.mem_filter.1 (tried fewer less)).1
  | case2 base avoid free => exact ⟨0, (primed_zero base).symm, by simp⟩

namespace Term

/-! ## Free names -/

@[simp] theorem mem_freeNames_var {name other : String} {origin : Provenance} :
    name ∈ (var other origin).freeNames ↔ name = other := by
  simp [freeNames]

@[simp] theorem mem_freeNames_lam {name param : String} {body : Term} {origin : Provenance} :
    name ∈ (lam param body origin).freeNames ↔ name ∈ body.freeNames ∧ name ≠ param := by
  simp [freeNames]

@[simp] theorem mem_freeNames_app {name : String} {func arg : Term} {label : Option Int} {origin : Provenance} :
    name ∈ (app func arg label origin).freeNames ↔ name ∈ func.freeNames ∨ name ∈ arg.freeNames := by
  simp only [freeNames, List.mem_append, List.mem_filter, decide_eq_true_eq]
  by_cases inFunc : name ∈ func.freeNames
  · simp [inFunc]
  · simp [inFunc]

@[simp] theorem not_mem_freeNames_hole {name : String} : name ∉ hole.freeNames := by
  simp [freeNames]

theorem freeNames_stamp (mark : Bool) (source : Option Int) (term : Term) :
    (term.stamp mark source).freeNames = term.freeNames := by
  induction term with
  | var | hole => rfl
  | lam _ _ _ bodyHypothesis => simp [stamp, freeNames, bodyHypothesis]
  | app _ _ _ _ funcHypothesis argHypothesis => simp [stamp, freeNames, funcHypothesis, argHypothesis]

/-- The new name of a renamed binder is apart from all that it could capture or be confused with. -/
theorem renamed_apart (param : String) (body : Term) (name : String) (replacement : Term) :
    renamed param body name replacement ∉ replacement.freeNames ∧
      renamed param body name replacement ∉ body.freeNames ∧
      renamed param body name replacement ≠ name := by
  have apart := freshName_not_mem param (replacement.freeNames ++ body.freeNames ++ [name])
  simp only [List.mem_append, List.mem_singleton, not_or] at apart
  exact ⟨apart.1.1, apart.1.2, apart.2⟩

/-- Induction on terms in which the body of an abstraction may be renamed first. -/
@[elab_as_elim] theorem renamingInduction {motive : Term → Prop}
    (var : ∀ name origin, motive (var name origin))
    (lam : ∀ param body origin, motive body → (∀ name fresh, motive (body.rename name fresh)) →
      motive (lam param body origin))
    (app : ∀ func arg label origin, motive func → motive arg → motive (app func arg label origin))
    (hole : motive hole) (term : Term) : motive term := by
  match term with
  | .var name origin => exact var name origin
  | .lam param body origin =>
    apply lam param body origin
    · exact renamingInduction var lam app hole body
    · intro name fresh
      exact renamingInduction var lam app hole (body.rename name fresh)
  | .app func arg label origin =>
    apply app func arg label origin
    · exact renamingInduction var lam app hole func
    · exact renamingInduction var lam app hole arg
  | .hole => exact hole
termination_by term.size
decreasing_by all_goals simp only [size, size_rename]; omega

end Term

end BetaStepper
