import BetaStepper.Proofs.Numbering

/-! # A step is one step of β-reduction

The nameless reading does not see labels and provenance, so all that a step does before and after contracting is
invisible to it. What is left is to compare two enumerations of the redexes: the one on terms, which numbering
follows, and the one on nameless terms. `reducts_readUnder` matches them one by one. -/

namespace BetaStepper.Term

/-- The term itself is a redex exactly if its reading is, and contracting it reads as β-contraction. -/
theorem contractum?_readUnder (scope : List String) (source : Option Int) (func arg : Term) (label : Option Int)
    (origin : Provenance) :
    ((app func arg label origin).readUnder scope).contractum? =
      (app func arg label origin).redexHere?.map fun redex => (redex.contractum source).readUnder scope := by
  cases func with
  | lam param body binder =>
    simp [readUnder, Nameless.contractum?, redexHere?, Redex.contractum, readUnder_substitute]
  | var name _ =>
    simp only [readUnder, Nameless.ofName]
    split <;> rfl
  | app | hole => rfl

/-- Contracting the redexes of a term in pre-order reads as contracting those of its reading in pre-order. -/
theorem reducts_readUnder (scope : List String) (source : Option Int) (term : Term) :
    (term.readUnder scope).reducts =
      term.redexPlaces.map fun place =>
        (term.replaceAt place.path (place.redex.contractum source)).readUnder scope := by
  induction term generalizing scope with
  | var name _ =>
    simp only [readUnder, Nameless.ofName]
    split <;> rfl
  | lam param body _ bodyHypothesis =>
    simp only [readUnder, Nameless.reducts, bodyHypothesis, redexPlaces, List.map_map, Function.comp_def,
      Place.below_path, Place.below_redex, replaceAt]
  | app func arg label origin funcHypothesis argHypothesis =>
    have here := contractum?_readUnder scope source func arg label origin
    simp only [readUnder] at here
    simp only [readUnder, Nameless.reducts, here, funcHypothesis, argHypothesis, redexPlaces, List.map_append,
      List.map_map, Function.comp_def, Place.below_path, Place.below_redex, replaceAt, Option.toList_map]
  | hole => rfl

theorem length_reducts_nameless (term : Term) : term.nameless.reducts.length = term.redexCount := by
  rw [nameless, reducts_readUnder [] none, List.length_map, length_redexPlaces]

/-- The reading of a step is the reduct that the label counts. -/
theorem nameless_step_of_inRange {term : Term} {label : Int} (low : 1 ≤ label) (high : label ≤ term.redexCount) :
    term.nameless.reducts[(label - 1).toNat]? = some (term.step (some label)).nameless := by
  obtain ⟨place, position, _, stepped⟩ := step_of_inRange low high
  rw [← nameless_eq_of_bare_eq (bare_prepared term), nameless, reducts_readUnder [] (some label), List.getElem?_map,
    position, stepped, nameless_eq_of_bare_eq (bare_number _)]
  rfl

theorem beta_nameless_iff_step (term : Term) (reduct : Nameless) :
    term.nameless.Beta reduct ↔
      ∃ label : Int, 1 ≤ label ∧ label ≤ term.redexCount ∧ (term.step (some label)).nameless = reduct := by
  rw [← Nameless.mem_reducts_iff]
  constructor
  · intro member
    obtain ⟨position, found⟩ := List.getElem?_of_mem member
    have bound : position < term.redexCount := by
      rw [← length_reducts_nameless]
      exact (List.getElem?_eq_some_iff.1 found).1
    have low : (1 : Int) ≤ (position + 1 : Nat) := by omega
    have high : ((position + 1 : Nat) : Int) ≤ term.redexCount := by omega
    -- positions count from 0 and labels from 1
    refine ⟨(position + 1 : Nat), low, high, ?_⟩
    have counted := nameless_step_of_inRange low high
    have same : (((position + 1 : Nat) : Int) - 1).toNat = position := by omega
    rw [same, found, Option.some.injEq] at counted
    exact counted.symm
  · rintro ⟨label, low, high, rfl⟩
    exact List.mem_of_getElem? (nameless_step_of_inRange low high)

theorem isNormal_iff_no_beta (term : Term) : term.isNormal = true ↔ ∀ reduct, ¬ term.nameless.Beta reduct := by
  rw [isNormal, beq_iff_eq, ← length_reducts_nameless, List.length_eq_zero_iff, List.eq_nil_iff_forall_not_mem]
  simp only [Nameless.mem_reducts_iff]

/-- A step contracts the redex that its label counts in pre-order, and with any other label it changes nothing but
labels and provenance. So the steps of a term are its one-step reducts, and a term without a step is normal. -/
theorem step_is_one_beta_step (term : Term) :
    (∀ label : Int, 1 ≤ label ∧ label ≤ term.redexCount →
      term.nameless.reducts[(label - 1).toNat]? = some (term.step (some label)).nameless) ∧
    (∀ label : Int, ¬ (1 ≤ label ∧ label ≤ term.redexCount) → (term.step (some label)).bare = term.bare) ∧
    (∀ reduct : Nameless, term.nameless.Beta reduct ↔
      ∃ label : Int, 1 ≤ label ∧ label ≤ term.redexCount ∧ (term.step (some label)).nameless = reduct) ∧
    (term.isNormal = true ↔ ∀ reduct, ¬ term.nameless.Beta reduct) := by
  refine ⟨?_, ?_, beta_nameless_iff_step term, isNormal_iff_no_beta term⟩
  · rintro label ⟨low, high⟩
    exact nameless_step_of_inRange low high
  · intro label outside
    rw [step_of_outOfRange outside, bare_prepared]

end BetaStepper.Term
